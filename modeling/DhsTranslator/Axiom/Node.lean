import Mathlib.Data.List.Basic

/-!
# Request trees and pointers into them

The tree interface the decoder uses: `AxiomNode` is a parsed message, `NodePtr` a pointer to a node of it, and
`NodeRef` a pointer that may be `NULL`. A navigation function given `NULL` ends the process (`Abort.nullNode`); an
exception (`Abort.exception`) can be caught.

- `forSiblings` is the loop `for (n = first; n != NULL; n = axiom_node_get_next_sibling(n))` (`forSiblings_some`);
- `forSiblings_firstChild`: over the children of a node, the loop is `forIn` over the pointers to them, and over the
  list of children where the body only reads the node it is at (`forSiblings_children`);
- `axiomUtilGetNodeByLocalName` is the first element with the name at or below a node, in document order.
-/

namespace DhsTranslator

/-! ## Trees -/

/-- `axutil_qname_t`. -/
structure QName where
  localPart : String
  uri : String
  pfx : String
  deriving DecidableEq, Repr

/-- `axiom_attribute_t`. -/
structure AxiomAttribute where
  qname : QName
  value : String
  deriving DecidableEq, Repr

/-- `axiom_namespace_t`. -/
structure AxiomNamespace where
  uri : String
  pfx : String
  deriving DecidableEq, Repr

/-- A node of a message with everything below it. -/
inductive AxiomNode where
  | element (localname : String) (ns : Option AxiomNamespace) (attributes : List AxiomAttribute)
      (children : List AxiomNode)
  | text (value : String)
  | comment (value : String)
  | processingInstruction (target value : String)
  deriving Repr

/-- `axiom_types_t`. -/
inductive AxiomTypes where
  | ELEMENT
  | TEXT
  | COMMENT
  | PROCESSING_INSTRUCTION
  deriving DecidableEq, Repr

namespace AxiomNode

def nodeType : AxiomNode → AxiomTypes
  | element .. => .ELEMENT
  | text _ => .TEXT
  | comment _ => .COMMENT
  | processingInstruction .. => .PROCESSING_INSTRUCTION

def children : AxiomNode → List AxiomNode
  | element _ _ _ cs => cs
  | _ => []

/-- The local name of an element. -/
def localname? : AxiomNode → Option String
  | element n _ _ _ => some n
  | _ => none

/-- The node is an element with this local name. -/
def IsNamed (n : AxiomNode) (name : String) : Prop := n.localname? = some name

instance (n : AxiomNode) (name : String) : Decidable (n.IsNamed name) :=
  inferInstanceAs (Decidable (n.localname? = some name))

theorem IsNamed.eq_element {n : AxiomNode} {name : String} (h : n.IsNamed name) :
    ∃ ns attrs cs, n = .element name ns attrs cs := by
  cases n with
  | element m ns attrs cs => obtain rfl := Option.some.inj h; exact ⟨ns, attrs, cs, rfl⟩
  | _ => cases h

/-- A node has at most one name. -/
theorem IsNamed.unique {n : AxiomNode} {a b : String} (ha : n.IsNamed a) (hb : n.IsNamed b) : a = b :=
  Option.some.inj (ha.symm.trans hb)

end AxiomNode

/-! ## Pointers -/

/-- A pointer to a node: the node, the siblings after it, and the same for each of its ancestors. -/
structure NodePtr where
  node : AxiomNode
  next : List AxiomNode
  up : List (AxiomNode × List AxiomNode)

/-- A pointer that may be `NULL`. -/
abbrev NodeRef := Option NodePtr

/-- The pointer to the root of a tree. -/
def NodePtr.root (n : AxiomNode) : NodePtr := ⟨n, [], []⟩

def NodePtr.firstChild (p : NodePtr) : NodeRef :=
  match p.node.children with
  | [] => none
  | c :: cs => some ⟨c, cs, (p.node, p.next) :: p.up⟩

def NodePtr.nextSibling (p : NodePtr) : NodeRef :=
  match p.next with
  | [] => none
  | c :: cs => some ⟨c, cs, p.up⟩

def NodePtr.parent (p : NodePtr) : NodeRef :=
  match p.up with
  | [] => none
  | (n, ns) :: up => some ⟨n, ns, up⟩

/-- The functions that read through their node argument. -/
inductive NodeFn where
  | getNodeType
  | getDataElement
  | getFirstChild
  | getNextSibling
  | getParent
  deriving DecidableEq, Repr

/-- How a computation can end without a result. -/
inductive Abort where
  /-- a `NULL` node was passed to the function: the process is gone -/
  | nullNode (fn : NodeFn)
  /-- an exception -/
  | exception (what : String)
  deriving DecidableEq, Repr

/-- Read through a pointer. -/
def deref {α : Type} (fn : NodeFn) (f : NodePtr → α) : NodeRef → Except Abort α
  | none => .error (.nullNode fn)
  | some p => .ok (f p)

def axiomNodeGetNodeType : NodeRef → Except Abort AxiomTypes := deref .getNodeType (·.node.nodeType)

def axiomNodeGetDataElement : NodeRef → Except Abort AxiomNode := deref .getDataElement (·.node)

def axiomNodeGetFirstChild : NodeRef → Except Abort NodeRef := deref .getFirstChild NodePtr.firstChild

def axiomNodeGetNextSibling : NodeRef → Except Abort NodeRef := deref .getNextSibling NodePtr.nextSibling

def axiomNodeGetParent : NodeRef → Except Abort NodeRef := deref .getParent NodePtr.parent

/-- Of the data of an element. -/
def axiomElementGetLocalname (e : AxiomNode) : String := e.localname?.getD ""

/-- Of the data of an element. -/
def axiomElementGetAttribute (e : AxiomNode) (qname : QName) : Option AxiomAttribute :=
  match e with
  | .element _ _ attrs _ => attrs.find? (·.qname == qname)
  | _ => none

/-- Of the data of a text node. -/
def axiomTextGetValue : AxiomNode → String
  | .text v => v
  | _ => ""

@[simp] theorem deref_some {α : Type} (fn : NodeFn) (f : NodePtr → α) (p : NodePtr) :
    deref fn f (some p) = .ok (f p) := rfl

/-- The first child of a node points back to it. -/
theorem parent_of_firstChild {p c : NodePtr} (h : p.firstChild = some c) : c.parent = some p := by
  unfold NodePtr.firstChild at h
  split at h
  · cases h
  · cases h; rfl

theorem firstChild_eq_none {p : NodePtr} : p.firstChild = none ↔ p.node.children = [] := by
  unfold NodePtr.firstChild
  split <;> simp_all

/-! ## Loops over siblings -/

section Loop

variable {β : Type}

/-- The loop from the node `n` with the siblings `ns` after it; `.done` leaves the loop. -/
def loopFrom (up : List (AxiomNode × List AxiomNode)) (body : NodePtr → β → Except Abort (ForInStep β)) :
    AxiomNode → List AxiomNode → β → Except Abort β
  | n, [], b => do
    match ← body ⟨n, [], up⟩ b with
    | .done b' => return b'
    | .yield b' => return b'
  | n, m :: ns, b => do
    match ← body ⟨n, m :: ns, up⟩ b with
    | .done b' => return b'
    | .yield b' => loopFrom up body m ns b'

/-- `for (n = first; n != NULL; n = axiom_node_get_next_sibling(n))`. -/
def forSiblings (first : NodeRef) (b : β) (body : NodePtr → β → Except Abort (ForInStep β)) : Except Abort β :=
  match first with
  | none => return b
  | some p => loopFrom p.up body p.node p.next b

/-- One round of the loop. -/
theorem forSiblings_some (p : NodePtr) (b : β) (body : NodePtr → β → Except Abort (ForInStep β)) :
    forSiblings (some p) b body = (do
      match ← body p b with
      | .done b' => return b'
      | .yield b' => forSiblings (← axiomNodeGetNextSibling (some p)) b' body) := by
  obtain ⟨n, ns, up⟩ := p
  cases ns <;> rfl

/-- The pointers to siblings. -/
def siblings (up : List (AxiomNode × List AxiomNode)) : List AxiomNode → List NodePtr
  | [] => []
  | n :: ns => ⟨n, ns, up⟩ :: siblings up ns

/-- The pointers to the children of a node. -/
def NodePtr.children (p : NodePtr) : List NodePtr := siblings ((p.node, p.next) :: p.up) p.node.children

/-- The loop over the siblings from a node on, for any body. -/
theorem forSiblings_siblings (up : List (AxiomNode × List AxiomNode)) (body : NodePtr → β → Except Abort (ForInStep β))
    (n : AxiomNode) (ns : List AxiomNode) (b : β) :
    forSiblings (some ⟨n, ns, up⟩) b body = forIn (siblings up (n :: ns)) b body := by
  induction ns generalizing n b with
  | nil =>
    rw [forSiblings_some, siblings, List.forIn_cons]
    rfl
  | cons m ns ih =>
    rw [forSiblings_some, siblings, List.forIn_cons]
    congr 1; funext s
    cases s with
    | done b' => rfl
    | yield b' => exact ih m b'

/-- The loop over the children of a node. -/
theorem forSiblings_firstChild (p : NodePtr) (b : β) (body : NodePtr → β → Except Abort (ForInStep β)) :
    forSiblings p.firstChild b body = forIn p.children b body := by
  unfold NodePtr.firstChild NodePtr.children
  cases p.node.children with
  | nil => rfl
  | cons c cs => exact forSiblings_siblings _ body c cs b

theorem siblings_node (up : List (AxiomNode × List AxiomNode)) (ns : List AxiomNode) :
    (siblings up ns).map NodePtr.node = ns := by
  induction ns with
  | nil => rfl
  | cons n ns ih => exact congrArg (n :: ·) ih

/-- **Loops over children**: a body that only reads the node it is at loops over the list of children. -/
theorem forSiblings_children {body : NodePtr → β → Except Abort (ForInStep β)}
    {body' : AxiomNode → β → Except Abort (ForInStep β)} (h : ∀ q b, body q b = body' q.node b)
    (p : NodePtr) (b : β) : forSiblings p.firstChild b body = forIn p.node.children b body' := by
  obtain rfl : body = fun q b => body' q.node b := funext fun q => funext fun b => h q b
  have hnodes : p.children.map NodePtr.node = p.node.children := siblings_node _ _
  rw [forSiblings_firstChild, ← hnodes, List.forIn_map]

end Loop

/-! ## Search by local name -/

mutual

/-- The first element with the name at or below a node, in document order. -/
def getByName (name : String) : AxiomNode → List AxiomNode → List (AxiomNode × List AxiomNode) → NodeRef
  | .element n ns attrs cs, next, up =>
    if n = name then some ⟨.element n ns attrs cs, next, up⟩
    else getByNameList name cs ((.element n ns attrs cs, next) :: up)
  | .text _, _, _ => none
  | .comment _, _, _ => none
  | .processingInstruction _ _, _, _ => none

/-- The same for a list of siblings. -/
def getByNameList (name : String) : List AxiomNode → List (AxiomNode × List AxiomNode) → NodeRef
  | [], _ => none
  | c :: cs, up =>
    match getByName name c cs up with
    | some p => some p
    | none => getByNameList name cs up

end

/-- `axiom_util_get_node_by_local_name`. -/
def axiomUtilGetNodeByLocalName (node : NodeRef) (name : String) : NodeRef :=
  match node with
  | none => none
  | some p => getByName name p.node p.next p.up

end DhsTranslator
