import DhsTranslator.Stream

/-!
# Decoding requests

The readers of `DhsService.h` and the loops of `DhsService.cpp` over the children of a request.

- `parseVal` reads a value of a given type from a node; for a keyword it steps back to the parent of the node;
- `parseArrayNode` fills a vector from the items of an array node;
- `decodeParameters`, `decodeKeywords` fold the children of a request into the local variables of the operation.
-/

namespace DhsTranslator

/-! ## Values -/

/-- The text of a text node: the test the scalar readers share. -/
def textValue (node : NodeRef) : Except Abort (Option String) := do
  if node.isSome then
    if (← axiomNodeGetNodeType node) = .TEXT then
      return some (axiomTextGetValue (← axiomNodeGetDataElement node))
  return none

/-- `DhsService::parseVal<T>`. -/
class ParseVal (T : Type) where
  parseVal : Env → NodeRef → Except Abort (Option T)

export ParseVal (parseVal)

instance {T : Type} [ReadText T] : ParseVal T where
  parseVal env node := do
    match ← textValue node with
    | some value => return ReadText.readText env value
    | none => return none

instance : ParseVal NodePtr where
  parseVal _ node := return node

/-- `DhsService::translateLifetime`. -/
def translateLifetime : Option String → Option DhsBdLifetime
  | some "PERMANENT" => some .PERMANENT
  | some "TEMPORARY" => some .TEMPORARY
  | some "TRANSIENT" => some .TRANSIENT
  | _ => none

/-- `DhsService::translateType`. -/
def translateType : Option String → Option DhsDataType
  | some "INT8" => some .INT8
  | some "INT16" => some .INT16
  | some "INT32" => some .INT32
  | some "UINT8" => some .UINT8
  | some "UINT16" => some .UINT16
  | some "UINT32" => some .UINT32
  | some "DOUBLE" => some .DOUBLE
  | some "FLOAT" => some .FLOAT
  | some "BOOLEAN" => some .BOOLEAN
  | some "STRING" => some .STRING
  | _ => none

/-- `DhsService::buildKeyword<T>`. -/
def buildKeyword (T : Type) [KeywordType T] [ParseVal T] (name : String) (env : Env) (node : NodeRef) :
    Except Abort (Option Keyword) := do
  let valNode := axiomUtilGetNodeByLocalName node "value"
  if valNode.isSome then
    let optVal : Option T ← parseVal env (← axiomNodeGetFirstChild valNode)
    match optVal with
    | some val => return some (Keyword.of name val)
    | none => return none
  return none

/-- The switch over the type of a keyword. -/
def buildKeywordOf (type : DhsDataType) (name : String) (env : Env) (node : NodeRef) : Except Abort (Option Keyword) :=
  match type with
  | .UINT8 => buildKeyword UInt8 name env node
  | .UINT16 => buildKeyword UInt16 name env node
  | .UINT32 => buildKeyword UInt32 name env node
  | .INT8 => buildKeyword Int8 name env node
  | .INT16 => buildKeyword Int16 name env node
  | .INT32 => buildKeyword Int32 name env node
  | .FLOAT => buildKeyword CFloat name env node
  | .DOUBLE => buildKeyword CDouble name env node
  | .STRING => buildKeyword String name env node
  | .BOOLEAN => buildKeyword Bool name env node

/-- `parseVal<string>` of the first child of a node, if there is a node. -/
def parseChild (env : Env) (node : NodeRef) : Except Abort (Option String) := do
  if node.isSome then
    parseVal env (← axiomNodeGetFirstChild node)
  else return none

/-- The node is the first child of the item; unlike the other readers, this one does not test it. -/
instance : ParseVal Keyword where
  parseVal env node := do
    let parentNode ← axiomNodeGetParent node
    let optName ← parseChild env (axiomUtilGetNodeByLocalName parentNode "name")
    let optType := translateType (← parseChild env (axiomUtilGetNodeByLocalName parentNode "type"))
    match optName, optType with
    | some name, some type => buildKeywordOf type name env parentNode
    | _, _ => return none

/-! ## Arrays -/

/-- The qualified name of the attribute that marks arrays. -/
def arrayTypeName : QName := ⟨"arrayType", "http://schemas.xmlsoap.org/soap/encoding/", "enc"⟩

/-- `value.compare(0, type.size(), type) == 0`. -/
def comparePrefix (value type : String) : Bool := value.toList.take type.length = type.toList

/-- One item of an array; the flag is what the function returns. -/
def parseItem {T : Type} [ParseVal T] (env : Env) (itemNode : NodePtr) (array : List T) :
    Except Abort (ForInStep (Bool × List T)) := do
  if (← axiomNodeGetNodeType (some itemNode)) ≠ .ELEMENT then return .done (false, array)
  let itemElement ← axiomNodeGetDataElement (some itemNode)
  if axiomElementGetLocalname itemElement ≠ "item" then return .done (false, array)
  let itemValNode ← axiomNodeGetFirstChild (some itemNode)
  let val : Option T ← parseVal env itemValNode
  match val with
  | some v => return .yield (true, array ++ [v])
  | none => return .done (false, array)

/-- `DhsService::parseArrayNode<T>`: what it returns, and the vector it was given with what was appended. -/
def parseArrayNode {T : Type} [ParseVal T] (env : Env) (node : NodeRef) (array : List T) (type : String) :
    Except Abort (Bool × List T) := do
  if (← axiomNodeGetNodeType node) ≠ .ELEMENT then return (false, array)
  let nodeElement ← axiomNodeGetDataElement node
  match axiomElementGetAttribute nodeElement arrayTypeName with
  | none => return (false, array)
  | some typeAttribute =>
    if !comparePrefix typeAttribute.value type then return (false, array)
    forSiblings (← axiomNodeGetFirstChild node) (true, array) fun itemNode acc => parseItem env itemNode acc.2

/-- The overloads of `parseArrayNode` for each element type. -/
class ArrayElem (T : Type) extends ParseVal T where
  arrayType : String

instance : ArrayElem Int32 := ⟨"int"⟩

instance : ArrayElem String := ⟨"string"⟩

instance : ArrayElem NodePtr := ⟨"object"⟩

instance : ArrayElem Keyword := ⟨"object"⟩

def parseArray {T : Type} [ArrayElem T] (env : Env) (node : NodeRef) (array : List T) :
    Except Abort (Bool × List T) := parseArrayNode env node array (ArrayElem.arrayType T)

/-! ## The children of a request -/

/-- The local variables of `setParameters`. -/
structure Parameters where
  contributors : List String
  lifetime : DhsBdLifetime
  lifetimeSet : Bool
  id : ImageId
  deriving DecidableEq, Repr

/-- One round of the loop of `setParameters`; `imageId` is the id given by the caller. -/
def parametersStep (imageId : Option ImageId) (env : Env) (paramNode : NodePtr) (vars : Parameters) :
    Except Abort (ForInStep Parameters) := do
  if (← axiomNodeGetNodeType (some paramNode)) = .ELEMENT then
    let paramElement ← axiomNodeGetDataElement (some paramNode)
    let paramName := axiomElementGetLocalname paramElement
    if paramName = "lifetime" then
      let optLifetime := translateLifetime (← parseVal env (← axiomNodeGetFirstChild (some paramNode)))
      match optLifetime with
      | some lifetime => return .yield { vars with lifetime, lifetimeSet := true }
      | none => return .yield vars
    else if paramName = "contributors" then
      let parsed ← parseArray env (some paramNode) vars.contributors
      return .yield { vars with contributors := parsed.2 }
    else if paramName = "id" ∧ imageId = none then
      let optIdVal : Option String ← parseVal env (← axiomNodeGetFirstChild (some paramNode))
      match optIdVal with
      | some id => return .yield { vars with id }
      | none => return .yield vars
  return .yield vars

/-- The loop of `setParameters`. -/
def decodeParameters (imageId : Option ImageId) (env : Env) (node : NodeRef) : Except Abort Parameters := do
  forSiblings (← axiomNodeGetFirstChild node) ⟨[], .TRANSIENT, false, imageId.getD ""⟩
    (parametersStep imageId env)

/-- The local variables of `setKeywords`. -/
structure KeywordsRequest where
  keywords : List Keyword
  id : ImageId
  final : Bool
  keywordsParsed : Bool
  deriving DecidableEq, Repr

/-- One round of the loop of `setKeywords`. -/
def keywordsStep (env : Env) (paramNode : NodePtr) (vars : KeywordsRequest) :
    Except Abort (ForInStep KeywordsRequest) := do
  if (← axiomNodeGetNodeType (some paramNode)) = .ELEMENT then
    let paramElement ← axiomNodeGetDataElement (some paramNode)
    let paramName := axiomElementGetLocalname paramElement
    if paramName = "keywords" then
      let parsed ← parseArray env (some paramNode) vars.keywords
      return .yield { vars with keywordsParsed := parsed.1, keywords := parsed.2 }
    else if paramName = "id" then
      let optId : Option String ← parseVal env (← axiomNodeGetFirstChild (some paramNode))
      match optId with
      | some id => return .yield { vars with id }
      | none => return .yield vars
    else if paramName = "final" then
      let optFinal : Option Bool ← parseVal env (← axiomNodeGetFirstChild (some paramNode))
      match optFinal with
      | some final => return .yield { vars with final }
      | none => return .yield vars
  return .yield vars

/-- The loop of `setKeywords`. -/
def decodeKeywords (env : Env) (node : NodeRef) : Except Abort KeywordsRequest := do
  forSiblings (← axiomNodeGetFirstChild node) ⟨[], "", false, false⟩ (keywordsStep env)

end DhsTranslator
