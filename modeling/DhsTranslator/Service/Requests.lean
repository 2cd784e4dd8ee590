import DhsTranslator.Service.DecodeSpec

/-!
# Requests as clients write them

The request trees for the bodies the interface describes, and what the decoder reads from them.

- `setKeywordsRequest_read`: a `setKeywords` request is read back as the id, the flag and the keywords it was made
  from, if their texts can be read;
- `setParametersRequest_read`: the same for the lifetime and the contributors of `setParameters`;
- `AxiomNode.write`: the text of a tree.
-/

namespace DhsTranslator

/-! ## Trees -/

/-- An element that holds a text. -/
def field (name text : String) : AxiomNode := .element name none [] [.text text]

/-- An element that holds an array. -/
def arrayField (name type : String) (items : List AxiomNode) : AxiomNode :=
  .element name none [⟨arrayTypeName, type ++ ("[" ++ toString items.length ++ "]")⟩] items

/-- The members of a keyword in a request. -/
structure KeywordText where
  name : String
  type : String
  value : String
  deriving DecidableEq, Repr

def KeywordText.item (k : KeywordText) : AxiomNode :=
  .element "item" none [] [field "name" k.name, field "type" k.type, field "value" k.value]

def setKeywordsRequest (id : ImageId) (final : Bool) (keywords : List KeywordText) : AxiomNode :=
  .element "setKeywords" none [] [field "id" id, field "final" (if final then "true" else "false"),
    arrayField "keywords" "object" (keywords.map KeywordText.item)]

/-- The fields of an image: its lifetime and contributors. -/
def parameterFields (lifetime : Option DhsBdLifetime) (contributors : List String) : List AxiomNode :=
  (match lifetime with
    | none => []
    | some .PERMANENT => [field "lifetime" "PERMANENT"]
    | some .TEMPORARY => [field "lifetime" "TEMPORARY"]
    | some .TRANSIENT => [field "lifetime" "TRANSIENT"]) ++
  [arrayField "contributors" "string" (contributors.map (field "item"))]

def setParametersRequest (id : ImageId) (lifetime : Option DhsBdLifetime) (contributors : List String) : AxiomNode :=
  .element "setParameters" none [] (field "id" id :: parameterFields lifetime contributors)

def createImageRequest (lifetime : Option DhsBdLifetime) (contributors : List String) : AxiomNode :=
  .element "createImage" none [] (parameterFields lifetime contributors)

/-! ## Reading them back -/

@[simp] theorem firstText_field (name text : String) : (field name text).firstText = some text := rfl

theorem isNamed_arrayField (name type : String) (items : List AxiomNode) :
    (arrayField name type items).IsNamed name := rfl

theorem KeywordText.isNamed_item (k : KeywordText) : k.item.IsNamed "item" := rfl

theorem comparePrefix_append (type rest : String) : comparePrefix (type ++ rest) type = true := by
  unfold comparePrefix
  rw [String.toList_append, ← String.length_toList, List.take_left]
  exact decide_eq_true rfl

theorem hasArrayType_arrayField (name type : String) (items : List AxiomNode) :
    (arrayField name type items).hasArrayType type = true := comparePrefix_append type _

/-- The keyword the texts stand for. -/
def KeywordText.keyword? (env : Env) (k : KeywordText) : Option Keyword :=
  (translateType (some k.type)).bind fun type => readKeyword env type k.name k.value

theorem parseKeywordItem_item (env : Env) (k : KeywordText) :
    parseKeywordItem env k.item = .ok (k.keyword? env) := by
  show Except.ok (itemKeyword env k.item) = _
  have hname : k.item.namedText "name" = some k.name := rfl
  have htype : k.item.namedText "type" = some k.type := rfl
  have hvalue : k.item.namedText "value" = some k.value := rfl
  unfold itemKeyword KeywordText.keyword?
  rw [hname, htype, hvalue]
  cases translateType (some k.type) <;> rfl

theorem parseItems_items {env : Env} : ∀ {ks : List KeywordText} {kws : List Keyword} (array : List Keyword),
    ks.map (KeywordText.keyword? env) = kws.map some →
    parseItems (parseKeywordItem env) (ks.map KeywordText.item) array = .ok (true, array ++ kws)
  | [], [], array, _ => by rw [List.append_nil]; rfl
  | k :: ks, kw :: kws, array, h => by
    obtain ⟨hk, hks⟩ := List.cons.inj h
    have ih := parseItems_items (array ++ [kw]) hks
    rw [List.append_assoc] at ih
    rw [List.map_cons, parseItems, if_pos k.isNamed_item, parseKeywordItem_item, hk]
    exact ih

/-- **`setKeywords` requests are read as they were written.** -/
theorem setKeywordsRequest_read {env : Env} {ks : List KeywordText} {kws : List Keyword} (id : ImageId) (final : Bool)
    (h : ks.map (KeywordText.keyword? env) = kws.map some) :
    (setKeywordsRequest id final ks).keywordsRequest env = .ok ⟨kws, id, final, true⟩ := by
  have hkeywords : parseKeywords env (arrayField "keywords" "object" (ks.map KeywordText.item)) [] =
      .ok (true, kws) := by
    unfold parseKeywords
    rw [hasArrayType_arrayField, if_pos rfl]
    exact parseItems_items [] h
  have hid : KeywordsRequest.read env .init (field "id" id) = .ok ⟨[], id, false, false⟩ := rfl
  have hfinal : KeywordsRequest.read env ⟨[], id, false, false⟩
      (field "final" (if final then "true" else "false")) = .ok ⟨[], id, final, false⟩ := by
    cases final <;> rfl
  have hread : KeywordsRequest.read env ⟨[], id, final, false⟩
      (arrayField "keywords" "object" (ks.map KeywordText.item)) = .ok ⟨kws, id, final, true⟩ := by
    unfold KeywordsRequest.read
    rw [if_pos (isNamed_arrayField _ _ _), hkeywords]
    rfl
  unfold AxiomNode.keywordsRequest setKeywordsRequest
  simp only [AxiomNode.children, List.foldlM_cons, List.foldlM_nil, hid, hfinal, hread, bind, Except.bind]
  rfl

theorem leadingItems_items : ∀ (contributors : List String),
    leadingItems AxiomNode.firstText (contributors.map (field "item")) = contributors
  | [] => rfl
  | c :: cs => by
    have ih := leadingItems_items cs
    have hc : (field "item" c).IsNamed "item" := rfl
    rw [List.map_cons, leadingItems, if_pos hc, firstText_field, ih]

theorem contributorsOf_arrayField (contributors : List String) :
    contributorsOf (arrayField "contributors" "string" (contributors.map (field "item"))) = contributors := by
  unfold contributorsOf
  rw [hasArrayType_arrayField, if_pos rfl]
  exact leadingItems_items contributors

/-- The fields of an image are read as they were written, whoever gives the id. -/
theorem parameterFields_read (imageId : Option ImageId) (id : ImageId) (lifetime : Option DhsBdLifetime)
    (contributors : List String) :
    (parameterFields lifetime contributors).foldl (Parameters.read imageId) ⟨[], .TRANSIENT, false, id⟩ =
      ⟨contributors, lifetime.getD .TRANSIENT, lifetime.isSome, id⟩ := by
  have hcon : ∀ vars : Parameters, vars.contributors = [] →
      vars.read imageId (arrayField "contributors" "string" (contributors.map (field "item"))) =
        { vars with contributors } := by
    intro vars hvars
    unfold Parameters.read
    have hname := isNamed_arrayField "contributors" "string" (contributors.map (field "item"))
    rw [if_neg fun h => absurd (hname.unique h) (by decide), if_pos hname, contributorsOf_arrayField, hvars,
      List.nil_append]
  rcases lifetime with _ | (_ | _ | _) <;> exact hcon _ rfl

/-- **`setParameters` requests are read as they were written.** -/
theorem setParametersRequest_read (id : ImageId) (lifetime : Option DhsBdLifetime) (contributors : List String) :
    (setParametersRequest id lifetime contributors).parameters none =
      ⟨contributors, lifetime.getD .TRANSIENT, lifetime.isSome, id⟩ := parameterFields_read none id lifetime contributors

/-- The body of `createImage` is read as it was written, for the image just created. -/
theorem createImageRequest_read (id : ImageId) (lifetime : Option DhsBdLifetime) (contributors : List String) :
    (createImageRequest lifetime contributors).parameters (some id) =
      ⟨contributors, lifetime.getD .TRANSIENT, lifetime.isSome, id⟩ :=
  parameterFields_read (some id) id lifetime contributors

/-! ## Text -/

/-- A text with the characters that are markup written as entities. -/
def escape (s : String) : List Char :=
  s.toList.flatMap fun
    | '<' => "&lt;".toList
    | '>' => "&gt;".toList
    | '&' => "&amp;".toList
    | '"' => "&quot;".toList
    | c => [c]

def AxiomAttribute.write (a : AxiomAttribute) : List Char :=
  " xmlns:".toList ++ a.qname.pfx.toList ++ "=\"".toList ++ escape a.qname.uri ++ "\" ".toList ++ a.qname.pfx.toList ++
    ":".toList ++ a.qname.localPart.toList ++ "=\"".toList ++ escape a.value ++ "\"".toList

/-- The name of an element with its prefix. -/
def prefixedName (ns : Option AxiomNamespace) (name : String) : List Char :=
  match ns with
  | some ns => ns.pfx.toList ++ ":".toList ++ name.toList
  | none => name.toList

mutual

/-- The text of a tree. -/
def AxiomNode.write : AxiomNode → List Char
  | .element name ns attrs cs =>
    "<".toList ++ prefixedName ns name ++ attrs.flatMap AxiomAttribute.write ++ ">".toList ++ writeList cs ++
      "</".toList ++ prefixedName ns name ++ ">".toList
  | .text v => escape v
  | .comment v => "<!--".toList ++ v.toList ++ "-->".toList
  | .processingInstruction t v => "<?".toList ++ t.toList ++ " ".toList ++ v.toList ++ "?>".toList

def writeList : List AxiomNode → List Char
  | [] => []
  | c :: cs => c.write ++ writeList cs

end

/-- `boost::hash_combine` with one character, for a `size_t` of 32 bits. -/
def hashCombine (seed : UInt32) (c : Char) : UInt32 :=
  let shifted : UInt32 := seed <<< (6 : UInt32) + seed >>> (2 : UInt32)
  seed ^^^ (c.val + (0x9e3779b9 : UInt32) + shifted)

/-- `boost::hash` of a string of ASCII characters. -/
def boostHash (s : String) : UInt32 := s.toList.foldl hashCombine 0

/-- Surroundings that serialise a tree to its text, and where no text is a floating point number. -/
def plainEnv : Env := ⟨fun n => String.ofList n.write, fun _ => none, fun _ => none, fun _ => false⟩

end DhsTranslator
