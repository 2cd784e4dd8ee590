import DhsTranslator.Service.Decode

/-!
# What the decoder reads, without pointers

The readers and loops of `Decode.lean` as functions of the nodes they are given.

- `parseVal_firstChild`: the scalar readers, on the first child of a node, read its `firstText`;
- `getByName_node`: the search by name finds the first element in document order (`AxiomNode.findNamed`);
- `parseKeyword_firstChild`: the keyword reader gives `itemKeyword`, except that an item without children passes
  `NULL` to `axiom_node_get_parent`;
- `parseArrayNode_loop`: an array of the type is read by a loop over its children; `parseArrayNode_eq`: item by item
  (`parseItems`), where the reader of values only looks at the item;
- `decodeParameters_eq`, `decodeKeywords_eq`: the loops over the children of a request are folds over them.
-/

namespace DhsTranslator

/-! ## Values -/

/-- The text of the first child, if that is a text node. -/
def AxiomNode.firstText (n : AxiomNode) : Option String :=
  match n.children with
  | .text value :: _ => some value
  | _ => none

theorem textValue_firstChild (p : NodePtr) : textValue p.firstChild = .ok p.node.firstText := by
  unfold NodePtr.firstChild AxiomNode.firstText
  cases p.node.children with
  | nil => rfl
  | cons c cs => cases c <;> rfl

/-- The scalar readers on the first child. -/
theorem parseVal_firstChild {T : Type} [ReadText T] (env : Env) (p : NodePtr) :
    (parseVal env p.firstChild : Except Abort (Option T)) = .ok (p.node.firstText.bind (ReadText.readText env)) := by
  simp only [parseVal, textValue_firstChild]
  cases p.node.firstText <;> rfl

/-- What the string reader makes of a text is the text. -/
@[simp] theorem bind_readText_string (env : Env) (o : Option String) :
    o.bind (ReadText.readText (T := String) env) = o := by
  cases o <;> rfl

mutual

/-- The first element with the name at or below a node, in document order. -/
def AxiomNode.findNamed (name : String) : AxiomNode → Option AxiomNode
  | .element n ns attrs cs => if n = name then some (.element n ns attrs cs) else findNamedList name cs
  | .text _ => none
  | .comment _ => none
  | .processingInstruction _ _ => none

/-- The same for a list of nodes. -/
def findNamedList (name : String) : List AxiomNode → Option AxiomNode
  | [] => none
  | c :: cs =>
    match c.findNamed name with
    | some n => some n
    | none => findNamedList name cs

end

mutual

theorem getByName_node (name : String) : ∀ (n : AxiomNode) (next : List AxiomNode)
    (up : List (AxiomNode × List AxiomNode)), (getByName name n next up).map NodePtr.node = n.findNamed name
  | .element n ns attrs cs, next, up => by
    rw [getByName, AxiomNode.findNamed]
    split
    · rfl
    · exact getByNameList_node name cs _
  | .text _, _, _ => rfl
  | .comment _, _, _ => rfl
  | .processingInstruction _ _, _, _ => rfl

theorem getByNameList_node (name : String) : ∀ (cs : List AxiomNode) (up : List (AxiomNode × List AxiomNode)),
    (getByNameList name cs up).map NodePtr.node = findNamedList name cs
  | [], _ => rfl
  | c :: cs, up => by
    rw [getByNameList, findNamedList, ← getByName_node name c cs up]
    cases getByName name c cs up with
    | some p => rfl
    | none => exact getByNameList_node name cs up

end

/-- The text a search by name leads to: the first child of the first element with the name. -/
def AxiomNode.namedText (n : AxiomNode) (name : String) : Option String := (n.findNamed name).bind firstText

/-- An element in which another name is found has children. -/
theorem AxiomNode.IsNamed.children_ne_nil {n : AxiomNode} {name other text : String} (h : n.IsNamed name)
    (hne : name ≠ other) (hfound : n.namedText other = some text) : n.children ≠ [] := by
  intro hc
  obtain ⟨ns, attrs, cs, rfl⟩ := h.eq_element
  obtain rfl : cs = [] := hc
  unfold namedText at hfound
  rw [findNamed, if_neg hne] at hfound
  cases hfound

/-- A search by name from a pointer: nothing is found, or a pointer to the first element with the name. -/
theorem getNodeByLocalName_cases (p : NodePtr) (name : String) :
    (axiomUtilGetNodeByLocalName (some p) name = none ∧ p.node.namedText name = none) ∨
    ∃ q, axiomUtilGetNodeByLocalName (some p) name = some q ∧ p.node.namedText name = q.node.firstText := by
  have h := getByName_node name p.node p.next p.up
  unfold AxiomNode.namedText
  rw [← h]
  show (getByName name p.node p.next p.up = none ∧ _) ∨ ∃ q, getByName name p.node p.next p.up = some q ∧ _
  cases getByName name p.node p.next p.up with
  | none => exact Or.inl ⟨rfl, rfl⟩
  | some q => exact Or.inr ⟨q, rfl, rfl⟩

theorem parseChild_named (env : Env) (p : NodePtr) (name : String) :
    parseChild env (axiomUtilGetNodeByLocalName (some p) name) = .ok (p.node.namedText name) := by
  rcases getNodeByLocalName_cases p name with ⟨hg, hn⟩ | ⟨q, hg, hn⟩
  · rw [hg, hn]; rfl
  · have h := parseVal_firstChild (T := String) env q
    rw [bind_readText_string] at h
    rw [hg, hn]; exact h

/-! ## Keywords -/

/-- The keyword of a given type, name and text. -/
def readKeyword (env : Env) (type : DhsDataType) (name value : String) : Option Keyword :=
  match type with
  | .UINT8 => (ReadText.readText env value : Option UInt8).map (Keyword.of name)
  | .UINT16 => (ReadText.readText env value : Option UInt16).map (Keyword.of name)
  | .UINT32 => (ReadText.readText env value : Option UInt32).map (Keyword.of name)
  | .INT8 => (ReadText.readText env value : Option Int8).map (Keyword.of name)
  | .INT16 => (ReadText.readText env value : Option Int16).map (Keyword.of name)
  | .INT32 => (ReadText.readText env value : Option Int32).map (Keyword.of name)
  | .FLOAT => (ReadText.readText env value : Option CFloat).map (Keyword.of name)
  | .DOUBLE => (ReadText.readText env value : Option CDouble).map (Keyword.of name)
  | .STRING => (ReadText.readText env value : Option String).map (Keyword.of name)
  | .BOOLEAN => (ReadText.readText env value : Option Bool).map (Keyword.of name)

theorem buildKeyword_eq {T : Type} [KeywordType T] [ReadText T] (name : String) (env : Env) (p : NodePtr) :
    buildKeyword T name env (some p) =
      .ok ((p.node.namedText "value").bind fun v => (ReadText.readText env v : Option T).map (Keyword.of name)) := by
  unfold buildKeyword
  rcases getNodeByLocalName_cases p "value" with ⟨hg, hn⟩ | ⟨q, hg, hn⟩
  · rw [hg, hn]; rfl
  · rw [hg, hn]
    show (parseVal env q.firstChild : Except Abort (Option T)) >>= _ = _
    rw [parseVal_firstChild]
    cases q.node.firstText with
    | none => rfl
    | some v =>
      simp only [Option.bind_some]
      cases (ReadText.readText env v : Option T) <;> rfl

theorem buildKeywordOf_eq (type : DhsDataType) (name : String) (env : Env) (p : NodePtr) :
    buildKeywordOf type name env (some p) =
      .ok ((p.node.namedText "value").bind (readKeyword env type name)) := by
  cases type <;> exact buildKeyword_eq name env p

/-- The keyword of an item. -/
def itemKeyword (env : Env) (item : AxiomNode) : Option Keyword :=
  match item.namedText "name", translateType (item.namedText "type") with
  | some name, some type => (item.namedText "value").bind (readKeyword env type name)
  | _, _ => none

/-- The keyword reader on the first child of an item, as a function of the item. -/
def parseKeywordItem (env : Env) (item : AxiomNode) : Except Abort (Option Keyword) :=
  if item.children = [] then .error (.nullNode .getParent) else .ok (itemKeyword env item)

theorem parseKeyword_firstChild (env : Env) (p : NodePtr) :
    (parseVal env p.firstChild : Except Abort (Option Keyword)) = parseKeywordItem env p.node := by
  unfold parseKeywordItem
  cases hc : p.firstChild with
  | none => rw [if_pos (firstChild_eq_none.1 hc)]; rfl
  | some c =>
    rw [if_neg fun h => by rw [firstChild_eq_none.2 h] at hc; cases hc]
    show (do
      let parentNode ← axiomNodeGetParent (some c)
      let optName ← parseChild env (axiomUtilGetNodeByLocalName parentNode "name")
      let optType := translateType (← parseChild env (axiomUtilGetNodeByLocalName parentNode "type"))
      match optName, optType with
      | some name, some type => buildKeywordOf type name env parentNode
      | _, _ => return none) = _
    simp only [axiomNodeGetParent, deref_some, parent_of_firstChild hc, bind, Except.bind, parseChild_named]
    unfold itemKeyword
    cases p.node.namedText "name" with
    | none => rfl
    | some name =>
      cases translateType (p.node.namedText "type") with
      | none => rfl
      | some type => exact buildKeywordOf_eq type name env p

/-! ## Arrays -/

/-- The node carries the attribute that marks an array of the type. -/
def AxiomNode.hasArrayType (n : AxiomNode) (type : String) : Bool :=
  match axiomElementGetAttribute n arrayTypeName with
  | none => false
  | some typeAttribute => comparePrefix typeAttribute.value type

/-- Reading the items of an array one by one, up to the first that cannot be read. -/
def parseItems {T : Type} (parse : AxiomNode → Except Abort (Option T)) :
    List AxiomNode → List T → Except Abort (Bool × List T)
  | [], array => .ok (true, array)
  | n :: ns, array =>
    if n.IsNamed "item" then
      match parse n with
      | .error e => .error e
      | .ok (some v) => parseItems parse ns (array ++ [v])
      | .ok none => .ok (false, array)
    else .ok (false, array)

/-- One round of the loop over the items. -/
def itemRound {T : Type} (parse : AxiomNode → Except Abort (Option T)) (n : AxiomNode) (array : List T) :
    Except Abort (ForInStep (Bool × List T)) :=
  if n.IsNamed "item" then
    match parse n with
    | .error e => .error e
    | .ok (some v) => .ok (.yield (true, array ++ [v]))
    | .ok none => .ok (.done (false, array))
  else .ok (.done (false, array))

section Arrays

variable {T : Type} {env : Env} {parse : AxiomNode → Except Abort (Option T)}

/-- **One item**, for any reader of values. -/
theorem parseItem_cases [ParseVal T] (p : NodePtr) (array : List T) : parseItem env p array =
    if p.node.IsNamed "item" then
      match (parseVal env p.firstChild : Except Abort (Option T)) with
      | .error e => .error e
      | .ok (some v) => .ok (.yield (true, array ++ [v]))
      | .ok none => .ok (.done (false, array))
    else .ok (.done (false, array)) := by
  unfold parseItem
  simp only [axiomNodeGetNodeType, axiomNodeGetDataElement, axiomNodeGetFirstChild, deref_some, bind, Except.bind]
  cases hn : p.node with
  | element name ns attrs cs =>
    by_cases hi : name = "item"
    · simp only [AxiomNode.nodeType, axiomElementGetLocalname, AxiomNode.localname?, AxiomNode.IsNamed, hi,
        Option.getD_some, ne_eq, not_true_eq_false, if_false, if_true]
      rcases (parseVal env p.firstChild : Except Abort (Option T)) with e | _ | v <;> rfl
    · simp [AxiomNode.nodeType, axiomElementGetLocalname, AxiomNode.localname?, AxiomNode.IsNamed, hi]; rfl
  | text v => rfl
  | comment v => rfl
  | processingInstruction t v => rfl

theorem parseItem_eq [ParseVal T] (h : ∀ p : NodePtr, parseVal env p.firstChild = parse p.node) (p : NodePtr)
    (array : List T) : parseItem env p array = itemRound parse p.node array := by
  rw [parseItem_cases, h]
  rfl

/-- The loop over the items. -/
theorem forIn_items : ∀ (ns : List AxiomNode) (array : List T),
    forIn ns (true, array) (fun n acc => itemRound parse n acc.2) = parseItems parse ns array
  | [], array => rfl
  | n :: ns, array => by
    rw [List.forIn_cons, itemRound, parseItems]
    split
    · rcases parse n with e | _ | v
      · rfl
      · rfl
      · exact forIn_items ns (array ++ [v])
    · rfl

/-- **Arrays**, for any reader of values: the loop over the children of an array of the type. -/
theorem parseArrayNode_loop [ParseVal T] (p : NodePtr) (array : List T) (type : String) :
    parseArrayNode env (some p) array type =
      if p.node.hasArrayType type then
        forSiblings p.firstChild (true, array) fun itemNode acc => parseItem env itemNode acc.2
      else .ok (false, array) := by
  unfold parseArrayNode AxiomNode.hasArrayType
  simp only [axiomNodeGetNodeType, axiomNodeGetDataElement, axiomNodeGetFirstChild, deref_some, bind, Except.bind]
  generalize forSiblings p.firstChild (true, array) _ = loop
  cases p.node with
  | element name ns attrs cs =>
    simp only [AxiomNode.nodeType, ne_eq, not_true_eq_false, if_false]
    cases axiomElementGetAttribute (.element name ns attrs cs) arrayTypeName with
    | none => rfl
    | some a =>
      cases ht : comparePrefix a.value type
      · simp only [ht]; rfl
      · simp only [ht]; rfl
  | text v => rfl
  | comment v => rfl
  | processingInstruction t v => rfl

theorem parseArrayNode_eq [ParseVal T] (h : ∀ p : NodePtr, parseVal env p.firstChild = parse p.node) (p : NodePtr)
    (array : List T) (type : String) : parseArrayNode env (some p) array type =
      if p.node.hasArrayType type then parseItems parse p.node.children array else .ok (false, array) := by
  have hloop : forSiblings p.firstChild (true, array) (fun itemNode acc => parseItem env itemNode acc.2) =
      forIn p.node.children (true, array) (fun n acc => itemRound parse n acc.2) :=
    forSiblings_children (fun q b => parseItem_eq h q b.2) p (true, array)
  rw [parseArrayNode_loop, hloop, forIn_items]

end Arrays

/-- The values of the items before the first node that is no readable item. -/
def leadingItems {T : Type} (read : AxiomNode → Option T) : List AxiomNode → List T
  | [] => []
  | n :: ns =>
    if n.IsNamed "item" then
      match read n with
      | some v => v :: leadingItems read ns
      | none => []
    else []

/-- Every node is a readable item. -/
def allItems {T : Type} (read : AxiomNode → Option T) (ns : List AxiomNode) : Bool :=
  ns.all fun n => decide (n.IsNamed "item") && (read n).isSome

/-- A reader that cannot fail appends the leading items. -/
theorem parseItems_ok {T : Type} {read : AxiomNode → Option T} : ∀ (ns : List AxiomNode) (array : List T),
    parseItems (fun n => .ok (read n)) ns array = .ok (allItems read ns, array ++ leadingItems read ns)
  | [], array => by simp [parseItems, allItems, leadingItems]
  | n :: ns, array => by
    by_cases hn : n.IsNamed "item"
    · cases hr : read n with
      | none => simp [parseItems, allItems, leadingItems, hn, hr]
      | some v =>
        have ih : parseItems (fun n => .ok (read n)) ns (array ++ [v]) = _ := parseItems_ok ns (array ++ [v])
        simp only [allItems] at ih
        simp [parseItems, allItems, leadingItems, hn, hr, ih]
    · simp [parseItems, allItems, leadingItems, hn]

/-- The contributors an array node gives. -/
def contributorsOf (n : AxiomNode) : List String :=
  if n.hasArrayType "string" then leadingItems AxiomNode.firstText n.children else []

theorem parseContributors_eq (env : Env) (p : NodePtr) (array : List String) :
    ∃ b, (parseArray env (some p) array : Except Abort (Bool × List String)) =
      .ok (b, array ++ contributorsOf p.node) := by
  show ∃ b, parseArrayNode env (some p) array "string" = _
  unfold contributorsOf
  have h : parseArrayNode env (some p) array "string" = if p.node.hasArrayType "string" then
      parseItems (fun n => .ok n.firstText) p.node.children array else .ok (false, array) :=
    parseArrayNode_eq (fun q => by rw [parseVal_firstChild, bind_readText_string]) p array "string"
  rw [h]
  split
  · exact ⟨allItems AxiomNode.firstText p.node.children, parseItems_ok _ _⟩
  · exact ⟨false, by rw [List.append_nil]⟩

/-- The keywords array of a request node. -/
def parseKeywords (env : Env) (n : AxiomNode) (keywords : List Keyword) : Except Abort (Bool × List Keyword) :=
  if n.hasArrayType "object" then parseItems (parseKeywordItem env) n.children keywords else .ok (false, keywords)

theorem parseKeywords_eq (env : Env) (p : NodePtr) (keywords : List Keyword) :
    parseArray env (some p) keywords = parseKeywords env p.node keywords :=
  parseArrayNode_eq (parseKeyword_firstChild env) p keywords "object"

/-! ## The children of a request -/

/-- What a child of the request does to the variables of `setParameters`. -/
def Parameters.read (imageId : Option ImageId) (vars : Parameters) (n : AxiomNode) : Parameters :=
  if n.IsNamed "lifetime" then
    match translateLifetime n.firstText with
    | some lifetime => { vars with lifetime, lifetimeSet := true }
    | none => vars
  else if n.IsNamed "contributors" then { vars with contributors := vars.contributors ++ contributorsOf n }
  else if n.IsNamed "id" ∧ imageId = none then
    match n.firstText with
    | some id => { vars with id }
    | none => vars
  else vars

theorem parametersStep_eq (imageId : Option ImageId) (env : Env) (p : NodePtr) (vars : Parameters) :
    parametersStep imageId env p vars = .ok (.yield (vars.read imageId p.node)) := by
  obtain ⟨b, hcon⟩ := parseContributors_eq env p vars.contributors
  have htext := parseVal_firstChild (T := String) env p
  rw [bind_readText_string] at htext
  unfold parametersStep Parameters.read
  simp only [axiomNodeGetNodeType, axiomNodeGetDataElement, axiomNodeGetFirstChild, deref_some, bind, Except.bind,
    hcon, htext]
  generalize p.node.firstText = text
  cases p.node with
  | element name ns attrs cs =>
    simp only [AxiomNode.nodeType, axiomElementGetLocalname, AxiomNode.localname?, AxiomNode.IsNamed,
      Option.getD_some, if_true, Option.some.injEq]
    by_cases h₁ : name = "lifetime"
    · simp only [h₁, if_true]
      cases translateLifetime text <;> rfl
    · simp only [h₁, if_false]
      by_cases h₂ : name = "contributors"
      · simp only [h₂, if_true]; rfl
      · simp only [h₂, if_false]
        by_cases h₃ : name = "id" ∧ imageId = none
        · simp only [h₃]
          cases text <;> rfl
        · simp only [h₃, if_false]; rfl
  | text v => rfl
  | comment v => rfl
  | processingInstruction t v => rfl

/-- The variables of `setParameters` before its loop. -/
def Parameters.init (imageId : Option ImageId) : Parameters := ⟨[], .TRANSIENT, false, imageId.getD ""⟩

/-- The variables of `setParameters` after its loop over the children of `n`. -/
def AxiomNode.parameters (n : AxiomNode) (imageId : Option ImageId) : Parameters :=
  n.children.foldl (Parameters.read imageId) (.init imageId)

/-- A loop whose rounds cannot fail and never leave it is a fold. -/
theorem forIn_yield {β : Type} (f : β → AxiomNode → β) : ∀ (ns : List AxiomNode) (b : β),
    forIn ns b (fun n b => (.ok (.yield (f b n)) : Except Abort (ForInStep β))) = .ok (ns.foldl f b)
  | [], _ => rfl
  | n :: ns, b => by
    rw [List.forIn_cons, List.foldl_cons]
    exact forIn_yield f ns (f b n)

/-- **The parameters of a request**: reading them cannot fail. -/
theorem decodeParameters_eq (imageId : Option ImageId) (env : Env) (p : NodePtr) :
    decodeParameters imageId env (some p) = .ok (p.node.parameters imageId) := by
  have h : forSiblings p.firstChild (Parameters.init imageId) (parametersStep imageId env) =
      forIn p.node.children (Parameters.init imageId) (fun n vars => .ok (.yield (Parameters.read imageId vars n))) :=
    forSiblings_children (parametersStep_eq imageId env) p (Parameters.init imageId)
  rw [forIn_yield] at h
  exact h

/-- The variables of `setKeywords` before its loop. -/
def KeywordsRequest.init : KeywordsRequest := ⟨[], "", false, false⟩

/-- What a child of the request does to the variables of `setKeywords`. -/
def KeywordsRequest.read (env : Env) (vars : KeywordsRequest) (n : AxiomNode) : Except Abort KeywordsRequest :=
  if n.IsNamed "keywords" then
    (parseKeywords env n vars.keywords).map fun parsed =>
      { vars with keywordsParsed := parsed.1, keywords := parsed.2 }
  else if n.IsNamed "id" then
    match n.firstText with
    | some id => .ok { vars with id }
    | none => .ok vars
  else if n.IsNamed "final" then
    match n.firstText.bind (ReadText.readText env) with
    | some final => .ok { vars with final }
    | none => .ok vars
  else .ok vars

theorem keywordsStep_eq (env : Env) (p : NodePtr) (vars : KeywordsRequest) :
    keywordsStep env p vars = (vars.read env p.node).map .yield := by
  have htext := parseVal_firstChild (T := String) env p
  have hfinal := parseVal_firstChild (T := Bool) env p
  rw [bind_readText_string] at htext
  unfold keywordsStep KeywordsRequest.read
  simp only [axiomNodeGetNodeType, axiomNodeGetDataElement, axiomNodeGetFirstChild, deref_some, bind, Except.bind,
    parseKeywords_eq, htext, hfinal]
  generalize parseKeywords env p.node vars.keywords = parsed
  generalize p.node.firstText.bind (ReadText.readText (T := Bool) env) = final
  generalize p.node.firstText = text
  cases p.node with
  | element name ns attrs cs =>
    simp only [AxiomNode.nodeType, axiomElementGetLocalname, AxiomNode.localname?, AxiomNode.IsNamed,
      Option.getD_some, if_true, Option.some.injEq]
    by_cases h₁ : name = "keywords"
    · simp only [h₁, if_true]
      cases parsed <;> rfl
    · simp only [h₁, if_false]
      by_cases h₂ : name = "id"
      · simp only [h₂, if_true]
        cases text <;> rfl
      · simp only [h₂, if_false]
        by_cases h₃ : name = "final"
        · simp only [h₃, if_true]
          cases final <;> rfl
        · simp only [h₃, if_false]; rfl
  | text v => rfl
  | comment v => rfl
  | processingInstruction t v => rfl

/-- The variables of `setKeywords` after its loop over the children of `n`. -/
def AxiomNode.keywordsRequest (n : AxiomNode) (env : Env) : Except Abort KeywordsRequest :=
  n.children.foldlM (KeywordsRequest.read env) .init

/-- A loop that never leaves early is a fold. -/
theorem forIn_map_yield {β : Type} (f : β → AxiomNode → Except Abort β) : ∀ (ns : List AxiomNode) (b : β),
    forIn ns b (fun n b => (f b n).map ForInStep.yield) = ns.foldlM f b
  | [], _ => rfl
  | n :: ns, b => by
    rw [List.forIn_cons, List.foldlM_cons]
    cases f b n with
    | error e => rfl
    | ok b' => exact forIn_map_yield f ns b'

/-- **The keywords of a request.** -/
theorem decodeKeywords_eq (env : Env) (p : NodePtr) : decodeKeywords env (some p) = p.node.keywordsRequest env := by
  have h : forSiblings p.firstChild KeywordsRequest.init (keywordsStep env) =
      forIn p.node.children KeywordsRequest.init (fun n vars => (KeywordsRequest.read env vars n).map ForInStep.yield) :=
    forSiblings_children (keywordsStep_eq env) p KeywordsRequest.init
  rw [forIn_map_yield] at h
  exact h

end DhsTranslator
