import BrowsAI.EngineServo.ProjectedTree

/-!
# What a projection hides

What a sensitive field holds is not in the tree: two pages that differ in the values of such fields
alone have the same tree. And no element is shown with a word that names a secret.
`agent_tree_hides` says both for every answer of the page.
-/

namespace BrowsAI.EngineServo

open Utf8 AgentTree Ipc

/-! ## Agreement outside the sensitive fields -/

/-- Two elements have the same fields, but for their children, and but for their values if they are
sensitive. -/
structure SameFields (fields others : List (Text × Value)) : Prop where
  shown : ∀ key ∉ (["children", "value"] : List Text),
    Value.field fields key = Value.field others key
  value : isSensitive fields = false → Value.field fields "value" = Value.field others "value"

mutual

/-- Two documents are the same but for the values of sensitive fields. -/
inductive AgreeShown : Value → Value → Prop
  | same (value : Value) : AgreeShown value value
  | element {fields others : List (Text × Value)} {children children' : List Value} :
      SameFields fields others → childrenField fields = some children →
      childrenField others = some children' → ChildrenAgree children children' →
      AgreeShown (.object fields) (.object others)
  | childless {fields others : List (Text × Value)} :
      SameFields fields others → childrenField fields = none → childrenField others = none →
      AgreeShown (.object fields) (.object others)

/-- Two lists of elements agree one by one. -/
inductive ChildrenAgree : List Value → List Value → Prop
  | nil : ChildrenAgree [] []
  | cons {child child' : Value} {children children' : List Value} :
      AgreeShown child child' → ChildrenAgree children children' →
      ChildrenAgree (child :: children) (child' :: children')

end

section Agree

variable {fields others : List (Text × Value)} {generation : UInt64}

theorem SameFields.text_field (h : SameFields fields others) {k : Text}
    (hkey : k ∉ (["children", "value"] : List Text)) :
    textField fields k = textField others k := by
  rw [textField, textField, h.shown k hkey]

theorem SameFields.is_sensitive (h : SameFields fields others) :
    isSensitive fields = isSensitive others := by
  rw [isSensitive, isSensitive, h.text_field (k := "name") (by decide),
    h.text_field (k := "fieldName") (by decide),
    h.text_field (k := "autocomplete") (by decide),
    h.text_field (k := "type") (by decide)]

theorem SameFields.element_role (h : SameFields fields others) :
    elementRole fields = elementRole others := by
  rw [elementRole, elementRole, h.shown "tag" (by decide), h.shown "role" (by decide)]

theorem SameFields.shown_text (h : SameFields fields others) :
    shownText fields = shownText others := by
  rw [shownText, shownText, h.text_field (k := "text") (by decide)]

/-- The value of a sensitive field is not shown, and any other one is the same. -/
theorem SameFields.element_value (h : SameFields fields others) :
    elementValue fields = elementValue others := by
  rw [elementValue, elementValue, ← h.is_sensitive]
  cases hsensitive : isSensitive fields with
  | true => rfl
  | false =>
      have hvalue : textField fields "value" = textField others "value" := by
        rw [textField, textField, h.value hsensitive]
      rw [h.element_role, h.shown_text, h.text_field (k := "url") (by decide),
        hvalue]

/-- Elements with the same shown fields give the same node. -/
theorem SameFields.element_node (h : SameFields fields others) (id : AgentNodeId)
    (childIds : List AgentNodeId) :
    elementNode fields id generation childIds = elementNode others id generation childIds := by
  have hflag : ∀ key ∉ (["children", "value"] : List Text),
      flagField fields key = flagField others key := fun key hkey => by
    rw [flagField, flagField, h.shown key hkey]
  have hgeometry : elementGeometry fields = elementGeometry others := by
    rw [elementGeometry, elementGeometry, h.shown "rect" (by decide)]
  rw [elementNode, elementNode, h.element_role, h.element_value, h.shown_text, hgeometry,
    h.shown "origin" (by decide), h.shown "id" (by decide),
    h.text_field (k := "name") (by decide), hflag "visible" (by decide),
    hflag "disabled" (by decide), hflag "focused" (by decide)]

mutual

/-- Values that agree in what is shown give the same nodes. -/
theorem AgreeShown.build_eq : ∀ {value other : Value}, AgreeShown value other →
    ∀ (id : AgentNodeId) (nodes : List AgentNode),
      buildAgentNode generation value id nodes = buildAgentNode generation other id nodes
  | _, _, .same _, _, _ => rfl
  | _, _, .element hfields hchildren hchildren' hagree, id, nodes => by
      rw [build_object hchildren, build_object hchildren', hagree.build_eq]
      simp only [hfields.element_node]
  | _, _, .childless _ hchildren hchildren', id, nodes => by
      rw [build_childless hchildren, build_childless hchildren']

/-- So do lists of them. -/
theorem ChildrenAgree.build_eq : ∀ {children children' : List Value},
    ChildrenAgree children children' →
    ∀ (id : AgentNodeId) (index : Nat) (childIds : List AgentNodeId) (nodes : List AgentNode),
      buildChildren generation children id index childIds nodes =
        buildChildren generation children' id index childIds nodes
  | _, _, .nil, _, _, _, _ => rfl
  | _, _, .cons hchild hrest, id, index, childIds, nodes => by
      rw [buildChildren, buildChildren, hchild.build_eq]
      refine bind_congr fun (node, nodes) => ?_
      exact hrest.build_eq id (index + 1) (childIds ++ [node.id]) (nodes ++ [node])

end

end Agree

/-! ## Words that name a secret -/

/-- The text has none of the words in it, in any letter case. -/
def Clean (text : Text) : Prop :=
  ∀ word ∈ redactedWords, ∀ part, part <:+: text → asciiLower part ≠ word

theorem clean_redact_text (value : Text) : Clean (redactText value) := by
  intro word hword part hpart hlower
  have hinfix : word <:+: asciiLower (redactText value) :=
    infix_ascii_lower_iff.mpr ⟨part, hpart, hlower⟩
  rw [redactText] at hinfix
  split_ifs at hinfix with hfound
  · have hnone : ∀ word ∈ redactedWords, ¬ word <:+: asciiLower ("[REDACTED]" : Text) := by decide
    exact hnone word hword hinfix
  · exact hfound (any_contains_iff.mpr ⟨word, hword, hinfix⟩)

/-- What is shown of a node: its name, and the text or the address that is its value. -/
def shownTexts (node : AgentNode) : List Text :=
  node.name.toList ++
    match node.value with
    | some (.text text) | some (.url text) => [text]
    | _ => []

theorem clean_non_empty {value text : Text} (h : nonEmpty (redactText value) = some text) :
    Clean text := by
  rw [nonEmpty] at h
  split_ifs at h
  cases h
  exact clean_redact_text value

/-- The value of an element is redacted. -/
theorem clean_element_value {fields : List (Text × Value)} {text : Text}
    (h : elementValue fields = some (.text text) ∨ elementValue fields = some (.url text)) :
    Clean text := by
  rw [elementValue] at h
  split_ifs at h
  · exact absurd h (by rintro (h | h) <;> cases h)
  · rcases h with h | h
    · cases h
    · cases h
      exact clean_redact_text _
  · cases hshown : nonEmpty (shownText fields) with
    | none =>
        rw [hshown] at h
        rcases h with h | h <;> cases h
    | some shown =>
        rw [hshown] at h
        rcases h with h | h
        · cases h
          exact clean_non_empty hshown
        · cases h
  · rcases h with h | h
    · cases h
      exact clean_redact_text _
    · cases h

/-- So is every text of its node. -/
theorem clean_element_node (fields : List (Text × Value)) (id : AgentNodeId) (generation : UInt64)
    (childIds : List AgentNodeId) :
    ∀ text ∈ shownTexts (elementNode fields id generation childIds), Clean text := by
  intro text hmem
  rcases List.mem_append.mp hmem with hname | hvalue
  · have hname : (elementNode fields id generation childIds).name = some text :=
      Option.mem_toList.mp hname
    rcases Option.or_eq_some_iff.mp hname with hname | ⟨-, hname⟩
    · exact clean_non_empty hname
    · exact clean_non_empty hname
  · have hnode : (elementNode fields id generation childIds).value = elementValue fields := rfl
    rw [hnode] at hvalue
    split at hvalue
    · next heq =>
      rw [List.mem_singleton.mp hvalue]
      exact clean_element_value (.inl heq)
    · next heq =>
      rw [List.mem_singleton.mp hvalue]
      exact clean_element_value (.inr heq)
    · cases hvalue

/-! ## The tree -/

/-- Two answers fail alike, or give documents that agree. -/
def AnswersAgree : Except EngineError Value → Except EngineError Value → Prop
  | .ok value, .ok other =>
      (Value.get value "truncated").bind Value.asBool =
          (Value.get other "truncated").bind Value.asBool ∧
        AgreeShown (rootValue value) (rootValue other)
  | .error error, .error other => error = other
  | .ok _, .error _ => False
  | .error _, .ok _ => False

theorem answers_agree_same (answer : Except EngineError Value) : AnswersAgree answer answer := by
  cases answer with
  | ok value => exact ⟨rfl, .same _⟩
  | error error => exact rfl

/-- With another answer in place of one that took too long. -/
def orElseTimeout (answer : Except EngineError Value) (instead : Except EngineError Value) :
    Except EngineError Value :=
  match answer with
  | .ok value => .ok value
  | .error .evaluationTimeout => instead
  | .error error => .error error

/-- Two answers that agree are replaced alike. -/
theorem AnswersAgree.or_else_timeout {answer other instead instead' : Except EngineError Value}
    (h : AnswersAgree answer other) (hinstead : AnswersAgree instead instead') :
    AnswersAgree (orElseTimeout answer instead) (orElseTimeout other instead') := by
  cases answer with
  | ok value =>
      cases other with
      | ok other => exact h
      | error error => exact h.elim
  | error error =>
      cases other with
      | ok other => exact h.elim
      | error error' =>
          cases h
          cases error with
          | evaluationTimeout => exact hinstead
          | _ => exact rfl

section Tree

variable {evaluate evaluate' : ProjectionScript → UInt64 → Except EngineError Value}

/-- Two pages that answer alike are asked the same. -/
theorem projection_value_agree
    (h : ∀ script timeout, AnswersAgree (evaluate script timeout) (evaluate' script timeout))
    (host : Option Text) (loadElapsedMillis : UInt64) :
    AnswersAgree (projectionValue evaluate host loadElapsedMillis)
      (projectionValue evaluate' host loadElapsedMillis) := by
  rw [projectionValue, projectionValue]
  by_cases hcisco : host = some ("cisco.com" : Text) ∨ host = some ("www.cisco.com" : Text)
  · rw [if_pos hcisco, if_pos hcisco]
    exact (h .controls _).or_else_timeout (answers_agree_same (.ok emptyProjection))
  · rw [if_neg hcisco, if_neg hcisco]
    exact (h .walk _).or_else_timeout ((h .controlsOnly _).or_else_timeout (answers_agree_same _))

/-- The tree of a page does not depend on what the sensitive fields hold, and no node of the document
in it shows a word that names a secret. -/
theorem agent_tree_hides
    (h : ∀ script timeout, AnswersAgree (evaluate script timeout) (evaluate' script timeout))
    (url : Text) (host : Option Text) (loadElapsedMillis : UInt64) (rootId : AgentNodeId)
    (generation : UInt64) :
    agentTree evaluate url host loadElapsedMillis rootId generation =
        agentTree evaluate' url host loadElapsedMillis rootId generation ∧
      ∀ tree, agentTree evaluate url host loadElapsedMillis rootId generation = .ok tree →
        ∀ node ∈ tree.nodes.tail, ∀ text ∈ shownTexts node, Clean text := by
  rw [agentTree, agentTree]
  split_ifs
  · refine ⟨rfl, fun tree htree node hmem => ?_⟩
    cases htree
    cases hmem
  · have hagree := projection_value_agree h host loadElapsedMillis
    cases hvalue : projectionValue evaluate host loadElapsedMillis with
    | error error =>
        cases hother : projectionValue evaluate' host loadElapsedMillis with
        | ok other =>
            rw [hvalue, hother] at hagree
            exact hagree.elim
        | error other =>
            rw [hvalue, hother] at hagree
            cases hagree
            exact ⟨rfl, fun tree htree => by cases htree⟩
    | ok value =>
        cases hother : projectionValue evaluate' host loadElapsedMillis with
        | error error =>
            rw [hvalue, hother] at hagree
            exact hagree.elim
        | ok other =>
            rw [hvalue, hother] at hagree
            obtain ⟨htruncated, hroots⟩ := hagree
            constructor
            · show projectedTree url rootId generation value =
                projectedTree url rootId generation other
              rw [projectedTree, projectedTree, hroots.build_eq, htruncated]
            · intro tree htree
              have htree : projectedTree url rootId generation value = .ok tree := htree
              rcases projected_tree_cases url rootId generation value with
                ⟨node, below, truncated, heq, hrenders⟩ | ⟨-, message, heq⟩
              · rw [heq] at htree
                cases htree
                intro n hn
                obtain ⟨path, element, -, hnode⟩ := (hrenders.mem_iff n).mp hn
                cases element with
                | object fields =>
                    cases hnode
                    exact clean_element_node fields _ _ _
                | _ => cases hnode
              · rw [heq] at htree
                cases htree

end Tree

/-! ## Two passwords -/

/-- A page with one password field. -/
def passwordPage (password : Text) : Value :=
  .object [("tag", .string "html"), ("children", .array [
    .object [("tag", .string "input"), ("type", .string "password"), ("value", .string password),
      ("children", .array [])]])]

/-- Two pages that differ in a password only. -/
theorem agree_password_page (password other : Text) :
    AnswersAgree (.ok (passwordPage password)) (.ok (passwordPage other)) := by
  have hsame : ∀ (key : Text) (value value' : Value) (fields fields' : List (Text × Value)),
      key ∉ (["children", "value"] : List Text) →
      ∀ name ∈ (["children", "value"] : List Text), Value.field fields key = Value.field fields' key →
        Value.field ((name, value) :: fields) key = Value.field ((name, value') :: fields') key := by
    intro key value value' fields fields' hkey name hname hfields
    have hne : (key == name) = false := beq_eq_false_iff_ne.mpr fun heq => hkey (heq ▸ hname)
    rw [Value.field, Value.field, List.lookup_cons, List.lookup_cons, hne]
    exact hfields
  have hcons : ∀ (key name : Text) (value : Value) (fields fields' : List (Text × Value)),
      Value.field fields key = Value.field fields' key →
        Value.field ((name, value) :: fields) key = Value.field ((name, value) :: fields') key := by
    intro key name value fields fields' hfields
    rw [Value.field, Value.field, List.lookup_cons, List.lookup_cons]
    cases key == name with
    | true => rfl
    | false => exact hfields
  refine ⟨rfl, .element ⟨fun key hkey => ?_, fun _ => rfl⟩ rfl rfl
    (.cons (.element ⟨fun key hkey => ?_, fun hplain => ?_⟩ rfl rfl .nil) .nil)⟩
  · exact hcons _ _ _ _ _ (hsame _ _ _ _ _ hkey _ (by decide) rfl)
  · exact hcons _ _ _ _ _ (hcons _ _ _ _ _ (hsame _ _ _ _ _ hkey _ (by decide) rfl))
  · cases hplain

/-- The password is not in the tree. -/
theorem password_page_hides :
    agentTree (fun _ _ => .ok (passwordPage "hunter2")) "https://example.test/"
        (some "example.test") 0 "page:servo-1" 0 =
      agentTree (fun _ _ => .ok (passwordPage "swordfish")) "https://example.test/"
        (some "example.test") 0 "page:servo-1" 0 :=
  (agent_tree_hides (fun _ _ => agree_password_page "hunter2" "swordfish") "https://example.test/"
    (some "example.test") 0 "page:servo-1" 0).1

end BrowsAI.EngineServo
