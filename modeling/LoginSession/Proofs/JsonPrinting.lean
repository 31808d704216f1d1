import LoginSession.Proofs.JsonReading
import LoginSession.Session.Outcome

namespace LoginSession

namespace Json

/-- Every string denotes a text, and every number is an integer. -/
inductive IsExact : Json → Prop where
  | null : IsExact .null
  | boolean (b : Bool) : IsExact (.boolean b)
  | integer (n : Int) : IsExact (.integer n)
  | string (text : String) : IsExact (.string (some text))
  | array {values : List Json} (exact : ∀ v ∈ values, IsExact v) : IsExact (.array values)
  | object {members : List (Option String × Json)} (named : ∀ m ∈ members, m.1.isSome)
    (exact : ∀ m ∈ members, IsExact m.2) : IsExact (.object members)

theorem isGap_nil : IsGap [] := fun _ => False.elim ∘ List.not_mem_nil

theorem isGap_newline (depth : Nat) : IsGap (newline depth).toList := by
  intro c member
  simp [newline, List.mem_replicate] at member
  rcases member with rfl | ⟨-, rfl⟩ <;> rfl

variable {gap before after : List Char}

theorem elementsLayout_of_joined (print : Json → List Char) (join : List Json → List Char)
    (single : ∀ v, join [v] = print v)
    (cons : ∀ v w vs, join (v :: w :: vs) = print v ++ ',' :: (gap ++ join (w :: vs)))
    (isGap : IsGap gap) {values : List Json} (nonempty : values ≠ [])
    (each : ∀ v ∈ values, Layout v (print v)) (gapBefore : IsGap before) (gapAfter : IsGap after) :
    ElementsLayout values (before ++ (join values ++ after)) := by
  induction values generalizing before with
  | nil => exact absurd rfl nonempty
  | cons v vs ih =>
    rw [List.forall_mem_cons] at each
    cases vs with
    | nil =>
      rw [single]
      exact .last (.intro gapBefore each.1 gapAfter)
    | cons w vs =>
      have later := ih (by simp) each.2 isGap
      have first := PaddedLayout.intro gapBefore each.1 isGap_nil
      have whole : before ++ (join (v :: w :: vs) ++ after) =
          (before ++ (print v ++ [])) ++ ',' :: (gap ++ (join (w :: vs) ++ after)) := by
        simp [cons]
      rw [whole]
      exact .cons first later

theorem membersLayout_of_joined (print : Json → List Char)
    (join : List (Option String × Json) → List Char) {colon : List Char}
    (single : ∀ name v, join [(name, v)] = (quote? name).toList ++ ':' :: (colon ++ print v))
    (cons : ∀ name v m ms, join ((name, v) :: m :: ms) =
      (quote? name).toList ++ ':' :: (colon ++ print v) ++ ',' :: (gap ++ join (m :: ms)))
    (isGap : IsGap gap) (isGapColon : IsGap colon) {members : List (Option String × Json)}
    (nonempty : members ≠ []) (named : ∀ m ∈ members, m.1.isSome)
    (each : ∀ m ∈ members, Layout m.2 (print m.2)) (gapBefore : IsGap before)
    (gapAfter : IsGap after) :
    MembersLayout members (before ++ (join members ++ after)) := by
  induction members generalizing before with
  | nil => exact absurd rfl nonempty
  | cons m ms ih =>
    obtain ⟨name, v⟩ := m
    rw [List.forall_mem_cons] at each named
    obtain ⟨name, rfl⟩ := Option.isSome_iff_exists.1 named.1
    cases ms with
    | nil =>
      have padded := PaddedLayout.intro isGapColon each.1 gapAfter
      have whole : before ++ (join [(some name, v)] ++ after) =
          before ++ ((quote name).toList ++ ([] ++ ':' :: (colon ++ (print v ++ after)))) := by
        simp [single, quote?]
      rw [whole]
      exact .last gapBefore isGap_nil padded
    | cons m ms =>
      have later := ih (by simp) named.2 each.2 isGap
      have first := PaddedLayout.intro isGapColon each.1 isGap_nil
      have whole : before ++ (join ((some name, v) :: m :: ms) ++ after) =
          before ++ ((quote name).toList ++ ([] ++ ':' :: ((colon ++ (print v ++ [])) ++
            ',' :: (gap ++ (join (m :: ms) ++ after))))) := by
        simp [cons, quote?]
      rw [whole]
      exact .cons gapBefore isGap_nil first later

theorem layout_compact {v : Json} (exact : v.IsExact) : Layout v v.compact.toList := by
  induction exact with
  | null => exact .null
  | boolean b =>
    cases b with
    | true => exact .yes
    | false => exact .no
  | integer n => exact .integer n
  | string text => exact .string text
  | @array values _ ih =>
    cases values with
    | nil => exact .emptyArray isGap_nil
    | cons v vs =>
      have elements := elementsLayout_of_joined (fun v => v.compact.toList)
        (fun vs => (compactElements vs).toList) (by simp [compactElements])
        (by simp [compactElements]) isGap_nil (List.cons_ne_nil v vs) ih isGap_nil isGap_nil
      simpa [compact] using Layout.array elements
  | @object members named _ ih =>
    cases members with
    | nil => exact .emptyObject isGap_nil
    | cons m ms =>
      have members := membersLayout_of_joined (fun v => v.compact.toList)
        (fun ms => (compactMembers ms).toList) (by simp [compactMembers])
        (by simp [compactMembers]) isGap_nil isGap_nil
        (List.cons_ne_nil m ms) named ih isGap_nil isGap_nil
      simpa [compact] using Layout.object members

theorem layout_pretty {v : Json} (exact : v.IsExact) (depth : Nat) :
    Layout v (v.pretty depth).toList := by
  induction exact generalizing depth with
  | null | boolean b | integer n | string text => exact layout_compact (by constructor)
  | @array values _ ih =>
    cases values with
    | nil =>
      have empty : (array []).IsExact := .array (by simp)
      simpa [pretty] using layout_compact empty
    | cons v vs =>
      have inner := isGap_newline (depth + 1)
      have elements := elementsLayout_of_joined (fun v => (v.pretty (depth + 1)).toList)
        (fun vs => (prettyElements (depth + 1) vs).toList) (by simp [prettyElements])
        (by simp [prettyElements]) inner (List.cons_ne_nil v vs)
        (fun w member => ih w member (depth + 1)) inner (isGap_newline depth)
      simpa [pretty] using Layout.array elements
  | @object members named _ ih =>
    cases members with
    | nil =>
      have empty : (object []).IsExact := .object (by simp) (by simp)
      simpa [pretty] using layout_compact empty
    | cons m ms =>
      have inner := isGap_newline (depth + 1)
      have space : IsGap [' '] := by simp [IsGap, isSpace]
      have members := membersLayout_of_joined (fun v => (v.pretty (depth + 1)).toList)
        (fun ms => (prettyMembers (depth + 1) ms).toList) (by simp [prettyMembers])
        (by simp [prettyMembers]) inner space (List.cons_ne_nil m ms) named
        (fun m member => ih m member (depth + 1)) inner (isGap_newline depth)
      simpa [pretty] using Layout.object members

theorem parse?_compact {v : Json} (exact : v.IsExact) : parse? v.compact = some v :=
  parse?_of_layout (layout_compact exact) isGap_nil isGap_nil (by simp)

theorem parse?_pretty {v : Json} (exact : v.IsExact) {text : String} (gap : String)
    (isGap : IsGap gap.toList) (whole : text = v.pretty 0 ++ gap) : parse? text = some v :=
  parse?_of_layout (layout_pretty exact 0) isGap_nil isGap (by simp [whole])

end Json

theorem Value.isExact_toJson (v : Value) : v.toJson.IsExact := by
  cases v with
  | text s => exact .string s
  | boolean b => exact .boolean b
  | int32 n => exact .integer n.toInt

theorem Value.ofJson?_toJson (v : Value) : ofJson? v.toJson = some v := by
  cases v with
  | text s => rfl
  | boolean b => rfl
  | int32 n =>
    have low := n.le_toInt
    have high := n.toInt_lt
    have inside : int32Min ≤ n.toInt ∧ n.toInt ≤ int32Max := by
      rw [int32Min, int32Max]
      omega
    rw [toJson, ofJson?, if_pos inside, Int32.ofInt_toInt]

theorem Parameter.isExact_toJson (p : Parameter) : p.toJson.IsExact := by
  refine .object (by simp) ?_
  rw [List.forall_mem_cons, List.forall_mem_singleton]
  exact ⟨.string p.key, p.value.isExact_toJson⟩

theorem Parameter.ofJson?_toJson (p : Parameter) : ofJson? p.toJson = some p := by
  have key : member? "key" [(some "key", .string (some p.key)), (some "value", p.value.toJson)] =
      some (.string (some p.key)) := rfl
  have value : member? "value"
      [(some "key", .string (some p.key)), (some "value", p.value.toJson)] =
      some p.value.toJson := rfl
  simp [toJson, ofJson?, key, value, ofParts?, Value.ofJson?_toJson]

namespace ParameterSet

theorem isExact_toJson (s : ParameterSet) : s.toJson.IsExact := by
  refine .array fun v member => ?_
  obtain ⟨p, -, rfl⟩ := List.mem_map.1 member
  exact p.isExact_toJson

theorem ofJson?_toJson (s : ParameterSet) : ofJson? s.toJson = some s := by
  have all : ∀ ps : List Parameter, (ps.map Parameter.toJson).mapM Parameter.ofJson? = some ps := by
    intro ps
    induction ps with
    | nil => rfl
    | cons p ps ih => simp [Parameter.ofJson?_toJson, ih]
  simp [toJson, ofJson?, all]

/-- Each text of a parameter set is read as that set: its order, its repetitions and the kinds of
its values are all in the text. -/
theorem json_roundTrip (s : ParameterSet) :
    ofJsonText? s.compactJson = some s ∧ ofJsonText? s.prettyJson = some s ∧
      ofJsonText? ((Outcome.collected s).text true) = some s := by
  have compact : Json.parse? s.compactJson = some s.toJson := Json.parse?_compact s.isExact_toJson
  have pretty : Json.parse? s.prettyJson = some s.toJson :=
    Json.parse?_pretty s.isExact_toJson "" Json.isGap_nil (by simp [prettyJson])
  have printed : Json.parse? ((Outcome.collected s).text true) = some s.toJson :=
    Json.parse?_pretty s.isExact_toJson "\n" (by simp [Json.IsGap, Json.isSpace]) rfl
  simp only [ofJsonText?, compact, pretty, printed, Option.bind_some, ofJson?_toJson, and_self]

end ParameterSet

end LoginSession
