import LoginSession.Proofs.LineOutput
import LoginSession.Proofs.ReportLines
import Mathlib.Data.List.DropRight

namespace LoginSession

namespace Text

variable {cs lead tail : List Char}

structure IsTrimmed (cs : List Char) : Prop where
  head : ∀ c ∈ cs.head?, isBlank c = false
  last : ∀ c ∈ cs.getLast?, isBlank c = false

theorem isTrimmed_of_forall (plain : ∀ c ∈ cs, isBlank c = false) : IsTrimmed cs :=
  ⟨fun c first => plain c (List.mem_of_head? first), fun c last => plain c (List.mem_of_getLast? last)⟩

theorem isTrimmed_trim (cs : List Char) : IsTrimmed (trim cs) := by
  refine ⟨fun c first => ?_, fun c last => getLast_trimEnd last⟩
  have kept : trim cs <+: trimStart cs := List.rdropWhile_prefix isBlank (trimStart cs)
  obtain ⟨more, whole⟩ := kept
  have nonempty : trim cs ≠ [] := List.ne_nil_of_mem (List.mem_of_head? first)
  refine @head_trimStart cs c ?_
  rw [← whole, List.head?_append_of_ne_nil _ nonempty]
  exact first

theorem trimStart_append (blank : ∀ c ∈ lead, isBlank c = true)
    (head : ∀ c ∈ cs.head?, isBlank c = false) : trimStart (lead ++ cs) = cs := by
  rw [trimStart, List.dropWhile_append_of_pos blank]
  cases cs with
  | nil => rfl
  | cons c cs => simp [head c rfl]

theorem trimEnd_append (blank : ∀ c ∈ tail, isBlank c = true)
    (last : ∀ c ∈ cs.getLast?, isBlank c = false) : trimEnd (cs ++ tail) = cs := by
  have reversed : trimStart (tail.reverse ++ cs.reverse) = cs.reverse := by
    refine trimStart_append (fun c member => blank c (List.mem_reverse.1 member)) fun c first => ?_
    rw [List.head?_reverse] at first
    exact last c first
  rw [trimEnd, List.reverse_append, ← trimStart, reversed, List.reverse_reverse]

theorem trim_eq_nil_iff : trim cs = [] ↔ ∀ c ∈ cs, isBlank c = true := by
  constructor
  · intro empty
    have rest : ∀ c ∈ trimStart cs, isBlank c = true := List.rdropWhile_eq_nil_iff.1 empty
    have nothing : trimStart cs = [] := by
      cases start : trimStart cs with
      | nil => rfl
      | cons c more =>
        have blank := rest c (start ▸ List.mem_cons_self)
        have plain : isBlank c = false := by
          refine @head_trimStart cs c ?_
          rw [start, List.head?_cons]
        rw [blank] at plain
        cases plain
    exact List.dropWhile_eq_nil_iff.1 nothing
  · intro blank
    have nothing : trimStart cs = [] := List.dropWhile_eq_nil_iff.2 blank
    rw [trim, nothing]
    rfl

theorem IsTrimmed.trim_append (trimmed : IsTrimmed cs) (blankLead : ∀ c ∈ lead, isBlank c = true)
    (blankTail : ∀ c ∈ tail, isBlank c = true) : trim (lead ++ cs ++ tail) = cs := by
  cases cs with
  | nil =>
    rw [trim_eq_nil_iff, List.append_nil, List.forall_mem_append]
    exact ⟨blankLead, blankTail⟩
  | cons c cs =>
    have start : trimStart (lead ++ (c :: cs ++ tail)) = c :: cs ++ tail :=
      trimStart_append blankLead fun d first => trimmed.head d first
    rw [List.append_assoc, trim, start, trimEnd_append blankTail trimmed.last]

end Text

namespace Value

theorem isBlank_of_mem_toString {n : Int} {c : Char} (member : c ∈ (toString n).toList) :
    Text.isBlank c = false := by
  rw [Text.toList_toString] at member
  have digit : c ∈ Nat.toDigits 10 n.natAbs → Text.isBlank c = false := fun inside =>
    Text.isBlank_of_isDigit (Text.isDigit_of_mem_toDigits inside)
  split at member
  · rcases List.mem_cons.1 member with rfl | inside
    · decide
    · exact digit inside
  · exact digit member

theorem isTrimmed_render {v : Value} (text : ∀ s, v = .text s → Text.IsTrimmed s.toList) :
    Text.IsTrimmed v.render.toList := by
  cases v with
  | text s => exact text s rfl
  | boolean b =>
    have plain : (boolean b).render.toList.all (!Text.isBlank ·) = true := by
      cases b <;> decide
    refine Text.isTrimmed_of_forall fun c member => ?_
    simpa using List.all_eq_true.1 plain c member
  | int32 n => exact Text.isTrimmed_of_forall fun _ => isBlank_of_mem_toString

end Value

namespace Parameter

variable {p q : Parameter} {assignment : String} {before after lead tail : List Char}

/-- What an assignment can be read as. -/
structure IsAssignable (p : Parameter) : Prop where
  named : p.key ≠ ""
  key : Text.IsTrimmed p.key.toList
  undivided : '=' ∉ p.key.toList
  kind : p.value.kind = (kindOf? p.key).getD .text
  value : ∀ s, p.value = .text s → Text.IsTrimmed s.toList

/-- The parameter of a key and a raw value that have been trimmed. -/
def assigned (key raw : String) : Parameter := (discovered? key raw).getD ⟨key, .text raw⟩

theorem key_assigned (key raw : String) : (assigned key raw).key = key := by
  rw [assigned, discovered?]
  cases kindOf? key <;> rfl

theorem assigned_render (kind : p.value.kind = (kindOf? p.key).getD .text) :
    assigned p.key p.value.render = p := by
  have back := Value.read_render p.value
  rw [assigned, discovered?]
  cases known : kindOf? p.key with
  | some k =>
    rw [known, Option.getD_some] at kind
    rw [Option.map_some, Option.getD_some, ← kind, back]
  | none =>
    rw [known, Option.getD_none] at kind
    rw [kind, Kind.read] at back
    rw [Option.map_none, Option.getD_none, back]

theorem isAssignable_assigned {key raw : String} (named : key ≠ "")
    (trimmed : Text.IsTrimmed key.toList)
    (undivided : '=' ∉ key.toList) (value : Text.IsTrimmed raw.toList) :
    (assigned key raw).IsAssignable := by
  have same := key_assigned key raw
  refine ⟨same.symm ▸ named, same.symm ▸ trimmed, same.symm ▸ undivided, ?_, fun s text => ?_⟩
  · rw [same, assigned, discovered?]
    cases kindOf? key with
    | some kind => exact Kind.kind_read kind raw
    | none => rfl
  · rw [assigned, discovered?] at text
    cases known : kindOf? key with
    | some kind =>
      have found : discovered? key raw = some ⟨key, kind.read raw⟩ := by
        rw [discovered?, known, Option.map_some]
      rw [known, Option.map_some, Option.getD_some] at text
      exact text_of_discovered? found text ▸ value
    | none =>
      rw [known, Option.map_none, Option.getD_none] at text
      exact Value.text.inj text ▸ value

section Reading

theorem ofAssignment?_of_not_mem (undivided : '=' ∉ assignment.toList) :
    ofAssignment? assignment = none := by
  have uncut : Text.cutAt? ['='] assignment.toList = none := by
    rw [Text.cutAt?_eq_none_iff, List.singleton_infix_iff]
    exact undivided
  rw [ofAssignment?, uncut]

theorem ofAssignment?_of_split (whole : assignment.toList = before ++ '=' :: after)
    (first : '=' ∉ before) : ofAssignment? assignment =
      if Text.trim before = [] then none
      else some (assigned (String.ofList (Text.trim before)) (String.ofList (Text.trim after))) := by
  have cut : Text.cutAt? ['='] assignment.toList = some (before, after) := by
    have spread : assignment.toList = before ++ ['='] ++ after := by simp [whole]
    rw [spread, Text.cutAt?_append_iff (List.cons_ne_nil _ _)]
    simpa [List.singleton_infix_iff] using first
  rw [ofAssignment?, cut]
  dsimp only
  cases key : Text.trim before with
  | nil => rfl
  | cons c cs => rfl

theorem takeWhile_of_split (first : '=' ∉ before) :
    (before ++ '=' :: after).takeWhile (· ≠ '=') = before := by
  rw [List.takeWhile_append_of_pos]
  · simp
  · intro c member
    rw [decide_eq_true_iff]
    rintro rfl
    exact first member

theorem ofAssignment?_eq_none_iff : ofAssignment? assignment = none ↔
    '=' ∉ assignment.toList ∨
      ∀ c ∈ assignment.toList.takeWhile (· ≠ '='), Text.isBlank c = true := by
  by_cases divided : '=' ∈ assignment.toList
  · obtain ⟨before, after, whole, first⟩ := List.eq_append_cons_of_mem divided
    rw [ofAssignment?_of_split whole first, or_iff_right (not_not_intro divided), whole,
      takeWhile_of_split first, ← Text.trim_eq_nil_iff]
    split
    · rename_i blank
      simp [blank]
    · rename_i named
      simp [named]
  · rw [ofAssignment?_of_not_mem divided]
    simp [divided]

theorem isAssignable_of_ofAssignment? (read : ofAssignment? assignment = some p) :
    p.IsAssignable := by
  have divided : '=' ∈ assignment.toList := by
    by_contra undivided
    rw [ofAssignment?_of_not_mem undivided] at read
    cases read
  obtain ⟨before, after, whole, first⟩ := List.eq_append_cons_of_mem divided
  rw [ofAssignment?_of_split whole first] at read
  split at read
  · cases read
  · rename_i named
    obtain rfl := Option.some.inj read
    apply isAssignable_assigned
    · intro nameless
      exact named (by simpa using congrArg String.toList nameless)
    · rw [String.toList_ofList]
      exact Text.isTrimmed_trim before
    · rw [String.toList_ofList]
      exact fun member => first (Text.mem_of_mem_trim member)
    · rw [String.toList_ofList]
      exact Text.isTrimmed_trim after

theorem IsAssignable.ofAssignment?_eq (h : p.IsAssignable)
    (blankTail : ∀ c ∈ tail, Text.isBlank c = true) (blankLead : ∀ c ∈ lead, Text.isBlank c = true)
    (whole : assignment.toList = p.key.toList ++ tail ++ '=' :: (lead ++ p.value.render.toList)) :
    ofAssignment? assignment = some p := by
  have first : '=' ∉ p.key.toList ++ tail := by
    rw [List.mem_append, not_or]
    refine ⟨h.undivided, fun member => ?_⟩
    exact absurd (blankTail _ member) (by decide)
  have key : Text.trim (p.key.toList ++ tail) = p.key.toList :=
    h.key.trim_append (List.forall_mem_nil _) blankTail
  have value : Text.trim (lead ++ p.value.render.toList) = p.value.render.toList := by
    have trimmed := Value.isTrimmed_render h.value
    have both := trimmed.trim_append blankLead (List.forall_mem_nil _)
    rwa [List.append_nil] at both
  have named : p.key.toList ≠ [] := by
    intro empty
    exact h.named (String.toList_eq_nil_iff.1 empty)
  rw [ofAssignment?_of_split whole first, key, if_neg named, value, String.ofList_toList,
    String.ofList_toList, assigned_render h.kind]

theorem IsAssignable.ofAssignment?_render (h : p.IsAssignable) :
    ofAssignment? p.render = some p := by
  have chars : separator.toList = [' ', '=', ' '] := by decide
  have blank : ∀ c ∈ [' '], Text.isBlank c = true := by
    rw [List.forall_mem_singleton]
    decide
  refine h.ofAssignment?_eq blank blank ?_
  rw [toList_render, chars]
  simp

end Reading

theorem IsAssignable.isReportable (h : p.IsAssignable) (known : (kindOf? p.key).isSome = true)
    (oneLine : '\n' ∉ p.value.render.toList) : p.IsReportable := by
  obtain ⟨kind, found⟩ := Option.isSome_iff_exists.1 known
  have same := h.kind
  rw [found, Option.getD_some] at same
  refine ⟨kindOf?_eq_some_iff.1 (same ▸ found), fun s text => ?_⟩
  rw [text] at oneLine
  exact oneLine

theorem IsReportable.eq_of_render (h : q.IsReportable) (assignable : p.IsAssignable)
    (alike : q.render = p.render) : q = p := by
  have cut := cutAt?_render_iff.2 h.isOneLine.unseparated
  have cut' := cutAt?_render_iff.2 (unseparated_of_not_mem assignable.undivided)
  rw [alike, cut', Option.some.injEq, Prod.mk.injEq, String.toList_inj, String.toList_inj] at cut
  obtain ⟨key, value⟩ := cut
  have kind : q.value.kind = (kindOf? q.key).getD .text := by
    rw [kindOf?_eq_some_iff.2 h.known, Option.getD_some]
  rw [← assigned_render kind, ← key, ← value, assigned_render assignable.kind]

end Parameter

open ParameterSet in
/-- What an assignment is read as has a normal form, which its printed text keeps. -/
theorem Parameter.ofAssignment?_normalForm (assignment : String) :
    (ofAssignment? assignment = none ↔ '=' ∉ assignment.toList ∨
      ∀ c ∈ assignment.toList.takeWhile (· ≠ '='), Text.isBlank c = true) ∧
    ∀ p, ofAssignment? assignment = some p →
      p.IsAssignable ∧
      ofAssignment? p.render = some p ∧
      ((kindOf? p.key).isSome = true → '\n' ∉ p.value.render.toList →
        ofWholeReport p.render = ⟨[p]⟩) ∧
      ∀ skip report, ∀ q ∈ (ofReport skip report).entries, q.render = p.render → q = p := by
  refine ⟨ofAssignment?_eq_none_iff, fun p read => ?_⟩
  have assignable := isAssignable_of_ofAssignment? read
  refine ⟨assignable, assignable.ofAssignment?_render, fun known oneLine => ?_,
    fun skip report q member alike => ?_⟩
  · have reportable := assignable.isReportable known oneLine
    have entries := entries_ofReport_of_not_mem (fun _ => false)
      (newline_not_mem_render_iff.2 ⟨reportable.isOneLine.key, oneLine⟩)
    rw [reportable.ofLine?_render] at entries
    exact congrArg ParameterSet.mk entries
  · exact (isCanonical_ofReport skip report q member).eq_of_render assignable alike

open ParameterSet in
/-- Blanks around the key and the value, a sign, a tail that is no number and another equals sign.
-/
theorem Parameter.ofAssignment?_normalForm_padded :
    ofAssignment? "\u3000unix-user\t=\u00a0+7x=1\n" = some ⟨"unix-user", .int32 7⟩ ∧
    ofAssignment? "unix-user = 7" = some ⟨"unix-user", .int32 7⟩ ∧
    ofWholeReport "unix-user = 7" = ⟨[⟨"unix-user", .int32 7⟩]⟩ ∧
    ∀ q ∈ (ofReport (· = "is-local") "is-local = true\nunix-user = 7").entries,
      q.render = "unix-user = 7" → q = ⟨"unix-user", .int32 7⟩ := by
  have read : ofAssignment? "\u3000unix-user\t=\u00a0+7x=1\n" = some ⟨"unix-user", .int32 7⟩ := by
    decide
  obtain ⟨-, back, reported, same⟩ := (ofAssignment?_normalForm _).2 _ read
  exact ⟨read, back, reported (by decide) (by decide),
    same (· = "is-local") "is-local = true\nunix-user = 7"⟩

end LoginSession
