import LoginSession.Options.Arguments
import LoginSession.Proofs.Cutting

namespace LoginSession

namespace OptionName

theorem ofLong?_long (option : OptionName) : ofLong? option.long = some option := by
  cases option <;> decide

theorem long_undivided (option : OptionName) : '=' ∉ option.long.toList := by
  cases option <;> decide

end OptionName

namespace Options

namespace Given

variable {g g' s final : Given} {option : OptionName} {word value : String}
  {words before : List String}

theorem bind_eq_ok {α β ε : Type} {x : Except ε α} {f : α → Except ε β} {b : β}
    (h : x >>= f = .ok b) : ∃ a, x = .ok a ∧ f a = .ok b := by
  cases x with
  | error e => cases h
  | ok a => exact ⟨a, rfl, h⟩

theorem storeOnce_eq_ok {α : Type} {old : Option α} {stored : Except ValueFault Given}
    (h : storeOnce option old stored = .ok s) : old = none ∧ stored = .ok s := by
  unfold storeOnce at h
  split at h
  · cases h
  · rename_i unset
    cases stored with
    | error e => cases h
    | ok g => exact ⟨by simpa using unset, by simpa [Except.mapError] using h⟩

theorem storeOnce_of_none {α : Type} {old : Option α} (unset : old = none) :
    storeOnce option old (.ok g) = .ok g := by
  rw [storeOnce, unset]
  rfl

/-- What storing a value does, for each option that takes one. -/
inductive Stores (g : Given) (value : String) : OptionName → Given → Prop where
  | uid {n : UInt32} (unset : g.uid = none) (read : readUInt32 value = .ok n) :
    Stores g value .uid { g with uid := some n }
  | pid {n : UInt32} (unset : g.pid = none) (read : readUInt32 value = .ok n) :
    Stores g value .pid { g with pid := some n }
  | service (unset : g.service = none) : Stores g value .service { g with service := some value }
  | set {p : Parameter} (read : Parameter.ofAssignment? value = some p) :
    Stores g value .set { g with overrides := g.overrides ++ [p] }
  | helper (unset : g.helper = none) : Stores g value .helper { g with helper := some value }
  | logDir (unset : g.logDir = none) (named : value ≠ "") :
    Stores g value .logDir { g with logDir := some value }
  | logFile (unset : g.logFile = none) : Stores g value .logFile { g with logFile := some value }

theorem stores_of_number {α : Type} {read : Except NumberFault α} {f : α → Given}
    (h : ((read.mapError ValueFault.number).map f : Except ValueFault Given) = .ok s) :
    ∃ n, read = .ok n ∧ f n = s := by
  cases read with
  | error e => cases h
  | ok n => exact ⟨n, rfl, by simpa [Except.mapError, Except.map] using h⟩

theorem stores_of_store (stored : g.store option value = .ok s) : Stores g value option s := by
  cases option with
  | uid =>
    obtain ⟨unset, stored⟩ := storeOnce_eq_ok stored
    obtain ⟨n, read, rfl⟩ := stores_of_number stored
    exact .uid unset read
  | pid =>
    obtain ⟨unset, stored⟩ := storeOnce_eq_ok stored
    obtain ⟨n, read, rfl⟩ := stores_of_number stored
    exact .pid unset read
  | service =>
    obtain ⟨unset, stored⟩ := storeOnce_eq_ok stored
    cases stored
    exact .service unset
  | set =>
    obtain ⟨-, stored⟩ := storeOnce_eq_ok stored
    split at stored
    · rename_i p read
      cases stored
      exact .set read
    · cases stored
  | helper =>
    obtain ⟨unset, stored⟩ := storeOnce_eq_ok stored
    cases stored
    exact .helper unset
  | logDir =>
    simp only [store] at stored
    split at stored
    · cases stored
    · split at stored
      · cases stored
      · rename_i unset named
        cases stored
        exact .logDir (by simpa using unset) (by simpa using named)
  | logFile =>
    obtain ⟨unset, stored⟩ := storeOnce_eq_ok stored
    cases stored
    exact .logFile unset
  | json | diagnostic | verbose | quiet | help | version => cases stored

theorem Stores.pending (stores : Stores g value option s) : s.pending = g.pending := by
  cases stores <;> rfl

theorem settle_cases (settled : g.settle = .ok s) : s.pending = none ∧
    (g.pending = none ∧ s = g ∨ ∃ option value, g.pending = some (option, some value) ∧
      Stores { g with pending := none } value option s) := by
  unfold settle at settled
  split at settled
  · rename_i none
    cases settled
    exact ⟨none, .inl ⟨none, rfl⟩⟩
  · cases settled
  · rename_i option value here
    have stores := stores_of_store settled
    exact ⟨stores.pending, .inr ⟨option, value, here, stores⟩⟩

theorem settle_of_awaiting (awaiting : g.pending = some (option, none)) :
    g.settle = .error (.missingValue option) := by
  rw [settle, awaiting]

theorem settle_of_pending (none : g.pending = none) : g.settle = .ok g := by
  rw [settle, none]

theorem flag_cases (flagged : g.flag option = .ok g') :
    ∃ s, g.settle = .ok s ∧ g'.helper = s.helper ∧ g'.pending = s.pending := by
  obtain ⟨s, settled, flagged⟩ := bind_eq_ok flagged
  refine ⟨s, settled, ?_⟩
  cases option <;> simp only [flagOnce] at flagged
  all_goals try (split at flagged)
  all_goals cases flagged
  all_goals exact ⟨rfl, rfl⟩

theorem long_of_ofLong? {name : List Char} (found : OptionName.ofLong? (String.ofList name) =
    some option) : option.long.toList = name := by
  have long := List.find?_some found
  rw [of_decide_eq_true long, String.toList_ofList]

/-- The two ways in which an argument behind two dashes names an option. -/
theorem long_cases {body : List Char} (accepted : g.long word body = .ok g') :
    ∃ option : OptionName, body = option.long.toList ∧
        (g.await option = .ok g' ∨ g.flag option = .ok g') ∨
      ∃ value, body = option.long.toList ++ '=' :: value ∧
        g.attach option (String.ofList value) = .ok g' := by
  unfold long at accepted
  cases cut : Text.cutAt? ['='] body with
  | none =>
    rw [cut] at accepted
    dsimp only at accepted
    split at accepted
    · cases accepted
    · rename_i option found _
      refine ⟨option, .inl ⟨(long_of_ofLong? found).symm, ?_⟩⟩
      split at accepted
      · exact .inl accepted
      · exact .inr accepted
    · rename_i some
      cases some
  | some parts =>
    obtain ⟨name, value⟩ := parts
    rw [cut] at accepted
    dsimp only at accepted
    split at accepted
    · cases accepted
    · rename_i some
      cases some
    · rename_i option given found same
      cases same
      split at accepted
      · refine ⟨option, .inr ⟨value, ?_, accepted⟩⟩
        rw [Text.cutAt?_eq cut, long_of_ofLong? found]
        simp
      · cases accepted

theorem argument_named (g : Given) (flag : option.takesValue = false) :
    g.argument ("--" ++ option.long) = g.flag option := by
  have body : ("--" ++ option.long).toList = '-' :: '-' :: option.long.toList := by simp
  have uncut : Text.cutAt? ['='] option.long.toList = none := by
    rw [Text.cutAt?_eq_none_iff, List.singleton_infix_iff]
    exact option.long_undivided
  rw [argument, body]
  simp only [long, uncut, String.ofList_toList, OptionName.ofLong?_long, flag, Bool.false_eq_true,
    if_false]

theorem argument_assigned (g : Given) (takes : option.takesValue = true) (value : String) :
    g.argument ("--" ++ option.long ++ "=" ++ value) = g.attach option value := by
  have body : ("--" ++ option.long ++ "=" ++ value).toList =
      '-' :: '-' :: (option.long.toList ++ ['='] ++ value.toList) := by simp
  have cut : Text.cutAt? ['='] (option.long.toList ++ ['='] ++ value.toList) =
      some (option.long.toList, value.toList) := by
    rw [Text.cutAt?_append_iff (List.cons_ne_nil _ _)]
    simpa [List.singleton_infix_iff] using option.long_undivided
  rw [argument, body]
  simp only [long, cut, String.ofList_toList, OptionName.ofLong?_long, takes, if_true]

theorem arguments_cons (accepted : g.arguments (word :: words) = .ok final) :
    word = "--" ∧ words = [] ∧ final = g ∨
      ∃ g', g.argument word = .ok g' ∧ g'.arguments words = .ok final := by
  unfold arguments at accepted
  split at accepted
  · rename_i none
    cases none
  · rename_i same
    cases same
    cases accepted
    exact .inl ⟨rfl, rfl, rfl⟩
  · cases accepted
  · rename_i same
    cases same
    split at accepted
    · cases accepted
    · rename_i g' read
      exact .inr ⟨g', read, accepted⟩

theorem arguments_cons_of_read (read : g.argument word = .ok g') :
    g.arguments (word :: words) = g'.arguments words := by
  rw [arguments.eq_def]
  split
  · rename_i none
    cases none
  · rename_i same
    cases same
    cases read
  · rename_i same
    cases same
    cases read
  · rename_i same
    cases same
    rw [read]

theorem arguments_append (accepted : g.arguments (before ++ word :: words) = .ok final) :
    ∃ g' : Given, g'.arguments (word :: words) = .ok final := by
  induction before generalizing g with
  | nil => exact ⟨g, accepted⟩
  | cons first before ih =>
    obtain ⟨-, none, -⟩ | ⟨g', -, rest⟩ := arguments_cons accepted
    · simp at none
    · exact ih rest

/-- Whether options are accepted does not depend on the environment, nor does anything but the
helper, and that only where no option has named one. -/
theorem finish_cases {setting : Option String} {o : Options} (accepted : g.finish setting = .ok o) :
    ∃ s, g.settle = .ok s ∧ ∀ other, g.finish other =
      .ok { o with helper := s.helper.getD (other.getD Config.defaultHelper) } := by
  obtain ⟨s, settled, accepted⟩ := bind_eq_ok accepted
  refine ⟨s, settled, fun other => ?_⟩
  cases uid : s.uid with
  | none => simp [uid] at accepted
  | some n =>
    cases pid : s.pid with
    | none => simp [uid, pid] at accepted
    | some k =>
      rw [uid, pid] at accepted
      cases accepted
      simp only [finish, settled, bind, Except.bind, uid, pid]
      rfl

end Given

theorem ofArguments_cases {arguments : List String} {setting : Option String} {o : Options}
    (accepted : ofArguments arguments setting = .ok o) :
    ∃ g s, Given.arguments {} arguments = .ok g ∧ g.settle = .ok s ∧ ∀ other,
      ofArguments arguments other =
        .ok { o with helper := s.helper.getD (other.getD Config.defaultHelper) } := by
  obtain ⟨g, read, finished⟩ := Given.bind_eq_ok accepted
  obtain ⟨s, settled, finishes⟩ := Given.finish_cases finished
  refine ⟨g, s, read, settled, fun other => ?_⟩
  rw [ofArguments, read]
  exact finishes other

end Options

end LoginSession
