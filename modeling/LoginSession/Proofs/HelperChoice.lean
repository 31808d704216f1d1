import LoginSession.Config
import LoginSession.Proofs.ArgumentReading

namespace LoginSession

namespace Options

/-- No argument is the option that names a helper. -/
def LeavesHelper (arguments : List String) : Prop :=
  ∀ word ∈ arguments, word ≠ "--helper" ∧ ¬"--helper=".toList <+: word.toList

instance (arguments : List String) : Decidable (LeavesHelper arguments) :=
  inferInstanceAs (Decidable (∀ word ∈ arguments, _ ∧ _))

/-- A helper is named in one argument or in two. -/
def GivesHelper (arguments : List String) (helper : String) : Prop :=
  "--helper=" ++ helper ∈ arguments ∨ ["--helper", helper] <:+: arguments

namespace Given

variable {g g' s final : Given} {option : OptionName} {word value helper : String}
  {words : List String}

theorem Stores.helper_of_ne (stores : Stores g value option s) (other : option ≠ .helper) :
    s.helper = g.helper := by
  cases stores <;> first | rfl | exact absurd rfl other

def Skips (g g' : Given) : Prop :=
  ∃ s, g.settle = .ok s ∧ g'.helper = s.helper ∧ ∀ value, g'.pending ≠ some (.helper, value)

theorem skips_of_await (awaits : g.await option = .ok g') (other : option ≠ .helper) :
    g.Skips g' := by
  obtain ⟨s, settled, same⟩ := bind_eq_ok awaits
  cases same
  exact ⟨s, settled, rfl, by simp [other]⟩

theorem skips_of_attach (attached : g.attach option value = .ok g') (other : option ≠ .helper) :
    g.Skips g' := by
  obtain ⟨s, settled, stored⟩ := bind_eq_ok attached
  have stores := stores_of_store stored
  have pending := stores.pending.trans (settle_cases settled).1
  exact ⟨s, settled, stores.helper_of_ne other, by simp [pending]⟩

theorem skips_of_flag (flagged : g.flag option = .ok g') : g.Skips g' := by
  obtain ⟨s, settled, kept, pending⟩ := flag_cases flagged
  exact ⟨s, settled, kept, by simp [pending, (settle_cases settled).1]⟩

theorem ofShort?_ne_helper (c : Char) : OptionName.ofShort? c ≠ some .helper := by
  intro found
  have short := List.find?_some found
  simp [OptionName.short?] at short

theorem skips_of_short {letters : List Char} (nonempty : letters ≠ [])
    (accepted : g.short word letters = .ok g') : g.Skips g' := by
  induction letters generalizing g with
  | nil => exact absurd rfl nonempty
  | cons c rest ih =>
    unfold short at accepted
    split at accepted
    · cases accepted
    rename_i option found
    have other : option ≠ .helper := fun helper => ofShort?_ne_helper c (helper ▸ found)
    split at accepted
    · split at accepted
      · exact skips_of_await accepted other
      · exact skips_of_attach accepted other
      · exact skips_of_attach accepted other
    split at accepted
    · cases accepted
    rename_i middle flagged
    cases rest with
    | nil =>
      cases accepted
      exact skips_of_flag flagged
    | cons d rest =>
      -- the flag has completed what was pending, so the letters after it find nothing to complete
      obtain ⟨s, settled, kept, pending⟩ := flag_cases flagged
      obtain ⟨s', settled', kept', later⟩ := ih (by simp) accepted
      rw [settle_of_pending (pending.trans (settle_cases settled).1)] at settled'
      cases settled'
      exact ⟨s, settled, kept'.trans kept, later⟩

/-- What an argument that is accepted does about the helper. -/
inductive Reads (g : Given) (word : String) : Given → Prop where
  | value {option : OptionName} (awaited : g.pending = some (option, none)) :
    Reads g word { g with pending := some (option, some word) }
  | skip {g' : Given} (skips : g.Skips g') : Reads g word g'
  | await {s : Given} (settled : g.settle = .ok s) (named : word = "--helper") :
    Reads g word { s with pending := some (.helper, none) }
  | attach {s : Given} {value : String} (settled : g.settle = .ok s)
    (named : word = "--helper=" ++ value) (unset : s.helper = none) :
    Reads g word { s with helper := some value }

theorem reads_of_long {body : List Char} (same : word.toList = '-' :: '-' :: body)
    (accepted : g.long word body = .ok g') : Reads g word g' := by
  obtain ⟨option, ⟨name, awaits | flagged⟩ | ⟨value, name, attached⟩⟩ := long_cases accepted
  · by_cases helper : option = .helper
    · subst helper
      obtain ⟨s, settled, same'⟩ := bind_eq_ok awaits
      cases same'
      exact .await settled (String.toList_inj.1 (by rw [same, name]; rfl))
    · exact .skip (skips_of_await awaits helper)
  · exact .skip (skips_of_flag flagged)
  · by_cases helper : option = .helper
    · subst helper
      obtain ⟨s, settled, stored⟩ := bind_eq_ok attached
      cases stores_of_store stored with
      | helper unset =>
        refine .attach settled (String.toList_inj.1 ?_) unset
        rw [same, name]
        simp [OptionName.long]
    · exact .skip (skips_of_attach attached helper)

theorem reads_of_argument (accepted : g.argument word = .ok g') : Reads g word g' := by
  unfold argument at accepted
  split at accepted
  · rename_i body same
    exact reads_of_long same accepted
  · exact .skip (skips_of_short (by simp) accepted)
  · unfold plain at accepted
    split at accepted
    · rename_i option awaited
      cases accepted
      exact .value awaited
    · cases accepted

def IsUnnamed (g : Given) : Prop :=
  g.helper = none ∧ ∀ value, g.pending ≠ some (.helper, value)

def Names (g : Given) (helper : String) : Prop :=
  g.helper = some helper ∨ g.pending = some (.helper, some helper)

theorem IsUnnamed.settle (h : g.IsUnnamed) (settled : g.settle = .ok s) : s.helper = none := by
  obtain ⟨-, ⟨-, rfl⟩ | ⟨option, value, pending, stores⟩⟩ := settle_cases settled
  · exact h.1
  · have other : option ≠ .helper := fun helper => h.2 _ (helper ▸ pending)
    rw [stores.helper_of_ne other]
    exact h.1

theorem Names.settle (h : g.Names helper) (settled : g.settle = .ok s) :
    s.helper = some helper := by
  obtain ⟨-, ⟨none, rfl⟩ | ⟨option, value, pending, stores⟩⟩ := settle_cases settled
  · exact h.resolve_right (by simp [none])
  · by_cases same : option = .helper
    · subst same
      cases stores with
      | helper unset =>
        rcases h with stored | waiting
        · cases unset.symm.trans stored
        · cases pending.symm.trans waiting
          rfl
    · rw [stores.helper_of_ne same]
      refine h.resolve_right fun waiting => ?_
      cases pending.symm.trans waiting
      exact same rfl

theorem IsUnnamed.reads (h : g.IsUnnamed) (reads : Reads g word g')
    (silent : word ≠ "--helper" ∧ ¬"--helper=".toList <+: word.toList) : g'.IsUnnamed := by
  cases reads with
  | value awaited =>
    refine ⟨h.1, fun value pending => ?_⟩
    cases pending
    exact h.2 _ awaited
  | skip skips =>
    obtain ⟨s, settled, kept, later⟩ := skips
    exact ⟨kept.trans (h.settle settled), later⟩
  | await _ named => exact absurd named silent.1
  | attach _ named _ => exact absurd ⟨_, (by rw [named, String.toList_append])⟩ silent.2

theorem Names.reads (h : g.Names helper) (reads : Reads g word g') : g'.Names helper := by
  cases reads with
  | value awaited => exact .inl (h.resolve_right (by simp [awaited]))
  | skip skips =>
    obtain ⟨s, settled, kept, -⟩ := skips
    exact .inl (kept.trans (h.settle settled))
  | @await s settled _ =>
    have stored : s.helper = some helper := h.settle settled
    exact .inl stored
  | attach settled _ unset => cases (h.settle settled).symm.trans unset

theorem IsUnnamed.arguments (h : g.IsUnnamed) (accepted : g.arguments words = .ok final)
    (silent : LeavesHelper words) : final.IsUnnamed := by
  induction words generalizing g with
  | nil =>
    cases accepted
    exact h
  | cons word words ih =>
    rw [LeavesHelper, List.forall_mem_cons] at silent
    obtain ⟨-, -, rfl⟩ | ⟨g', read, rest⟩ := arguments_cons accepted
    · exact h
    · exact ih (h.reads (reads_of_argument read) silent.1) rest silent.2

theorem Names.arguments (h : g.Names helper) (accepted : g.arguments words = .ok final) :
    final.Names helper := by
  induction words generalizing g with
  | nil =>
    cases accepted
    exact h
  | cons word words ih =>
    obtain ⟨-, -, rfl⟩ | ⟨g', read, rest⟩ := arguments_cons accepted
    · exact h
    · exact ih (h.reads (reads_of_argument read)) rest

theorem argument_attached (g : Given) (helper : String) :
    g.argument ("--helper=" ++ helper) = g.attach .helper helper :=
  @argument_assigned .helper g rfl helper

theorem argument_awaited (g : Given) : g.argument "--helper" = g.await .helper := rfl

theorem names_of_awaiting (awaiting : g.pending = some (.helper, none))
    (accepted : g.arguments (helper :: words) = .ok final) (settled : final.settle = .ok s) :
    final.Names helper := by
  have unsettled {s : Given} (settled : g.settle = .ok s) : False := by
    cases (settle_of_awaiting awaiting).symm.trans settled
  obtain ⟨-, -, rfl⟩ | ⟨next, read, rest⟩ := arguments_cons accepted
  · exact (unsettled settled).elim
  · cases reads_of_argument read with
    | value awaited =>
      cases awaiting.symm.trans awaited
      exact Names.arguments (.inr rfl) rest
    | skip skips => exact (unsettled skips.choose_spec.1).elim
    | await settled _ => exact (unsettled settled).elim
    | attach settled _ _ => exact (unsettled settled).elim

theorem names_of_given (accepted : g.arguments words = .ok final) (settled : final.settle = .ok s)
    (given : "--helper=" ++ helper ∈ words ∨ ["--helper", helper] <:+: words) :
    final.Names helper := by
  rcases given with one | ⟨before, after, rfl⟩
  · obtain ⟨before, after, rfl⟩ := List.append_of_mem one
    obtain ⟨g', accepted⟩ := arguments_append accepted
    obtain ⟨dashes, -, -⟩ | ⟨next, read, rest⟩ := arguments_cons accepted
    · simp [← String.toList_inj] at dashes
    · rw [argument_attached] at read
      obtain ⟨middle, -, stored⟩ := bind_eq_ok read
      cases stores_of_store stored with
      | helper unset => exact Names.arguments (.inl rfl) rest
  · rw [List.append_assoc] at accepted
    obtain ⟨g', accepted⟩ := arguments_append accepted
    obtain ⟨dashes, -, -⟩ | ⟨next, read, rest⟩ := arguments_cons accepted
    · simp at dashes
    · rw [argument_awaited] at read
      obtain ⟨middle, -, same⟩ := bind_eq_ok read
      cases same
      exact names_of_awaiting rfl rest settled

end Given

variable {arguments : List String} {setting : Option String} {o : Options}

/-- The two rules by which the environment is read agree on every value but a blank one. -/
theorem ofVariable_eq_iff (setting : Option String) :
    (setting.map Config.mk).getD .default = Config.ofVariable setting ↔
      ∀ value, setting = some value → Text.trim value.toList ≠ [] := by
  cases setting with
  | none => simp [Config.ofVariable]
  | some value =>
    by_cases blank : Text.trim value.toList = []
    · have other : (⟨value⟩ : Config) ≠ .default := by
        rintro same
        cases same
        exact absurd blank (by decide)
      simp [Config.ofVariable, blank, other]
    · simp [Config.ofVariable, blank]

/-- Options that are accepted in one environment are accepted in every other, and only the helper
depends on it. The one that an option names is run whatever the environment says. Where no option
names one, the variable is taken as it stands: a blank one too, although the configuration read from
the same environment has the default in its place. -/
theorem helper_choice (accepted : ofArguments arguments setting = .ok o)
    (environment : String → Option String) :
    ∃ o', ofArguments arguments (environment Config.helperVariable) = .ok o' ∧
      o' = { o with helper := o'.helper } ∧
      (LeavesHelper arguments →
        o'.config = ((environment Config.helperVariable).map Config.mk).getD .default ∧
        (o'.config = Config.ofVariables (m := Id) environment ↔
          ∀ value, environment Config.helperVariable = some value →
            Text.trim value.toList ≠ [])) ∧
      ∀ helper, GivesHelper arguments helper → o'.config = ⟨helper⟩ := by
  obtain ⟨g, s, read, settled, answers⟩ := ofArguments_cases accepted
  refine ⟨_, answers (environment Config.helperVariable), rfl, fun leaves => ?_,
    fun helper gives => ?_⟩
  · have start : Given.IsUnnamed {} := ⟨rfl, by simp⟩
    have unnamed : s.helper = none := (start.arguments read leaves).settle settled
    have chosen : (⟨(environment Config.helperVariable).getD Config.defaultHelper⟩ : Config) =
        ((environment Config.helperVariable).map Config.mk).getD .default := by
      cases environment Config.helperVariable <;> rfl
    rw [Config.ofVariables_id, ← ofVariable_eq_iff, ← chosen, config, unnamed, Option.getD_none]
    exact ⟨rfl, Iff.rfl⟩
  · have named : s.helper = some helper := (Given.names_of_given read settled gives).settle settled
    rw [config, named, Option.getD_some]

/-- A blank variable is taken as it stands, and arguments that look like the option are none. -/
theorem helper_choice_blank :
    (∃ o, ofArguments ["--uid=1", "--pid", "2", "-l--helper", "--set", "seat=--helper=x"] none =
      .ok o) ∧
    ∃ o, ofArguments ["--uid=1", "--pid", "2", "-l--helper", "--set", "seat=--helper=x"]
        (some " ") = .ok o ∧
      o.config = ⟨" "⟩ ∧ o.config ≠ Config.ofVariables (m := Id) fun _ => some " " := by
  have read : ofArguments
      ["--uid=1", "--pid", "2", "-l--helper", "--set", "seat=--helper=x"] none = .ok
        { uid := 1, pid := 2, logDir := some "--helper"
          overrides := [⟨"seat", .text "--helper=x"⟩] } := rfl
  obtain ⟨o, accepted, -, left, -⟩ := helper_choice read fun _ => some " "
  obtain ⟨chosen, agree⟩ := left (by decide)
  refine ⟨⟨_, read⟩, o, accepted, chosen, fun same => agree.1 same " " rfl ?_⟩
  decide

/-- The two ways of choosing a helper do not agree in every environment. -/
theorem not_helper_choice : ¬∀ (arguments : List String) (environment : String → Option String)
    (o : Options), LeavesHelper arguments →
      ofArguments arguments (environment Config.helperVariable) = .ok o →
        o.config = Config.ofVariables (m := Id) environment := by
  intro agree
  have accepted : ofArguments ["--uid", "1000", "--pid", "42"] (some "   ") =
      .ok { uid := 1000, pid := 42, helper := "   " } := rfl
  have same := agree _ (fun _ => some "   ") _ (by decide) accepted
  have helpers : "   " = Config.defaultHelper := congrArg Config.helper same
  exact absurd helpers (by decide)

end Options

end LoginSession
