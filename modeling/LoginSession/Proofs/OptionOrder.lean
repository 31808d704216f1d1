import LoginSession.Options.Writing
import LoginSession.Proofs.ArgumentReading
import LoginSession.Proofs.Assignments
import LoginSession.Proofs.Numerals

namespace LoginSession

namespace OptionName

theorem mem_all (option : OptionName) : option ∈ all := by
  cases option <;> decide

def repeats : OptionName → Bool
  | .set | .verbose => true
  | _ => false

end OptionName

namespace Choice

/-- What it takes for a choice to be read back. -/
def IsReadable : Choice → Prop
  | .set p => p.IsAssignable
  | .logDir dir => dir ≠ ""
  | _ => True

theorem isSome_value? (c : Choice) : c.value?.isSome = c.option.takesValue := by
  cases c <;> rfl

end Choice

namespace Options

section Numbers

theorem le_ofDigitChars (digits : List Char) (m : Nat) : m ≤ Nat.ofDigitChars 10 digits m := by
  have scaled : m ≤ 10 ^ digits.length * m := Nat.le_mul_of_pos_left m (Nat.pow_pos (by decide))
  rw [Nat.ofDigitChars_eq_ofDigitChars_zero]
  omega

theorem readDigits_eq_ok {digits : List Char} (all : ∀ c ∈ digits, Text.isDigit c = true) {m : Nat}
    (bounded : Nat.ofDigitChars 10 digits m ≤ 9223372036854775807) :
    readDigits false m digits = .ok (Nat.ofDigitChars 10 digits m) := by
  induction digits generalizing m with
  | nil => rfl
  | cons c digits ih =>
    rw [List.forall_mem_cons] at all
    have digit : '0' ≤ c ∧ c ≤ '9' := by simpa [Text.isDigit] using all.1
    have range := Text.toNat_of_isDigit all.1
    have zero : '0'.toNat = 48 := rfl
    rw [Nat.ofDigitChars_cons] at bounded ⊢
    have next : (m : Int) * 10 + ((c.toNat : Int) - 48) =
        ((10 * m + (c.toNat - '0'.toNat) : Nat) : Int) := by omega
    have grows := le_ofDigitChars digits (10 * m + (c.toNat - '0'.toNat))
    simp only [readDigits, if_pos digit, Bool.false_eq_true, if_false, next]
    rw [if_neg (by omega), if_neg (by omega)]
    exact ih all.2 bounded

theorem readInt64_toDigits {text : String} {n : Nat} (written : text.toList = Nat.toDigits 10 n)
    (bounded : n ≤ 9223372036854775807) : readInt64 text = .ok n := by
  have digits : ∀ c ∈ Nat.toDigits 10 n, Text.isDigit c = true :=
    fun _ => Text.isDigit_of_mem_toDigits
  have plus : '+' ∉ Nat.toDigits 10 n := fun member => absurd (digits '+' member) (by decide)
  have minus : '-' ∉ Nat.toDigits 10 n := fun member => absurd (digits '-' member) (by decide)
  have back := Nat.ofDigitChars_ten_toDigits (n := n)
  have read := readDigits_eq_ok digits (back.symm ▸ bounded : _ ≤ _)
  rw [back] at read
  unfold readInt64
  rw [written]
  split
  · rename_i none
    exact absurd none Nat.toDigits_ne_nil
  · rename_i sign
    exact absurd (sign ▸ List.mem_cons_self) plus
  · rename_i sign
    exact absurd (sign ▸ List.mem_cons_self) minus
  · rename_i sign
    exact absurd (sign ▸ List.mem_cons_self) plus
  · rename_i sign
    exact absurd (sign ▸ List.mem_cons_self) minus
  · exact read

theorem readUInt32_toString (n : UInt32) : readUInt32 (toString n.toNat) = .ok n := by
  have small := n.toNat_lt
  have written : (toString n.toNat).toList = Nat.toDigits 10 n.toNat := by simp
  rw [readUInt32, readInt64_toDigits written (by omega)]
  dsimp only
  rw [if_pos (by omega), Int.toNat_natCast, UInt32.ofNat_toNat]

end Numbers

namespace Given

variable {g : Given} {c d : Choice} {cs ds : List Choice} {o : Options} {option : OptionName}

def take (g : Given) : Choice → Given
  | .uid n => { g with uid := some n }
  | .pid n => { g with pid := some n }
  | .service name => { g with service := some name }
  | .set p => { g with overrides := g.overrides ++ [p] }
  | .helper command => { g with helper := some command }
  | .json => { g with json := true }
  | .diagnostic => { g with diagnostic := true }
  | .logDir dir => { g with logDir := some dir }
  | .logFile name => { g with logFile := some name }
  | .verbose => { g with verbose := if g.verbose = 255 then 255 else g.verbose + 1 }
  | .quiet => { g with quiet := true }

def IsUnset (g : Given) : OptionName → Prop
  | .uid => g.uid = none
  | .pid => g.pid = none
  | .service => g.service = none
  | .set => g.overrides = []
  | .helper => g.helper = none
  | .json => g.json = false
  | .diagnostic => g.diagnostic = false
  | .logDir => g.logDir = none
  | .logFile => g.logFile = none
  | .verbose => g.verbose = 0
  | .quiet => g.quiet = false
  | .help | .version => True

theorem IsUnset.take (unset : g.IsUnset option) (other : c.option ≠ option) :
    (g.take c).IsUnset option := by
  cases c <;> cases option <;> first | exact unset | exact absurd rfl other

theorem take_comm (other : c.option ≠ d.option) : (g.take c).take d = (g.take d).take c := by
  cases c <;> cases d <;> first | rfl | exact absurd rfl other

theorem pending_take (g : Given) (c : Choice) : (g.take c).pending = g.pending := by
  cases c <;> rfl

theorem store_choice {value : String} (valued : c.value? = some value) (readable : c.IsReadable)
    (fresh : c.option.repeats = false → g.IsUnset c.option) :
    g.store c.option value = .ok (g.take c) := by
  cases c with
  | uid n =>
    have unset : g.uid = none := fresh rfl
    obtain rfl := Option.some.inj valued
    rw [Choice.option, store, readUInt32_toString]
    exact storeOnce_of_none unset
  | pid n =>
    have unset : g.pid = none := fresh rfl
    obtain rfl := Option.some.inj valued
    rw [Choice.option, store, readUInt32_toString]
    exact storeOnce_of_none unset
  | service name =>
    have unset : g.service = none := fresh rfl
    obtain rfl := Option.some.inj valued
    exact storeOnce_of_none unset
  | set p =>
    obtain rfl := Option.some.inj valued
    have read : Parameter.ofAssignment? (p.key ++ "=" ++ p.value.render) = some p :=
      Parameter.IsAssignable.ofAssignment?_eq readable (List.forall_mem_nil _)
        (List.forall_mem_nil _) (by simp)
    rw [Choice.option, store, read]
    exact storeOnce_of_none rfl
  | helper command =>
    have unset : g.helper = none := fresh rfl
    obtain rfl := Option.some.inj valued
    exact storeOnce_of_none unset
  | logDir dir =>
    have unset : g.logDir = none := fresh rfl
    have named : dir ≠ "" := readable
    obtain rfl := Option.some.inj valued
    simp [Choice.option, store, unset, named, take]
  | logFile name =>
    have unset : g.logFile = none := fresh rfl
    obtain rfl := Option.some.inj valued
    exact storeOnce_of_none unset
  | json | diagnostic | verbose | quiet => cases valued

theorem flagOnce_of_false {old : Bool} (unset : old = false) : flagOnce option old g = .ok g := by
  rw [flagOnce, unset]
  rfl

theorem flag_choice (settled : g.pending = none) (flag : c.value? = none)
    (fresh : c.option.repeats = false → g.IsUnset c.option) :
    g.flag c.option = .ok (g.take c) := by
  rw [Given.flag, settle_of_pending settled]
  cases c with
  | json =>
    have unset : g.json = false := fresh rfl
    exact flagOnce_of_false unset
  | diagnostic =>
    have unset : g.diagnostic = false := fresh rfl
    exact flagOnce_of_false unset
  | quiet =>
    have unset : g.quiet = false := fresh rfl
    exact flagOnce_of_false unset
  | verbose => rfl
  | uid | pid | service | set | helper | logDir | logFile => cases flag

theorem argument_verbose (g : Given) : g.argument "-v" = g.flag .verbose := by
  have letter : g.argument "-v" = g.short "-v" ['v'] := rfl
  have found : OptionName.ofShort? 'v' = some .verbose := by decide
  rw [letter, short, found]
  dsimp only [OptionName.takesValue]
  cases g.flag .verbose <;> rfl

theorem argument_choice (settled : g.pending = none) (readable : c.IsReadable)
    (fresh : c.option.repeats = false → g.IsUnset c.option) :
    g.argument c.argument = .ok (g.take c) := by
  have takes := c.isSome_value?
  rw [Choice.argument]
  cases valued : c.value? with
  | some value =>
    rw [valued, Option.isSome_some] at takes
    dsimp only
    rw [argument_assigned g takes.symm, attach, settle_of_pending settled]
    exact store_choice valued readable fresh
  | none =>
    rw [valued, Option.isSome_none] at takes
    have flagged := flag_choice settled valued fresh
    dsimp only
    split
    · rename_i steps
      subst steps
      rw [argument_verbose]
      exact flagged
    · rw [argument_named g takes.symm]
      exact flagged

theorem arguments_choices (settled : g.pending = none) (readable : ∀ c ∈ cs, c.IsReadable)
    (fresh : ∀ c ∈ cs, c.option.repeats = false → g.IsUnset c.option)
    (once : ∀ option, option.repeats = false → (cs.filter (·.option = option)).length ≤ 1) :
    g.arguments (cs.map Choice.argument) = .ok (cs.foldl take g) := by
  induction cs generalizing g with
  | nil => rfl
  | cons c cs ih =>
    rw [List.forall_mem_cons] at readable fresh
    rw [List.map_cons, arguments_cons_of_read (argument_choice settled readable.1 fresh.1),
      List.foldl_cons]
    refine ih ((pending_take g c).trans settled) readable.2 (fun d member single => ?_)
      fun option single => ?_
    · have other : c.option ≠ d.option := by
        intro same
        have count := once d.option single
        have again : d ∈ cs.filter (·.option = d.option) := by simpa using member
        have positive := List.length_pos_of_mem again
        rw [List.filter_cons_of_pos (by simpa using same), List.length_cons] at count
        omega
      exact (fresh.2 d member single).take other
    · have fewer := (List.sublist_cons_self c cs).filter (·.option = option)
      exact fewer.length_le.trans (once option single)

theorem foldl_take_of_ne (other : ∀ d ∈ cs, d.option ≠ c.option) :
    (cs.foldl take g).take c = cs.foldl take (g.take c) := by
  induction cs generalizing g with
  | nil => rfl
  | cons d cs ih =>
    rw [List.forall_mem_cons] at other
    rw [List.foldl_cons, List.foldl_cons, ih other.2, take_comm other.1]

theorem foldl_take_congr
    (same : ∀ option, cs.filter (·.option = option) = ds.filter (·.option = option)) :
    cs.foldl take g = ds.foldl take g := by
  induction cs generalizing ds g with
  | nil =>
    cases ds with
    | nil => rfl
    | cons d ds => simpa using same d.option
  | cons c cs ih =>
    -- in the other list the same choice comes first of its option, and may be moved to the front
    have first := (same c.option).symm
    rw [List.filter_cons_of_pos (by simp), List.filter_eq_cons_iff] at first
    obtain ⟨before, after, rfl, other, -, rest⟩ := first
    have apart : ∀ d ∈ before, d.option ≠ c.option := by simpa using other
    rw [List.foldl_append, List.foldl_cons, List.foldl_cons, foldl_take_of_ne apart,
      ← List.foldl_append]
    refine ih fun option => ?_
    have whole := same option
    by_cases here : c.option = option
    · subst here
      rw [List.filter_append, List.filter_eq_nil_iff.2 other, rest, List.nil_append]
    · rw [List.filter_append]
      simpa [here] using whole

theorem foldl_set (ps : List Parameter) :
    (ps.map Choice.set).foldl take g = { g with overrides := g.overrides ++ ps } := by
  induction ps generalizing g with
  | nil => simp
  | cons p ps ih =>
    rw [List.map_cons, List.foldl_cons, ih]
    simp [take]

theorem foldl_verbose {n : Nat} (bounded : g.verbose.toNat + n ≤ 255) :
    (List.replicate n Choice.verbose).foldl take g =
      { g with verbose := UInt8.ofNat (g.verbose.toNat + n) } := by
  induction n generalizing g with
  | zero => simp
  | succ n ih =>
    have small : g.verbose ≠ 255 := by
      intro last
      rw [last] at bounded
      have most : (255 : UInt8).toNat = 255 := rfl
      omega
    have next : (g.verbose + 1).toNat = g.verbose.toNat + 1 := by
      have one : (1 : UInt8).toNat = 1 := rfl
      rw [UInt8.toNat_add, one]
      exact Nat.mod_eq_of_lt (by omega)
    rw [List.replicate_succ, List.foldl_cons, take, if_neg small, ih (by rw [next]; omega), next]
    simp only [Nat.add_assoc, Nat.add_comm 1 n]

def fill (o : Options) (g : Given) : OptionName → Given
  | .uid => { g with uid := some o.uid }
  | .pid => { g with pid := some o.pid }
  | .service => { g with service := o.service }
  | .set => { g with overrides := o.overrides }
  | .helper => { g with helper := some o.helper }
  | .json => { g with json := o.json }
  | .diagnostic => { g with diagnostic := o.diagnostic }
  | .logDir => { g with logDir := o.logDir }
  | .logFile => { g with logFile := o.logFile }
  | .verbose => { g with verbose := o.verbose }
  | .quiet => { g with quiet := o.quiet }
  | .help | .version => g

theorem IsUnset.fill {other : OptionName} (unset : g.IsUnset option) (ne : other ≠ option) :
    (g.fill o other).IsUnset option := by
  cases other <;> cases option <;> first | exact unset | exact absurd rfl ne

theorem foldl_optional {α : Type} {choice : α → Choice} {old : Option α} (put : Option α → Given)
    (unset : old = none) (same : put old = g) (takes : ∀ a, g.take (choice a) = put (some a))
    (given : Option α) : (given.toList.map choice).foldl take g = put given := by
  subst unset
  cases given with
  | none => exact same.symm
  | some a => exact takes a

theorem foldl_flag {old : Bool} (put : Bool → Given) (unset : old = false) (same : put old = g)
    (takes : g.take c = put true) (given : Bool) :
    (if given then [c] else []).foldl take g = put given := by
  subst unset
  cases given with
  | false => exact same.symm
  | true => exact takes

theorem foldl_choicesFor (unset : g.IsUnset option) :
    (o.choicesFor option).foldl take g = g.fill o option := by
  cases option with
  | uid | pid | helper | help | version => rfl
  | set =>
    have none : g.overrides = [] := unset
    rw [choicesFor, foldl_set, fill, none, List.nil_append]
  | verbose =>
    have zero : g.verbose.toNat = 0 := congrArg UInt8.toNat unset
    have most := o.verbose.toNat_lt
    rw [choicesFor, foldl_verbose (by omega), fill, zero, Nat.zero_add, UInt8.ofNat_toNat]
  | service => exact foldl_optional (fun service => { g with service }) unset rfl (fun _ => rfl) _
  | logDir => exact foldl_optional (fun logDir => { g with logDir }) unset rfl (fun _ => rfl) _
  | logFile => exact foldl_optional (fun logFile => { g with logFile }) unset rfl (fun _ => rfl) _
  | json => exact foldl_flag (fun json => { g with json }) unset rfl rfl _
  | diagnostic => exact foldl_flag (fun diagnostic => { g with diagnostic }) unset rfl rfl _
  | quiet => exact foldl_flag (fun quiet => { g with quiet }) unset rfl rfl _

theorem foldl_flatMap_choicesFor {options : List OptionName} (nodup : options.Nodup)
    (unset : ∀ option ∈ options, g.IsUnset option) :
    (options.flatMap o.choicesFor).foldl take g = options.foldl (fill o) g := by
  induction options generalizing g with
  | nil => rfl
  | cons option options ih =>
    rw [List.nodup_cons] at nodup
    rw [List.forall_mem_cons] at unset
    rw [List.flatMap_cons, List.foldl_append, foldl_choicesFor unset.1, List.foldl_cons]
    refine ih nodup.2 fun other member => (unset.2 other member).fill ?_
    rintro rfl
    exact nodup.1 member

theorem finish_choices (o : Options) (setting : Option String) :
    (o.choices.foldl take {}).finish setting = .ok o := by
  have nodup : OptionName.all.Nodup := by decide
  have unset : ∀ option ∈ OptionName.all, ({} : Given).IsUnset option := by
    intro option _
    cases option <;> first | exact rfl | exact trivial
  rw [choices, foldl_flatMap_choicesFor nodup unset]
  rfl

end Given

section Order

variable {o : Options} {cs : List Choice} {c : Choice} {option : OptionName}

theorem option_of_mem_choicesFor (member : c ∈ o.choicesFor option) : c.option = option := by
  cases option with
  | json | diagnostic | quiet =>
    rw [choicesFor] at member
    split at member
    · obtain rfl := List.mem_singleton.1 member
      rfl
    · cases member
  | uid | pid | helper =>
    obtain rfl := List.mem_singleton.1 member
    rfl
  | service | set | logDir | logFile =>
    obtain ⟨_, -, rfl⟩ := List.mem_map.1 member
    rfl
  | verbose =>
    rw [List.eq_of_mem_replicate member]
    rfl
  | help | version => cases member

theorem mem_choices_iff : c ∈ o.choices ↔ c ∈ o.choicesFor c.option := by
  rw [choices, List.mem_flatMap]
  constructor
  · rintro ⟨option, -, member⟩
    rwa [option_of_mem_choicesFor member]
  · exact fun member => ⟨c.option, OptionName.mem_all c.option, member⟩

theorem filter_choicesFor (o : Options) (option other : OptionName) :
    (o.choicesFor other).filter (·.option = option) =
      if other = option then o.choicesFor other else [] := by
  split
  · rename_i same
    rw [List.filter_eq_self]
    intro c member
    simpa [same] using option_of_mem_choicesFor member
  · rename_i different
    rw [List.filter_eq_nil_iff]
    intro c member
    simpa [option_of_mem_choicesFor member] using different

theorem filter_choices (o : Options) (option : OptionName) :
    o.choices.filter (·.option = option) = o.choicesFor option := by
  rw [choices, List.filter_flatMap]
  simp only [filter_choicesFor]
  cases option <;> simp [OptionName.all]

theorem length_choicesFor_le_one (o : Options) (single : option.repeats = false) :
    (o.choicesFor option).length ≤ 1 := by
  cases option with
  | set | verbose => cases single
  | json | diagnostic | quiet =>
    rw [choicesFor]
    split <;> simp
  | service | logDir | logFile =>
    rw [choicesFor, List.length_map]
    exact Option.length_toList_le
  | uid | pid | helper | help | version => simp [choicesFor]

theorem filter_set (cs : List Choice) :
    cs.filter (·.option = .set) = (cs.filterMap Choice.override?).map .set := by
  induction cs with
  | nil => rfl
  | cons c cs ih =>
    cases c with
    | set p => exact congrArg (Choice.set p :: ·) ih
    | _ => exact ih

theorem IsOrder.filter (order : o.IsOrder cs) (option : OptionName) :
    cs.filter (·.option = option) = o.choicesFor option := by
  have perm := order.perm.filter (·.option = option)
  rw [filter_choices] at perm
  cases repeats : option.repeats with
  | false =>
    have short := o.length_choicesFor_le_one repeats
    match choices : o.choicesFor option with
    | [] => exact (choices ▸ perm).eq_nil
    | [c] => exact List.perm_singleton.1 (choices ▸ perm)
    | _ :: _ :: _ => simp [choices] at short
  | true =>
    cases option with
    | set => rw [filter_set, order.sequence, choicesFor]
    | verbose => exact List.perm_replicate.1 perm
    | _ => cases repeats

theorem IsOrder.mem_iff (order : o.IsOrder cs) : c ∈ cs ↔ c ∈ o.choicesFor c.option :=
  order.perm.mem_iff.trans mem_choices_iff

theorem isReadable_of_mem (assignable : ∀ p ∈ o.overrides, p.IsAssignable)
    (named : o.logDir ≠ some "") (member : c ∈ o.choicesFor c.option) : c.IsReadable := by
  cases c with
  | set p => exact assignable p (by simpa [Choice.option, choicesFor] using member)
  | logDir dir =>
    rintro rfl
    exact named (by simpa [Choice.option, choicesFor] using member)
  | _ => exact trivial

theorem IsOrder.ofArguments_eq (order : o.IsOrder cs)
    (assignable : ∀ p ∈ o.overrides, p.IsAssignable) (named : o.logDir ≠ some "")
    (setting : Option String) : ofArguments (cs.map Choice.argument) setting = .ok o := by
  have read : Given.arguments {} (cs.map Choice.argument) = .ok (cs.foldl Given.take {}) := by
    refine Given.arguments_choices rfl (fun c member => ?_) (fun c _ _ => ?_) fun option single => ?_
    · exact isReadable_of_mem assignable named (order.mem_iff.1 member)
    · cases c <;> rfl
    · rw [order.filter]
      exact o.length_choicesFor_le_one single
  have same : cs.foldl Given.take {} = o.choices.foldl Given.take {} := by
    refine Given.foldl_take_congr fun option => ?_
    rw [order.filter, filter_choices]
  rw [ofArguments, read, same]
  exact Given.finish_choices o setting

theorem IsOrder.quiet_mem_iff (order : o.IsOrder cs) : .quiet ∈ cs ↔ o.quiet = true := by
  rw [order.mem_iff, Choice.option, choicesFor]
  cases o.quiet <;> simp

theorem IsOrder.count_verbose (order : o.IsOrder cs) : cs.count .verbose = o.verbose.toNat := by
  have inside : (cs.filter (·.option = .verbose)).count .verbose = cs.count .verbose :=
    List.count_filter rfl
  rw [← inside, order.filter, choicesFor, List.count_replicate_self]

theorem logLevel_eq (o : Options) : o.logLevel =
    if o.quiet then .error else ([.warn, .info, .debug][o.verbose.toNat]?).getD .trace := by
  have zero : (0 : UInt8).toNat = 0 := rfl
  have one : (1 : UInt8).toNat = 1 := rfl
  have two : (2 : UInt8).toNat = 2 := rfl
  rw [logLevel]
  simp only [← UInt8.toNat_inj, zero, one, two]
  cases o.quiet with
  | true => rfl
  | false =>
    match o.verbose.toNat with
    | 0 | 1 | 2 => rfl
    | n + 3 => simp

theorem isDiagnostic_iff (o : Options) : o.isDiagnostic = true ↔
    o.diagnostic = true ∨ o.logDir.isSome = true ∨ o.logFile.isSome = true := by
  rw [isDiagnostic, Bool.or_eq_true, Bool.or_eq_true, or_assoc]

theorem IsOrder.isDiagnostic_eq (order : o.IsOrder cs) : o.isDiagnostic =
    cs.any (·.option ∈ [.diagnostic, .logDir, .logFile]) := by
  rw [Bool.eq_iff_iff, isDiagnostic_iff, List.any_eq_true]
  constructor
  · rintro (given | given | given)
    · exact ⟨.diagnostic, order.mem_iff.2 (by simp [Choice.option, choicesFor, given]), rfl⟩
    · obtain ⟨dir, given⟩ := Option.isSome_iff_exists.1 given
      exact ⟨.logDir dir, order.mem_iff.2 (by simp [Choice.option, choicesFor, given]), rfl⟩
    · obtain ⟨name, given⟩ := Option.isSome_iff_exists.1 given
      exact ⟨.logFile name, order.mem_iff.2 (by simp [Choice.option, choicesFor, given]), rfl⟩
  · rintro ⟨c, member, named⟩
    have given := order.mem_iff.1 member
    cases c with
    | diagnostic => exact .inl (by simpa [Choice.option, choicesFor] using given)
    | logDir dir =>
      have some : o.logDir = some dir := by simpa [Choice.option, choicesFor] using given
      exact .inr (.inl (Option.isSome_of_eq_some some))
    | logFile name =>
      have some : o.logFile = some name := by simpa [Choice.option, choicesFor] using given
      exact .inr (.inr (Option.isSome_of_eq_some some))
    | _ => exact absurd named Bool.false_ne_true

end Order

/-- Options that are written as arguments are read back from every order that keeps the overrides in
sequence, whatever the environment holds. What follows from them is told by what was chosen and how
often, whatever the order. -/
theorem ofArguments_anyOrder {o : Options} {cs : List Choice} (order : o.IsOrder cs)
    (assignable : ∀ p ∈ o.overrides, ∃ text, Parameter.ofAssignment? text = some p)
    (named : o.logDir ≠ some "") :
    (∀ setting, ofArguments (cs.map Choice.argument) setting = .ok o) ∧
    (∀ p ∈ o.overrides, p.value.kind = (Parameter.kindOf? p.key).getD .text) ∧
    o.logLevel = (if .quiet ∈ cs then .error
      else ([.warn, .info, .debug][cs.count .verbose]?).getD .trace) ∧
    o.isDiagnostic = cs.any (·.option ∈ [.diagnostic, .logDir, .logFile]) ∧
    .helper o.config.helper ∈ cs := by
  have assignable' : ∀ p ∈ o.overrides, p.IsAssignable := by
    intro p member
    obtain ⟨text, read⟩ := assignable p member
    exact Parameter.isAssignable_of_ofAssignment? read
  refine ⟨order.ofArguments_eq assignable' named, fun p member => (assignable' p member).kind, ?_,
    order.isDiagnostic_eq, order.mem_iff.2 (List.mem_singleton_self _)⟩
  rw [logLevel_eq, order.count_verbose]
  simp only [order.quiet_mem_iff]

/-- All the options at once, with values that look like options, and overrides that other options
stand between. -/
theorem ofArguments_anyOrder_shuffled :
    ofArguments ["-v", "--set=seat=--uid=7", "--json", "--log-file=--quiet", "--uid=4294967295", "-v",
      "--set=unix-user=-7", "--log-dir=-q", "--quiet", "--helper=", "--set=seat=", "--pid=0",
      "--diagnostic", "-v", "--service=a=b"] (some "c") = .ok
        { uid := 4294967295, pid := 0, service := some "a=b"
          overrides := [⟨"seat", .text "--uid=7"⟩, ⟨"unix-user", .int32 (-7)⟩, ⟨"seat", .text ""⟩]
          helper := "", json := true, diagnostic := true, logDir := some "-q"
          logFile := some "--quiet", verbose := 3, quiet := true } := by
  have order : IsOrder
      { uid := 4294967295, pid := 0, service := some "a=b"
        overrides := [⟨"seat", .text "--uid=7"⟩, ⟨"unix-user", .int32 (-7)⟩, ⟨"seat", .text ""⟩]
        helper := "", json := true, diagnostic := true, logDir := some "-q"
        logFile := some "--quiet", verbose := 3, quiet := true }
      [.verbose, .set ⟨"seat", .text "--uid=7"⟩, .json, .logFile "--quiet", .uid 4294967295, .verbose,
        .set ⟨"unix-user", .int32 (-7)⟩, .logDir "-q", .quiet, .helper "", .set ⟨"seat", .text ""⟩,
        .pid 0, .diagnostic, .verbose, .service "a=b"] :=
    ⟨by decide, rfl⟩
  have assignable : ∀ p ∈ [⟨"seat", .text "--uid=7"⟩, ⟨"unix-user", .int32 (-7)⟩,
      ⟨"seat", .text ""⟩], ∃ text, Parameter.ofAssignment? text = some p := by
    rw [List.forall_mem_cons, List.forall_mem_cons, List.forall_mem_singleton]
    exact ⟨⟨"seat=--uid=7", by decide⟩, ⟨"unix-user=-7", by decide⟩, ⟨"seat=", by decide⟩⟩
  obtain ⟨reads, -⟩ := ofArguments_anyOrder order assignable (by decide)
  exact reads (some "c")

end Options

end LoginSession
