import LoginSession.Proofs.RegisterMoves

namespace LoginSession

namespace Manager

namespace Entry

def isOpening : Entry → Bool
  | .opened _ _ _ => true
  | _ => false

def isRemoval : Entry → Bool
  | .removed _ _ _ => true
  | _ => false

def isReturn : Entry → Bool
  | .closed _ _ => true
  | _ => false

def changes (cookie : String) : Entry → Bool
  | .opened c _ _ | .removed c _ _ => c = cookie
  | _ => false

end Entry

def openings (record : List Entry) : Nat := record.countP Entry.isOpening

def removals (record : List Entry) : Nat := record.countP Entry.isRemoval

def returns (record : List Entry) : Nat := record.countP Entry.isReturn

/-- The last session that was opened under a cookie had this leader, and nobody has taken it out. -/
def Holds (record : List Entry) (cookie : String) (leader : Nat) : Prop :=
  ∃ before identity after, record = before ++ .opened cookie leader identity :: after ∧
    ∀ entry ∈ after, entry.changes cookie = false

def IsFree (record : List Entry) (cookie : String) : Prop := ∀ n, ¬Holds record cookie n

variable {α : Type} {m next : Manager α} {record added : List Entry} {e : Event α} {entry : Entry}

theorem not_holds_nil {cookie : String} {n : Nat} : ¬Holds [] cookie n := by
  rintro ⟨before, identity, after, same, -⟩
  simp at same

theorem concat_eq_append_cons_iff {x : Entry} {before after : List Entry} :
    record ++ [entry] = before ++ x :: after ↔
      (after = [] ∧ record = before ∧ entry = x) ∨
        ∃ rest, after = rest ++ [entry] ∧ record = before ++ x :: rest := by
  constructor
  · intro same
    rcases List.eq_nil_or_concat after with rfl | ⟨rest, last, rfl⟩
    · obtain ⟨rfl, ends⟩ := List.append_inj' same rfl
      exact .inl ⟨rfl, rfl, (List.cons.inj ends).1⟩
    · rw [List.concat_eq_append, ← List.cons_append, ← List.append_assoc] at same
      obtain ⟨rfl, ends⟩ := List.append_inj' same rfl
      obtain rfl := (List.cons.inj ends).1
      exact .inr ⟨rest, List.concat_eq_append, rfl⟩
  · rintro (⟨rfl, rfl, rfl⟩ | ⟨rest, rfl, rfl⟩)
    · rfl
    · rw [List.append_assoc, List.cons_append]

theorem holds_concat {cookie : String} {n : Nat} : Holds (record ++ [entry]) cookie n ↔
    (∃ identity, entry = .opened cookie n identity) ∨
      (Holds record cookie n ∧ entry.changes cookie = false) := by
  constructor
  · rintro ⟨before, identity, after, same, silent⟩
    rcases concat_eq_append_cons_iff.1 same with ⟨-, -, last⟩ | ⟨rest, rfl, before⟩
    · exact .inl ⟨identity, last⟩
    · rw [List.forall_mem_append, List.forall_mem_singleton] at silent
      exact .inr ⟨⟨_, identity, rest, before, silent.1⟩, silent.2⟩
  · rintro (⟨identity, rfl⟩ | ⟨⟨before, identity, after, rfl, silent⟩, last⟩)
    · exact ⟨record, identity, [], rfl, by simp⟩
    · refine ⟨before, identity, after ++ [entry], by simp, ?_⟩
      exact List.forall_mem_append.2 ⟨silent, List.forall_mem_singleton.2 last⟩

/-- What an entry says if it is right about the use that was made of the register before it. -/
inductive Fits (before : List Entry) : Entry → Prop where
  | opened {cookie : String} {identity : Identity} (free : IsFree before cookie)
    (session : identity.sessionId = some s!"Session{openings before + 1}")
    (named : identity.cookie = some cookie) :
    Fits before (.opened cookie (openings before) identity)
  | refused {cookie : String} {n : Nat} (taken : Holds before cookie n) :
    Fits before (.refused cookie (.leaderAlreadyExists cookie))
  | removed {cookie : String} {n : Nat} (taken : Holds before cookie n) :
    Fits before (.removed cookie n (removals before))
  | missed {cookie : String} (free : IsFree before cookie) :
    Fits before (.missed cookie (.leaderNotFound cookie))
  | closed {cookie : String} {n k : Nat} (removed : .removed cookie n k ∈ before)
    (once : .closed cookie k ∉ before) : Fits before (.closed cookie k)
  | got {cookie : String} {answer : Option Nat}
    (told : ∀ n, answer = some n ↔ Holds before cookie n) : Fits before (.got cookie answer)
  | found {cookie : String} {n : Nat} (taken : Holds before cookie n) :
    Fits before (.gotOrError cookie (.ok n))
  | notFound {cookie : String} (free : IsFree before cookie) :
    Fits before (.gotOrError cookie (.error (.leaderNotFound cookie)))
  | counted {size : Nat} (balance : size + removals before = openings before) :
    Fits before (.counted size)
  | listed {cookies : List String} (unique : cookies.Nodup)
    (told : ∀ cookie, cookie ∈ cookies ↔ ∃ n, Holds before cookie n)
    (balance : cookies.length + removals before = openings before) :
    Fits before (.listed cookies)

/-- Every entry of the record was right when it was made. -/
def AllFit (record : List Entry) : Prop :=
  ∀ before entry after, record = before ++ entry :: after → Fits before entry

theorem allFit_concat : AllFit (record ++ [entry]) ↔ AllFit record ∧ Fits record entry := by
  constructor
  · intro h
    refine ⟨fun before x after same => ?_, h record entry [] rfl⟩
    exact h before x (after ++ [entry]) (concat_eq_append_cons_iff.2 (.inr ⟨after, rfl, same⟩))
  · rintro ⟨h, fits⟩ before x after same
    rcases concat_eq_append_cons_iff.1 same with ⟨-, rfl, rfl⟩ | ⟨rest, -, same⟩
    · exact fits
    · exact h before x rest same

/-- The register, and what has been taken out of it, as the record has them. -/
structure Books (registry : Registry) (closings : List Closing) (record : List Entry) : Prop where
  opened : registry.opened = openings record
  found : ∀ cookie n, registry.find? cookie = some n ↔ Holds record cookie n
  unique : registry.cookies.Nodup
  leaders : (registry.entries.map (·.2) ++ closings.map (·.leader)).Perm
    (List.range registry.opened)
  removals : removals record = closings.length
  removed : ∀ cookie n k, .removed cookie n k ∈ record ↔
    ∃ stage, closings[k]? = some ⟨cookie, n, stage⟩
  returns : returns record = closings.countP (·.stage = .returned)
  closed : ∀ cookie k, .closed cookie k ∈ record ↔ ∃ n, closings[k]? = some ⟨cookie, n, .returned⟩

theorem getElem?_concat_eq_some_iff {β : Type} {xs : List β} {x y : β} {k : Nat} :
    (xs ++ [x])[k]? = some y ↔ xs[k]? = some y ∨ (k = xs.length ∧ x = y) := by
  rcases Nat.lt_trichotomy k xs.length with below | rfl | above
  · simp [List.getElem?_append_left below, Nat.ne_of_lt below]
  · simp
  · have beyond : (xs ++ [x]).length ≤ k := Nat.le_trans (Nat.le_of_eq List.length_append) above
    simp [List.getElem?_eq_none beyond, List.getElem?_eq_none (Nat.le_of_lt above),
      Nat.ne_of_gt above]

theorem getElem?_set_eq_some_iff {β : Type} {xs : List β} {x y z : β} {k i : Nat}
    (here : xs[k]? = some x) :
    (xs.set k y)[i]? = some z ↔ (i = k ∧ y = z) ∨ (i ≠ k ∧ xs[i]? = some z) := by
  rw [List.getElem?_set]
  have bound := (List.getElem?_eq_some_iff.1 here).1
  by_cases same : k = i
  · subst same
    simp [bound]
  · simp [same, Ne.symm same]

namespace Books

variable {registry : Registry} {closings : List Closing} {cookie : String} {n k : Nat} {c : Closing}

theorem start (config : Config) : Books { config } [] [] where
  opened := rfl
  found cookie n := iff_of_false (by simp [Registry.find?]) not_holds_nil
  unique := .nil
  leaders := .nil
  removals := rfl
  removed := by simp
  returns := rfl
  closed := by simp

theorem free_iff (h : Books registry closings record) :
    registry.find? cookie = none ↔ IsFree record cookie := by
  rw [Option.eq_none_iff_forall_ne_some]
  exact forall_congr' fun n => not_congr (h.found cookie n)

theorem balance (h : Books registry closings record) :
    registry.size + Manager.removals record = openings record := by
  have length := h.leaders.length_eq
  simpa [h.removals, ← h.opened, Registry.size] using length

theorem answered (h : Books registry closings record) (silent : ∀ cookie, entry.changes cookie = false)
    (unopened : entry.isOpening = false) (unremoved : entry.isRemoval = false)
    (unreturned : entry.isReturn = false) : Books registry closings (record ++ [entry]) where
  opened := by simp [h.opened, openings, unopened]
  found cookie n := by
    have other : ∀ identity, entry ≠ .opened cookie n identity := by
      rintro identity rfl
      cases unopened
    simp [h.found, holds_concat, silent, other]
  unique := h.unique
  leaders := h.leaders
  removals := by simpa [Manager.removals, unremoved] using h.removals
  removed cookie n k := by
    have other : .removed cookie n k ≠ entry := by
      rintro rfl
      cases unremoved
    simp [← h.removed, other]
  returns := by simpa [Manager.returns, unreturned] using h.returns
  closed cookie k := by
    have other : .closed cookie k ≠ entry := by
      rintro rfl
      cases unreturned
    simp [← h.closed, other]

theorem opening (h : Books registry closings record) (free : registry.find? cookie = none)
    (identity : Identity) : Books (registry.adding cookie) closings
      (record ++ [.opened cookie registry.opened identity]) where
  opened := by simp [Registry.adding, h.opened, openings, Entry.isOpening]
  found other n := by
    rw [Registry.find?_adding free, holds_concat, ← h.found]
    by_cases same : other = cookie
    · subst same
      simp [free, Entry.changes]
    · simp [same, Ne.symm same, Entry.changes]
  unique := by
    have new : cookie ∉ registry.cookies := by simp [Registry.mem_cookies_iff, free]
    rw [Registry.cookies, Registry.adding, List.map_append]
    exact List.concat_eq_append ▸ h.unique.concat new
  leaders := by
    rw [Registry.adding, List.map_append, List.append_assoc, List.range_succ]
    exact List.perm_append_comm.append_left _ |>.trans (by
      rw [← List.append_assoc]
      exact h.leaders.append_right _)
  removals := by simpa [Manager.removals, Entry.isRemoval] using h.removals
  removed cookie n k := by simp [← h.removed]
  returns := by simpa [Manager.returns, Entry.isReturn] using h.returns
  closed cookie k := by simp [← h.closed]

theorem removing (h : Books registry closings record) (taken : registry.find? cookie = some n) :
    Books (registry.without cookie) (closings ++ [{ cookie, leader := n }])
      (record ++ [.removed cookie n closings.length]) where
  opened := by simpa [Registry.without, openings, Entry.isOpening] using h.opened
  found other n := by
    rw [Registry.find?_without, holds_concat, ← h.found]
    by_cases same : other = cookie
    · subst same
      simp [Entry.changes]
    · simp [same, Ne.symm same, Entry.changes]
  unique := by
    rw [Registry.cookies_without]
    exact h.unique.filter _
  leaders := by
    have perm := (Registry.leaders_perm h.unique taken).append_right (closings.map (·.leader))
    rw [List.map_append, ← List.append_assoc]
    refine (List.perm_append_comm.trans ?_).trans h.leaders
    exact perm.symm
  removals := by simp [Manager.removals, Entry.isRemoval, ← h.removals]
  removed other m k := by
    simp only [List.mem_append, h.removed, List.mem_singleton, Entry.removed.injEq,
      getElem?_concat_eq_some_iff, Closing.mk.injEq, exists_or]
    refine or_congr_right ⟨?_, ?_⟩
    · rintro ⟨rfl, rfl, rfl⟩
      exact ⟨.removed, rfl, rfl, rfl, rfl⟩
    · rintro ⟨_, rfl, rfl, rfl, -⟩
      exact ⟨rfl, rfl, rfl⟩
  returns := by simpa [Manager.returns, Entry.isReturn] using h.returns
  closed other k := by
    rw [List.mem_append, h.closed]
    simp [getElem?_concat_eq_some_iff]

theorem map_leader_set (here : closings[k]? = some c) (stage : Closing.Stage) :
    (closings.set k { c with stage }).map (·.leader) = closings.map (·.leader) :=
  Sessions.map_set_of_eq Closing.leader here rfl

theorem exists_stage_set (here : closings[k]? = some c) (stage : Closing.Stage) (i : Nat) :
    (∃ s, (closings.set k { c with stage })[i]? = some ⟨cookie, n, s⟩) ↔
      ∃ s, closings[i]? = some ⟨cookie, n, s⟩ := by
  simp only [getElem?_set_eq_some_iff here]
  by_cases same : i = k
  · subst same
    obtain ⟨_, _, stage'⟩ := c
    simp [here]
  · simp [same]

theorem advancing (h : Books registry closings record) (here : closings[k]? = some c)
    (before : c.stage ≠ .returned) {stage : Closing.Stage} (after : stage ≠ .returned) :
    Books registry (closings.set k { c with stage }) record where
  opened := h.opened
  found := h.found
  unique := h.unique
  leaders := by
    rw [map_leader_set here]
    exact h.leaders
  removals := by rw [h.removals, List.length_set]
  removed cookie n i := by rw [h.removed, exists_stage_set here]
  returns := by
    obtain ⟨bound, rfl⟩ := List.getElem?_eq_some_iff.1 here
    rw [h.returns, List.countP_set bound]
    simp [before, after]
  closed cookie i := by
    rw [h.closed]
    refine exists_congr fun n => ?_
    rw [getElem?_set_eq_some_iff here]
    by_cases same : i = k
    · subst same
      refine iff_of_false (fun there => ?_) ?_
      · exact before (congrArg Closing.stage (Option.some.inj (here.symm.trans there)))
      · rintro (⟨-, same⟩ | ⟨other, -⟩)
        · exact after (congrArg Closing.stage same)
        · exact other rfl
    · simp [same]

theorem returning (h : Books registry closings record) (here : closings[k]? = some c)
    (before : c.stage ≠ .returned) :
    Books registry (closings.set k { c with stage := .returned })
      (record ++ [.closed c.cookie k]) where
  opened := by simpa [openings, Entry.isOpening] using h.opened
  found cookie n := by simp [h.found, holds_concat, Entry.changes]
  unique := h.unique
  leaders := by
    rw [map_leader_set here]
    exact h.leaders
  removals := by simpa [Manager.removals, Entry.isRemoval] using h.removals
  removed cookie n i := by
    rw [exists_stage_set here, ← h.removed]
    simp
  returns := by
    obtain ⟨bound, rfl⟩ := List.getElem?_eq_some_iff.1 here
    have same : Manager.returns (record ++ [.closed closings[k].cookie k]) =
        Manager.returns record + 1 := by simp [Manager.returns, Entry.isReturn]
    rw [same, h.returns, List.countP_set bound]
    simp [before]
  closed cookie i := by
    simp only [List.mem_append, h.closed, List.mem_singleton, Entry.closed.injEq,
      getElem?_set_eq_some_iff here]
    by_cases same : i = k
    · subst same
      have unreturned : ∀ n, closings[i]? ≠ some ⟨cookie, n, .returned⟩ := fun n there =>
        before (congrArg Closing.stage (Option.some.inj (here.symm.trans there)))
      simp [unreturned, eq_comm]
    · simp [same]

theorem step (h : Books m.registry m.closings record) (moves : m.Moves e next added) :
    Books next.registry next.closings (record ++ added) := by
  cases moves with
  | elsewhere _ => simpa using h
  | opened free => exact h.opening free _
  | removed taken => exact h.removing taken
  | flag here stage _ _ => simpa using h.advancing here (by simp [stage]) (by simp)
  | cancel here stage _ _ => simpa using h.advancing here (by simp [stage]) (by simp)
  | finish here stage _ _ => exact h.returning here (by simp [stage])
  | refused _ | missed _ | get | getOrError | count | cookies =>
    exact h.answered (fun _ => rfl) rfl rfl rfl

theorem fits (h : Books m.registry m.closings record) (moves : m.Moves e next added) :
    added = [] ∨ ∃ entry, added = [entry] ∧ Fits record entry := by
  have holds : ∀ {cookie n}, m.registry.find? cookie = some n → Holds record cookie n :=
    fun taken => (h.found _ _).1 taken
  have adds : ∀ {entry}, Fits record entry →
      [entry] = [] ∨ ∃ x, [entry] = [x] ∧ Fits record x := fun fits => .inr ⟨_, rfl, fits⟩
  cases moves with
  | elsewhere _ | flag _ _ _ _ | cancel _ _ _ _ => exact .inl rfl
  | opened free =>
    rw [h.opened]
    exact adds (.opened (h.free_iff.1 free) (by rw [← h.opened]; rfl) rfl)
  | refused taken => exact adds (.refused (holds taken))
  | removed taken =>
    rw [← h.removals]
    exact adds (.removed (holds taken))
  | missed free => exact adds (.missed (h.free_iff.1 free))
  | @finish k j c _ here stage _ _ =>
    -- a call that was still cancelling cannot have returned before
    refine adds (.closed ((h.removed _ _ _).2 ⟨c.stage, here⟩) fun before => ?_)
    obtain ⟨n, there⟩ := (h.closed _ _).1 before
    rw [Option.some.inj (here.symm.trans there)] at stage
    cases stage
  | get => exact adds (.got (h.found _))
  | @getOrError cookie =>
    rw [Registry.find]
    split
    · rename_i n taken
      exact adds (.found (holds taken))
    · rename_i free
      exact adds (.notFound (h.free_iff.1 free))
  | count => exact adds (.counted h.balance)
  | cookies =>
    refine adds (.listed h.unique (fun cookie => ?_) ?_)
    · rw [Registry.mem_cookies_iff]
      exact exists_congr (h.found cookie)
    · rw [Registry.cookies, List.length_map]
      exact h.balance

end Books

end Manager

end LoginSession
