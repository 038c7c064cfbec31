import RecordTables.Bootstrap
import Mathlib.Logic.Basic

/-!
A life moves forward and ends once.

`Operation` is what can be done with the life of an instance, by whoever holds it and in any order; the
functions that load, inject and register and the scripts are arbitrary.  A run is a list of `Turn`s.
Which operations take effect depends on three facts about the turns before: whether a load has
succeeded, whether a registration has, and whether the life has ended, by a release or by a load or a
registration that failed.  The phase of a life is these three facts (`Stands`); one turn keeps that, so
every turn of a run does.  A script that is executed waits for a registration; one that is performed on
the Lua state itself does not (`script_before_registration`).
-/

namespace RecordTables
namespace Life

/-! ## Turns -/

/-- What can be done with the life of an instance. -/
inductive Operation where
  | load (step : Instance → Except BootstrapError Unit × Instance)
  | inject (step : Instance → Except RegistrationError Unit × Instance)
  | register (step : Instance → Except RegistrationError Unit × Instance)
  | execute (script : Action (List Value))
  | perform (script : Action (List Value))
  | release

namespace Operation

@[simp] def IsLoad : Operation → Prop
  | .load _ => True
  | _ => False

@[simp] def IsRegister : Operation → Prop
  | .register _ => True
  | _ => False

@[simp] def IsRelease : Operation → Prop
  | .release => True
  | _ => False

end Operation

/-- How an operation turned out. -/
inductive Answer where
  | refused
  | succeeded
  | failed
  deriving DecidableEq

/-- A refused operation leaves the life as it was. -/
def settle {ε α : Type} (l : Life) : Except Misuse (Except ε α × Life) → Answer × Life
  | .error _ => (.refused, l)
  | .ok (.ok _, l') => (.succeeded, l')
  | .ok (.error _, l') => (.failed, l')

def apply (l : Life) : Operation → Answer × Life
  | .load step => l.settle (l.load step)
  | .inject step => l.settle (l.inject step)
  | .register step => l.settle (l.register step)
  | .execute script => l.settle (l.execute script)
  | .perform script => l.settle (l.perform script)
  | .release => (if l.phase = .released then .refused else .succeeded, l.release)

/-- One operation, how it turned out, and the life before and after it. -/
structure Turn where
  operation : Operation
  answer : Answer
  before : Life
  after : Life

/-- The turn of a life by an operation. -/
def turn (l : Life) (op : Operation) : Turn := ⟨op, (l.apply op).1, l, (l.apply op).2⟩

def turns (l : Life) : List Operation → List Turn
  | [] => []
  | op :: ops => l.turn op :: (l.turn op).after.turns ops

def run (l : Life) (ops : List Operation) : Life := ops.foldl (fun l op => (l.apply op).2) l

/-! ## What decides -/

def Loaded (past : List Turn) : Prop :=
  ∃ t ∈ past, t.operation.IsLoad ∧ t.answer = .succeeded

def Registered (past : List Turn) : Prop :=
  ∃ t ∈ past, t.operation.IsRegister ∧ t.answer = .succeeded

/-- The life was released, or lost to a step that failed. -/
def Ended (past : List Turn) : Prop :=
  ∃ t ∈ past, t.operation.IsRelease ∨
    (t.operation.IsLoad ∨ t.operation.IsRegister) ∧ t.answer = .failed

/-- The operation takes effect after these turns. -/
def Operation.MayFollow (past : List Turn) : Operation → Prop
  | .load _ => ¬Loaded past ∧ ¬Ended past
  | .inject _ | .register _ => Loaded past ∧ ¬Registered past ∧ ¬Ended past
  | .execute _ => Registered past ∧ ¬Ended past
  | .perform _ | .release => ¬Ended past

/-- The phase is what the turns have made it. -/
def Stands (past : List Turn) : Phase → Prop
  | .created => ¬Loaded past ∧ ¬Registered past ∧ ¬Ended past
  | .loaded => Loaded past ∧ ¬Registered past ∧ ¬Ended past
  | .ready => Loaded past ∧ Registered past ∧ ¬Ended past
  | .released => Ended past

theorem stands_nil : Stands [] .created := by
  simp [Stands, Loaded, Registered, Ended]

@[simp] theorem loaded_append {past : List Turn} {t : Turn} :
    Loaded (past ++ [t]) ↔ Loaded past ∨ t.operation.IsLoad ∧ t.answer = .succeeded := by
  simp [Loaded, or_and_right, exists_or]

@[simp] theorem registered_append {past : List Turn} {t : Turn} :
    Registered (past ++ [t]) ↔
      Registered past ∨ t.operation.IsRegister ∧ t.answer = .succeeded := by
  simp [Registered, or_and_right, exists_or]

@[simp] theorem ended_append {past : List Turn} {t : Turn} :
    Ended (past ++ [t]) ↔ Ended past ∨ t.operation.IsRelease ∨
      (t.operation.IsLoad ∨ t.operation.IsRegister) ∧ t.answer = .failed := by
  simp only [Ended, List.mem_append, List.mem_singleton, or_and_right, exists_or, exists_eq_left]

/-! ## One turn -/

/-- The operation belongs to the phase. -/
@[simp] def Operation.Belongs (p : Phase) : Operation → Prop
  | .load _ => p = .created
  | .inject _ | .register _ => p = .loaded
  | .execute _ => p = .ready
  | .perform _ | .release => p ≠ .released

/-- Everything that an operation can do with a life. -/
inductive Applies (l : Life) : Operation → Answer → Life → Prop
  | refused {op : Operation} (h : ¬op.Belongs l.phase) : Applies l op .refused l
  | loaded {step} {i : Instance} (h : l.phase = .created) (hs : step l.state = (.ok (), i)) :
      Applies l (.load step) .succeeded (l.move .loaded i)
  | loadFailed {step e} {i : Instance} (h : l.phase = .created)
      (hs : step l.state = (.error e, i)) :
      Applies l (.load step) .failed (l.move l.phase i).release
  | injected {step} {answer : Answer} (h : l.phase = .loaded) (ha : answer ≠ .refused) :
      Applies l (.inject step) answer (l.move .loaded (step l.state).2)
  | registered {step} {i : Instance} (h : l.phase = .loaded) (hs : step l.state = (.ok (), i)) :
      Applies l (.register step) .succeeded (l.move .ready i)
  | registerFailed {step e} {i : Instance} (h : l.phase = .loaded)
      (hs : step l.state = (.error e, i)) :
      Applies l (.register step) .failed (l.move l.phase i).release
  | executed {script : Action (List Value)} {answer : Answer} (h : l.phase = .ready)
      (ha : answer ≠ .refused) :
      Applies l (.execute script) answer (l.move l.phase (script.run.run l.state).2)
  | performed {script : Action (List Value)} {answer : Answer} (h : l.phase ≠ .released)
      (ha : answer ≠ .refused) :
      Applies l (.perform script) answer (l.move l.phase (script.run.run l.state).2)
  | released (h : l.phase ≠ .released) : Applies l .release .succeeded l.release

theorem misuse?_eq_none_iff {l : Life} {p : Phase} (hp : p ≠ .released) :
    l.misuse? p = none ↔ l.phase = p := by
  unfold misuse?
  split
  · next h => simp [h]
  · next h => cases hl : l.phase <;> cases p <;> simp_all

theorem exists_misuse {l : Life} {p : Phase} (hp : p ≠ .released) (h : l.phase ≠ p) :
    ∃ misuse, l.misuse? p = some misuse :=
  Option.ne_none_iff_exists'.1 fun hn => h ((misuse?_eq_none_iff hp).1 hn)

/-- What follows a step that may end the life. -/
theorem advance_cases {ε : Type} (l : Life) (next : Phase) (r : Except ε Unit × Instance) :
    (∃ i, r = (.ok (), i) ∧ l.advance next r = (.ok (), l.move next i)) ∨
    ∃ e i, r = (.error e, i) ∧ l.advance next r = (.error e, (l.move l.phase i).release) := by
  obtain ⟨outcome, i⟩ := r
  cases outcome with
  | ok _ => exact .inl ⟨i, rfl, rfl⟩
  | error e => exact .inr ⟨e, i, rfl, rfl⟩

theorem perform_of_alive {α : Type} {l : Life} (h : l.phase ≠ .released) (action : Action α) :
    l.perform action =
      .ok ((action.run.run l.state).1, l.move l.phase (action.run.run l.state).2) := by
  unfold perform
  rw [if_neg h]
  rfl

theorem settle_ok {ε α : Type} (l : Life) (r : Except ε α × Life) :
    (l.settle (.ok r)).1 ≠ .refused ∧ (l.settle (.ok r)).2 = r.2 := by
  obtain ⟨outcome, l'⟩ := r
  cases outcome with
  | ok a => exact ⟨by simp [settle], rfl⟩
  | error e => exact ⟨by simp [settle], rfl⟩

theorem apply_of_not_belongs {l : Life} {op : Operation} (h : ¬op.Belongs l.phase) :
    l.apply op = (.refused, l) := by
  have loaded : Phase.loaded ≠ .released := by decide
  cases op with
  | load step =>
    obtain ⟨misuse, hm⟩ := exists_misuse (by decide : Phase.created ≠ .released) h
    simp only [apply, load, hm, settle]
  | inject step =>
    obtain ⟨misuse, hm⟩ := exists_misuse loaded h
    simp only [apply, inject, hm, settle]
  | register step =>
    obtain ⟨misuse, hm⟩ := exists_misuse loaded h
    simp only [apply, register, hm, settle]
  | execute script =>
    obtain ⟨misuse, hm⟩ := exists_misuse (by decide : Phase.ready ≠ .released) h
    simp only [apply, execute, hm, settle]
  | perform script =>
    have hr : l.phase = .released := Decidable.not_not.1 h
    simp only [apply, perform, if_pos hr, settle]
  | release =>
    have hr : l.phase = .released := Decidable.not_not.1 h
    simp only [apply, release, if_pos hr]

theorem applies (l : Life) (op : Operation) : l.Applies op (l.apply op).1 (l.apply op).2 := by
  have loaded : Phase.loaded ≠ .released := by decide
  by_cases h : op.Belongs l.phase
  · cases op with
    | load step =>
      have hm := (misuse?_eq_none_iff (by decide : Phase.created ≠ .released)).2 h
      rcases l.advance_cases .loaded (step l.state) with ⟨i, hs, ha⟩ | ⟨e, i, hs, ha⟩
      · simp only [apply, load, hm, ha, settle]
        exact .loaded h hs
      · simp only [apply, load, hm, ha, settle]
        exact .loadFailed h hs
    | inject step =>
      have hm := (misuse?_eq_none_iff loaded).2 h
      simp only [apply, inject, hm]
      obtain ⟨ha, hl⟩ := settle_ok l ((step l.state).1, l.move .loaded (step l.state).2)
      rw [hl]
      exact .injected h ha
    | register step =>
      have hm := (misuse?_eq_none_iff loaded).2 h
      rcases l.advance_cases .ready (step l.state) with ⟨i, hs, ha⟩ | ⟨e, i, hs, ha⟩
      · simp only [apply, register, hm, ha, settle]
        exact .registered h hs
      · simp only [apply, register, hm, ha, settle]
        exact .registerFailed h hs
    | execute script =>
      have hm := (misuse?_eq_none_iff (by decide : Phase.ready ≠ .released)).2 h
      have alive : l.phase ≠ .released := fun hr => nomatch h.symm.trans hr
      obtain ⟨ha, hl⟩ := settle_ok l ((script.run.run l.state).1,
        l.move l.phase (script.run.run l.state).2)
      simp only [apply, execute, hm, perform_of_alive alive]
      rw [hl]
      exact .executed h ha
    | perform script =>
      obtain ⟨ha, hl⟩ := settle_ok l ((script.run.run l.state).1,
        l.move l.phase (script.run.run l.state).2)
      simp only [apply, perform_of_alive h]
      rw [hl]
      exact .performed h ha
    | release =>
      simp only [apply, if_neg h]
      exact .released h
  · rw [apply_of_not_belongs h]
    exact .refused h

/-- An operation takes effect exactly in its phase. -/
theorem apply_eq_refused_iff {l : Life} {op : Operation} :
    (l.apply op).1 = .refused ↔ ¬op.Belongs l.phase := by
  have happlies := l.applies op
  generalize (l.apply op).1 = answer, (l.apply op).2 = l' at happlies ⊢
  cases happlies with
  | refused h => simpa using h
  | injected h ha => simp [Operation.Belongs, h, ha]
  | executed h ha => simp [Operation.Belongs, h, ha]
  | performed h ha => simp [Operation.Belongs, h, ha]
  | _ h => simp [Operation.Belongs, h]

/-- A refused operation changes nothing. -/
theorem apply_refused {l : Life} {op : Operation} (h : (l.apply op).1 = .refused) :
    (l.apply op).2 = l := by
  rw [apply_of_not_belongs (apply_eq_refused_iff.1 h)]

@[simp] theorem release_phase (l : Life) : l.release.phase = .released := by
  unfold release
  split
  · assumption
  · rfl

/-- Which operations belong to a phase is which may follow the turns that made it. -/
theorem Stands.belongs_iff {past : List Turn} {p : Phase} (h : Stands past p) (op : Operation) :
    op.Belongs p ↔ op.MayFollow past := by
  cases p <;> cases op <;> simp_all [Stands, Operation.Belongs, Operation.MayFollow]

/-- A turn keeps the phase to what the turns have made it. -/
theorem Stands.turn {past : List Turn} {l : Life} (h : Stands past l.phase) (op : Operation) :
    Stands (past ++ [l.turn op]) (l.turn op).after.phase := by
  have happlies := l.applies op
  unfold Life.turn
  generalize (l.apply op).1 = answer, (l.apply op).2 = l' at happlies ⊢
  cases happlies with
  | refused hb =>
    -- a release is refused only where the life has ended before
    have ended : op.IsRelease → Ended past := by
      intro hr
      cases op with
      | release => exact not_not.1 ((h.belongs_iff _).not.1 hb)
      | _ => exact hr.elim
    cases hp : l.phase <;> rw [hp] at h <;> simp_all [Stands]
  | loaded hp _ =>
    rw [hp] at h
    simp_all [Stands]
  | loadFailed hp _ => simp [Stands]
  | injected hp _ =>
    rw [hp] at h
    simp_all [Stands]
  | registered hp _ =>
    rw [hp] at h
    simp_all [Stands]
  | registerFailed hp _ => simp [Stands]
  | executed hp _ =>
    show Stands _ l.phase
    rw [hp] at h ⊢
    simp_all [Stands]
  | performed hp _ =>
    show Stands _ l.phase
    cases hl : l.phase <;> rw [hl] at h <;> simp_all [Stands]
  | released _ => simp [Stands]

/-! ## Runs -/

theorem turns_stand {past : List Turn} {l : Life} (h : Stands past l.phase)
    {ops : List Operation} {more later : List Turn} {t : Turn}
    (hturns : l.turns ops = more ++ t :: later) :
    Stands (past ++ more) t.before.phase ∧ t = t.before.turn t.operation := by
  induction ops generalizing past l more with
  | nil => simp [turns] at hturns
  | cons op ops ih =>
    cases more with
    | nil =>
      obtain ⟨rfl, -⟩ := List.cons.inj hturns
      rw [List.append_nil]
      exact ⟨h, rfl⟩
    | cons t' more =>
      obtain ⟨rfl, hrest⟩ := List.cons.inj hturns
      have later := ih (h.turn op) hrest
      rwa [List.append_assoc, List.singleton_append] at later

theorem rank_turn (l : Life) (op : Operation) :
    l.phase.rank ≤ (l.turn op).after.phase.rank := by
  have happlies := l.applies op
  unfold turn
  generalize (l.apply op).1 = answer, (l.apply op).2 = l' at happlies ⊢
  have most : ∀ p : Phase, p.rank ≤ 3 := by
    intro p
    cases p <;> decide
  cases happlies with
  | refused _ => exact Nat.le_refl _
  | loadFailed _ _ => rw [release_phase]; exact most _
  | registerFailed _ _ => rw [release_phase]; exact most _
  | released _ => rw [release_phase]; exact most _
  | loaded h _ =>
    rw [h]
    show Phase.created.rank ≤ Phase.loaded.rank
    decide
  | injected h _ => exact Nat.le_of_eq (congrArg Phase.rank h)
  | registered h _ =>
    rw [h]
    show Phase.loaded.rank ≤ Phase.ready.rank
    decide
  | executed _ _ => exact Nat.le_refl _
  | performed _ _ => exact Nat.le_refl _

theorem pairwise_ranks (l : Life) (ops : List Operation) :
    (l.phase.rank :: (l.turns ops).map (·.after.phase.rank)).Pairwise (· ≤ ·) := by
  induction ops generalizing l with
  | nil => simp [turns]
  | cons op ops ih =>
    have later := ih (l.turn op).after
    have first := l.rank_turn op
    rw [List.pairwise_cons] at later
    refine List.pairwise_cons.2 ⟨fun r hr => ?_, List.pairwise_cons.2 later⟩
    rcases List.mem_cons.1 hr with rfl | hr
    · exact first
    · exact Nat.le_trans first (later.1 r hr)

/-! ## Releases

A release leaves a line in the log.  The count of these lines is how often a life was released, as long
as the operations themselves write none (`Silent`). -/

end Life

/-- The entry is the line of a release. -/
def Log.Entry.isRelease (e : Log.Entry) : Bool :=
  "releasing runtime instance".toList.isPrefixOf e.text.toList

def Instance.releases (i : Instance) : Nat := i.log.countP Log.Entry.isRelease

namespace Life

/-- The turn ends a life that had not ended. -/
def Turn.Ends (t : Turn) : Bool := t.before.phase ≠ .released ∧ t.after.phase = .released

/-- The operation writes no line of a release by itself. -/
def Operation.Silent : Operation → Prop
  | .load step => ∀ i, (step i).2.releases = i.releases
  | .inject step | .register step => ∀ i, (step i).2.releases = i.releases
  | .execute script | .perform script => ∀ i, (script.run.run i).2.releases = i.releases
  | .release => True

theorem releases_release {l : Life} (h : l.phase ≠ .released) :
    l.release.state.releases = l.state.releases + 1 := by
  have line : Log.Entry.isRelease ⟨.debug,
      s!"releasing runtime instance ({l.bytesInUse l.state} bytes in use)"⟩ = true := by
    have opening : (toString "releasing runtime instance (").toList =
        "releasing runtime instance".toList ++ [' ', '('] := rfl
    rw [Log.Entry.isRelease, List.isPrefixOf_iff_prefix]
    simp only [String.toList_append, opening, List.append_assoc]
    exact List.prefix_append _ _
  simp only [release, if_neg h, move_state, Instance.releases, Instance.note, List.countP_append]
  rw [List.countP_singleton, if_pos line]

theorem releases_release_move (l : Life) {p : Phase} (hp : p ≠ .released) (i : Instance) :
    (l.move p i).release.state.releases = i.releases + 1 :=
  releases_release (show (l.move p i).phase ≠ .released from hp)

theorem turn_after_released {l : Life} (h : l.phase = .released) (op : Operation) :
    (l.turn op).after = l := by
  have happlies := l.applies op
  unfold turn
  generalize (l.apply op).1 = answer, (l.apply op).2 = l' at happlies ⊢
  cases happlies with
  | refused _ => rfl
  | performed hp _ => exact absurd h hp
  | released hp => exact absurd h hp
  | _ hp => rw [h] at hp; cases hp

/-- A turn writes one line of a release if it ends the life, and none if not. -/
theorem releases_turn (l : Life) {op : Operation} (hs : op.Silent) :
    (l.turn op).after.state.releases = l.state.releases + (l.turn op).Ends.toNat := by
  have happlies := l.applies op
  unfold turn Turn.Ends
  generalize (l.apply op).1 = answer, (l.apply op).2 = l' at happlies ⊢
  cases happlies with
  | refused _ => simp
  | loaded hp he => simp [← hs l.state, he]
  | loadFailed hp he => simp [releases_release_move, hp, ← hs l.state, he]
  | injected hp _ => simp [hs l.state]
  | registered hp he => simp [← hs l.state, he]
  | registerFailed hp he => simp [releases_release_move, hp, ← hs l.state, he]
  | executed hp _ => simp [hp, hs l.state]
  | performed hp _ => simp [hp, hs l.state]
  | released hp => simp [releases_release, hp]

theorem run_after_released {l : Life} (h : l.phase = .released) (ops : List Operation) :
    l.run ops = l := by
  induction ops with
  | nil => rfl
  | cons op ops ih =>
    have same : (l.apply op).2 = l := l.turn_after_released h op
    rw [run, List.foldl_cons, same]
    exact ih

theorem countP_ends (l : Life) (ops : List Operation) :
    (l.turns ops).countP Turn.Ends =
      (decide (l.phase ≠ .released ∧ (l.run ops).phase = .released)).toNat := by
  induction ops generalizing l with
  | nil => simp [turns, run]
  | cons op ops ih =>
    have hrun : l.run (op :: ops) = (l.turn op).after.run ops := rfl
    have hbefore : (l.turn op).before = l := rfl
    rw [turns, List.countP_cons, ih, hrun]
    by_cases hl : l.phase = .released
    · have hafter := l.turn_after_released hl op
      simp [Turn.Ends, hbefore, hl, hafter]
    · by_cases hafter : (l.turn op).after.phase = .released
      · have hend := run_after_released hafter ops
        simp [Turn.Ends, hbefore, hl, hafter, hend]
      · simp [Turn.Ends, hbefore, hl, hafter]

theorem releases_run (l : Life) {ops : List Operation} (hs : ∀ op ∈ ops, op.Silent) :
    (l.run ops).state.releases = l.state.releases + (l.turns ops).countP Turn.Ends := by
  induction ops generalizing l with
  | nil => rfl
  | cons op ops ih =>
    rw [List.forall_mem_cons] at hs
    have hrun : l.run (op :: ops) = (l.turn op).after.run ops := rfl
    rw [hrun, ih _ hs.2, l.releases_turn hs.1, turns, List.countP_cons]
    cases (l.turn op).Ends <;> simp
    omega

/-! ## The whole of a life -/

/-- Turns of one life, up to the one by which its owner gives it up. -/
structure MovesForward (turns : List Turn) : Prop where
  effect : ∀ past t later, turns = past ++ t :: later →
    (t.answer ≠ .refused ↔ t.operation.MayFollow past)
  untouched : ∀ t ∈ turns, t.answer = .refused → t.after = t.before
  rising : ∀ t ∈ turns, t.before.phase.rank ≤ t.after.phase.rank
  never_back : (turns.map (·.after.phase.rank)).Pairwise (· ≤ ·)
  released_once : turns.countP Turn.Ends = 1

theorem mem_turns {l : Life} {ops : List Operation} {t : Turn} (h : t ∈ l.turns ops) :
    t = t.before.turn t.operation := by
  induction ops generalizing l with
  | nil => simp [turns] at h
  | cons op ops ih =>
    rcases List.mem_cons.1 h with rfl | h
    · rfl
    · exact ih h

theorem movesForward (used : Instance → Nat) (i : Instance) (ops : List Operation) :
    MovesForward ((ofInstance used i).turns (ops ++ [.release])) where
  effect past t later hturns := by
    have start : Stands [] (ofInstance used i).phase := stands_nil
    obtain ⟨hstands, ht⟩ := turns_stand start hturns
    rw [List.nil_append] at hstands
    rw [← hstands.belongs_iff, ht]
    exact apply_eq_refused_iff.not.trans not_not
  untouched t ht hanswer := by
    rw [mem_turns ht] at hanswer ⊢
    exact apply_refused hanswer
  rising t ht := by
    rw [mem_turns ht]
    exact t.before.rank_turn t.operation
  never_back := (List.pairwise_cons.1 ((ofInstance used i).pairwise_ranks _)).2
  released_once := by
    rw [countP_ends]
    have ended : ((ofInstance used i).run (ops ++ [.release])).phase = .released := by
      rw [run, List.foldl_append]
      exact release_phase _
    have begun : (ofInstance used i).phase ≠ .released := by simp [ofInstance]
    rw [decide_eq_true ⟨begun, ended⟩]
    rfl

end Life
end RecordTables
