import RecordTables.Proofs.Lifecycle
import RecordTables.Proofs.Outcome

/-!
A bootstrap is the first two turns of a life.

A host and a provider may fail in three places, and `FailsAt` says in which they do, whatever they are
otherwise.  Each part of the bootstrap notes its step and calls one function, so the steps begun are
those up to that place.  What the bootstrap leaves is what loading and registering leave of the instance
that was created, so the rest is said of lives in general.
-/

namespace RecordTables
namespace Bootstrap

/-- The step is reached, and fails. -/
inductive FailsAt (host : Host) (provider : Provider) : BootstrapStep → BootstrapError → Prop
  | create {e : BootstrapError} (h : host.create = .error e) : FailsAt host provider .create e
  | load {i j : Instance} {e : BootstrapError} (hc : host.create = .ok i)
      (h : host.load i = (.error e, j)) : FailsAt host provider .load e
  | register {i j k : Instance} {e : RegistrationError} (hc : host.create = .ok i)
      (hl : host.load i = (.ok (), j)) (h : provider.inject j = (.error e, k)) :
      FailsAt host provider .register (.registration e)

/-- The bootstrap begins its steps in order, up to the first that fails. -/
structure Orderly (host : Host) (provider : Provider) (b : Bootstrap) : Prop where
  begun : b.steps ≠ [] ∧ b.steps <+: [.create, .load, .register]
  fails_iff : ∀ s e, FailsAt host provider s e ↔ b.steps.getLast? = some s ∧ b.failure = some e
  complete : b.failure = none → b.steps = [.create, .load, .register]
  life_eq : b.life = host.create.toOption.map fun i =>
    (Life.ofInstance host.bytesInUse i).run [.load host.load, .register provider.inject]
  phase : ∀ l, b.life = some l → l.phase = if b.failure.isSome then .released else .ready

theorem FailsAt.unique {host : Host} {provider : Provider} {s s' : BootstrapStep}
    {e e' : BootstrapError} (h : FailsAt host provider s e) (h' : FailsAt host provider s' e') :
    s' = s ∧ e' = e := by
  cases h <;> cases h' <;> simp_all

end Bootstrap

/-! ## The parts -/

namespace BootstrapAction

theorem run_create_error {host : Host} {e : BootstrapError} (h : host.create = .error e)
    (p : Progress) : (create host).run.run p = (.error e, ⟨p.steps ++ [.create], p.life⟩) := by
  unfold create
  rw [h]
  rfl

theorem run_create_ok {host : Host} {i : Instance} (h : host.create = .ok i) (p : Progress) :
    let l := Life.ofInstance host.bytesInUse i
    (create host).run.run p = (.ok l, ⟨p.steps ++ [.create], some l⟩) := by
  unfold create
  rw [h]
  rfl

variable {ε : Type} {function : Instance → Except ε Unit × Instance} {l : Life} {i : Instance}

theorem run_advance_error {e : ε} (h : function l.state = (.error e, i)) (step : BootstrapStep)
    (next : Phase) (wrap : ε → BootstrapError) (p : Progress) :
    (advance step next wrap function l).run.run p =
      (.error (wrap e), ⟨p.steps ++ [step], some (l.move l.phase i).release⟩) := by
  unfold advance
  rw [h]
  rfl

theorem run_advance_ok (h : function l.state = (.ok (), i)) (step : BootstrapStep) (next : Phase)
    (wrap : ε → BootstrapError) (p : Progress) :
    (advance step next wrap function l).run.run p =
      (.ok (l.move next i), ⟨p.steps ++ [step], some (l.move next i)⟩) := by
  unfold advance
  rw [h]
  rfl

end BootstrapAction

/-! ## The whole -/

namespace Bootstrap

open BootstrapAction

variable {host : Host} {provider : Provider} {i j k : Instance}

theorem of_create_error {e : BootstrapError} (h : host.create = .error e) :
    Bootstrap.of host provider = ⟨⟨[.create], none⟩, some e⟩ := by
  unfold Bootstrap.of BootstrapAction.all
  rw [run_bind_error (run_create_error h _)]
  rfl

theorem of_load_error {e : BootstrapError} (hc : host.create = .ok i)
    (h : host.load i = (.error e, j)) :
    Bootstrap.of host provider = ⟨⟨[.create, .load],
      some ((Life.ofInstance host.bytesInUse i).move .created j).release⟩, some e⟩ := by
  have hload : host.load (Life.ofInstance host.bytesInUse i).state = (.error e, j) := h
  unfold Bootstrap.of BootstrapAction.all
  rw [run_bind_ok (run_create_ok hc _),
    run_bind_error (run_advance_error hload .load .loaded id _)]
  rfl

theorem of_register_error {e : RegistrationError} (hc : host.create = .ok i)
    (hl : host.load i = (.ok (), j)) (h : provider.inject j = (.error e, k)) :
    Bootstrap.of host provider = ⟨⟨[.create, .load, .register],
      some ((Life.ofInstance host.bytesInUse i).move .loaded k).release⟩,
      some (.registration e)⟩ := by
  have hload : host.load (Life.ofInstance host.bytesInUse i).state = (.ok (), j) := hl
  have hregister : provider.inject ((Life.ofInstance host.bytesInUse i).move .loaded j).state =
      (.error e, k) := h
  unfold Bootstrap.of BootstrapAction.all
  rw [run_bind_ok (run_create_ok hc _), run_bind_ok (run_advance_ok hload .load .loaded id _),
    run_advance_error hregister .register .ready .registration _]
  rfl

theorem of_ok (hc : host.create = .ok i) (hl : host.load i = (.ok (), j))
    (h : provider.inject j = (.ok (), k)) :
    Bootstrap.of host provider = ⟨⟨[.create, .load, .register],
      some ((Life.ofInstance host.bytesInUse i).move .ready k)⟩, none⟩ := by
  have hload : host.load (Life.ofInstance host.bytesInUse i).state = (.ok (), j) := hl
  have hregister : provider.inject ((Life.ofInstance host.bytesInUse i).move .loaded j).state =
      (.ok (), k) := h
  unfold Bootstrap.of BootstrapAction.all
  rw [run_bind_ok (run_create_ok hc _), run_bind_ok (run_advance_ok hload .load .loaded id _),
    run_advance_ok hregister .register .ready .registration _]
  rfl

/-! ## The same as turns of a life -/

theorem apply_load (used : Instance → Nat)
    {step : Instance → Except BootstrapError Unit × Instance} (h : step i = (.ok (), j)) :
    ((Life.ofInstance used i).apply (.load step)).2 = (Life.ofInstance used i).move .loaded j := by
  simp [Life.apply, Life.load, Life.misuse?, Life.ofInstance, Life.advance, Life.settle, h]

theorem apply_load_error (used : Instance → Nat)
    {step : Instance → Except BootstrapError Unit × Instance} {e : BootstrapError}
    (h : step i = (.error e, j)) :
    ((Life.ofInstance used i).apply (.load step)).2 =
      ((Life.ofInstance used i).move .created j).release := by
  simp [Life.apply, Life.load, Life.misuse?, Life.ofInstance, Life.advance, Life.settle, h]

theorem apply_register (l : Life) {step : Instance → Except RegistrationError Unit × Instance}
    (h : step i = (.ok (), j)) :
    ((l.move .loaded i).apply (.register step)).2 = l.move .ready j := by
  simp [Life.apply, Life.register, Life.misuse?, Life.advance, Life.settle, Life.move, h]

theorem apply_register_error (l : Life)
    {step : Instance → Except RegistrationError Unit × Instance} {e : RegistrationError}
    (h : step i = (.error e, j)) :
    ((l.move .loaded i).apply (.register step)).2 = (l.move .loaded j).release := by
  simp [Life.apply, Life.register, Life.misuse?, Life.advance, Life.settle, Life.move, h]

/-- Where a step fails, it is the only one that does. -/
theorem failsAt_iff {b : Bootstrap} {s s' : BootstrapStep} {e e' : BootstrapError}
    (h : FailsAt host provider s e) (hs : b.steps.getLast? = some s) (he : b.failure = some e) :
    FailsAt host provider s' e' ↔ b.steps.getLast? = some s' ∧ b.failure = some e' := by
  rw [hs, he, Option.some_inj, Option.some_inj]
  constructor
  · intro h'
    obtain ⟨rfl, rfl⟩ := h.unique h'
    exact ⟨rfl, rfl⟩
  · intro h'
    obtain ⟨rfl, rfl⟩ := h'
    exact h

theorem not_failsAt (hc : host.create = .ok i) (hl : host.load i = (.ok (), j))
    (hr : provider.inject j = (.ok (), k)) (s : BootstrapStep) (e : BootstrapError) :
    ¬FailsAt host provider s e := by
  intro h
  cases h <;> simp_all

theorem orderly (host : Host) (provider : Provider) :
    (Bootstrap.of host provider).Orderly host provider := by
  cases hc : host.create with
  | error e =>
    rw [of_create_error hc]
    refine ⟨⟨by simp, by simp⟩, fun _ _ => failsAt_iff (.create hc) rfl rfl, by simp, ?_, by simp⟩
    rw [hc]
    rfl
  | ok i =>
    have hlife : host.create.toOption.map (fun i => (Life.ofInstance host.bytesInUse i).run
        [.load host.load, .register provider.inject]) =
        some (((Life.ofInstance host.bytesInUse i).apply (.load host.load)).2.run
          [.register provider.inject]) := by
      rw [hc]
      rfl
    cases hl : host.load i with
    | mk outcome j =>
      cases outcome with
      | error e =>
        rw [of_load_error hc hl]
        refine ⟨⟨by simp, by simp⟩, fun _ _ => failsAt_iff (.load hc hl) rfl rfl, by simp, ?_,
          by simp⟩
        rw [hlife, apply_load_error _ hl, Life.run_after_released (Life.release_phase _)]
      | ok =>
        rw [apply_load _ hl] at hlife
        cases hr : provider.inject j with
        | mk outcome k =>
          cases outcome with
          | error e =>
            rw [of_register_error hc hl hr]
            refine ⟨⟨by simp, by simp⟩, fun _ _ => failsAt_iff (.register hc hl hr) rfl rfl,
              by simp, ?_, by simp⟩
            rw [hlife, ← apply_register_error _ hr]
            rfl
          | ok =>
            rw [of_ok hc hl hr]
            refine ⟨⟨by simp, by simp⟩, fun s e => iff_of_false (not_failsAt hc hl hr s e) (by simp),
              fun _ => rfl, ?_, by simp⟩
            rw [hlife, ← apply_register _ hr]
            rfl

end Bootstrap

/-- The assignment `x = 1`. -/
def assigningScript : Action (List Value) := do
  Instance.assignNamed "x" (.integer 1)
  return []

end RecordTables
