import RecordTables.Proofs.Bootstrap
import RecordTables.Session.Step

/-!
Sessions keep to the operations of a life.

Whatever a session does to the life of its instance is a run of operations.  `Follows` says so of a part
of a step, and is kept by every way to put parts together, so it holds of a step and of any number of
them (`life_after`).  A session that is started is thus one of the lives that move forward and are
released once.
-/

namespace RecordTables

theorem Life.run_append (l : Life) (ops more : List Life.Operation) :
    l.run (ops ++ more) = (l.run ops).run more := List.foldl_append

namespace Session

variable {ε α β : Type} {x : StepAction α} {f : α → StepAction β}

/-- What an action does to the life of the instance is a run of operations. -/
def Follows (x : StepAction α) : Prop := ∀ s, ∃ ops, (x.run.run s).2.life = s.life.run ops

/-! ## Ways to put parts together -/

theorem follows_pure (a : α) : Follows (pure a) := fun _ => ⟨[], rfl⟩

theorem follows_throw (e : StepError) : Follows (throw e : StepAction α) :=
  fun _ => ⟨[], rfl⟩

theorem follows_get : Follows (getThe Session) := fun _ => ⟨[], rfl⟩

theorem Follows.bind (hx : Follows x) (hf : ∀ a, Follows (f a)) : Follows (x >>= f) := by
  intro s
  obtain ⟨ops, hops⟩ := hx s
  cases hrun : x.run.run s with
  | mk outcome between =>
    rw [hrun] at hops
    cases outcome with
    | error e =>
      rw [run_bind_error hrun]
      exact ⟨ops, hops⟩
    | ok a =>
      obtain ⟨more, hmore⟩ := hf a between
      rw [run_bind_ok hrun, hmore, hops, ← Life.run_append]
      exact ⟨_, rfl⟩

theorem follows_modify {g : Session → Session} (hg : ∀ s, ∃ ops, (g s).life = s.life.run ops) :
    Follows (modifyThe Session g : StepAction PUnit) := hg

/-! ## Operations -/

theorem follows_operate (wrap : ε → StepError)
    {operation : Life → Except Misuse (Except ε α × Life)}
    (h : ∀ l outcome l', operation l = .ok (outcome, l') → ∃ ops, l' = l.run ops) :
    Follows (operate wrap operation) := by
  intro s
  have hget : (getThe Session : StepAction Session).run.run s = (.ok s, s) := rfl
  cases hresult : operation s.life with
  | error misuse =>
    have hrun : ((operate wrap operation).run.run s) = (.error (.misuse misuse), s) := by
      unfold operate
      rw [run_bind_ok hget, hresult]
      rfl
    rw [hrun]
    exact ⟨[], rfl⟩
  | ok result =>
    obtain ⟨outcome, l'⟩ := result
    have hrun : ((operate wrap operation).run.run s).2 = { s with life := l' } := by
      unfold operate
      rw [run_bind_ok hget, hresult]
      cases outcome <;> rfl
    rw [hrun]
    exact h s.life outcome l' hresult

/-- An action as a script, which gives no values. -/
def script (action : Action α) : Action (List Value) := do
  let _ ← action
  return []

theorem run_script (action : Action α) (i : Instance) :
    ((script action).run.run i).2 = (action.run.run i).2 := by
  cases hrun : action.run.run i with
  | mk outcome j =>
    unfold script
    cases outcome with
    | error e => rw [run_bind_error hrun]
    | ok a =>
      rw [run_bind_ok hrun]
      rfl

theorem perform_eq_ok {l l' : Life} {action : Action α} {outcome : Except LuaError α}
    (h : l.perform action = .ok (outcome, l')) : (l.apply (.perform (script action))).2 = l' := by
  by_cases hl : l.phase = .released
  · unfold Life.perform at h
    rw [if_pos hl] at h
    cases h
  · rw [Life.perform_of_alive hl] at h
    cases h
    have hscript := Life.perform_of_alive hl (script action)
    rw [run_script] at hscript
    show (l.settle (l.perform (script action))).2 = _
    rw [hscript, (l.settle_ok _).2]

theorem execute_eq_ok {l l' : Life} {action : Action α} {outcome : Except LuaError α}
    (h : l.execute action = .ok (outcome, l')) : (l.apply (.execute (script action))).2 = l' := by
  show (l.settle (l.execute (script action))).2 = l'
  unfold Life.execute at h ⊢
  cases hm : l.misuse? .ready with
  | some misuse =>
    rw [hm] at h
    cases h
  | none =>
    rw [hm] at h
    exact perform_eq_ok h

theorem follows_perform (action : Action α) : Follows (perform action) :=
  follows_operate .lua fun _ _ _ h => ⟨[.perform (script action)], (perform_eq_ok h).symm⟩

theorem follows_execute (action : Action α) : Follows (execute action) :=
  follows_operate .lua fun _ _ _ h => ⟨[.execute (script action)], (execute_eq_ok h).symm⟩

theorem follows_inject (wrap : RegistrationError → StepError)
    (step : Instance → Except RegistrationError Unit × Instance) :
    Follows (operate wrap fun l => l.inject step) := by
  refine follows_operate wrap fun l outcome l' h => ⟨[.inject step], ?_⟩
  show l' = (l.settle (l.inject step)).2
  rw [h, (l.settle_ok (outcome, l')).2]

theorem follows_register (wrap : RegistrationError → StepError)
    (step : Instance → Except RegistrationError Unit × Instance) :
    Follows (operate wrap fun l => l.register step) := by
  refine follows_operate wrap fun l outcome l' h => ⟨[.register step], ?_⟩
  show l' = (l.settle (l.register step)).2
  rw [h, (l.settle_ok (outcome, l')).2]

/-! ## Terms -/

theorem follows_lookUp (name : String) : Follows (lookUp name) := by
  refine follows_get.bind fun s => ?_
  cases s.bound.find? name with
  | none => exact follows_throw _
  | some v => exact follows_pure v

theorem follows_nextIdentity : Follows nextIdentity := follows_perform _

mutual

theorem follows_eval (t : Term) : Follows (eval t) := by
  cases t with
  | value v =>
    rw [eval]
    exact follows_pure v
  | named name =>
    rw [eval]
    exact follows_lookUp name
  | global name =>
    rw [eval]
    exact follows_perform _
  | items ts =>
    rw [eval]
    exact (follows_evalAll ts).bind fun _ => (follows_perform _).bind fun _ => follows_pure _
  | fill n t =>
    rw [eval]
    exact (follows_eval t).bind fun _ => (follows_perform _).bind fun _ => follows_pure _
  | entries ts =>
    rw [eval]
    exact (follows_perform _).bind fun r => (follows_evalEntries r ts).bind fun _ => follows_pure _
  | function =>
    rw [eval]
    exact follows_nextIdentity.bind fun _ => follows_pure _
  | thread =>
    rw [eval]
    exact follows_nextIdentity.bind fun _ => follows_pure _
  | userData =>
    rw [eval]
    exact follows_nextIdentity.bind fun _ => follows_pure _

theorem follows_evalAll (ts : List Term) : Follows (evalAll ts) := by
  cases ts with
  | nil =>
    rw [evalAll]
    exact follows_pure _
  | cons t ts =>
    rw [evalAll]
    exact (follows_eval t).bind fun _ => (follows_evalAll ts).bind fun _ => follows_pure _

theorem follows_evalEntries (r : TableRef) (ts : List (Term × Term)) :
    Follows (evalEntries r ts) := by
  cases ts with
  | nil =>
    rw [evalEntries]
    exact follows_pure _
  | cons t ts =>
    obtain ⟨key, value⟩ := t
    rw [evalEntries]
    exact (follows_eval key).bind fun _ => (follows_eval value).bind fun _ =>
      (follows_perform _).bind fun _ => follows_evalEntries r ts

end

theorem follows_evalReceiver (t : Term) : Follows (evalReceiver t) := by
  refine (follows_eval t).bind fun v => ?_
  cases v with
  | record r => exact follows_pure _
  | userData n => exact follows_pure _
  | _ => exact follows_throw _

/-! ## Steps -/

theorem follows_asTable (v : Value) : Follows (asTable v) := by
  cases v with
  | table r => exact follows_pure r
  | _ => exact follows_throw _

theorem follows_callClass (table key : String) (args : List Term) :
    Follows (callClass table key args) :=
  (follows_perform _).bind fun _ => (follows_evalAll args).bind fun _ =>
    (follows_perform _).bind fun _ => follows_pure _

theorem follows_callGlobal (name : String) (args : List Value) : Follows (callGlobal name args) :=
  follows_perform _

theorem follows_provision (n : Nat) (module : Option String) : Follows (provision n module) :=
  follows_get.bind fun _ => follows_pure _

theorem follows_stepAlive (one : Step) : Follows (stepAlive one) := by
  cases one with
  | inject n module =>
    exact (follows_provision n module).bind fun _ => (follows_inject _ _).bind fun _ => follows_pure _
  | register n module =>
    exact (follows_provision n module).bind fun _ => (follows_register _ _).bind fun _ =>
      follows_pure _
  | release => exact (follows_modify fun s => ⟨[.release], rfl⟩).bind fun _ => follows_pure _
  | new table args => exact follows_callClass table "new" args
  | call table args =>
    exact (follows_perform _).bind fun _ => (follows_evalAll args).bind fun _ =>
      (follows_perform _).bind fun _ => follows_pure _
  | callFunction table key args => exact follows_callClass table key args
  | method receiver key args =>
    exact (follows_evalReceiver receiver).bind fun _ => (follows_evalAll args).bind fun _ =>
      (follows_perform _).bind fun _ => follows_pure _
  | index receiver key =>
    exact (follows_evalReceiver receiver).bind fun _ => (follows_eval key).bind fun _ =>
      (follows_perform _).bind fun _ => follows_pure _
  | assign receiver key value =>
    exact (follows_evalReceiver receiver).bind fun _ => (follows_eval key).bind fun _ =>
      (follows_eval value).bind fun _ => (follows_perform _).bind fun _ => follows_pure _
  | text receiver =>
    exact (follows_evalReceiver receiver).bind fun _ => (follows_perform _).bind fun _ =>
      follows_pure _
  | dump t depth =>
    exact (follows_eval t).bind fun _ => (follows_perform _).bind fun _ => follows_pure _
  | same a b =>
    exact (follows_eval a).bind fun _ => (follows_eval b).bind fun _ =>
      (follows_perform _).bind fun _ => follows_pure _
  | value t => exact (follows_eval t).bind fun _ => follows_pure _
  | setEntry t key value =>
    exact (follows_eval t).bind fun v => (follows_asTable v).bind fun _ =>
      (follows_eval key).bind fun _ => (follows_eval value).bind fun _ =>
      (follows_perform _).bind fun _ => follows_pure _
  | classKeys table =>
    exact (follows_perform _).bind fun _ => (follows_perform _).bind fun _ => follows_pure _
  | setClassEntry table key value =>
    exact (follows_perform _).bind fun _ => (follows_eval key).bind fun _ =>
      (follows_eval value).bind fun _ => (follows_perform _).bind fun _ => follows_pure _
  | getMetatable t =>
    exact (follows_eval t).bind fun _ => (follows_callGlobal _ _).bind fun _ => follows_pure _
  | setMetatable t =>
    exact (follows_eval t).bind fun _ => (follows_perform _).bind fun _ =>
      (follows_callGlobal _ _).bind fun _ => follows_pure _
  | setGlobal key value =>
    exact (follows_eval key).bind fun _ => (follows_eval value).bind fun _ =>
      (follows_perform _).bind fun _ => follows_pure _
  | setGlobalsIndex t =>
    exact (follows_eval t).bind fun _ => (follows_perform _).bind fun _ =>
      (follows_perform _).bind fun _ => follows_pure _
  | globalNames => exact (follows_perform _).bind fun _ => follows_pure _
  | globalType name => exact (follows_perform _).bind fun _ => follows_pure _
  | unset name => exact (follows_execute _).bind fun _ => follows_pure _
  | evalType name => exact (follows_execute _).bind fun _ => follows_pure _
  | require name =>
    refine (follows_callGlobal _ _).bind fun v => ?_
    cases v with
    | table r =>
      exact follows_get.bind fun _ => (follows_perform _).bind fun _ => follows_pure _
    | _ => exact follows_pure _
  | destroy receiver =>
    exact (follows_evalReceiver receiver).bind fun _ => (follows_perform _).bind fun _ =>
      follows_pure _

theorem follows_requireAlive : Follows requireAlive := by
  refine follows_get.bind fun s => ?_
  split
  · exact follows_throw _
  · exact follows_pure _

theorem follows_keep (name : Option String) (reply : Reply) : Follows (keep name reply) := by
  unfold keep
  split
  · exact follows_modify fun s => ⟨[], rfl⟩
  · exact follows_pure _

theorem follows_shown (reply : Reply) : Follows (shown reply) := by
  cases reply with
  | value v => exact (follows_perform _).bind fun _ => follows_pure _
  | _ => exact follows_pure _

theorem follows_step (one : Step) (name : Option String) : Follows (step one name) :=
  follows_requireAlive.bind fun _ => (follows_stepAlive one).bind fun reply =>
    (follows_keep name reply).bind fun _ => follows_shown reply

/-! ## Runs -/

/-- The session after steps. -/
def after (s : Session) (steps : List (Step × Option String)) : Session :=
  steps.foldl (fun s one => (s.next one.1 one.2).2) s

theorem life_after (s : Session) (steps : List (Step × Option String)) :
    ∃ ops, (s.after steps).life = s.life.run ops := by
  induction steps generalizing s with
  | nil => exact ⟨[], rfl⟩
  | cons one steps ih =>
    obtain ⟨ops, hops⟩ := follows_step one.1 one.2 s
    obtain ⟨more, hmore⟩ := ih (s.next one.1 one.2).2
    refine ⟨ops ++ more, ?_⟩
    rw [Life.run_append, ← hops]
    exact hmore

theorem life_of_start {used : Instance → Nat} {sets : List TableSet} {c : Configuration}
    {s : Session} (h : start used sets c = .ok s) :
    s.life = (Life.ofInstance used .created).run [.load (Host.ofConfiguration used c).load] := by
  have hcreate : (Host.ofConfiguration used c).create = .ok .created := rfl
  unfold start at h
  simp only [hcreate] at h
  cases (Life.ofInstance used .created).advance_cases .loaded
      ((Host.ofConfiguration used c).load .created) with
  | inl hloaded =>
    obtain ⟨i, hload, hadvance⟩ := hloaded
    simp only [hadvance] at h
    obtain rfl := Except.ok.inj h
    exact (Bootstrap.apply_load used hload).symm
  | inr hfailed =>
    obtain ⟨e, i, _, hadvance⟩ := hfailed
    simp only [hadvance] at h
    cases h

/-- The life of a session that was started is one that began with a new instance, whatever steps were
taken since. -/
theorem life_of_started {used : Instance → Nat} {sets : List TableSet} {c : Configuration}
    {s : Session} (h : start used sets c = .ok s) (steps : List (Step × Option String)) :
    ∃ ops, (s.after steps).life = (Life.ofInstance used .created).run ops := by
  obtain ⟨ops, hops⟩ := s.life_after steps
  refine ⟨.load (Host.ofConfiguration used c).load :: ops, ?_⟩
  rw [hops, life_of_start h]
  rfl

/-- Once the instance is released, no step does anything. -/
theorem next_of_released {s : Session} (h : s.life.phase = .released) (one : Step)
    (name : Option String) : s.next one name = (⟨.error (.misuse .released), []⟩, s) := by
  have hrequire : requireAlive.run.run s = (.error (.misuse .released), s) := by
    have hget : (getThe Session : StepAction Session).run.run s = (.ok s, s) := rfl
    unfold requireAlive
    rw [run_bind_ok hget, if_pos h]
    rfl
  have hstep : (step one name).run.run s = (.error (.misuse .released), s) :=
    run_bind_error hrequire
  unfold next
  rw [hstep]
  show ((⟨_, s.life.log.drop s.life.log.length⟩ : Turn), s) = _
  rw [List.drop_length]

end Session
end RecordTables
