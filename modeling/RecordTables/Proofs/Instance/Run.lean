import Mathlib.Data.List.Induction
import RecordTables.Instance.Registration
import RecordTables.Proofs.Instance.Calls
import RecordTables.Proofs.Record.Preservation

/-!
Runs of a program that uses the classes of a table set.

A run is a list of moves: calls of the functions that registering the set gives to a program, and
whatever else happens in between, which may change everything but the records.  A call makes at most
one request of the records.  `conform_after` follows a run request by request: after each of them
every record holds what it may hold.
-/

namespace RecordTables

/-! ## Requests -/

/-- What a call asks of the records: to make one of a table, or to set a field of one. -/
inductive Request where
  | create (t : Table) (args : List Content)
  | set (t : Table) (index : Nat) (r : RecordRef) (c : Content)

/-- The records after a request that is not refused. -/
def Records.answer (rs : Records) : Request → Except Refusal Records
  | .create t args => (rs.create t args).map (·.1)
  | .set t index r c => (rs.setField t index r c).map (·.1)

/-- The records after a request; a refusal leaves them. -/
def Records.serve (rs : Records) (q : Request) : Records :=
  match rs.answer q with
  | .ok rs' => rs'
  | .error _ => rs

/-- A sequence is no longer than a Lua table can be. -/
def Content.Short (c : Content) : Prop :=
  ∀ items, c = .sequence items → items.length ≤ LuaTable.lengthLimit

/-- A request concerns a table of the set, a field that the table has, and sequences from Lua
tables. -/
def Request.Within (s : TableSet) : Request → Prop
  | .create t args => t ∈ s.tables ∧ ∀ c ∈ args, c.Short
  | .set t index _ c => t ∈ s.tables ∧ (∃ f, t.fields[index]? = some f) ∧ c.Short

namespace Instance

/-- The request that a call of a function of a class makes. -/
def request? (i : Instance) (t : Table) (role : Role) (args : List Value) : Option Request :=
  match role, args.headD .nil with
  | .create, _ => some (.create t (args.map i.content))
  | .call, .table _ => some (.create t (args.tail.map i.content))
  | .set index, .record r => some (.set t index r (i.content (args.tail.headD .nil)))
  | _, _ => none

theorem content_short (i : Instance) (v : Value) : (i.content v).Short := by
  intro items h
  unfold content at h
  split at h
  · next r =>
    cases h
    unfold LuaTable.toList
    rw [List.length_map, List.length_range]
    exact Nat.min_le_right _ _
  · cases h

theorem serve_create (i : Instance) (t : Table) (args : List Value) :
    ((createRecord t args).run.run i).2.records =
      i.records.serve (.create t (args.map i.content)) := by
  rw [records_createRecord]
  simp only [Records.serve, Records.answer]
  cases i.records.create t (args.map i.content) <;> rfl

theorem serve_set (i : Instance) (t : Table) (index : Nat) (r : RecordRef) (v : Value) :
    ((setField t index r v).run.run i).2.records =
      i.records.serve (.set t index r (i.content v)) := by
  rw [records_setField]
  simp only [Records.serve, Records.answer]
  cases i.records.setField t index r (i.content v) <;> rfl

/-- A call changes the records as its request says, if it makes one. -/
theorem records_useClass (i : Instance) (t : Table) (role : Role) (args : List Value) :
    ((useClass t role args).run.run i).2.records =
      match i.request? t role args with
      | some q => i.records.serve q
      | none => i.records := by
  cases role with
  | create => exact serve_create i t args
  | call =>
    unfold useClass request?
    cases args.headD .nil with
    | table _ => exact serve_create i t args.tail
    | _ => rfl
  | get index =>
    unfold useClass request?
    rcases run_receiver args i with ⟨r, _, hrun⟩ | ⟨_, e, hrun⟩
    · rw [run_bind_ok hrun]
      exact records_getField i t index r
    · rw [run_bind_error hrun]
  | set index =>
    unfold useClass request?
    rcases run_receiver args i with ⟨r, hr, hrun⟩ | ⟨hr, e, hrun⟩
    · rw [run_bind_ok hrun, hr]
      exact serve_set i t index r _
    · rw [run_bind_error hrun]
      cases hhead : args.headD .nil with
      | record r => exact absurd hhead (hr r)
      | _ => rfl

end Instance

/-! ## Moves -/

/-- A function is one that registering a table of the set gives to a program: an entry of its class,
or the one that runs when the class is called. -/
def Function.Belongs (s : TableSet) (f : Function) : Prop :=
  ∃ t ∈ s.tables, ∃ owner, f = .accessor owner t .call ∨
    ∃ name, (name, Value.function f) ∈ Instance.classFunctions owner t

/-- A getter or a setter is one for a field that the table has. -/
def Role.Within (t : Table) : Role → Prop
  | .create => True
  | .call => True
  | .get index => ∃ f, t.fields[index]? = some f
  | .set index => ∃ f, t.fields[index]? = some f

theorem Function.belongs_iff {s : TableSet} {f : Function} :
    f.Belongs s ↔ ∃ t ∈ s.tables, ∃ owner role, f = .accessor owner t role ∧ role.Within t := by
  constructor
  · intro h
    obtain ⟨t, ht, owner, h⟩ := h
    refine ⟨t, ht, owner, ?_⟩
    rcases h with h | ⟨name, h⟩
    · exact ⟨.call, h, trivial⟩
    · rcases Instance.mem_classFunctions_iff.1 h with h | ⟨index, g, hg, h | h⟩
      · cases h
        exact ⟨.create, rfl, trivial⟩
      · cases h
        exact ⟨.get index, rfl, g, hg⟩
      · cases h
        exact ⟨.set index, rfl, g, hg⟩
  · intro h
    obtain ⟨t, ht, owner, role, rfl, hrole⟩ := h
    refine ⟨t, ht, owner, ?_⟩
    cases role with
    | create => exact Or.inr ⟨"new", Instance.mem_classFunctions_iff.2 (Or.inl rfl)⟩
    | call => exact Or.inl rfl
    | get index =>
      obtain ⟨g, hg⟩ := hrole
      exact Or.inr ⟨g.name, Instance.mem_classFunctions_iff.2
        (Or.inr ⟨index, g, hg, Or.inl rfl⟩)⟩
    | set index =>
      obtain ⟨g, hg⟩ := hrole
      exact Or.inr ⟨setterName g.name, Instance.mem_classFunctions_iff.2
        (Or.inr ⟨index, g, hg, Or.inr rfl⟩)⟩

/-- A step of a run: a call, or something else that leads to an instance with the same records. -/
inductive Move where
  | call (f : Function) (args : List Value)
  | other (next : Instance)

def Move.Within (s : TableSet) : Move → Prop
  | .call f _ => f.Belongs s
  | .other _ => True

/-- The request that a move makes. -/
def Move.request? (i : Instance) : Move → Option Request
  | .call (.accessor _ t role) args => i.request? t role args
  | _ => none

theorem Move.Within.request {s : TableSet} {i : Instance} {m : Move} (hm : m.Within s)
    {q : Request} (hq : m.request? i = some q) : q.Within s := by
  cases m with
  | other next => cases hq
  | call f args =>
    obtain ⟨t, ht, owner, role, rfl, hrole⟩ := Function.belongs_iff.1 hm
    have hargs : ∀ (args : List Value), ∀ c ∈ args.map i.content, c.Short := by
      intro args
      rw [List.forall_mem_map]
      intro v _
      exact i.content_short v
    change i.request? t role args = some q at hq
    unfold Instance.request? at hq
    split at hq
    · cases hq
      exact ⟨ht, hargs args⟩
    · cases hq
      exact ⟨ht, hargs args.tail⟩
    · cases hq
      exact ⟨ht, hrole, i.content_short _⟩
    · cases hq

namespace Instance

/-- The instance after a move.  A call that fails leaves behind what it has changed. -/
def moved (i : Instance) : Move → Instance
  | .call f args => ((callFunction f args).run.run i).2
  | .other next => { next with records := i.records }

/-- The instance after moves. -/
def after (i : Instance) (moves : List Move) : Instance := moves.foldl moved i

theorem after_append_singleton (i : Instance) (moves : List Move) (m : Move) :
    i.after (moves ++ [m]) = (i.after moves).moved m := by
  unfold after
  rw [List.foldl_append]
  rfl

theorem records_moved {s : TableSet} (i : Instance) {m : Move} (hm : m.Within s) :
    (i.moved m).records =
      match m.request? i with
      | some q => i.records.serve q
      | none => i.records := by
  cases m with
  | other next => rfl
  | call f args =>
    obtain ⟨t, _, owner, role, rfl, _⟩ := Function.belongs_iff.1 hm
    exact records_useClass i t role args

end Instance

/-! ## Records along a run -/

theorem Records.Conform.answer {s : TableSet} (hs : s.WellFormed) {rs : Records}
    (h : rs.Conform s) {q : Request} (hq : q.Within s) :
    Yields (fun rs' => rs'.Conform s) (rs.answer q) := by
  cases q with
  | create t args =>
    refine (Records.create_yields hs hq.1 args).map fun out hout => ?_
    obtain ⟨values, rfl, hvalues, _⟩ := hout
    exact h.push hq.1 hvalues
  | set t index r c =>
    obtain ⟨ht, ⟨f, hf⟩, _⟩ := hq
    refine (Records.setField_yields hs h ht hf r c).map fun out hout => ?_
    obtain ⟨record, values, stored, hr, htable, hout, hvalues, _⟩ := hout
    rw [hout]
    rw [← htable] at hvalues
    exact h.put hr hvalues

theorem Records.Conform.serve {s : TableSet} (hs : s.WellFormed) {rs : Records}
    (h : rs.Conform s) {q : Request} (hq : q.Within s) : (rs.serve q).Conform s := by
  have hanswer := h.answer hs hq
  unfold Records.serve
  cases hx : rs.answer q with
  | ok rs' => exact hanswer.of_ok hx
  | error refusal => exact h

/-- What a request keeps, a run keeps. -/
theorem Instance.records_induction {s : TableSet} {P : Records → Prop} {i : Instance}
    (hstart : P i.records)
    (hserve : ∀ rs q, P rs → q.Within s → P (rs.serve q)) {moves : List Move}
    (hm : ∀ m ∈ moves, m.Within s) : P (i.after moves).records := by
  induction moves using List.reverseRecOn with
  | nil => exact hstart
  | append_singleton moves m ih =>
    have hlast := hm m (List.mem_append_right moves List.mem_cons_self)
    have hbefore := ih fun m' hm' => hm m' (List.mem_append_left [m] hm')
    rw [Instance.after_append_singleton, Instance.records_moved _ hlast]
    split
    · next q hq => exact hserve _ q hbefore (hlast.request hq)
    · exact hbefore

/-- Every record of a run that starts without records holds what it may hold. -/
theorem conform_after {s : TableSet} (hs : s.WellFormed) {moves : List Move}
    (hm : ∀ m ∈ moves, m.Within s) : (Instance.created.after moves).records.Conform s :=
  Instance.records_induction (Records.conform_empty s) (fun _ _ h hq => h.serve hs hq) hm

/-! ## An example

Nodes hold bytes, the number of these bytes, and a third field that is a text in a node of one byte
and a node in a node of two. -/

def nodeDeclarations : Declarations where
  read := [⟨"node", "node_t", [
    ⟨"n", none, some "uint8", .integer, none, none, []⟩,
    ⟨"xs", none, some "uint8", .table, some (.named "self::n"), none, []⟩,
    ⟨"v", none, none, .conditional, none, some "self::n",
      [⟨1, "string", .string⟩, ⟨2, "self::node", .table⟩]⟩]⟩]
  definition := []

def nodeTable : Table where
  tag := "node"
  name := "node_t"
  origin := .read
  fields := [
    ⟨"n", "n", .integer, some (.scalar .uint8), .one, none⟩,
    ⟨"xs", "xs", .table, some (.scalar .uint8), .counted 0, none⟩,
    ⟨"v", "v", .conditional, none, .one,
      some ⟨0, [⟨1, .string, .scalar .string⟩, ⟨2, .table, .table "node_t"⟩]⟩⟩]

def nodeSet : TableSet := ⟨[nodeTable]⟩

def nodeCall (role : Role) (args : List Value) : Move :=
  .call (.accessor Instance.globals nodeTable role) args

/-- A node of two bytes is made, another one is refused, and the first is set to hold itself. -/
def nodeMoves : List Move :=
  [.other (Instance.created.newTable (.ofItems [.integer 7, .integer 8])).1,
    nodeCall .create [.nil, .table ⟨6⟩],
    nodeCall .create [.integer 300],
    nodeCall (.set 2) [.record ⟨0⟩, .record ⟨0⟩]]

theorem nodeCall_within (role : Role) (h : role.Within nodeTable) (args : List Value) :
    (nodeCall role args).Within nodeSet :=
  Function.belongs_iff.2 ⟨nodeTable, List.mem_cons_self, Instance.globals, role, rfl, h⟩

theorem nodeMoves_within : ∀ m ∈ nodeMoves, m.Within nodeSet := by
  intro m hm
  simp only [nodeMoves, List.mem_cons, List.not_mem_nil, or_false] at hm
  rcases hm with rfl | rfl | rfl | rfl
  · trivial
  · exact nodeCall_within .create trivial _
  · exact nodeCall_within .create trivial _
  · exact nodeCall_within (.set 2) ⟨_, rfl⟩ _

end RecordTables
