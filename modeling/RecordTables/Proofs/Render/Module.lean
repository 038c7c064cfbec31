import RecordTables.Proofs.Instance.Required
import RecordTables.Proofs.Render.Chunk
import RecordTables.Proofs.Text.Codes
import RecordTables.Render.Module

/-!
The rendered module of a table set, read as a chunk.

The text of a module is a chunk that fills a local table under the names of the set.  What it takes
for a name is the global of that name, unless the local of the module or `_ENV` comes first.
-/

namespace RecordTables
namespace Render
namespace Module

open Lexeme (Spells)

/-! ## The text as a chunk -/

/-- The chunk that the text of a module is. -/
def chunk (s : TableSet) (module : String) : Chunk :=
  ⟨.newTable module :: s.names.map fun name => .setField module name name, module⟩

/-- The lexemes of the lines of a module. -/
def lexemes (s : TableSet) (module : String) : List Lexeme :=
  [.opens, .name module, .symbol '=', .symbol '{', .symbol '}'] ++
    s.names.flatMap (fun name =>
      [.name module, .symbol '.', .name name, .symbol '=', .name name]) ++
    [.returns, .name module]

theorem ofLexemes_lexemes (s : TableSet) (module : String) :
    Chunk.ofLexemes (lexemes s module) = some (chunk s module) := by
  have hbody : ∀ names : List String,
      Chunk.ofLexemes (names.flatMap (fun name =>
        [.name module, .symbol '.', .name name, .symbol '=', .name name]) ++
          [.returns, .name module]) =
        some ⟨names.map fun name => .setField module name name, module⟩ := by
    intro names
    induction names with
    | nil => rfl
    | cons name names ih => exact congrArg (Option.map (Chunk.cons (.setField module name name))) ih
  exact congrArg (Option.map (Chunk.cons (.newTable module))) (hbody s.names)

section

variable {s : TableSet} {name module : String}

theorem spells_newline : Spells ['\n'] [] := Lexeme.spells_blank rfl

theorem spells_local (h : IsIdentifier module) :
    Spells (Markdown.line s!"local {module} = \x7b\x7d").toList
      [.opens, .name module, .symbol '=', .symbol '{', .symbol '}'] := by
  have htext : (Markdown.line s!"local {module} = \x7b\x7d").toList =
      "local".toList ++ ' ' :: (module.toList ++ ' ' :: '=' :: ' ' :: '{' :: '}' :: ['\n']) := by
    show ("local " ++ module ++ " = \x7b\x7d" ++ "\n").toList = _
    simp [String.toList_append]
  have hbraces : Spells ('{' :: '}' :: ['\n']) [.symbol '{', .symbol '}'] :=
    (spells_newline.symbol (by decide) (by decide) rfl).symbol (by decide) (by decide) rfl
  have hequals : Spells ('=' :: ' ' :: '{' :: '}' :: ['\n'])
      [.symbol '=', .symbol '{', .symbol '}'] :=
    (hbraces.space).symbol (by decide) (by decide) rfl
  rw [htext]
  exact Spells.word ⟨_, _, rfl, rfl, List.all_eq_true.1 rfl⟩ rfl rfl
    ((Spells.name h rfl (hequals.space)).space)

theorem spells_assignment (hm : IsIdentifier module) (h : IsIdentifier name) :
    Spells (Markdown.line s!"{module}.{name} = {name}").toList
      [.name module, .symbol '.', .name name, .symbol '=', .name name] := by
  have htext : (Markdown.line s!"{module}.{name} = {name}").toList =
      module.toList ++ '.' :: (name.toList ++ ' ' :: '=' :: ' ' :: (name.toList ++ ['\n'])) := by
    show (module ++ "." ++ name ++ " = " ++ name ++ "\n").toList = _
    simp [String.toList_append]
  have hvalue := Spells.name h rfl spells_newline
  have hequals : Spells ('=' :: ' ' :: (name.toList ++ ['\n'])) [.symbol '=', .name name] :=
    (hvalue.space).symbol (by decide) (by decide) rfl
  have hfield := Spells.name h rfl (hequals.space)
  obtain ⟨c, cs, hlist, hc, _⟩ := h.chars
  have hstart := (isNameStart_iff c).2 hc
  rw [htext]
  refine Spells.name hm rfl ?_
  rw [hlist] at hfield ⊢
  refine hfield.symbol (by decide) ?_ ?_
  · rintro rfl
    exact absurd hstart (by decide)
  · exact Lexeme.not_isDigit_of_isNameStart hstart

theorem spells_return (h : IsIdentifier module) :
    Spells (Markdown.line s!"return {module}").toList [.returns, .name module] := by
  have htext : (Markdown.line s!"return {module}").toList =
      "return".toList ++ ' ' :: (module.toList ++ ['\n']) := by
    show ("return " ++ module ++ "\n").toList = _
    simp [String.toList_append]
  rw [htext]
  exact Spells.word ⟨_, _, rfl, rfl, List.all_eq_true.1 rfl⟩ rfl rfl
    ((Spells.name h rfl spells_newline).space)

theorem spells_arguments {t : Table} (h : IsIdentifier t.name)
    (hfields : ∀ f ∈ t.fields, IsIdentifier f.name) :
    Spells (Markdown.line s!"-- {t.name}({Markdown.argumentList t})").toList [] := by
  have htext : (Markdown.line s!"-- {t.name}({Markdown.argumentList t})").toList =
      '-' :: '-' :: (' ' :: (t.name.toList ++ '(' :: ((Markdown.argumentList t).toList ++ [')'])) ++
        ['\n']) := by
    show ("-- " ++ t.name ++ "(" ++ Markdown.argumentList t ++ ")" ++ "\n").toList = _
    simp [String.toList_append]
  have harguments : '\n' ∉ (Markdown.argumentList t).toList := by
    rw [Markdown.argumentList, String.toList_intercalate]
    refine Text.not_mem_intercalate (by decide) fun part hpart => ?_
    rw [List.map_map] at hpart
    obtain ⟨f, hf, rfl⟩ := List.mem_map.1 hpart
    exact (hfields f hf).not_mem rfl
  have hname : '\n' ∉ t.name.toList := h.not_mem rfl
  rw [htext]
  refine Lexeme.spells_comment nofun ?_
  simp [hname, harguments]

theorem spells_entries {tables : List Table} (hm : IsIdentifier module)
    (hnames : ∀ t ∈ tables, IsIdentifier t.name)
    (hfields : ∀ t ∈ tables, ∀ f ∈ t.fields, IsIdentifier f.name) :
    Spells ((tables.flatMap (entry module)).flatMap String.toList)
      ((tables.map (·.name)).flatMap fun name =>
        [.name module, .symbol '.', .name name, .symbol '=', .name name]) := by
  induction tables with
  | nil => exact Lexeme.spells_nil
  | cons t tables ih =>
    rw [List.forall_mem_cons] at hnames hfields
    have hentry := (spells_arguments hnames.1 hfields.1).append (spells_assignment hm hnames.1)
    rw [List.flatMap_cons, List.flatMap_append, List.map_cons, List.flatMap_cons]
    refine Spells.append ?_ (ih hnames.2 hfields.2)
    rw [entry, List.flatMap_cons, List.flatMap_singleton]
    exact hentry

/-- The text of the module of an accepted set is a chunk of Lua. -/
theorem read_render {d : Declarations} (hs : TableSet.ofDeclarations d = .ok s)
    (hm : IsIdentifier module) : Chunk.read (render s module) = some (chunk s module) := by
  have hnames : ∀ t ∈ s.tables, IsIdentifier t.name :=
    fun t ht => identifiers_of_resolves hs t.name (List.mem_map_of_mem ht)
  have hcomment : Spells ('-' :: '-' :: (" generated by wasmtab-gen; do not edit".toList ++ ['\n']))
      [] := Lexeme.spells_comment (by decide) (by decide)
  have hheader : Spells (Markdown.line "-- generated by wasmtab-gen; do not edit").toList [] :=
    hcomment
  have hblank : Spells (Markdown.line "").toList [] := spells_newline
  have hspells : Spells (render s module).toList (lexemes s module) := by
    rw [render, joined, String.toList_join, fragments]
    simp only [List.flatMap_append, List.flatMap_cons, List.flatMap_nil, List.append_nil]
    have hopening := hheader.append ((spells_local hm).append hblank)
    have hclosing := hblank.append (spells_return hm)
    exact (hopening.append (spells_entries hm hnames (fieldIdentifiers_of_resolves hs))).append hclosing
  have hscan := hspells []
  rw [List.append_nil] at hscan
  rw [Chunk.read, hscan, Lexeme.scan_nil, Option.map_some, List.append_nil, Option.bind_some]
  exact ofLexemes_lexemes s module

end

/-! ## Running the chunk -/

open Instance (Event environmentName globals package preload packageHost inject created)

/-- What the chunk takes for a name: its own table under the name of the module, and otherwise the
global, unless `_ENV` is the one or the other. -/
def taken (k : Instance) (module name : String) : Value :=
  if name = module then .table ⟨k.tables.size⟩
  else if module = environmentName then .nil
  else if name = environmentName then .table globals
  else k.global name

section

variable {k : Instance} {s : TableSet} {t : LuaTable} {name module : String} {names : List String}

theorem rawGet_newTable_of_lt (t : LuaTable) {r : TableRef} (hr : r.index < k.tables.size)
    (key : Value) : (k.newTable t).1.rawGet r key = k.rawGet r key :=
  congrArg (·.rawGet key) (Instance.table_newTable_of_lt k t hr)

theorem rawGet_newTable_self (key : Value) :
    (k.newTable t).1.rawGet ⟨k.tables.size⟩ key = t.rawGet key :=
  congrArg (·.rawGet key) (Instance.table_newTable_self k t)

theorem metaEntry_newTable_self (k : Instance) (ht : t.metatable = none) (entry : String) :
    (k.newTable t).1.metaEntry (.table ⟨k.tables.size⟩) entry = .nil := by
  refine Instance.metaEntry_of_plain ?_ entry
  exact (congrArg LuaTable.metatable (Instance.table_newTable_self k t)).trans ht

theorem rawSet_newTable_self (key value : Value) :
    (k.newTable t).1.rawSet ⟨k.tables.size⟩ key value = (k.newTable (t.rawSet key value)).1 := by
  have htable : (k.newTable t).1.table ⟨k.tables.size⟩ = t := Instance.table_newTable_self k t
  rw [Instance.rawSet, htable]
  simp [Instance.setTable, Instance.newTable, Array.setIfInBounds, Array.set_push]

/-- The name of a class that is not in the table yet. -/
theorem run_valueOf (hk : k.PlainGlobals) (ht : t.metatable = none)
    (hnew : t.rawGet (.ofText name) = .nil) :
    (Chunk.valueOf [(module, .table ⟨k.tables.size⟩)] name).run.run (k.newTable t).1 =
      (.ok (taken k module name), (k.newTable t).1) := by
  rw [Chunk.valueOf, taken]
  by_cases hname : name = module
  · rw [hname, List.lookup_cons_self, if_pos rfl]
    rfl
  · have hlookup : ∀ other, other ≠ module →
        [(module, Value.table ⟨k.tables.size⟩)].lookup other = none := by
      intro other hother
      simp [List.lookup_cons, beq_eq_false_iff_ne.2 hother]
    rw [hlookup name hname, if_neg hname]
    by_cases henvironment : module = environmentName
    · rw [← henvironment, List.lookup_cons_self, if_pos rfl]
      simp only
      rw [Instance.run_index_table (metaEntry_newTable_self k ht _), rawGet_newTable_self, hnew]
    · rw [hlookup _ (Ne.symm henvironment), if_neg henvironment]
      simp only
      rw [Instance.named]
      by_cases hglobals : name = environmentName
      · rw [if_pos hglobals, if_pos hglobals]
        rfl
      · have hplain : (k.newTable t).1.metaEntry (.table globals) "__index" = .nil := by
          refine Instance.metaEntry_of_plain ?_ _
          rw [Instance.table_newTable_of_lt k t hk.there]
          exact hk.plain
        rw [if_neg hglobals, if_neg hglobals, Instance.run_index_table hplain,
          rawGet_newTable_of_lt t hk.there]
        rfl

/-- Each statement puts what a name stands for into the table, under that name. -/
theorem run_executeAll (hk : k.PlainGlobals) (ht : t.metatable = none) (hnames : names.Nodup)
    (hnew : ∀ name ∈ names, t.rawGet (.ofText name) = .nil) :
    (Chunk.executeAll [(module, .table ⟨k.tables.size⟩)]
        (names.map fun name => .setField module name name)).run.run (k.newTable t).1 =
      (.ok [(module, .table ⟨k.tables.size⟩)],
        (k.newTable (t.setNames (names.map fun name => (name, taken k module name)))).1) := by
  induction names generalizing t with
  | nil => rfl
  | cons name names ih =>
    rw [List.nodup_cons] at hnames
    rw [List.forall_mem_cons] at hnew
    have htable : (Chunk.valueOf [(module, .table ⟨k.tables.size⟩)] module).run.run
        (k.newTable t).1 = (.ok (.table ⟨k.tables.size⟩), (k.newTable t).1) := by
      rw [Chunk.valueOf, List.lookup_cons_self]
      rfl
    have hassign := Instance.run_assign_table (metaEntry_newTable_self k ht "__newindex") name
      (taken k module name)
    rw [rawSet_newTable_self] at hassign
    have hstatement : (Chunk.execute [(module, .table ⟨k.tables.size⟩)]
        (.setField module name name)).run.run (k.newTable t).1 =
          (.ok [(module, .table ⟨k.tables.size⟩)],
            (k.newTable (t.rawSet (.ofText name) (taken k module name))).1) := by
      rw [Chunk.execute, run_bind_ok (run_valueOf hk ht hnew.1),
        run_bind_ok htable, run_bind_ok hassign]
      rfl
    rw [List.map_cons, Chunk.executeAll, run_bind_ok hstatement]
    refine ih ?_ hnames.2 fun other hother => ?_
    · rw [LuaTable.metatable_rawSet]
      exact ht
    · rw [LuaTable.rawGet_rawSet_ofText_of_ne, hnew.2 other hother]
      rw [Ne, Value.ofText_inj]
      rintro rfl
      exact hnames.1 hother

/-- The table that the chunk fills. -/
def filled (k : Instance) (s : TableSet) (module : String) : LuaTable :=
  LuaTable.empty.setNames (s.names.map fun name => (name, taken k module name))

theorem run_chunk (hk : k.PlainGlobals) (hnames : s.names.Nodup) :
    (chunk s module).run.run.run k =
      (.ok (.table ⟨k.tables.size⟩), (k.newTable (filled k s module)).1) := by
  have hbody : (Chunk.executeAll [] (chunk s module).body).run.run k =
      (.ok [(module, .table ⟨k.tables.size⟩)], (k.newTable (filled k s module)).1) :=
    run_executeAll hk rfl hnames fun name _ => LuaTable.rawGet_empty (.ofText name)
  rw [Chunk.run, run_bind_ok hbody, Chunk.valueOf]
  show (Chunk.valueOf [(module, .table ⟨k.tables.size⟩)] module).run.run _ = _
  rw [Chunk.valueOf, List.lookup_cons_self]
  rfl

/-! ## Agreement -/

theorem rawGet_filled (hnames : s.names.Nodup) (hname : name ∈ s.names) :
    (filled k s module).rawGet (.ofText name) = taken k module name := by
  have hnodup : ((s.names.map fun name => (name, taken k module name)).map (·.1)).Nodup := by
    rw [List.map_map]
    exact (List.map_id s.names).symm ▸ hnames
  exact LuaTable.rawGet_setNames hnodup (List.mem_map_of_mem hname)

theorem rawGet_filled_table (hnames : s.names.Nodup) {t : Table} (ht : t ∈ s.tables) :
    (k.newTable (filled k s module)).1.rawGet ⟨k.tables.size⟩ (.ofText t.name) =
      taken k module t.name := by
  rw [rawGet_newTable_self, rawGet_filled hnames (List.mem_map_of_mem ht)]

theorem rawGet_filled_of_ne {key : Value} (hkey : ∀ t ∈ s.tables, key ≠ .ofText t.name) :
    (k.newTable (filled k s module)).1.rawGet ⟨k.tables.size⟩ key = .nil := by
  rw [rawGet_newTable_self, filled, LuaTable.rawGet_setNames_of_ne, LuaTable.rawGet_empty]
  intro e he
  obtain ⟨name, hname, rfl⟩ := List.mem_map.1 he
  obtain ⟨t, ht, rfl⟩ := List.mem_map.1 hname
  exact hkey t ht

theorem taken_eq_global (hname : name ≠ module) (hmodule : module ≠ environmentName)
    (henvironment : name ≠ environmentName) : taken k module name = k.global name := by
  rw [taken, if_neg hname, if_neg hmodule, if_neg henvironment]

/-- What is taken for a name is a class only if it is the global of that name. -/
theorem ne_of_taken_eq_class (hk : k.PlainGlobals) {t : Table} {c : TableRef}
    (hclass : k.HoldsClass c t) (h : taken k module name = .table c) :
    name ≠ module ∧ module ≠ environmentName ∧ name ≠ environmentName := by
  have hmodule : name ≠ module := by
    intro hname
    rw [taken, if_pos hname] at h
    cases h
    exact Nat.not_succ_le_self _ (Nat.le_of_lt hclass.there)
  have hother : module ≠ environmentName := by
    intro henvironment
    rw [taken, if_neg hmodule, if_pos henvironment] at h
    cases h
  refine ⟨hmodule, hother, fun hname => ?_⟩
  rw [taken, if_neg hmodule, if_neg hother, if_pos hname] at h
  cases h
  have hplain := hclass.metatable
  rw [hk.plain] at hplain
  cases hplain

/-- The chunk gathers the classes of the set, unless a name is taken for something else. -/
theorem gathers_filled_iff (hk : k.PlainGlobals) (hnames : s.names.Nodup)
    (hclasses : ∀ t ∈ s.tables, ∃ c, k.global t.name = .table c ∧ k.HoldsClass c t) :
    k.Gathers s (k.newTable (filled k s module)).1 ⟨k.tables.size⟩ ↔
      module ∉ s.names ∧ environmentName ∉ s.names ∧
        (module = environmentName → s.tables = []) := by
  constructor
  · intro h
    have hother : ∀ t ∈ s.tables,
        t.name ≠ module ∧ module ≠ environmentName ∧ t.name ≠ environmentName := by
      intro t ht
      obtain ⟨c, _, hclass, hget⟩ := h.entries t ht
      rw [rawGet_filled_table hnames ht] at hget
      exact ne_of_taken_eq_class hk hclass hget
    refine ⟨fun hmem => ?_, fun hmem => ?_, fun henvironment => ?_⟩
    · obtain ⟨t, ht, hname⟩ := List.mem_map.1 hmem
      exact (hother t ht).1 hname
    · obtain ⟨t, ht, hname⟩ := List.mem_map.1 hmem
      exact (hother t ht).2.2 hname
    · exact List.eq_nil_iff_forall_not_mem.2 fun t ht => (hother t ht).2.1 henvironment
  · rintro ⟨hmodule, hglobals, hempty⟩
    refine ⟨fun t ht => ?_, fun key hkey => rawGet_filled_of_ne hkey⟩
    have hmem : t.name ∈ s.names := List.mem_map_of_mem ht
    have henvironment : module ≠ environmentName := by
      intro heq
      rw [hempty heq] at ht
      cases ht
    have hname : t.name ≠ module := by
      rintro rfl
      exact hmodule hmem
    have hother : t.name ≠ environmentName := by
      intro heq
      exact hglobals (heq ▸ hmem)
    obtain ⟨c, hglobal, hclass⟩ := hclasses t ht
    refine ⟨c, hglobal, hclass, ?_⟩
    rw [rawGet_filled_table hnames ht, taken_eq_global hname henvironment hother, hglobal]

/-- Where a set is registered, the text of its module is a chunk that gives a table of the classes of
the set, the same as the module that was preloaded, exactly if no table has the name of the module or
the name `_ENV`, and the module is called `_ENV` only if the set has no tables. -/
theorem text_agrees_iff {libraries : List Library} {i : Instance}
    (h : created.addLibraries libraries = .ok i) {d : Declarations} {p : Provision}
    (hp : TableSet.ofDeclarations d = .ok p.set) {before later : List Event}
    (hok : (inject p (i.run before)).1 = .ok ())
    (hkept : ∀ t ∈ p.set.tables, .remove t.name ∉ later) {module : String}
    (hm : IsIdentifier module) :
    ∃ c, Chunk.read (render p.set module) = some c ∧
      ((∃ r k, c.run.run.run (i.run (before ++ .inject p :: later)) = (.ok (.table r), k) ∧
          (i.run (before ++ .inject p :: later)).Gathers p.set k r ∧
          ∀ name, p.module = some name → (i.run before).global "package" = .table package →
            ∃ preloaded, (i.run (before ++ [.inject p])).rawGet preload (.ofText name) =
                .function (.loader preloaded) ∧
              ∀ key, k.rawGet preloaded key = k.rawGet r key) ↔
        module ∉ p.set.names ∧ environmentName ∉ p.set.names ∧
          (module = environmentName → p.set.tables = [])) := by
  have hnames : p.set.names.Nodup := (wellFormed_of_resolves hp).names
  have hi := (Instance.equipped_of_addLibraries h).run before
  have hclasses := hi.hasClasses_run hnames hok hkept
  have hj : (inject p (i.run before)).2.Equipped := (hi.leads (.inject p)).equipped
  have hk := hj.run later
  have hrun : i.run (before ++ .inject p :: later) = (inject p (i.run before)).2.run later := by
    rw [Instance.run_append]
    rfl
  have hregistered : i.run (before ++ [.inject p]) = (inject p (i.run before)).2 :=
    Instance.run_concat i before (.inject p)
  rw [hrun, hregistered]
  refine ⟨chunk p.set module, read_render hp hm, ?_⟩
  rw [run_chunk hk.plainGlobals hnames, ← gathers_filled_iff hk.plainGlobals hnames fun t ht => by
    obtain ⟨c, _, hglobal, hclass⟩ := hclasses t ht
    exact ⟨c, hglobal, hclass⟩]
  constructor
  · rintro ⟨r, k, hresult, hgathers, _⟩
    cases hresult
    exact hgathers
  · intro hgathers
    refine ⟨_, _, rfl, hgathers, fun name hname hlibrary => ?_⟩
    obtain ⟨preloaded, hlow, hthere, hloader, hmodule⟩ :=
      hi.installed hlibrary hnames ⟨hname, hok⟩
    have hthere' := Nat.lt_of_lt_of_le hthere (hj.size_run later)
    have htable := Instance.table_newTable_of_lt _
      (filled ((inject p (i.run before)).2.run later) p.set module) hthere'
    refine ⟨preloaded, hloader, fun key => ?_⟩
    refine (hmodule.of_table_eq (htable.trans (hj.table_run later hlow hthere))).rawGet_eq hgathers
      (fun t ht => ?_) key
    obtain ⟨c, hglobal, hglobal', _⟩ := hclasses t ht
    rw [hglobal, hglobal']

end

/-- A table whose name is that of the module. -/
def wasmDeclarations : Declarations where
  read := [⟨"w", "wasm", []⟩]
  definition := []

def wasmSet : TableSet := ⟨[⟨"w", "wasm", .read, []⟩]⟩

theorem text_agrees_iff_node :
    created.addLibraries [.package] = .ok packageHost ∧
      TableSet.ofDeclarations nodeDeclarations = .ok nodeSet ∧
      (inject ⟨nodeSet, some "nodes"⟩ (packageHost.run [])).1 = .ok () ∧
      (∀ t ∈ nodeSet.tables, .remove t.name ∉ ([] : List Event)) ∧ IsIdentifier "nodes" ∧
      ∃ c, Chunk.read (render nodeSet "nodes") = some c ∧
        ∃ r k, c.run.run.run (packageHost.run [.inject ⟨nodeSet, some "nodes"⟩]) =
            (.ok (.table r), k) ∧
          (packageHost.run [.inject ⟨nodeSet, some "nodes"⟩]).Gathers nodeSet k r := by
  have haccepted : TableSet.ofDeclarations nodeDeclarations = .ok nodeSet := rfl
  have hok : (inject ⟨nodeSet, some "nodes"⟩ (packageHost.run [])).1 = .ok () := rfl
  have hkept : ∀ t ∈ nodeSet.tables, .remove t.name ∉ ([] : List Event) :=
    fun _ _ => List.not_mem_nil
  have hm : IsIdentifier "nodes" := (isName_iff "nodes").1 (by decide)
  obtain ⟨c, hread, hagree⟩ := text_agrees_iff (p := ⟨nodeSet, some "nodes"⟩)
    Instance.packageHost_eq haccepted hok hkept hm
  obtain ⟨r, k, hrun, hgathers, _⟩ := hagree.2 (by decide)
  exact ⟨Instance.packageHost_eq, haccepted, hok, hkept, hm, c, hread, r, k, hrun, hgathers⟩

/-- The module has itself where its class should be. -/
theorem module_shadows_class :
    created.addLibraries [.package] = .ok packageHost ∧
      TableSet.ofDeclarations wasmDeclarations = .ok wasmSet ∧ IsIdentifier "wasm" ∧
      (inject ⟨wasmSet, some "wasm"⟩ packageHost).1 = .ok () ∧
      ∃ c r k, Chunk.read (render wasmSet "wasm") = some c ∧
        c.run.run.run (inject ⟨wasmSet, some "wasm"⟩ packageHost).2 = (.ok (.table r), k) ∧
        k.rawGet r (.ofText "wasm") = .table r ∧
        (inject ⟨wasmSet, some "wasm"⟩ packageHost).2.global "wasm" ≠ .table r := by
  have haccepted : TableSet.ofDeclarations wasmDeclarations = .ok wasmSet := rfl
  have hm : IsIdentifier "wasm" := (isName_iff "wasm").1 (by decide)
  refine ⟨Instance.packageHost_eq, haccepted, hm, rfl, chunk wasmSet "wasm", ⟨9⟩, _,
    read_render haccepted hm, rfl, rfl, ?_⟩
  intro h
  cases h

end Module
end Render
end RecordTables
