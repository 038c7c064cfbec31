import RecordTables.Program
import RecordTables.Proofs.Files.System

/-!
What the generator leaves behind.

The generator reads its arguments, then a table set, and then writes.  Its only operations on files
are the reading of the definitions, and then a write for each text that was asked for, up to the first
that fails; the code of the program tells whether one did.  This holds of any operations.  If they
obey the laws of files, the contents of every file afterwards follow (`program_effect`).
-/

namespace RecordTables
namespace Generator

/-! ## Steps of the work -/

section

variable {σ α β : Type} {x : Work (StateM σ) α} {f : α → Work (StateM σ) β}
  {log log' : List Log.Entry} {w w' : σ}

theorem run_bind_ok {a : α} (h : (x.run.run log).run w = ((.ok a, log'), w')) :
    ((x >>= f).run.run log).run w = ((f a).run.run log').run w' := by
  show ((x.run.run log).run w >>= fun p => ((ExceptT.bindCont f p.1.1).run p.1.2).run p.2) = _
  rw [h]
  rfl

theorem run_bind_error {e : Failure} (h : (x.run.run log).run w = ((.error e, log'), w')) :
    ((x >>= f).run.run log).run w = ((.error e, log'), w') := by
  show ((x.run.run log).run w >>= fun p => ((ExceptT.bindCont f p.1.1).run p.1.2).run p.2) = _
  rw [h]
  rfl

/-- An operation on files as a step of the work. -/
theorem run_lift (operation : StateM σ α) (log : List Log.Entry) (w : σ) :
    ((liftM operation : Work (StateM σ) α).run.run log).run w =
      ((.ok (operation.run w).1, log), (operation.run w).2) := rfl

theorem run_note (text : String) (log : List Log.Entry) (w : σ) :
    ((note text : Work (StateM σ) Unit).run.run log).run w =
      ((.ok (), log ++ [⟨.info, text⟩]), w) := rfl

end

end Generator

/-! ## Definitions -/

variable {σ : Type} {files : FileAccess (StateM σ)} {w w' : σ} {s : TableSet}

/-- The table set that there is for the definitions that are asked for: the set of a document in a
file, or the built-in set. -/
inductive FileAccess.Provides (files : FileAccess (StateM σ)) (w : σ) :
    Option String → TableSet → Prop
  | builtIn {s : TableSet} (h : WebAssembly.tables = .ok s) : files.Provides w none s
  | file {path document : String} {bytes : List UInt8} {s : TableSet}
      (hread : ((files.read path).run w).1 = .ok bytes)
      (htext : Text.Utf8.decode? bytes = some document)
      (hs : TableSet.ofDocument document = .ok s) : files.Provides w (some path) s

theorem FileAccess.Provides.unique {s' : TableSet} {defs : Option String}
    (h : files.Provides w defs s) (h' : files.Provides w defs s') : s = s' := by
  cases h with
  | builtIn htables =>
    cases h' with
    | builtIn htables' =>
      rw [htables] at htables'
      exact Except.ok.inj htables'
  | file hread htext hs =>
    cases h' with
    | file hread' htext' hs' =>
      rw [hread] at hread'
      cases hread'
      rw [htext] at htext'
      cases htext'
      rw [hs] at hs'
      exact Except.ok.inj hs'

/-- The state that reading the definitions leaves. -/
def FileAccess.afterReading (files : FileAccess (StateM σ)) (w : σ) : Option String → σ
  | none => w
  | some path => ((files.read path).run w).2

theorem FileAccess.Lawful.same_afterReading {view : FileView σ} (h : files.Lawful view) (w : σ)
    (defs : Option String) : view.Same w (files.afterReading w defs) := by
  cases defs with
  | none => exact .refl view w
  | some path => exact h.read w path

namespace Generator

variable {log log' : List Log.Entry}

theorem setOfBytes_eq_ok_iff {path : String} {bytes : List UInt8} :
    setOfBytes path bytes = .ok s ↔
      ∃ document, Text.Utf8.decode? bytes = some document ∧ TableSet.ofDocument document = .ok s := by
  unfold setOfBytes
  cases Text.Utf8.decode? bytes with
  | none => simp
  | some document => simp [mapError_eq_ok_iff]

theorem run_loadSet_file (files : FileAccess (StateM σ)) (path : String) (log : List Log.Entry)
    (w : σ) :
    ((loadSet files (some path)).run.run log).run w =
      match ((files.read path).run w).1 with
      | .error fault => ((.error (.unreadable path fault), log), ((files.read path).run w).2)
      | .ok bytes => ((setOfBytes path bytes, log), ((files.read path).run w).2) := by
  unfold loadSet
  refine (run_bind_ok (run_lift (files.read path) log w)).trans ?_
  cases ((files.read path).run w).1 <;> rfl

/-- Reading the definitions gives the set that there is for them, if there is one. -/
theorem run_loadSet (files : FileAccess (StateM σ)) (defs : Option String) (log : List Log.Entry)
    (w : σ) :
    ∃ outcome, ((loadSet files defs).run.run log).run w =
        ((outcome, log), files.afterReading w defs) ∧
      ∀ s, outcome = .ok s ↔ files.Provides w defs s := by
  cases defs with
  | none =>
    refine ⟨WebAssembly.tables.mapError .invalidBuiltIn, rfl, fun s => ?_⟩
    rw [mapError_eq_ok_iff]
    constructor
    · exact .builtIn
    · intro h
      cases h with
      | builtIn htables => exact htables
  | some path =>
    rw [run_loadSet_file]
    cases hread : ((files.read path).run w).1 with
    | error fault =>
      refine ⟨_, rfl, fun s => ⟨nofun, fun h => ?_⟩⟩
      cases h with
      | file hread' =>
        rw [hread] at hread'
        cases hread'
    | ok bytes =>
      refine ⟨_, rfl, fun s => ?_⟩
      rw [setOfBytes_eq_ok_iff]
      constructor
      · intro h
        obtain ⟨document, htext, hs⟩ := h
        exact .file hread htext hs
      · intro h
        cases h with
        | file hread' htext hs =>
          rw [hread] at hread'
          cases hread'
          exact ⟨_, htext, hs⟩

/-! ## Writes -/

theorem run_writeTo (files : FileAccess (StateM σ)) (path : Option String) (text : String)
    (log : List Log.Entry) (w : σ) :
    ∃ outcome log' w' done, ((writeTo files path text).run.run log).run w = ((outcome, log'), w') ∧
      files.Performs w (path.toList.map (·, text)) done w' ∧
      (outcome.isOk = true ↔ done = path.toList.map (·, text)) := by
  cases path with
  | none => exact ⟨.ok (), log, w, [], rfl, .all w, fun _ => rfl, fun _ => rfl⟩
  | some path =>
    have hlift := run_lift (files.write path text) log w
    cases hwrite : (files.write path text).run w with
    | mk answer w' =>
      rw [hwrite] at hlift
      cases answer with
      | error fault =>
        exact ⟨.error (.unwritable path fault), log, w', [], run_bind_ok hlift, .refused hwrite,
          nofun, nofun⟩
      | ok =>
        exact ⟨.ok (), _, w', _, run_bind_ok hlift, .next hwrite (.all w'), fun _ => rfl,
          fun _ => rfl⟩

/-- The texts that are asked for, with their paths, in the order in which they are written. -/
def Options.texts (o : Options) (s : TableSet) : List (String × String) :=
  o.doc.toList.map (·, Render.Markdown.render s) ++
    o.lua.toList.map (·, Render.Module.render s defaultModule)

theorem run_generate (o : Options) (hs : files.Provides w o.defs s) (log : List Log.Entry) :
    ∃ outcome log' w' done, ((generate files o).run.run log).run w = ((outcome, log'), w') ∧
      files.Performs (files.afterReading w o.defs) (o.texts s) done w' ∧
      (outcome.isOk = true ↔ done = o.texts s) := by
  obtain ⟨loaded, hload, hprovides⟩ := run_loadSet files o.defs log w
  obtain rfl := (hprovides s).2 hs
  unfold generate
  rw [run_bind_ok hload, run_bind_ok (run_note _ log _)]
  obtain ⟨outcome, log', between, done, hdoc, hperforms, hdone⟩ :=
    run_writeTo files o.doc (Render.Markdown.render s) (log ++ [⟨.info, s!"{s.size} tables"⟩])
      (files.afterReading w o.defs)
  cases outcome with
  | error failure =>
    have hne : done ≠ o.doc.toList.map (·, Render.Markdown.render s) :=
      fun hall => nomatch hdone.2 hall
    obtain ⟨hstopped, hne⟩ := hperforms.append_of_ne hne
      (o.lua.toList.map (·, Render.Module.render s defaultModule))
    exact ⟨.error failure, log', between, done, run_bind_error hdoc, hstopped, nofun,
      fun hall => absurd hall hne⟩
  | ok =>
    obtain rfl := hdone.1 rfl
    obtain ⟨outcome, log'', w', done, hlua, hrest, hdone⟩ :=
      run_writeTo files o.lua (Render.Module.render s defaultModule) log' between
    refine ⟨outcome, log'', w', _, (run_bind_ok hdoc).trans hlua, hperforms.append hrest, ?_⟩
    rw [hdone]
    exact (List.append_right_inj _).symm

theorem run_generate_of_not_provides (o : Options) (hs : ¬∃ s, files.Provides w o.defs s)
    (log : List Log.Entry) :
    ∃ failure, ((generate files o).run.run log).run w =
      ((.error failure, log), files.afterReading w o.defs) := by
  obtain ⟨loaded, hload, hprovides⟩ := run_loadSet files o.defs log w
  cases loaded with
  | ok s => exact absurd ⟨s, (hprovides s).1 rfl⟩ hs
  | error failure => exact ⟨failure, run_bind_error hload⟩

/-! ## The program -/

theorem run_program_of_refused {setting : Option String} {name : String} {arguments : List String}
    {e : UsageError} (h : Options.read arguments = .error e) (w : σ) :
    (program files setting name arguments).run w =
      (⟨2, errorLine e.message :: usage name⟩, w) := by
  unfold program
  rw [h]
  rfl

theorem run_program {arguments : List String} {o : Options}
    (h : Options.read arguments = .ok o) {outcome : Except Failure Unit} (setting : Option String)
    (name : String) (hrun : ((generate files o).run.run []).run w = ((outcome, log), w')) :
    ((program files setting name arguments).run w).1.code = (if outcome.isOk then 0 else 1) ∧
      ((program files setting name arguments).run w).2 = w' := by
  unfold program
  rw [h]
  simp only [StateT.run_bind, hrun]
  cases outcome <;> exact ⟨rfl, rfl⟩

/-- A run of the generator with any operations on files.  Where its arguments are refused, it uses none
of them; where there is no table set, it only reads.  Otherwise the texts that are asked for are
written in order, up to the first that cannot be written.  Under the laws of files, a file then has the
last text that was written for it, and every other file is as it was. -/
theorem program_effect {σ : Type} (files : FileAccess (StateM σ)) (w : σ) (setting : Option String)
    (name : String) (arguments : List String) :
    let run := (program files setting name arguments).run w
    (∀ e, Options.read arguments = .error e → run.1.code = 2 ∧ run.2 = w) ∧
      ∀ o, Options.read arguments = .ok o →
        ((¬∃ s, files.Provides w o.defs s) →
          run.1.code = 1 ∧ run.2 = files.afterReading w o.defs ∧
            ∀ view, files.Lawful view → view.Same w run.2) ∧
        ∀ s, files.Provides w o.defs s → ∃ done,
          files.Performs (files.afterReading w o.defs) (o.texts s) done run.2 ∧
            run.1.code = (if done = o.texts s then 0 else 1) ∧
            ∀ view, files.Lawful view → ∀ q,
              (∀ text, view.LastText w q done text →
                view.contents? run.2 q = some (Text.bytesOf text)) ∧
              (view.Untouched w done q → view.contents? run.2 q = view.contents? w q) := by
  intro run
  refine ⟨fun e he => ?_, fun o ho => ⟨fun hs => ?_, fun s hs => ?_⟩⟩
  · have hrun : run = _ := run_program_of_refused he w
    rw [hrun]
    exact ⟨rfl, rfl⟩
  · obtain ⟨failure, hgenerate⟩ := run_generate_of_not_provides o hs []
    obtain ⟨hcode, hafter⟩ : run.1.code = 1 ∧ run.2 = _ := run_program ho setting name hgenerate
    refine ⟨hcode, hafter, fun view hlawful => ?_⟩
    rw [hafter]
    exact hlawful.same_afterReading w o.defs
  · obtain ⟨outcome, log, w', done, hgenerate, hperforms, hdone⟩ := run_generate o hs []
    obtain ⟨hcode, hafter⟩ : _ ∧ run.2 = w' := run_program ho setting name hgenerate
    rw [hafter]
    refine ⟨done, hperforms, ?_, fun view hlawful q => ?_⟩
    · rw [hcode]
      exact if_congr hdone rfl rfl
    have hread := hlawful.same_afterReading w o.defs
    refine ⟨fun text hlast => ?_, fun hq => ?_⟩
    · exact hperforms.contents?_of_lastText hlawful (hlast.congr hread.places)
    · rw [hperforms.contents?_eq hlawful (hq.congr hread.places)]
      exact hread.contents q

/-- A file system with the declarations of no tables where the program works. -/
def bareSystem : FileSystem :=
  { FileSystem.empty with here := ["tables"] }.place ["tables", "t.json"]
    (.file (Text.bytesOf "\x7b\x7d"))

/-- The reference of no tables is written beside their declarations, though it is named by its path
from the root. -/
theorem program_effect_bare :
    let run := (program FileSystem.access none "g" ["--defs", "t.json", "--doc", "/tables/t.md"]).run
      bareSystem
    Options.read ["--defs", "t.json", "--doc", "/tables/t.md"] =
        .ok ⟨some "t.json", some "/tables/t.md", none, false⟩ ∧
      FileSystem.access.Provides bareSystem (some "t.json") ⟨[]⟩ ∧
      FileSystem.access.Lawful FileSystem.view ∧
      run.1.code = 0 ∧
      FileSystem.contents? run.2 ["tables", "t.md"] =
        some (Text.bytesOf (Render.Markdown.render ⟨[]⟩)) := by
  intro run
  have harguments : Options.read ["--defs", "t.json", "--doc", "/tables/t.md"] =
      .ok ⟨some "t.json", some "/tables/t.md", none, false⟩ := rfl
  have hset : TableSet.ofDocument "\x7b\x7d" = .ok ⟨[]⟩ := by decide +kernel
  have hprovides : FileSystem.access.Provides bareSystem (some "t.json") ⟨[]⟩ := .file rfl rfl hset
  obtain ⟨done, hperforms, hcode, hcontents⟩ :=
    ((program_effect FileSystem.access bareSystem none "g" _).2 _ harguments).2 _ hprovides
  obtain ⟨hlast, _⟩ := hcontents FileSystem.view FileSystem.access_lawful ["tables", "t.md"]
  have hplace : bareSystem.place? "/tables/t.md" = some ["tables", "t.md"] := rfl
  have hwrite : ∀ text, (FileSystem.access.write "/tables/t.md" text).run bareSystem =
      (.ok (), bareSystem.insert ["tables", "t.md"] (.file (Text.bytesOf text))) := fun _ => rfl
  obtain rfl := hperforms.takes_iff.1 ⟨_, .next (hwrite _) (.all _)⟩
  refine ⟨harguments, hprovides, FileSystem.access_lawful, hcode.trans (if_pos rfl), hlast _ ?_⟩
  exact .here hplace nofun

end Generator
end RecordTables
