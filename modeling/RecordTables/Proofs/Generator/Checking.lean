import RecordTables.Proofs.Generator.Arguments
import RecordTables.Proofs.Generator.Effect

/-!
What a run with `--check` does.

If it is asked for nothing else, it tells by its code whether there is a table set and leaves all
files as they are.  The option does not keep the generator from writing, though: with a file for the
reference or for the module, the run only validates where the texts can be written and are there
already (`check_onlyValidates_iff`).
-/

namespace RecordTables
namespace Generator

variable {σ : Type} {files : FileAccess (StateM σ)} {view : FileView σ} {w : σ}
  {arguments : List String} {o : Options} {s : TableSet}

/-- A run tells by its code whether there is a table set for the definitions, and makes or changes no
file. -/
structure OnlyValidates (files : FileAccess (StateM σ)) (view : FileView σ) (w : σ)
    (defs : Option String) (run : Execution × σ) : Prop where
  code : run.1.code = 0 ↔ ∃ s, files.Provides w defs s
  kept : ∀ q, view.contents? run.2 q = view.contents? w q

/-- Texts can be written after the definitions were read, and all files have the last texts for them
already. -/
structure IsWritten (files : FileAccess (StateM σ)) (view : FileView σ) (w : σ)
    (defs : Option String) (writes : List (String × String)) : Prop where
  takes : files.Takes (files.afterReading w defs) writes
  holds : view.Holds w writes

theorem run_program_of_provides (setting : Option String) (name : String)
    (ho : Options.read arguments = .ok o) (hs : files.Provides w o.defs s) :
    let run := (program files setting name arguments).run w
    ∃ done, files.Performs (files.afterReading w o.defs) (o.texts s) done run.2 ∧
      (run.1.code = 0 ↔ done = o.texts s) := by
  intro run
  obtain ⟨outcome, log, w', done, hgenerate, hperforms, hdone⟩ := run_generate o hs []
  obtain ⟨hcode, hafter⟩ : _ ∧ run.2 = w' := run_program ho setting name hgenerate
  rw [hafter]
  refine ⟨done, hperforms, ?_⟩
  rw [hcode, ← hdone]
  cases outcome.isOk <;> decide

theorem run_program_of_not_provides (setting : Option String) (name : String)
    (ho : Options.read arguments = .ok o) (hs : ¬∃ s, files.Provides w o.defs s) :
    let run := (program files setting name arguments).run w
    run.1.code = 1 ∧ run.2 = files.afterReading w o.defs := by
  obtain ⟨failure, hgenerate⟩ := run_generate_of_not_provides o hs []
  exact run_program ho setting name hgenerate

theorem onlyValidates_iff_of_provides (hlawful : files.Lawful view) (setting : Option String)
    (name : String) (ho : Options.read arguments = .ok o) (hs : files.Provides w o.defs s) :
    OnlyValidates files view w o.defs ((program files setting name arguments).run w) ↔
      IsWritten files view w o.defs (o.texts s) := by
  obtain ⟨done, hperforms, hcode⟩ := run_program_of_provides setting name ho hs
  have hread := hlawful.same_afterReading w o.defs
  have hunchanged := hperforms.unchanged_iff hlawful
  simp only [hread.contents] at hunchanged
  constructor
  · intro h
    obtain rfl := hcode.1 (h.code.2 ⟨s, hs⟩)
    exact ⟨⟨_, hperforms⟩, hread.symm.holds (hunchanged.1 h.kept)⟩
  · intro h
    obtain rfl := hperforms.takes_iff.1 h.takes
    exact ⟨⟨fun _ => ⟨s, hs⟩, fun _ => hcode.2 rfl⟩, hunchanged.2 (hread.holds h.holds)⟩

/-- Arguments with `--check` as an option are always taken.  Under the laws of files, their run only
validates exactly if there is no table set, or if the texts that are asked for besides, if any, can be
written and are there already. -/
theorem check_onlyValidates_iff {σ : Type} {files : FileAccess (StateM σ)} {view : FileView σ}
    (hlawful : files.Lawful view) (w : σ) (setting : Option String) (name : String)
    {items : List Item} (hcheck : .check ∈ items) :
    let o := Options.ofItems items
    Options.read (row items) = .ok o ∧
      (OnlyValidates files view w o.defs ((program files setting name (row items)).run w) ↔
        ∀ s, files.Provides w o.defs s → IsWritten files view w o.defs (o.texts s)) := by
  intro o
  have ho : Options.read (row items) = .ok o := Options.read_row_of_task ⟨.check, hcheck, trivial⟩
  refine ⟨ho, fun h s hs => ?_, fun h => ?_⟩
  · exact (onlyValidates_iff_of_provides hlawful setting name ho hs).1 h
  · by_cases hs : ∃ s, files.Provides w o.defs s
    · obtain ⟨s, hprovides⟩ := hs
      exact (onlyValidates_iff_of_provides hlawful setting name ho hprovides).2 (h s hprovides)
    · obtain ⟨hcode, hafter⟩ := run_program_of_not_provides setting name ho hs
      refine ⟨⟨fun hzero => ?_, fun hprovides => absurd hprovides hs⟩, fun q => ?_⟩
      · rw [hcode] at hzero
        cases hzero
      · rw [hafter]
        exact (hlawful.same_afterReading w o.defs).contents q

/-- The declarations of no tables, and the reference of no tables beside them. -/
def writtenSystem : FileSystem :=
  bareSystem.insert ["tables", "t.md"] (.file (Text.bytesOf (Render.Markdown.render ⟨[]⟩)))

/-- The declarations of no tables are only validated, though the reference is asked for: it is there
already. -/
theorem check_onlyValidates_iff_written :
    FileSystem.access.Lawful FileSystem.view ∧
      Item.check ∈ [.file .defs "t.json", .file .doc "t.md", .check] ∧
      row [.file .defs "t.json", .file .doc "t.md", .check] =
        ["--defs", "t.json", "--doc", "t.md", "--check"] ∧
      FileSystem.access.Provides writtenSystem (some "t.json") ⟨[]⟩ ∧
      OnlyValidates FileSystem.access FileSystem.view writtenSystem (some "t.json")
        ((program FileSystem.access none "g" ["--defs", "t.json", "--doc", "t.md", "--check"]).run
          writtenSystem) := by
  have hcheck : Item.check ∈ [.file .defs "t.json", .file .doc "t.md", .check] := by decide
  have hset : TableSet.ofDocument "\x7b\x7d" = .ok ⟨[]⟩ := by decide +kernel
  have hprovides : FileSystem.access.Provides writtenSystem (some "t.json") ⟨[]⟩ :=
    .file rfl rfl hset
  obtain ⟨_, hiff⟩ := check_onlyValidates_iff FileSystem.access_lawful writtenSystem none "g" hcheck
  refine ⟨FileSystem.access_lawful, hcheck, rfl, hprovides, hiff.2 fun s hs => ?_⟩
  obtain rfl := hs.unique hprovides
  have hwrite : ∀ text, (FileSystem.access.write "t.md" text).run writtenSystem =
      (.ok (), writtenSystem.insert ["tables", "t.md"] (.file (Text.bytesOf text))) := fun _ => rfl
  have hplace : writtenSystem.place? "t.md" = some ["tables", "t.md"] := rfl
  refine ⟨⟨_, .next (hwrite _) (.all _)⟩, fun q text hlast => ?_⟩
  cases hlast with
  | later h => cases h
  | here hq _ =>
    obtain rfl := Option.some.inj (hplace.symm.trans hq)
    have hthere : ∀ bytes, (bareSystem.insert ["tables", "t.md"] (.file bytes)).contents?
        ["tables", "t.md"] = some bytes := fun _ => rfl
    exact hthere _

/-- The declarations of no tables are not only validated, if there is a file for the reference. -/
theorem check_writes_reference :
    Item.check ∈ [.file .defs "t.json", .check, .file .doc "t.md"] ∧
      row [.file .defs "t.json", .check, .file .doc "t.md"] =
        ["--defs", "t.json", "--check", "--doc", "t.md"] ∧
      Options.read ["--defs", "t.json", "--check", "--doc", "t.md"] =
        .ok ⟨some "t.json", some "t.md", none, true⟩ ∧
      ¬OnlyValidates FileSystem.access FileSystem.view bareSystem (some "t.json")
        ((program FileSystem.access none "g" ["--defs", "t.json", "--check", "--doc", "t.md"]).run
          bareSystem) := by
  have hread : Options.read ["--defs", "t.json", "--check", "--doc", "t.md"] =
      .ok ⟨some "t.json", some "t.md", none, true⟩ := rfl
  have hset : TableSet.ofDocument "\x7b\x7d" = .ok ⟨[]⟩ := by decide +kernel
  have hprovides : FileSystem.access.Provides bareSystem (some "t.json") ⟨[]⟩ := .file rfl rfl hset
  refine ⟨by decide, rfl, hread, fun h => ?_⟩
  have hwritten := (onlyValidates_iff_of_provides FileSystem.access_lawful none "g" hread hprovides).1 h
  have hplace : bareSystem.place? "t.md" = some ["tables", "t.md"] := rfl
  have hnone : bareSystem.contents? ["tables", "t.md"] = none := rfl
  have hcontents := hwritten.holds ["tables", "t.md"] _ (.here hplace nofun)
  cases hnone.symm.trans hcontents

end Generator
end RecordTables
