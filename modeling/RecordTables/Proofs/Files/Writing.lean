import RecordTables.Files.Access
import RecordTables.Text.Utf8

/-!
What writing changes.

`FileAccess.Performs` follows texts that are written one after the other, up to the first that cannot
be written, through the states that the operations leave.  Nothing is assumed of the operations for
this.  What they do to files is known under the laws of `FileAccess.Lawful`: reading changes no file,
nor does a write that fails, and a text that is written replaces the contents of the one file that its
path leads to.  Under these laws the contents of every file after the writes are known
(`Performs.contents?_of_lastText` and `Performs.contents?_eq`).
-/

namespace RecordTables

variable {σ : Type}

namespace FileAccess

variable {files : FileAccess (StateM σ)} {w w' : σ} {writes rest done : List (String × String)}

/-- Texts are written to paths in order, up to the first that cannot be written.  `done` are those that
were written. -/
inductive Performs (files : FileAccess (StateM σ)) :
    σ → List (String × String) → List (String × String) → σ → Prop
  | all (w : σ) : Performs files w [] [] w
  | refused {w w' : σ} {path text : String} {rest : List (String × String)} {fault : FileFault}
      (h : (files.write path text).run w = (.error fault, w')) :
      Performs files w ((path, text) :: rest) [] w'
  | next {w between w' : σ} {path text : String} {rest done : List (String × String)}
      (h : (files.write path text).run w = (.ok (), between))
      (hrest : Performs files between rest done w') :
      Performs files w ((path, text) :: rest) ((path, text) :: done) w'

theorem Performs.append {between : σ} (h : files.Performs w writes writes between)
    (hrest : files.Performs between rest done w') :
    files.Performs w (writes ++ rest) (writes ++ done) w' := by
  induction writes generalizing w with
  | nil =>
    cases h
    exact hrest
  | cons t writes ih =>
    cases h with
    | next hwrite h => exact .next hwrite (ih h)

/-- Once a text could not be written, nothing else is. -/
theorem Performs.append_of_ne (h : files.Performs w writes done w') (hne : done ≠ writes)
    (rest : List (String × String)) :
    files.Performs w (writes ++ rest) done w' ∧ done ≠ writes ++ rest := by
  induction h with
  | all => exact absurd rfl hne
  | refused hwrite => exact ⟨.refused hwrite, nofun⟩
  | next hwrite _ ih =>
    obtain ⟨hperforms, hne⟩ := ih fun heq => hne (by rw [heq])
    exact ⟨.next hwrite hperforms, fun heq => hne (List.cons.inj heq).2⟩

theorem Performs.unique {done' : List (String × String)} {w'' : σ}
    (h : files.Performs w writes done w') (h' : files.Performs w writes done' w'') :
    done = done' ∧ w' = w'' := by
  induction h generalizing done' with
  | all =>
    cases h'
    exact ⟨rfl, rfl⟩
  | refused hwrite =>
    cases h' with
    | refused hwrite' =>
      rw [hwrite] at hwrite'
      cases hwrite'
      exact ⟨rfl, rfl⟩
    | next hwrite' _ =>
      rw [hwrite] at hwrite'
      cases hwrite'
  | next hwrite _ ih =>
    cases h' with
    | refused hwrite' =>
      rw [hwrite] at hwrite'
      cases hwrite'
    | next hwrite' hrest =>
      rw [hwrite] at hwrite'
      cases hwrite'
      obtain ⟨rfl, rfl⟩ := ih hrest
      exact ⟨rfl, rfl⟩

/-- All texts can be written, one after the other. -/
def Takes (files : FileAccess (StateM σ)) (w : σ) (writes : List (String × String)) : Prop :=
  ∃ w', files.Performs w writes writes w'

theorem Performs.takes_iff (h : files.Performs w writes done w') :
    files.Takes w writes ↔ done = writes := by
  constructor
  · intro htakes
    obtain ⟨w'', hall⟩ := htakes
    exact (h.unique hall).1
  · intro hall
    subst hall
    exact ⟨w', h⟩

end FileAccess

/-! ## The files behind the operations -/

/-- A way to see the files of a state: the place of the file that a path leads to, or would make, and
the contents of a place, if there is a file. -/
structure FileView (σ : Type) where
  Place : Type
  place? : σ → String → Option Place
  contents? : σ → Place → Option (List UInt8)

namespace FileView

variable {view : FileView σ} {w w' : σ} {q : view.Place} {text : String}
  {writes : List (String × String)}

/-- Two states have the same files. -/
structure Same (view : FileView σ) (w w' : σ) : Prop where
  places : ∀ path, view.place? w' path = view.place? w path
  contents : ∀ q, view.contents? w' q = view.contents? w q

theorem Same.refl (view : FileView σ) (w : σ) : view.Same w w := ⟨fun _ => rfl, fun _ => rfl⟩

theorem Same.symm (h : view.Same w w') : view.Same w' w :=
  ⟨fun path => (h.places path).symm, fun q => (h.contents q).symm⟩

/-- No text is for the file at a place. -/
def Untouched (view : FileView σ) (w : σ) (writes : List (String × String)) (q : view.Place) :
    Prop :=
  ∀ t ∈ writes, view.place? w t.1 ≠ some q

/-- The last of several texts that is for the file at a place. -/
inductive LastText (view : FileView σ) (w : σ) (q : view.Place) :
    List (String × String) → String → Prop
  | here {path text : String} {rest : List (String × String)}
      (hplace : view.place? w path = some q) (hrest : view.Untouched w rest q) :
      view.LastText w q ((path, text) :: rest) text
  | later {t : String × String} {text : String} {rest : List (String × String)}
      (h : view.LastText w q rest text) : view.LastText w q (t :: rest) text

theorem untouched_cons_iff {t : String × String} :
    view.Untouched w (t :: writes) q ↔ view.place? w t.1 ≠ some q ∧ view.Untouched w writes q :=
  List.forall_mem_cons

theorem Untouched.congr (h : ∀ path, view.place? w' path = view.place? w path)
    (hwrites : view.Untouched w writes q) : view.Untouched w' writes q := by
  intro t ht
  rw [h]
  exact hwrites t ht

theorem LastText.congr (h : ∀ path, view.place? w' path = view.place? w path)
    (hlast : view.LastText w q writes text) : view.LastText w' q writes text := by
  induction hlast with
  | here hplace hrest => exact .here ((h _).trans hplace) (hrest.congr h)
  | later _ ih => exact .later ih

/-- For every place there is a last text, or none at all. -/
theorem untouched_or_lastText (view : FileView σ) (w : σ) (writes : List (String × String))
    (q : view.Place) : view.Untouched w writes q ∨ ∃ text, view.LastText w q writes text := by
  induction writes with
  | nil => exact Or.inl nofun
  | cons t writes ih =>
    cases ih with
    | inr hlast =>
      obtain ⟨text, hlast⟩ := hlast
      exact Or.inr ⟨text, .later hlast⟩
    | inl hwrites =>
      by_cases ht : view.place? w t.1 = some q
      · exact Or.inr ⟨t.2, .here ht hwrites⟩
      · exact Or.inl (untouched_cons_iff.2 ⟨ht, hwrites⟩)

/-- All files have the last texts for them already. -/
def Holds (view : FileView σ) (w : σ) (writes : List (String × String)) : Prop :=
  ∀ q text, view.LastText w q writes text → view.contents? w q = some (Text.bytesOf text)

theorem Same.holds (h : view.Same w w') (hholds : view.Holds w writes) : view.Holds w' writes := by
  intro q text hlast
  rw [h.contents]
  exact hholds q text (hlast.congr h.symm.places)

end FileView

namespace FileAccess

variable {files : FileAccess (StateM σ)} {view : FileView σ} {w w' : σ} {q : view.Place}
  {text : String} {writes done : List (String × String)}

/-- What the operations do to the files that are seen.  A write is all or nothing. -/
structure Lawful (files : FileAccess (StateM σ)) (view : FileView σ) : Prop where
  /-- Reading changes no file. -/
  read : ∀ w path, view.Same w ((files.read path).run w).2
  /-- Neither does a write that fails. -/
  refused : ∀ {w w' path text fault}, (files.write path text).run w = (.error fault, w') →
    view.Same w w'
  /-- The file that the path leads to has the text that was written. -/
  written : ∀ {w w' path text q}, (files.write path text).run w = (.ok (), w') →
    view.place? w path = some q → view.contents? w' q = some (Text.bytesOf text)
  /-- Every other file is as it was. -/
  others : ∀ {w w' path text q}, (files.write path text).run w = (.ok (), w') →
    view.place? w path ≠ some q → view.contents? w' q = view.contents? w q
  /-- Paths lead where they led before. -/
  places : ∀ {w w' path text}, (files.write path text).run w = (.ok (), w') →
    ∀ path', view.place? w' path' = view.place? w path'

/-- A file that no text was written for is as it was. -/
theorem Performs.contents?_eq (hlawful : files.Lawful view) (h : files.Performs w writes done w')
    (hq : view.Untouched w done q) : view.contents? w' q = view.contents? w q := by
  induction h with
  | all => rfl
  | refused hwrite => exact (hlawful.refused hwrite).contents q
  | next hwrite _ ih =>
    obtain ⟨hfirst, hrest⟩ := FileView.untouched_cons_iff.1 hq
    rw [ih (hrest.congr (hlawful.places hwrite))]
    exact hlawful.others hwrite hfirst

/-- A file has the last text that was written for it. -/
theorem Performs.contents?_of_lastText (hlawful : files.Lawful view)
    (h : files.Performs w writes done w') (hlast : view.LastText w q done text) :
    view.contents? w' q = some (Text.bytesOf text) := by
  induction h with
  | all => cases hlast
  | refused => cases hlast
  | next hwrite hperforms ih =>
    have hplaces := hlawful.places hwrite
    cases hlast with
    | here hplace hrest =>
      rw [hperforms.contents?_eq hlawful (hrest.congr hplaces)]
      exact hlawful.written hwrite hplace
    | later hlast => exact ih (hlast.congr hplaces)

/-- Writing texts leaves all files as they were exactly if they have the texts already. -/
theorem Performs.unchanged_iff (hlawful : files.Lawful view)
    (h : files.Performs w writes done w') :
    (∀ q, view.contents? w' q = view.contents? w q) ↔ view.Holds w done := by
  constructor
  · intro hsame q text hlast
    rw [← hsame, h.contents?_of_lastText hlawful hlast]
  · intro hholds q
    cases view.untouched_or_lastText w done q with
    | inl hq => exact h.contents?_eq hlawful hq
    | inr hlast =>
      obtain ⟨text, hlast⟩ := hlast
      rw [h.contents?_of_lastText hlawful hlast, hholds q text hlast]

end FileAccess
end RecordTables
