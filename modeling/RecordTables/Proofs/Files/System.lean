import RecordTables.Files.System
import RecordTables.Proofs.Files.Writing
import RecordTables.Proofs.Outcome

/-!
The laws of a file system.

A path leads to the place of a file if it ends in a name of a directory and neither a directory nor a
device is there.  Writing to it changes the entry at this place and no other.  No directory is made or
lost, and nothing comes to stand in the way of a file, so every path leads where it led before.
-/

namespace RecordTables
namespace FileSystem

variable {fs fs' : FileSystem} {path text : String} {q : Path}

/-- A file is there, or can be made. -/
def isFree : Option FileEntry → Bool
  | none => true
  | some (.file _) => true
  | _ => false

/-- The place of the file that a path leads to, or would make. -/
def place? (fs : FileSystem) (path : String) : Option Path :=
  match PathText.read path >>= fs.locate with
  | .ok (folder, some name) =>
    if isFree (fs.entry? (folder ++ [name])) then some (folder ++ [name]) else none
  | _ => none

def contents? (fs : FileSystem) (q : Path) : Option (List UInt8) :=
  match fs.entry? q with
  | some (.file bytes) => some bytes
  | _ => none

/-- The files of a file system. -/
def view : FileView FileSystem := ⟨Path, place?, contents?⟩

theorem place?_eq_some_iff : fs.place? path = some q ↔
    ∃ p folder name, PathText.read path = .ok p ∧ fs.locate p = .ok (folder, some name) ∧
      isFree (fs.entry? (folder ++ [name])) = true ∧ folder ++ [name] = q := by
  unfold place?
  constructor
  · intro h
    split at h
    · next folder name hfound =>
      obtain ⟨p, hp, hlocate⟩ := bind_eq_ok_iff.1 hfound
      split at h
      · next hfree => exact ⟨p, folder, name, hp, hlocate, hfree, Option.some.inj h⟩
      · cases h
    · cases h
  · intro h
    obtain ⟨p, folder, name, hp, hlocate, hfree, rfl⟩ := h
    simp only [hp, ok_bind, hlocate, hfree, if_true]

theorem entry?_of_ne_nil (hq : q ≠ []) : fs.entry? q = fs.entries.find? q := by
  cases q with
  | nil => exact absurd rfl hq
  | cons name q => rfl

theorem entry?_insert_self (hq : q ≠ []) (entry : FileEntry) :
    FileSystem.entry? (fs.insert q entry) q = some entry := by
  rw [entry?_of_ne_nil hq]
  exact fs.entries.find?_insert_self q entry

theorem entry?_insert_of_ne {other : Path} (hother : other ≠ q) (entry : FileEntry) :
    FileSystem.entry? (fs.insert q entry) other = fs.entry? other := by
  cases other with
  | nil => rfl
  | cons name other => exact fs.entries.find?_insert_of_ne hother entry

/-! ## What a write comes to -/

theorem lookUp_eq_ok {folder : Path} {name : String} {found : Option FileEntry}
    (h : fs.lookUp folder name = .ok found) : fs.entry? (folder ++ [name]) = found := by
  unfold lookUp at h
  exact Except.ok.inj (refuse_eq_ok_iff.1 h).2

/-- A write changes the entry of a place for files, or nothing. -/
theorem write_eq_ok (h : fs.write path text = .ok fs') :
    (∃ q, q ≠ [] ∧ fs.place? path = some q ∧ isFree (fs.entry? q) = true ∧
      fs' = fs.insert q (.file (Text.bytesOf text))) ∨
    fs.place? path = none ∧ fs' = fs := by
  unfold write at h
  obtain ⟨p, hp, h⟩ := bind_eq_ok_iff.1 h
  obtain ⟨⟨folder, last⟩, hlocate, h⟩ := bind_eq_ok_iff.1 h
  cases last with
  | none => cases h
  | some name =>
    simp only at h
    split at h
    · cases h
    obtain ⟨found, hfound, h⟩ := bind_eq_ok_iff.1 h
    have hentry := lookUp_eq_ok hfound
    have hplace : fs.place? path =
        if isFree (fs.entry? (folder ++ [name])) then some (folder ++ [name]) else none := by
      unfold place?
      rw [hp, ok_bind, hlocate]
    rw [hentry] at hplace
    split at h
    · cases h
    · cases h
    · exact Or.inr ⟨hplace, (Except.ok.inj h).symm⟩
    · next hdirectory hrefusing hdevice =>
      have hfree : isFree found = true := by
        cases found with
        | none => rfl
        | some entry =>
          cases entry with
          | file bytes => rfl
          | directory => exact absurd rfl hdirectory
          | device input refusal =>
            cases refusal with
            | none => exact absurd rfl (hdevice input)
            | some fault => exact absurd rfl (hrefusing input fault)
      rw [if_pos hfree] at hplace
      refine Or.inl ⟨folder ++ [name], List.append_ne_nil_of_right_ne_nil folder nofun, hplace, ?_,
        (Except.ok.inj h).symm⟩
      rw [hentry]
      exact hfree

/-! ## Where paths lead -/

/-- Two file systems have the same directories and the same places for files, and the same one of the
directories is worked in. -/
structure Alike (fs fs' : FileSystem) : Prop where
  here : fs'.here = fs.here
  directories : ∀ q, fs'.entry? q = some .directory ↔ fs.entry? q = some .directory
  free : ∀ q, isFree (fs'.entry? q) = isFree (fs.entry? q)

theorem Alike.symm (h : Alike fs fs') : Alike fs' fs :=
  ⟨h.here.symm, fun q => (h.directories q).symm, fun q => (h.free q).symm⟩

theorem alike_of_write (h : fs.write path text = .ok fs') : Alike fs fs' := by
  cases write_eq_ok h with
  | inr h =>
    obtain ⟨_, rfl⟩ := h
    exact ⟨rfl, fun _ => Iff.rfl, fun _ => rfl⟩
  | inl h =>
    obtain ⟨target, hne, _, hfree, rfl⟩ := h
    refine ⟨rfl, fun q => ?_, fun q => ?_⟩
    · by_cases hq : q = target
      · subst hq
        rw [entry?_insert_self hne]
        refine ⟨nofun, fun hdirectory => ?_⟩
        rw [hdirectory] at hfree
        cases hfree
      · rw [entry?_insert_of_ne hq]
    · by_cases hq : q = target
      · subst hq
        rw [entry?_insert_self hne, hfree]
        rfl
      · rw [entry?_insert_of_ne hq]

theorem enter_eq_ok_iff {folder next : Path} {name : String} :
    fs.enter folder name = .ok next ↔
      name.utf8ByteSize ≤ PathText.nameLimit ∧ fs.entry? (folder ++ [name]) = some .directory ∧
        next = folder ++ [name] := by
  unfold enter lookUp
  rw [bind_eq_ok_iff]
  simp only [refuse_eq_ok_iff, Nat.not_lt]
  constructor
  · intro h
    obtain ⟨found, ⟨hname, hfound⟩, h⟩ := h
    cases found with
    | none => cases h
    | some entry =>
      cases entry with
      | directory =>
        cases h
        exact ⟨hname, Except.ok.inj hfound, rfl⟩
      | _ => cases h
  · intro h
    obtain ⟨hname, hentry, rfl⟩ := h
    refine ⟨_, ⟨hname, rfl⟩, ?_⟩
    rw [hentry]
    rfl

theorem Alike.follow (h : Alike fs fs') {folder next : Path} {names : List String}
    (hfollow : fs.follow folder names = .ok next) : fs'.follow folder names = .ok next := by
  induction names generalizing folder with
  | nil => exact hfollow
  | cons name names ih =>
    unfold FileSystem.follow at hfollow ⊢
    by_cases hdot : name = "."
    · rw [if_pos hdot] at hfollow ⊢
      exact ih hfollow
    by_cases hdots : name = ".."
    · rw [if_neg hdot, if_pos hdots] at hfollow ⊢
      exact ih hfollow
    rw [if_neg hdot, if_neg hdots] at hfollow ⊢
    cases henter : fs.enter folder name with
    | error fault =>
      rw [henter] at hfollow
      cases hfollow
    | ok next =>
      rw [henter] at hfollow
      have henter' : fs'.enter folder name = .ok next := by
        rw [enter_eq_ok_iff] at henter ⊢
        rw [h.directories]
        exact henter
      rw [henter']
      exact ih hfollow

theorem Alike.locate (h : Alike fs fs') {p : PathText} {found : Path × Option String}
    (hlocate : fs.locate p = .ok found) : fs'.locate p = .ok found := by
  unfold FileSystem.locate at hlocate ⊢
  obtain ⟨folder, hfolder, hfound⟩ := bind_eq_ok_iff.1 hlocate
  rw [h.here, h.follow hfolder]
  exact hfound

theorem Alike.place?_eq_some (h : Alike fs fs') (hplace : fs.place? path = some q) :
    fs'.place? path = some q := by
  rw [place?_eq_some_iff] at hplace ⊢
  obtain ⟨p, folder, name, hp, hlocate, hfree, hq⟩ := hplace
  refine ⟨p, folder, name, hp, h.locate hlocate, ?_, hq⟩
  rw [h.free]
  exact hfree

theorem Alike.place?_eq (h : Alike fs fs') (path : String) : fs'.place? path = fs.place? path :=
  Option.ext fun _ => ⟨h.symm.place?_eq_some, h.place?_eq_some⟩

/-! ## The laws -/

theorem contents?_insert_self (hq : q ≠ []) (bytes : List UInt8) :
    (fs.insert q (.file bytes)).contents? q = some bytes := by
  unfold contents?
  rw [entry?_insert_self hq]

theorem contents?_insert_of_ne {other : Path} (hother : other ≠ q) (entry : FileEntry) :
    (fs.insert q entry).contents? other = fs.contents? other := by
  unfold contents?
  rw [entry?_insert_of_ne hother]

theorem run_accessWrite (fs : FileSystem) (path text : String) :
    (access.write path text).run fs =
      match fs.write path text with
      | .error fault => (.error fault, fs)
      | .ok fs' => (.ok (), fs') := by
  unfold access
  rw [StateT.run_bind, StateT.run_get, pure_bind]
  cases fs.write path text <;> rfl

theorem run_accessWrite_eq_ok_iff :
    (access.write path text).run fs = (.ok (), fs') ↔ fs.write path text = .ok fs' := by
  rw [run_accessWrite]
  cases fs.write path text with
  | error fault => exact ⟨nofun, nofun⟩
  | ok next =>
    constructor
    · intro h
      exact congrArg Except.ok (congrArg Prod.snd h)
    · intro h
      rw [Except.ok.inj h]

theorem eq_of_run_accessWrite_error {fault : FileFault}
    (h : (access.write path text).run fs = (.error fault, fs')) : fs' = fs := by
  rw [run_accessWrite] at h
  cases hwrite : fs.write path text with
  | error fault =>
    rw [hwrite] at h
    exact (congrArg Prod.snd h).symm
  | ok next =>
    rw [hwrite] at h
    cases h

theorem access_lawful : access.Lawful view where
  read fs path := .refl view fs
  refused h := by
    obtain rfl := eq_of_run_accessWrite_error h
    exact .refl view _
  written h hplace := by
    cases write_eq_ok (run_accessWrite_eq_ok_iff.1 h) with
    | inl h =>
      obtain ⟨target, hne, htarget, _, rfl⟩ := h
      obtain rfl := Option.some.inj (htarget.symm.trans hplace)
      exact contents?_insert_self hne _
    | inr h =>
      obtain ⟨hnone, _⟩ := h
      cases hnone.symm.trans hplace
  others h hplace := by
    cases write_eq_ok (run_accessWrite_eq_ok_iff.1 h) with
    | inl h =>
      obtain ⟨target, _, htarget, _, rfl⟩ := h
      refine contents?_insert_of_ne (fun heq => hplace ?_) _
      exact heq ▸ htarget
    | inr h =>
      obtain ⟨_, rfl⟩ := h
      rfl
  places h path := (alike_of_write (run_accessWrite_eq_ok_iff.1 h)).place?_eq path

end FileSystem
end RecordTables
