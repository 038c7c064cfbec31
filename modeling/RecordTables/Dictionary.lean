/-!
Dictionaries: values by key.

A dictionary is seen through `find?`.  The lemmas say what each operation does to that view, and
nothing else needs to know how the entries are kept.
-/

namespace RecordTables

structure Dictionary (κ ν : Type) where
  entries : List (κ × ν)
  deriving DecidableEq, Repr

namespace Dictionary

variable {κ ν : Type} [DecidableEq κ]

def empty : Dictionary κ ν := ⟨[]⟩

def find? (d : Dictionary κ ν) (key : κ) : Option ν :=
  (d.entries.find? fun e => e.1 = key).map (·.2)

def erase (d : Dictionary κ ν) (key : κ) : Dictionary κ ν :=
  ⟨d.entries.filter fun e => e.1 ≠ key⟩

def insert (d : Dictionary κ ν) (key : κ) (value : ν) : Dictionary κ ν :=
  ⟨(key, value) :: (d.erase key).entries⟩

def keys (d : Dictionary κ ν) : List κ := d.entries.map (·.1)

@[simp] theorem find?_empty (key : κ) : (empty : Dictionary κ ν).find? key = none := rfl

@[simp] theorem find?_erase_self (d : Dictionary κ ν) (key : κ) :
    (d.erase key).find? key = none := by
  have : ((d.entries.filter fun e => e.1 ≠ key).find? fun e => e.1 = key) = none := by
    apply List.find?_eq_none.2
    intro e he
    have := (List.mem_filter.1 he).2
    simpa using this
  simp only [find?, erase, this, Option.map_none]

theorem find?_erase_of_ne (d : Dictionary κ ν) {key other : κ} (h : other ≠ key) :
    (d.erase key).find? other = d.find? other := by
  have : ((d.entries.filter fun e => e.1 ≠ key).find? fun e => e.1 = other) =
      d.entries.find? fun e => e.1 = other := by
    rw [List.find?_filter]
    congr 1
    funext e
    by_cases he : e.1 = other
    · simp [he, h]
    · simp [he]
  simp only [find?, erase, this]

@[simp] theorem find?_insert_self (d : Dictionary κ ν) (key : κ) (value : ν) :
    (d.insert key value).find? key = some value := by
  simp [find?, insert]

theorem find?_insert_of_ne (d : Dictionary κ ν) {key other : κ} (h : other ≠ key) (value : ν) :
    (d.insert key value).find? other = d.find? other := by
  have hne : ¬key = other := fun e => h e.symm
  rw [← find?_erase_of_ne d h]
  simp [find?, insert, hne]

theorem find?_isSome_iff (d : Dictionary κ ν) (key : κ) :
    (d.find? key).isSome = true ↔ key ∈ d.keys := by
  simp only [find?, keys, Option.isSome_map, List.find?_isSome, decide_eq_true_eq, List.mem_map]

end Dictionary
end RecordTables
