import RecordTables.Dictionary
import RecordTables.Instance.Storage

/-!
The tables of Lua.

A table holds values by key, and `rawGet` is the view of them.  The first items of a table that was
made from a list stand apart from its other entries, so that a long list can be read at once.  The
length of a table is a border: the key of a value after which the next key has none.  Which border
it is, if there are several, follows from the storage of the table.
-/

namespace RecordTables

/-- The key that a value stands for: a number without a fraction is an integer. -/
def Value.key : Value → Value
  | .float x => match Value.exactInteger? x with
    | some i => .integer i
    | none => .float x
  | v => v

/-- A table: its first items, its other entries, where it keeps its keys, and its metatable. -/
structure LuaTable where
  items : Array Value
  entries : Dictionary Value Value
  storage : Storage
  metatable : Option TableRef

namespace LuaTable

def empty : LuaTable := ⟨#[], .empty, .empty, none⟩

/-- The table of items at the keys from one on, with room for just these. -/
def ofItems (items : List Value) : LuaTable :=
  ⟨items.toArray, .empty, .ofRoom items.length, none⟩

/-- The table of items that were added one by one at the keys from one on; none of them is nil. -/
def grown (items : List Value) : LuaTable :=
  ⟨items.toArray, .empty, .ofGrowth items.length, none⟩

/-- The place of a key among so many first items. -/
def position? (count : Nat) : Value → Option Nat
  | .integer i => if 1 ≤ i.toInt ∧ i.toInt ≤ count then some (i.toInt.toNat - 1) else none
  | _ => none

def rawGet (t : LuaTable) (key : Value) : Value :=
  match position? t.items.size key.key with
  | some n => t.items.getD n .nil
  | none => (t.entries.find? key.key).getD .nil

def keyFault? : Value → Option String
  | .nil => some "table index is nil"
  | .float x => if x.numericEq x then none else some "table index is NaN"
  | _ => none

def isSet (t : LuaTable) (key : Value) : Bool := t.rawGet key ≠ .nil

/-- The table with another value at a key and the same storage; nil removes the entry. -/
def put (t : LuaTable) (key value : Value) : LuaTable :=
  match position? t.items.size key.key with
  | some n => { t with items := t.items.setIfInBounds n value }
  | none =>
    match value with
    | .nil => { t with entries := t.entries.erase key.key }
    | value => { t with entries := t.entries.insert key.key value }

/-- The table with another value at a key.  The key has no fault. -/
def rawSet (t : LuaTable) (key value : Value) : LuaTable :=
  { t.put key value with storage := t.storage.write t.isSet key.key value }

/-- The place of a key is that of one of the items, and belongs to no other key. -/
theorem position?_eq_some {count n : Nat} {key : Value} (h : position? count key = some n) :
    n < count ∧ key = .integer (Int64.ofInt (n + 1)) := by
  unfold position? at h
  split at h
  · next i =>
    split at h
    · next hi =>
      have hn := Option.some.inj h
      have hi' : i.toInt = n + 1 := by omega
      exact ⟨by omega, by rw [← hi', Int64.ofInt_toInt]⟩
    · exact absurd h (by simp)
  · exact absurd h (by simp)

@[simp] theorem size_items_put (t : LuaTable) (key value : Value) :
    (t.put key value).items.size = t.items.size := by
  unfold put
  split
  · simp
  · split <;> rfl

@[simp] theorem metatable_rawSet (t : LuaTable) (key value : Value) :
    (t.rawSet key value).metatable = t.metatable := by
  unfold rawSet put
  split
  · rfl
  · split <;> rfl

/-- The storage of a table cannot be seen in its values. -/
theorem rawGet_rawSet (t : LuaTable) (key value other : Value) :
    (t.rawSet key value).rawGet other = (t.put key value).rawGet other := rfl

theorem rawGet_put_self (t : LuaTable) (key value : Value) :
    (t.put key value).rawGet key = value := by
  unfold rawGet
  rw [size_items_put]
  cases h : position? t.items.size key.key with
  | some n => simp [put, h, (position?_eq_some h).1]
  | none => cases value <;> simp [put, h]

theorem rawGet_put_of_ne (t : LuaTable) {key other : Value} (hne : other.key ≠ key.key)
    (value : Value) : (t.put key value).rawGet other = t.rawGet other := by
  unfold rawGet
  rw [size_items_put]
  cases h : position? t.items.size key.key with
  | some n =>
    cases ho : position? t.items.size other.key with
    | some m =>
      have hnm : n ≠ m := by
        intro hnm
        subst hnm
        exact hne ((position?_eq_some ho).2.trans (position?_eq_some h).2.symm)
      simp [put, h, Array.getD_eq_getD_getElem?, Array.getElem?_setIfInBounds_ne hnm]
    | none => simp [put, h]
  | none =>
    cases ho : position? t.items.size other.key with
    | some m => cases value <;> simp [put, h]
    | none =>
      cases value <;>
        simp [put, h, Dictionary.find?_erase_of_ne _ hne, Dictionary.find?_insert_of_ne _ hne]

@[simp] theorem rawGet_rawSet_self (t : LuaTable) (key value : Value) :
    (t.rawSet key value).rawGet key = value :=
  (rawGet_rawSet t key value key).trans (t.rawGet_put_self key value)

theorem rawGet_rawSet_of_ne (t : LuaTable) {key other : Value} (hne : other.key ≠ key.key)
    (value : Value) : (t.rawSet key value).rawGet other = t.rawGet other :=
  (rawGet_rawSet t key value other).trans (t.rawGet_put_of_ne hne value)

def isSetAt (t : LuaTable) (n : Nat) : Bool := t.isSet (.integer (Int64.ofNat n))

def lengthLimit : Nat := 0x7fffffffffffffff

/-- The length of a table: the border that its storage leads to. -/
def length (t : LuaTable) : Nat := min (t.storage.border t.isSetAt).1 lengthLimit

def measured (t : LuaTable) : LuaTable := { t with storage := t.storage.measured t.isSetAt }

def toList (t : LuaTable) : List Value :=
  (List.range t.length).map fun n => t.rawGet (.integer (Int64.ofNat (n + 1)))

@[simp] theorem length_measured (t : LuaTable) : t.measured.length = t.length :=
  congrArg (min · lengthLimit) (t.storage.border_measured t.isSetAt)

def keys (t : LuaTable) : List Value :=
  ((List.range t.items.size).filter fun n => t.items.getD n .nil ≠ .nil).map
      (fun n => .integer (Int64.ofNat (n + 1)))
    ++ t.entries.keys

end LuaTable
end RecordTables
