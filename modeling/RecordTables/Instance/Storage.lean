import RecordTables.Value

/-!
Where a Lua table keeps its entries.

A table has room for the keys from one on in a sequence, and nodes for all other keys.  A key that
finds no node has the whole table laid out anew: the sequence becomes the longest whose length is a
power of two and of which more than half is used, and the other keys get as many nodes as the next
power of two.  None of this can be seen in the values of a table.  It decides its length, though,
where keys are missing: `border` looks for a key that has a value while the next one has none, and
begins the search where the sequence ends, or where the last search ended.

What has a value is asked of the table through a function, so that storage holds keys alone.
-/

namespace RecordTables

/-- The storage of a table: the number of keys in sequence, the end of the last search if it lies
inside the sequence, the keys in the nodes, and the number of nodes at the front among which free
ones are looked for. -/
structure Storage where
  room : Nat
  guess : Option Nat
  nodes : Array (Option Value)
  unused : Nat

namespace Storage

def empty : Storage := ⟨0, none, #[], 0⟩

def ofRoom (room : Nat) : Storage := ⟨room, none, #[], 0⟩

def isPowerOfTwo (n : Nat) : Bool := n = Nat.pow 2 (Nat.log2 n)

/-- The least power of two that is not less than a positive number. -/
def powerAbove (n : Nat) : Nat :=
  if n ≤ 1 then 1 else Nat.pow 2 (Nat.log2 (n - 1) + 1)

/-- Storage after the keys from one to `n` were added one by one. -/
def ofGrowth (n : Nat) : Storage := ofRoom (if n = 0 then 0 else powerAbove n)

/-- The largest key that a sequence can have. -/
def roomLimit : Nat := 0x80000000

def place? : Value → Option Nat
  | .integer i => if 1 ≤ i.toInt ∧ i.toInt ≤ roomLimit then some i.toInt.toNat else none
  | _ => none

def inRoom (s : Storage) (key : Value) : Bool :=
  match place? key with
  | some n => n ≤ s.room
  | none => false

/-- The node in which a key belongs.  Integers are spread by their remainder; where other keys
belong makes no difference to a length. -/
def home (s : Storage) : Value → Nat
  | .integer i => i.toUInt64.toNat % ((s.nodes.size - 1) ||| 1)
  | _ => 0

def freeNode? (s : Storage) : Nat → Option Nat
  | 0 => none
  | n + 1 => if s.nodes.getD n none = none then some n else s.freeNode? n

def putNode (s : Storage) (n : Nat) (key : Value) : Storage :=
  { s with nodes := s.nodes.setIfInBounds n (some key) }

/-- The storage with a node for a key: the one where it belongs, unless a key with a value is there.
That key gives way to a free node if it belongs elsewhere, and stays otherwise. -/
def addNode? (s : Storage) (isSet : Value → Bool) (key : Value) : Option Storage :=
  if s.nodes.isEmpty then none
  else
    let n := s.home key
    match (s.nodes.getD n none).filter isSet with
    | none => some (s.putNode n key)
    | some other =>
      match s.freeNode? s.unused with
      | none => none
      | some free =>
        let s := { s with unused := free }
        if s.home other = n then some (s.putNode free key)
        else some ((s.putNode free other).putNode n key)

/-- The length of the sequence for keys, from the candidate `size` on, and the number of keys that
are in it.  `best` is what has been found so far. -/
def sequenceFor (keys : List Nat) (best : Nat × Nat) : (fuel : Nat) → (size : Nat) → Nat × Nat
  | 0, _ => best
  | fuel + 1, size =>
    if size / 2 < keys.length then
      let used := keys.countP (· ≤ size)
      sequenceFor keys (if size / 2 < used then (size, used) else best) fuel (size * 2)
    else best

def settle (isSet : Value → Bool) (s : Storage) (key : Value) : Storage :=
  if s.inRoom key then s else (s.addNode? isSet key).getD s

/-- The storage laid out anew for the keys that have a value and one more. -/
def rebuilt (s : Storage) (isSet : Value → Bool) (key : Value) : Storage :=
  let inSequence := (List.range s.room).filterMap fun n =>
    let k := Value.integer (Int64.ofNat (n + 1))
    if isSet k then some k else none
  let inNodes := s.nodes.toList.filterMap fun node => node.filter isSet
  let keys := inSequence ++ inNodes ++ [key]
  let (room, used) := sequenceFor (keys.filterMap place?) (0, 0) 32 1
  let count := keys.length - used
  let size := if count = 0 then 0 else powerAbove count
  keys.foldl (settle isSet) ⟨room, none, Array.replicate size none, size⟩

/-- The storage after a key was looked for, which moves the end of the last search if the key lies
behind it in the sequence. -/
def visit (s : Storage) (key : Value) : Storage :=
  match s.guess, place? key with
  | some guess, some n =>
    if guess < n ∧ n ≤ s.room then { s with guess := if n = s.room then none else some n } else s
  | _, _ => s

/-- The storage after a value was set.  A key without a value gets no place. -/
def write (s : Storage) (isSet : Value → Bool) (key value : Value) : Storage :=
  let s := s.visit key
  match value with
  | .nil => s
  | _ =>
    if s.inRoom key || s.nodes.contains (some key) then s
    else (s.addNode? isSet key).getD (s.rebuilt isSet key)

/-! ## The border -/

/-- A number that is set, at least `low` and less than `high`, while the next one is not set.
`high` is not set, and `low` is set or zero. -/
def between (isSet : Nat → Bool) (low high : Nat) : Nat :=
  if high - low ≤ 1 then low
  else
    let middle := (low + high) / 2
    if isSet middle then between isSet middle high else between isSet low middle
termination_by high - low
decreasing_by all_goals omega

/-- The first double of a set number that is not set, and the double before it. -/
def doubled (isSet : Nat → Bool) : (fuel : Nat) → Nat → Nat × Nat
  | 0, n => (n, n + 1)
  | fuel + 1, n => if isSet (n * 2) then doubled isSet fuel (n * 2) else (n, n * 2)

/-- The border at the end of the sequence or, if the key after it is set, in the nodes. -/
def borderFrom (isSet : Nat → Bool) (limit : Nat) : Nat :=
  if isSet (limit + 1) then
    let (low, high) := doubled isSet 64 (max limit 1)
    between isSet low high
  else limit

/-- The border of a table, and where the search for it ended inside the sequence. -/
def border (s : Storage) (isSet : Nat → Bool) : Nat × Option Nat :=
  let limit := s.guess.getD s.room
  if 0 < limit ∧ !isSet limit then
    if 2 ≤ limit ∧ isSet (limit - 1) then
      (limit - 1,
        if isPowerOfTwo s.room && !isPowerOfTwo (limit - 1) then some (limit - 1) else s.guess)
    else
      let n := between isSet 0 limit
      (n, if isPowerOfTwo s.room && s.room / 2 < n then some n else s.guess)
  else if s.guess = none then (borderFrom isSet limit, none)
  else if !isSet (limit + 1) then (limit, s.guess)
  else if isSet s.room then (borderFrom isSet s.room, s.guess)
  else
    let n := between isSet limit s.room
    (n, some n)

def measured (s : Storage) (isSet : Nat → Bool) : Storage := { s with guess := (s.border isSet).2 }

theorem isSet_between {isSet : Nat → Bool} {low high : Nat} (h : isSet low = true) :
    isSet (between isSet low high) = true := by
  fun_induction between isSet low high with
  | case1 => exact h
  | case2 _ _ _ _ hm ih => exact ih hm
  | case3 _ _ _ _ _ ih => exact ih h

/-- The number after what `between` finds is not set, if `high` is above `low` and not set. -/
theorem isSet_between_succ {isSet : Nat → Bool} {low high : Nat} (hlt : low < high)
    (h : isSet high = false) : isSet (between isSet low high + 1) = false := by
  fun_induction between isSet low high with
  | case1 low high hle =>
    have : low + 1 = high := by omega
    rw [this]; exact h
  | case2 low high hle _ _ ih => exact ih (by omega) h
  | case3 low high hle middle hm ih =>
    exact ih (by omega) (by simpa using hm)

theorem between_eq_or (isSet : Nat → Bool) (low high : Nat) :
    between isSet low high = low ∨ isSet (between isSet low high) = true := by
  fun_induction between isSet low high with
  | case1 => exact Or.inl rfl
  | case2 _ _ _ _ hm _ => exact Or.inr (isSet_between hm)
  | case3 _ _ _ _ _ ih => exact ih

/-- The search moves only to the border that it finds inside the sequence. -/
theorem border_guess (s : Storage) (isSet : Nat → Bool) :
    (s.border isSet).2 = s.guess ∨ ∃ n, s.border isSet = (n, some n) ∧
      (n = 0 ∨ isSet n = true) ∧ isSet (n + 1) = false := by
  unfold border
  simp only
  generalize hlimit : s.guess.getD s.room = limit
  by_cases hend : 0 < limit ∧ (!isSet limit) = true
  · have hnot : isSet limit = false := by simpa using hend.2
    rw [if_pos hend]
    by_cases hlast : 2 ≤ limit ∧ isSet (limit - 1) = true
    · rw [if_pos hlast]
      split
      · refine Or.inr ⟨limit - 1, rfl, Or.inr hlast.2, ?_⟩
        rw [Nat.sub_add_cancel hend.1]
        exact hnot
      · exact Or.inl rfl
    · rw [if_neg hlast]
      split
      · exact Or.inr ⟨_, rfl, between_eq_or isSet 0 limit, isSet_between_succ hend.1 hnot⟩
      · exact Or.inl rfl
  · rw [if_neg hend]
    by_cases hguess : s.guess = none
    · rw [if_pos hguess]
      exact Or.inl hguess.symm
    · rw [if_neg hguess]
      split
      · exact Or.inl rfl
      · split
        · exact Or.inl rfl
        · next _ hroom =>
          have hsome : s.guess = some limit := by
            obtain ⟨n, hn⟩ := Option.ne_none_iff_exists'.1 hguess
            rw [hn] at hlimit ⊢
            exact congrArg some hlimit
          by_cases hlt : limit < s.room
          · refine Or.inr ⟨_, rfl, ?_, isSet_between_succ hlt (by simpa using hroom)⟩
            rcases between_eq_or isSet limit s.room with hlow | hset
            · rw [hlow]
              by_cases hzero : limit = 0
              · exact Or.inl hzero
              · exact Or.inr (by simpa [Nat.pos_of_ne_zero hzero] using hend)
            · exact Or.inr hset
          · have hlow : between isSet limit s.room = limit := by
              rw [between, if_pos (by omega)]
            rw [hlow, hsome]
            exact Or.inl rfl

theorem border_measured (s : Storage) (isSet : Nat → Bool) :
    ((s.measured isSet).border isSet).1 = (s.border isSet).1 := by
  rcases s.border_guess isSet with hsame | ⟨n, hn, hset, hnext⟩
  · simp only [measured, hsame]
  · -- the next search begins at the border and ends there
    have hstop : ¬(0 < n ∧ (!isSet n) = true) := by
      rcases hset with rfl | hset
      · simp
      · simp [hset]
    rw [hn]
    unfold border
    simp only [measured, hn, Option.getD_some]
    rw [if_neg hstop, if_neg nofun, if_pos (by rw [hnext]; rfl)]

end Storage
end RecordTables
