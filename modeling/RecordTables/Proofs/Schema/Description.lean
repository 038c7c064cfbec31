import RecordTables.Proofs.Schema.WellFormed
import RecordTables.Schema.Description

/-!
Descriptions without a way out.

A field that has neither type nor condition, or whose count or selector is no field of its table, is
described all the same, by its representation or with an empty name.  `Field.describe?` gives up
there.  In a well-formed table both descriptions agree.
-/

namespace RecordTables

/-- The name of the field at an index, where there is one. -/
def Table.fieldName? (t : Table) (index : Nat) : Option String := t.fields[index]?.map (·.name)

/-- The type of a field in words, unless something that the words are about is missing. -/
def Field.describe? (t : Table) (f : Field) : Option String :=
  match f.condition, f.type with
  | some condition, _ =>
    let cases := String.intercalate ", " (condition.cases.map Case.describe)
    (t.fieldName? condition.field).map fun selector => s!"by {selector} ({cases})"
  | none, none => none
  | none, some type =>
    match f.arity with
    | .one => some (describeSingle f.luaType type)
    | .fixed n => some s!"table of {n} {type.describe}"
    | .counted index =>
      (t.fieldName? index).map fun counter => s!"table of {type.describe} (length in {counter})"
    | .unbounded => some s!"table of {type.describe}"

theorem Table.IntegerAt.fieldName?_eq {t : Table} {index : Nat} {g : Field}
    (h : t.IntegerAt index g) : t.fieldName? index = some (t.fieldName index) := by
  unfold Table.fieldName? Table.fieldName
  rw [h.found]
  rfl

theorem Field.WellFormed.describe?_eq {t : Table} {f : Field} (h : f.WellFormed t) :
    f.describe? t = some (f.describe t) := by
  unfold Field.describe? Field.describe
  cases h with
  | single ha hc ht =>
    rw [hc, ht]
    simp only [ha]
  | sequence _ hc ht _ _ hcounter =>
    rw [hc, ht]
    cases ha : f.arity with
    | one => rfl
    | fixed n => rfl
    | counted index =>
      obtain ⟨g, hg⟩ := hcounter index ha
      simp only [hg.fieldName?_eq, Option.map_some]
    | unbounded => rfl
  | conditional _ hc _ hselector =>
    obtain ⟨g, hg⟩ := hselector
    rw [hc]
    simp only [hg.fieldName?_eq, Option.map_some]

end RecordTables
