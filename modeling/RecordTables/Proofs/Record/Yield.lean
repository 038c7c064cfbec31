import RecordTables.Proofs.Outcome
import RecordTables.Record.Refusal

/-!
What a function that may refuse ends with.

`Yields P x` says that `x` is something with `P` or a refusal for which the arguments are to blame.
A refusal that blames the table instead is one that only a table without sound references can cause,
so the lemmas about record functions say at once what these give and that they never end so.
-/

namespace RecordTables

/-- Whether only a table whose references do not hold can be the reason. -/
def Refusal.blamesTable : Refusal → Bool
  | .selectorUnset _ _ => true
  | .untyped _ => true
  | .unconditioned _ => true
  | .nestedConditional _ => true
  | .foreignItem _ _ _ => true
  | .noReference _ _ _ => true
  | .noInteger _ => true
  | .noField _ _ => true
  | _ => false

def Yields {α : Type} (P : α → Prop) : Except Refusal α → Prop
  | .ok a => P a
  | .error refusal => refusal.blamesTable = false

namespace Yields

variable {α β : Type} {P Q : α → Prop} {x : Except Refusal α}

theorem of_ok (h : Yields P x) {a : α} (hx : x = .ok a) : P a := by
  rw [hx] at h
  exact h

theorem of_error (h : Yields P x) {refusal : Refusal} (hx : x = .error refusal) :
    refusal.blamesTable = false := by
  rw [hx] at h
  exact h

/-- What is known of every outcome is known of what is yielded. -/
theorem mono_ok (h : Yields P x) (hpq : ∀ a, x = .ok a → P a → Q a) : Yields Q x := by
  cases hx : x with
  | error refusal => exact h.of_error hx
  | ok a => exact hpq a hx (h.of_ok hx)

theorem mono (h : Yields P x) (hpq : ∀ a, P a → Q a) : Yields Q x :=
  h.mono_ok fun a _ => hpq a

theorem bind {R : β → Prop} {f : α → Except Refusal β} (h : Yields P x)
    (hf : ∀ a, P a → Yields R (f a)) : Yields R (x >>= f) := by
  cases x with
  | error refusal => exact h
  | ok a => exact hf a h

theorem map {R : β → Prop} {f : α → β} (h : Yields P x) (hf : ∀ a, P a → R (f a)) :
    Yields R (x.map f) := by
  cases x with
  | error refusal => exact h
  | ok a => exact hf a h

end Yields
end RecordTables
