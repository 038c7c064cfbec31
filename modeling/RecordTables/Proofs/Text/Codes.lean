import Mathlib.Data.List.Basic

/-!
Written forms that end by themselves.

In a prefix code no written form begins with another one, so a form and whatever follows it can be
told from the two together.  A row of such forms up to a stop can be told as well
(`PrefixCode.flatMap_inj`), and so can words between separators (`PrefixCode.intercalate_inj`).
-/

namespace RecordTables
namespace Text

variable {α : Type} {P : α → Prop} {e : α → List Char} {stop : Char} {a b x y : List Char}

/-- A character that is in neither of two texts ends both of them. -/
theorem append_stop_inj (ha : stop ∉ a) (hb : stop ∉ b) (h : a ++ stop :: x = b ++ stop :: y) :
    a = b ∧ x = y := by
  induction a generalizing b with
  | nil =>
    cases b with
    | nil => exact ⟨rfl, (List.cons.inj h).2⟩
    | cons c b => exact absurd (List.mem_cons.2 (Or.inl (List.cons.inj h).1)) hb
  | cons c a ih =>
    rw [List.mem_cons, not_or] at ha
    cases b with
    | nil => exact absurd (List.cons.inj h).1.symm ha.1
    | cons d b =>
      rw [List.mem_cons, not_or] at hb
      obtain ⟨hcd, h⟩ := List.cons.inj h
      obtain ⟨hab, hxy⟩ := ih ha.2 hb.2 h
      exact ⟨by rw [hcd, hab], hxy⟩

/-- No form of a code for the things with a property begins another one. -/
def PrefixCode (P : α → Prop) (e : α → List Char) : Prop :=
  ∀ a, P a → ∀ b, P b → ∀ x y, e a ++ x = e b ++ y → a = b ∧ x = y

theorem PrefixCode.mono {Q : α → Prop} (hcode : PrefixCode Q e) (h : ∀ a, P a → Q a) :
    PrefixCode P e :=
  fun a ha b hb => hcode a (h a ha) b (h b hb)

/-- Forms in a row, up to a stop that begins none of them. -/
theorem PrefixCode.flatMap_inj (hcode : PrefixCode P e)
    (hstart : ∀ a, P a → ∃ c cs, e a = c :: cs ∧ c ≠ stop) {l l' : List α}
    (hl : ∀ a ∈ l, P a) (hl' : ∀ a ∈ l', P a)
    (h : l.flatMap e ++ stop :: x = l'.flatMap e ++ stop :: y) : l = l' ∧ x = y := by
  have hstop : ∀ a, P a → ∀ z z', e a ++ z ≠ stop :: z' := by
    intro a ha z z' hz
    obtain ⟨c, cs, hform, hc⟩ := hstart a ha
    rw [hform] at hz
    exact hc (List.cons.inj hz).1
  induction l generalizing l' with
  | nil =>
    cases l' with
    | nil => exact ⟨rfl, (List.cons.inj h).2⟩
    | cons a l' =>
      rw [List.flatMap_cons, List.append_assoc] at h
      exact absurd h.symm (hstop a (hl' a List.mem_cons_self) _ _)
  | cons a l ih =>
    rw [List.forall_mem_cons] at hl
    rw [List.flatMap_cons, List.append_assoc] at h
    cases l' with
    | nil => exact absurd h (hstop a hl.1 _ _)
    | cons b l' =>
      rw [List.forall_mem_cons] at hl'
      rw [List.flatMap_cons, List.append_assoc] at h
      obtain ⟨rfl, hrest⟩ := hcode a hl.1 b hl'.1 _ _ h
      obtain ⟨rfl, hxy⟩ := ih hl.2 hl'.2 hrest
      exact ⟨rfl, hxy⟩

theorem not_mem_intercalate {separator : List Char} {l : List (List Char)}
    (hseparator : stop ∉ separator) (h : ∀ w ∈ l, stop ∉ w) : stop ∉ separator.intercalate l := by
  induction l with
  | nil => nofun
  | cons w l ih =>
    rw [List.forall_mem_cons] at h
    cases l with
    | nil =>
      rw [List.intercalate_singleton]
      exact h.1
    | cons v l =>
      rw [List.intercalate_cons_cons]
      simp [h.1, hseparator, ih h.2]

/-- Words with a separator after each of them, the last one too. -/
theorem intercalate_append {separator : List Char} {l : List (List Char)} (hl : l ≠ []) :
    separator.intercalate l ++ separator = l.flatMap (· ++ separator) := by
  induction l with
  | nil => exact absurd rfl hl
  | cons w l ih =>
    rw [List.flatMap_cons]
    cases l with
    | nil => rw [List.intercalate_singleton, List.flatMap_nil, List.append_nil]
    | cons v l => rw [List.intercalate_cons_cons, ← ih (List.cons_ne_nil v l), List.append_assoc]

/-- Words between separators, none of them empty and none with the beginning of a separator. -/
theorem PrefixCode.intercalate_inj {P : List Char → Prop} {separator : List Char}
    (hcode : PrefixCode P (· ++ stop :: separator))
    (hstart : ∀ w, P w → ∃ c cs, w = c :: cs ∧ c ≠ stop) {l l' : List (List Char)}
    (hl : ∀ w ∈ l, P w) (hl' : ∀ w ∈ l', P w)
    (h : (stop :: separator).intercalate l = (stop :: separator).intercalate l') : l = l' := by
  have hforms : ∀ w, P w → ∃ c cs, w ++ stop :: separator = c :: cs ∧ c ≠ stop := by
    intro w hw
    obtain ⟨c, cs, rfl, hc⟩ := hstart w hw
    exact ⟨c, cs ++ stop :: separator, rfl, hc⟩
  -- no words at all leave nothing, and the first of some words is not empty
  have hnil : ∀ l : List (List Char), (∀ w ∈ l, P w) → [] = (stop :: separator).intercalate l →
      l = [] := by
    intro l hl h
    by_contra hne
    have hends : (stop :: separator).intercalate l ++ stop :: separator =
        l.flatMap (· ++ stop :: separator) := intercalate_append hne
    rw [← h, List.nil_append] at hends
    obtain ⟨w, l, rfl⟩ := List.exists_cons_of_ne_nil hne
    obtain ⟨c, cs, hform, hc⟩ := hforms w (hl w List.mem_cons_self)
    rw [List.flatMap_cons, hform] at hends
    exact hc (List.cons.inj hends).1.symm
  by_cases hne : l = []
  · subst hne
    exact (hnil l' hl' h).symm
  · by_cases hne' : l' = []
    · subst hne'
      exact hnil l hl h.symm
    · have hends := congrArg (· ++ stop :: separator ++ [stop]) h
      simp only [intercalate_append hne, intercalate_append hne'] at hends
      exact (hcode.flatMap_inj hforms hl hl' hends).1

/-- Words without the beginning of a separator are told by the separator after them. -/
theorem prefixCode_words (separator : List Char) :
    PrefixCode (stop ∉ ·) (· ++ stop :: separator) := by
  intro v hv w hw x y h
  simp only [List.append_assoc, List.cons_append] at h
  obtain ⟨hvw, hxy⟩ := append_stop_inj hv hw h
  exact ⟨hvw, List.append_cancel_left hxy⟩

end Text
end RecordTables
