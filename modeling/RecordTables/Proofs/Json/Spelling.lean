import RecordTables.Json.Token
import RecordTables.Proofs.Json.Grammar
import RecordTables.Proofs.Outcome

/-!
Numbers, strings and words are read as the grammar spells them.

A string, an escape and a word end by themselves, so reading one gives exactly what some spelling at
the front of the text says.  A number ends where the text does not go on with it: read from a text, it
is spelled there, and the other way it is read back if what follows it is `Delimited`.
-/

namespace RecordTables
namespace Json

/-! ## Numbers -/

/-- The text does not go on with a number. -/
def Delimited (text : List Char) : Prop :=
  ∀ c ∈ text.head?, ¬c.isDigit ∧ c ≠ '.' ∧ c ≠ 'e' ∧ c ≠ 'E'

namespace Literal

variable {text rest digits : List Char}

theorem readDigits_eq_ok (h : readDigits text = .ok (digits, rest)) :
    IsDigits digits ∧ text = digits ++ rest := by
  unfold readDigits at h
  split at h
  · cases h
  · next hne =>
    cases h
    refine ⟨⟨hne, fun c hc => ?_⟩, List.takeWhile_append_dropWhile.symm⟩
    exact List.all_eq_true.1 List.all_takeWhile c hc

theorem readDigits_append (hd : IsDigits digits) (hr : ∀ c ∈ rest.head?, ¬c.isDigit) :
    readDigits (digits ++ rest) = .ok (digits, rest) := by
  have stop : rest.takeWhile Char.isDigit = [] ∧ rest.dropWhile Char.isDigit = rest := by
    cases rest with
    | nil => exact ⟨rfl, rfl⟩
    | cons c rest => simp [hr c rfl]
  have taken : (digits ++ rest).takeWhile Char.isDigit = digits := by
    rw [List.takeWhile_append_of_pos hd.2, stop.1, List.append_nil]
  have left : (digits ++ rest).dropWhile Char.isDigit = rest := by
    rw [List.dropWhile_append_of_pos hd.2, stop.2]
  unfold readDigits
  rw [taken, left]
  split
  · exact absurd rfl hd.1
  · rfl

theorem readWhole_eq_ok (h : readWhole text = .ok (digits, rest)) :
    IsWhole digits ∧ text = digits ++ rest := by
  have zero : IsWhole ['0'] := ⟨⟨by simp, by simp⟩, fun _ => rfl⟩
  unfold readWhole at h
  split at h
  · split at h
    · cases h
      exact ⟨zero, rfl⟩
    · split at h
      · cases h
      · cases h
        exact ⟨zero, rfl⟩
  · next hne =>
    obtain ⟨hd, ht⟩ := readDigits_eq_ok h
    refine ⟨⟨hd, fun hz => ?_⟩, ht⟩
    obtain ⟨ds, rfl⟩ : ∃ ds, digits = '0' :: ds := by
      cases digits with
      | nil => simp at hz
      | cons c ds => exact ⟨ds, by simpa using hz⟩
    exact absurd ht (hne _)

theorem readWhole_append (hw : IsWhole digits) (hr : ∀ c ∈ rest.head?, ¬c.isDigit) :
    readWhole (digits ++ rest) = .ok (digits, rest) := by
  obtain ⟨hd, hz⟩ := hw
  by_cases h0 : digits.head? = some '0'
  · rw [hz h0]
    cases rest with
    | nil => rfl
    | cons c rest => simp [readWhole, hr c rfl]
  · have hread := readDigits_append hd hr
    cases digits with
    | nil => exact absurd rfl hd.1
    | cons c ds =>
      have hc : c ≠ '0' := by simpa using h0
      simpa [readWhole, hc] using hread

theorem readFraction_eq_ok {fraction : Option (List Char)}
    (h : readFraction text = .ok (fraction, rest)) :
    ∃ s, FractionSpelled fraction s ∧ text = s ++ rest := by
  unfold readFraction at h
  split at h
  · obtain ⟨⟨ds, r⟩, hds, h⟩ := bind_eq_ok_iff.1 h
    cases h
    obtain ⟨hd, rfl⟩ := readDigits_eq_ok hds
    exact ⟨_, .some hd, rfl⟩
  · cases h
    exact ⟨[], .none, rfl⟩

theorem readFraction_append {fraction : Option (List Char)} {s : List Char}
    (hf : FractionSpelled fraction s) (hr : ∀ c ∈ rest.head?, ¬c.isDigit ∧ c ≠ '.') :
    readFraction (s ++ rest) = .ok (fraction, rest) := by
  cases hf with
  | none =>
    unfold readFraction
    split
    · next h =>
      have hdot := (hr '.' (by rw [List.nil_append] at h; rw [h]; rfl)).2
      exact absurd rfl hdot
    · rfl
  | some hd =>
    show (readDigits (_ ++ rest) >>= _) = _
    rw [readDigits_append hd fun c hc => (hr c hc).1]
    rfl

theorem readSign_spelled (text : List Char) :
    ∃ s, SignSpelled (readSign text).1 s ∧ text = s ++ (readSign text).2 := by
  unfold readSign
  split
  · exact ⟨_, .plus, rfl⟩
  · exact ⟨_, .minus, rfl⟩
  · exact ⟨_, .none, rfl⟩

theorem readSign_append {negative : Bool} {s : List Char} (hs : SignSpelled negative s)
    (hd : IsDigits digits) : readSign (s ++ (digits ++ rest)) = (negative, digits ++ rest) := by
  cases hs with
  | plus => rfl
  | minus => rfl
  | none =>
    obtain ⟨hne, hall⟩ := hd
    cases digits with
    | nil => exact absurd rfl hne
    | cons c ds =>
      have hc : c.isDigit := hall c (by simp)
      have plus : c ≠ '+' := by rintro rfl; revert hc; decide
      have minus : c ≠ '-' := by rintro rfl; revert hc; decide
      simp [readSign, plus, minus]

theorem readExponent_eq_ok {exponent : Option Exponent}
    (h : readExponent text = .ok (exponent, rest)) :
    ∃ s, ExponentSpelled exponent s ∧ text = s ++ rest := by
  unfold readExponent at h
  split at h
  · cases h
    exact ⟨[], .none, rfl⟩
  · next c body =>
    split at h
    · next hc =>
      obtain ⟨⟨ds, r⟩, hds, h⟩ := bind_eq_ok_iff.1 h
      cases h
      obtain ⟨hd, hbody⟩ := readDigits_eq_ok hds
      obtain ⟨s, hs, hsign⟩ := readSign_spelled body
      refine ⟨_, .some (by simpa using hc) hs hd, ?_⟩
      show c :: body = c :: ((s ++ ds) ++ rest)
      rw [List.append_assoc, ← show (readSign body).2 = ds ++ rest from hbody, ← hsign]
    · cases h
      exact ⟨[], .none, rfl⟩

theorem readExponent_append {exponent : Option Exponent} {s : List Char}
    (he : ExponentSpelled exponent s) (hr : Delimited rest) :
    readExponent (s ++ rest) = .ok (exponent, rest) := by
  cases he with
  | none =>
    cases rest with
    | nil => rfl
    | cons c rest =>
      obtain ⟨-, -, he, hE⟩ := hr c rfl
      simp [readExponent, he, hE]
      rfl
  | @some mark sign e hm hs hd =>
    have hmark : mark = 'e' ∨ mark = 'E' := by simpa using hm
    have hsign : readSign (sign ++ (e.digits ++ rest)) = _ := readSign_append hs hd
    have hdigits : readDigits (e.digits ++ rest) = _ :=
      readDigits_append hd fun c hc => (hr c hc).1
    simp only [readExponent, List.cons_append, List.append_assoc, if_pos hmark, hsign, hdigits]
    rfl

/-- The literal after its sign. -/
def readAfterSign (negative : Bool) (text : List Char) : Except Fault (Literal × List Char) := do
  let (whole, rest) ← readWhole text
  let (fraction, rest) ← readFraction rest
  let (exponent, rest) ← readExponent rest
  return (⟨negative, whole, fraction, exponent⟩, rest)

theorem read_minus (text : List Char) : read ('-' :: text) = readAfterSign true text := rfl

theorem read_of_not_minus (h : ∀ body, text ≠ '-' :: body) :
    read text = readAfterSign false text := by
  unfold read
  split
  next negative body heq =>
  split at heq
  · exact absurd rfl (h _)
  · cases heq
    rfl

theorem readAfterSign_eq_ok {negative : Bool} {l : Literal}
    (h : readAfterSign negative text = .ok (l, rest)) :
    l.negative = negative ∧ ∃ fraction exponent, IsWhole l.whole ∧
      FractionSpelled l.fraction fraction ∧ ExponentSpelled l.exponent exponent ∧
      text = l.whole ++ (fraction ++ (exponent ++ rest)) := by
  obtain ⟨⟨whole, r⟩, hw, h⟩ := bind_eq_ok_iff.1 h
  obtain ⟨⟨fraction, r'⟩, hf, h⟩ := bind_eq_ok_iff.1 h
  obtain ⟨⟨exponent, r''⟩, he, h⟩ := bind_eq_ok_iff.1 h
  cases h
  obtain ⟨whole_spelled, rfl⟩ := readWhole_eq_ok hw
  obtain ⟨sf, fraction_spelled, rfl⟩ := readFraction_eq_ok hf
  obtain ⟨se, exponent_spelled, rfl⟩ := readExponent_eq_ok he
  exact ⟨rfl, sf, se, whole_spelled, fraction_spelled, exponent_spelled, rfl⟩

theorem readAfterSign_append {l : Literal} {fraction exponent : List Char} (hw : IsWhole l.whole)
    (hf : FractionSpelled l.fraction fraction) (he : ExponentSpelled l.exponent exponent)
    (hr : Delimited rest) :
    readAfterSign l.negative (l.whole ++ (fraction ++ (exponent ++ rest))) = .ok (l, rest) := by
  have marks : ∀ {o : Option Exponent}, ExponentSpelled o exponent →
      ∀ c ∈ (exponent ++ rest).head?, ¬c.isDigit ∧ c ≠ '.' := by
    intro o ho c hc
    cases ho with
    | none => exact ⟨(hr c hc).1, (hr c hc).2.1⟩
    | some hm _ _ =>
      cases hc
      rcases List.mem_pair.1 hm with rfl | rfl <;> decide
  have point : ∀ {o : Option (List Char)}, FractionSpelled o fraction →
      ∀ c ∈ (fraction ++ (exponent ++ rest)).head?, ¬c.isDigit := by
    intro o ho c hc
    cases ho with
    | none => exact (marks he c hc).1
    | some hd => cases hc; decide
  unfold readAfterSign
  simp only [readWhole_append hw (point hf), readFraction_append hf (marks he),
    readExponent_append he hr, ok_bind]
  rfl

/-- What is read is spelled at the front of the text. -/
theorem read_eq_ok {l : Literal} (h : read text = .ok (l, rest)) :
    ∃ s, l.Spelled s ∧ text = s ++ rest := by
  by_cases hm : ∃ body, text = '-' :: body
  · obtain ⟨body, rfl⟩ := hm
    rw [read_minus] at h
    obtain ⟨hn, fraction, exponent, hw, hf, he, rfl⟩ := readAfterSign_eq_ok h
    exact ⟨_, .mk hw hf he, by simp [hn]⟩
  · rw [read_of_not_minus fun body hb => hm ⟨body, hb⟩] at h
    obtain ⟨hn, fraction, exponent, hw, hf, he, rfl⟩ := readAfterSign_eq_ok h
    exact ⟨_, .mk hw hf he, by simp [hn]⟩

/-- A spelling is read back, if the text does not go on with it. -/
theorem read_append {l : Literal} {s : List Char} (hl : l.Spelled s) (hr : Delimited rest) :
    read (s ++ rest) = .ok (l, rest) := by
  cases hl with
  | @mk fraction exponent hw hf he =>
  have hread := readAfterSign_append hw hf he hr
  cases hn : l.negative with
  | true =>
    rw [hn] at hread
    rw [← hread, ← read_minus]
    simp
  | false =>
    rw [hn] at hread
    have noMinus : ∀ body, l.whole ++ (fraction ++ (exponent ++ rest)) ≠ '-' :: body := by
      intro body h
      obtain ⟨⟨hne, hall⟩, -⟩ := hw
      cases hwl : l.whole with
      | nil => exact hne hwl
      | cons c cs =>
        have hc : c.isDigit := hall c (by simp [hwl])
        rw [hwl] at h
        cases h
        exact absurd hc (by decide)
    rw [← hread, ← read_of_not_minus noMinus]
    simp

end Literal

namespace Token

variable {text rest : List Char}

/-! ## Strings -/

theorem toNat_lt_of_hexDigit? {c : Char} {n : Nat} (h : hexDigit? c = some n) :
    c.toNat < 128 := by
  have upTo : ∀ {bound : Char}, bound.toNat < 128 → c ≤ bound → c.toNat < 128 :=
    fun hb hc => Nat.lt_of_le_of_lt (Char.le_def.1 hc) hb
  unfold hexDigit? at h
  split at h
  · next hd =>
    simp only [Char.isDigit, Bool.and_eq_true, decide_eq_true_eq] at hd
    exact upTo (by decide : '9'.toNat < 128) hd.2
  · split at h
    · next hd => exact upTo (by decide) hd.2
    · split at h
      · next hd => exact upTo (by decide) hd.2
      · cases h

theorem hexDigit?_eq_some_iff {c : Char} {n : Nat} : hexDigit? c = some n ↔ IsHexDigit c n := by
  constructor
  · intro h
    have all : ∀ k < 128, ∀ n ∈ hexDigit? (Char.ofNat k), n < 16 ∧
        (Char.ofNat k = n.digitChar ∨ Char.ofNat k = n.digitChar.toUpper) := by decide
    have digit := all c.toNat (toNat_lt_of_hexDigit? h) n
    rw [Char.ofNat_toNat] at digit
    exact digit h
  · rintro ⟨hn, h⟩
    have all : ∀ n < 16, hexDigit? n.digitChar = some n ∧
        hexDigit? n.digitChar.toUpper = some n := by decide
    rcases h with rfl | rfl
    · exact (all n hn).1
    · exact (all n hn).2

theorem hexValue?_eq_some_iff {a b c d : Char} {n : Nat} :
    hexValue? a b c d = some n ↔ CodeUnit n [a, b, c, d] := by
  unfold hexValue?
  constructor
  · intro h
    simp only [Option.bind_eq_bind, Option.bind_eq_some_iff, Option.pure_def, Option.some.injEq]
      at h
    obtain ⟨i, hi, j, hj, k, hk, l, hl, rfl⟩ := h
    have unit := CodeUnit.mk (hexDigit?_eq_some_iff.1 hi) (hexDigit?_eq_some_iff.1 hj)
      (hexDigit?_eq_some_iff.1 hk) (hexDigit?_eq_some_iff.1 hl)
    have weights : i * 0x1000 + j * 0x100 + k * 0x10 + l = ((i * 16 + j) * 16 + k) * 16 + l := by
      omega
    rwa [weights] at unit
  · intro h
    cases h with
    | mk ha hb hc hd =>
      rw [hexDigit?_eq_some_iff.2 ha, hexDigit?_eq_some_iff.2 hb, hexDigit?_eq_some_iff.2 hc,
        hexDigit?_eq_some_iff.2 hd]
      simp only [Option.bind_eq_bind, Option.bind_some, Option.pure_def, Option.some.injEq]
      omega

theorem readHex_eq_ok_iff {n : Nat} :
    readHex text = .ok (n, rest) ↔ ∃ digits, CodeUnit n digits ∧ text = digits ++ rest := by
  constructor
  · intro h
    unfold readHex at h
    split at h
    · split at h
      · next hv =>
        cases h
        exact ⟨_, hexValue?_eq_some_iff.1 hv, rfl⟩
      · cases h
    · cases h
  · rintro ⟨digits, hd, rfl⟩
    have unit := hd
    cases hd
    simp only [readHex, List.cons_append, List.nil_append, hexValue?_eq_some_iff.2 unit]

theorem isLeading_iff {n : Nat} : isLeading n ↔ 0xD800 ≤ n ∧ n < 0xDC00 := by
  simp only [isLeading, decide_eq_true_eq]
  omega

theorem isTrailing_iff {n : Nat} : isTrailing n ↔ 0xDC00 ≤ n ∧ n < 0xE000 := by
  simp only [isTrailing, decide_eq_true_eq]
  omega

theorem toNat_ofNat_of_isScalar {n : Nat} (h : n < 0xD800 ∨ 0xDFFF < n ∧ n < 0x110000) :
    (Char.ofNat n).toNat = n := by
  have valid : n.isValidChar := h
  unfold Char.ofNat
  rw [dif_pos valid]
  rfl

theorem codeUnit_lt {n : Nat} {digits : List Char} (h : CodeUnit n digits) : n < 0x10000 := by
  cases h with
  | mk ha hb hc hd =>
    have := ha.1
    have := hb.1
    have := hc.1
    have := hd.1
    omega

/-- The number of a character is no half of a surrogate pair. -/
theorem not_surrogate (c : Char) : isLeading c.toNat = false ∧ isTrailing c.toNat = false := by
  have valid : c.toNat < 0xD800 ∨ 0xDFFF < c.toNat ∧ c.toNat < 0x110000 := c.valid
  simp only [isLeading, isTrailing, decide_eq_false_iff_not]
  omega

theorem toNat_pairChar {lead trail : Nat} (hl : isLeading lead) (ht : isTrailing trail) :
    (pairChar lead trail).toNat = 0x10000 + (lead - 0xD800) * 0x400 + (trail - 0xDC00) := by
  rw [isLeading_iff] at hl
  rw [isTrailing_iff] at ht
  unfold pairChar
  rw [toNat_ofNat_of_isScalar] <;> omega

theorem readTrailing_eq_ok_iff {lead : Nat} {c : Char} :
    readTrailing lead text = .ok (c, rest) ↔ ∃ trail digits, CodeUnit trail digits ∧
      isTrailing trail ∧ pairChar lead trail = c ∧ text = '\\' :: 'u' :: (digits ++ rest) := by
  constructor
  · intro h
    unfold readTrailing at h
    split at h
    · cases h
    · split at h
      · cases h
      · split at h
        · cases h
        · next hx =>
          split at h
          · next ht =>
            obtain ⟨hc, rfl⟩ := Prod.mk.inj (Except.ok.inj h)
            obtain ⟨digits, hd, rfl⟩ := readHex_eq_ok_iff.1 hx
            exact ⟨_, digits, hd, ht, hc, rfl⟩
          · cases h
      · cases h
    · cases h
  · rintro ⟨trail, digits, hd, ht, rfl, rfl⟩
    simp only [readTrailing, readHex_eq_ok_iff.2 ⟨digits, hd, rfl⟩, if_pos ht]

/-- What may follow a backslash is what the grammar lets follow it. -/
theorem readUnicode_eq_ok_iff {c : Char} :
    readUnicode text = .ok (c, rest) ↔
      ∃ s, CharacterSpelled c ('\\' :: 'u' :: s) ∧ text = s ++ rest := by
  constructor
  · intro h
    unfold readUnicode at h
    split at h
    · cases h
    · next n r hx =>
      obtain ⟨digits, hd, rfl⟩ := readHex_eq_ok_iff.1 hx
      split at h
      · cases h
      · next ht =>
        split at h
        · next hl =>
          obtain ⟨trail, digits', hd', ht', rfl, rfl⟩ := readTrailing_eq_ok_iff.1 h
          exact ⟨_, .pair hd (isLeading_iff.1 hl) hd' (isTrailing_iff.1 ht')
            (toNat_pairChar hl ht'), by simp⟩
        · next hl =>
          cases h
          rw [isTrailing_iff] at ht
          rw [isLeading_iff] at hl
          have hn := codeUnit_lt hd
          have same : (Char.ofNat n).toNat = n := toNat_ofNat_of_isScalar (by omega)
          exact ⟨digits, .unit (by rwa [same]), rfl⟩
  · rintro ⟨s, hs, rfl⟩
    cases hs with
    | escape h => exact absurd h (by simp [escapes])
    | unit hd =>
      simp only [readUnicode, readHex_eq_ok_iff.2 ⟨_, hd, rfl⟩, (not_surrogate c).1,
        (not_surrogate c).2, Bool.false_eq_true, if_false, Char.ofNat_toNat]
    | @pair lead trail digits digits' hl leading ht trailing h =>
      have hlead := isLeading_iff.2 leading
      have htrail := isTrailing_iff.2 trailing
      have notTrail : isTrailing lead = false := by
        simp only [isTrailing, decide_eq_false_iff_not]
        omega
      have hc : pairChar lead trail = c := by
        rw [← Char.toNat_inj, h, toNat_pairChar hlead htrail]
      have front : readHex ((digits ++ '\\' :: 'u' :: digits') ++ rest) =
          .ok (lead, '\\' :: 'u' :: (digits' ++ rest)) :=
        readHex_eq_ok_iff.2 ⟨digits, hl, by simp⟩
      simp only [readUnicode, front, notTrail, Bool.false_eq_true, if_false, hlead, if_true]
      exact readTrailing_eq_ok_iff.2 ⟨trail, digits', ht, htrail, hc, rfl⟩

theorem simpleEscape?_eq_some_iff {e c : Char} :
    simpleEscape? e = some c ↔ (e, c) ∈ escapes := by
  unfold simpleEscape? escapes
  split <;> simp_all [eq_comm]

theorem readEscape_eq_ok_iff {c : Char} :
    readEscape text = .ok (c, rest) ↔
      ∃ s, CharacterSpelled c ('\\' :: s) ∧ text = s ++ rest := by
  constructor
  · intro h
    unfold readEscape at h
    split at h
    · cases h
    · obtain ⟨s, hs, rfl⟩ := readUnicode_eq_ok_iff.1 h
      exact ⟨'u' :: s, hs, rfl⟩
    · next e body _ =>
      split at h
      · next he =>
        cases h
        exact ⟨[e], .escape (simpleEscape?_eq_some_iff.1 he), rfl⟩
      · cases h
  · rintro ⟨s, hs, rfl⟩
    have unicode : ∀ {s'}, s = 'u' :: s' → readEscape (s ++ rest) = .ok (c, rest) := by
      rintro s' rfl
      exact readUnicode_eq_ok_iff.2 ⟨s', hs, rfl⟩
    cases hs with
    | plain _ _ hb => exact absurd rfl hb
    | unit _ => exact unicode rfl
    | pair _ _ _ _ _ => exact unicode rfl
    | @escape e he =>
      have hu : e ≠ 'u' := by
        rintro rfl
        exact absurd he (by simp [escapes])
      have hsimple := simpleEscape?_eq_some_iff.2 he
      simp only [List.singleton_append]
      unfold readEscape
      split
      · next h => cases h
      · next h => cases h; exact absurd rfl hu
      · next h => cases h; rw [hsimple]

theorem readString_eq_ok {read : List Char} {s : String}
    (h : readString read text = .ok (s, rest)) :
    ∃ cs body, CharactersSpelled cs body ∧ s = String.ofList (read.reverse ++ cs) ∧
      text = body ++ rest := by
  fun_induction readString read text with
  | case1 => cases h
  | case2 =>
    cases h
    exact ⟨[], ['"'], .close, by simp, rfl⟩
  | case3 => cases h
  | case4 read text c text' hescape _ ih =>
    obtain ⟨front, hc, rfl⟩ := readEscape_eq_ok_iff.1 hescape
    obtain ⟨cs, body, hcs, hs, rfl⟩ := ih h
    exact ⟨c :: cs, _, .more hc hcs, by simp [hs], by simp⟩
  | case5 => cases h
  | case6 read c text hq hb hcontrol ih =>
    obtain ⟨cs, body, hcs, hs, rfl⟩ := ih h
    exact ⟨c :: cs, _, .more (.plain (Nat.le_of_not_lt hcontrol) hq hb) hcs, by simp [hs], rfl⟩

theorem readString_append {cs body : List Char} (h : CharactersSpelled cs body)
    (read : List Char) :
    readString read (body ++ rest) = .ok (String.ofList (read.reverse ++ cs), rest) := by
  induction h generalizing read with
  | close => simp [readString]
  | @more c cs front body hc _ ih =>
    have next := ih (c :: read)
    have sofar : (c :: read).reverse ++ cs = read.reverse ++ c :: cs := by simp
    rw [sofar] at next
    have escaped : ∀ {s}, CharacterSpelled c ('\\' :: s) →
        readString read ('\\' :: (s ++ (body ++ rest))) =
          .ok (String.ofList (read.reverse ++ c :: cs), rest) := by
      intro s hs
      rw [readString]
      split
      · next h => rw [readEscape_eq_ok_iff.2 ⟨s, hs, rfl⟩] at h; cases h
      · next h =>
        rw [readEscape_eq_ok_iff.2 ⟨s, hs, rfl⟩] at h
        cases h
        exact next
    rw [List.append_assoc]
    cases hc with
    | plain hcontrol hq hb =>
      have spaced : ¬c.toNat < 0x20 := Nat.not_lt.2 hcontrol
      simp only [List.singleton_append]
      rw [readString, if_neg spaced]
      · exact next
      · exact hq
      · exact hb
    | escape he => exact escaped (.escape he)
    | unit hd => exact escaped (.unit hd)
    | pair hl leading ht trailing h => exact escaped (.pair hl leading ht trailing h)

theorem readWord_eq_ok_iff {word : List Char} :
    readWord word text = .ok rest ↔ text = word ++ rest := by
  fun_induction readWord word text with
  | case1 => simp [eq_comm]
  | case2 => simp
  | case3 => rename_i ih; simpa using ih
  | case4 => rename_i hne; simp [Ne.symm hne]

end Token
end Json
end RecordTables
