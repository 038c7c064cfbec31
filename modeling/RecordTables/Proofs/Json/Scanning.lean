import RecordTables.Proofs.Json.Spelling

/-!
The tokens of a text.

A sound token is spelled by characters, with blanks allowed in front.  `Front text tokens` says what
`tokens` are if they are the scan of `text`: none, if it is blank; a sound token, and the scan of what
follows it; or one fault, with which scanning stops.  So a token that is found is spelled in the text,
and a token that is spelled there is found.
-/

namespace RecordTables
namespace Json

variable {text rest : List Char}

/-! ## Blanks -/

theorem Blanks.scan_eq (h : Blanks text rest) : Token.scan text = Token.scan rest := by
  induction h with
  | none => rfl
  | more blank _ ih =>
    rw [← ih]
    simp only [List.mem_cons, List.not_mem_nil, or_false] at blank
    rcases blank with rfl | rfl | rfl | rfl <;> simp [Token.scan, Token.isBlank]

/-- A number does not go on with blanks. -/
theorem Blanks.delimited (h : Blanks text rest) (hr : Delimited rest) : Delimited text := by
  cases h with
  | none => exact hr
  | more blank _ =>
    intro c hc
    cases hc
    simp only [List.mem_cons, List.not_mem_nil, or_false] at blank
    rcases blank with rfl | rfl | rfl | rfl <;> decide

theorem Following.delimited {α : Type} {spelled : α → List Char → List Char → Prop} {close : Char}
    {as : List α} (hc : ∀ rest, Delimited (close :: rest)) (h : Following spelled close as text rest) :
    Delimited text := by
  cases h with
  | close h => exact h.delimited (hc _)
  | more h _ _ =>
    refine h.delimited fun c hc => ?_
    cases hc
    decide

namespace Token

/-! ## Tokens -/

/-- The characters spell the token. -/
inductive Spelled : Token → List Char → Prop
  | openBrace : Spelled .openBrace ['\x7b']
  | closeBrace : Spelled .closeBrace ['\x7d']
  | openBracket : Spelled .openBracket ['[']
  | closeBracket : Spelled .closeBracket [']']
  | comma : Spelled .comma [',']
  | colon : Spelled .colon [':']
  | null : Spelled .null ['n', 'u', 'l', 'l']
  | true : Spelled (.boolean Bool.true) ['t', 'r', 'u', 'e']
  | false : Spelled (.boolean Bool.false) ['f', 'a', 'l', 's', 'e']
  | number {l : Literal} {n : Numeral} {s : List Char} (h : l.Spelled s) (hn : l.value? = .ok n) :
      Spelled (.number n) s
  | string {s : String} {cs : List Char} (h : StringSpelled s cs) : Spelled (.string s) cs

/-- The token stands for a fault. -/
def IsFault : Token → Prop
  | .brokenString _ | .brokenLiteral _ | .stray => True
  | _ => False

/-- What the scan of a text is. -/
inductive Front : List Char → List Token → Prop
  | ended {text : List Char} (h : Blanks text []) : Front text []
  | token {text s rest : List Char} {token : Token} (h : Blanks text (s ++ rest))
      (hs : token.Spelled s) : Front text (token :: scan rest)
  | fault {text : List Char} {token : Token} (h : token.IsFault) : Front text [token]

theorem Front.blank {c : Char} {tokens : List Token} (hc : isBlank c) (h : Front text tokens) :
    Front (c :: text) tokens := by
  have blank : c ∈ [' ', '\t', '\n', '\r'] := by simpa [isBlank, or_assoc] using hc
  cases h with
  | ended h => exact .ended (.more blank h)
  | token h hs => exact .token (.more blank h) hs
  | fault h => exact .fault h

theorem front_scan (text : List Char) : Front text (scan text) := by
  have word : ∀ {token : Token} {cs body rest : List Char} {c : Char},
      readWord cs body = .ok rest → token.Spelled (c :: cs) → Front (c :: body) (token :: scan rest) := by
    intro token cs body rest c hw hs
    rw [readWord_eq_ok_iff.1 hw]
    exact .token .none hs
  fun_induction scan text with
  | case1 => exact .ended .none
  | case2 => exact .token .none .openBrace
  | case3 => exact .token .none .closeBrace
  | case4 => exact .token .none .openBracket
  | case5 => exact .token .none .closeBracket
  | case6 => exact .token .none .comma
  | case7 => exact .token .none .colon
  | case8 => exact .fault trivial
  | case9 body s after hread =>
    obtain ⟨cs, spelling, hcs, rfl, rfl⟩ := readString_eq_ok hread
    exact .token (.none : Blanks ('"' :: spelling ++ after) _) (.string (.mk (by simpa using hcs)))
  | case10 => exact .fault trivial
  | case11 body after hread => exact word hread .null
  | case12 => exact .fault trivial
  | case13 body after hread => exact word hread .true
  | case14 => exact .fault trivial
  | case15 body after hread => exact word hread .false
  | case16 c body _ _ _ _ _ _ _ _ _ _ hblank ih => exact ih.blank hblank
  | case17 => exact .fault trivial
  | case18 => exact .fault trivial
  | case19 =>
    rename_i hread n hn _ _
    obtain ⟨s, hs, htext⟩ := Literal.read_eq_ok hread
    rw [htext]
    exact .token .none (.number hs hn)
  | case20 => exact .fault trivial

theorem scan_eq_nil (h : scan text = []) : Blanks text [] := by
  have front := front_scan text
  rw [h] at front
  cases front with
  | ended h => exact h

/-- A token that is found is spelled in the text. -/
theorem scan_eq_cons {token : Token} {tokens : List Token} (h : scan text = token :: tokens)
    (sound : ¬token.IsFault) :
    ∃ s rest, Blanks text (s ++ rest) ∧ token.Spelled s ∧ tokens = scan rest := by
  have front := front_scan text
  rw [h] at front
  cases front with
  | token hb hs => exact ⟨_, _, hb, hs, rfl⟩
  | fault hf => exact absurd hf sound

theorem scan_number {l : Literal} {n : Numeral} {s : List Char} (hl : l.Spelled s)
    (hn : l.value? = .ok n) (hr : Delimited rest) : scan (s ++ rest) = .number n :: scan rest := by
  have hread := Literal.read_append hl hr
  obtain ⟨c, cs, hs, hc⟩ : ∃ c cs, s = c :: cs ∧ (c = '-' ∨ c.isDigit) := by
    cases hl with
    | mk hw _ _ =>
      obtain ⟨⟨hne, hall⟩, -⟩ := hw
      cases l.negative with
      | true => exact ⟨'-', _, rfl, .inl rfl⟩
      | false =>
        cases hw : l.whole with
        | nil => exact absurd hw hne
        | cons c cs => exact ⟨c, _, rfl, .inr (hall c (by simp [hw]))⟩
  rw [hs, List.cons_append] at hread ⊢
  have notBlank : isBlank c = false := by
    by_contra hb
    simp only [isBlank, Bool.not_eq_false, Bool.or_eq_true, decide_eq_true_eq] at hb
    rcases hb with ((rfl | rfl) | rfl) | rfl <;> revert hc <;> decide
  rw [scan, notBlank, if_neg Bool.false_ne_true, if_pos hc]
  · split
    · next h => rw [hread] at h; cases h
    · next h =>
      rw [hread] at h
      cases h
      rw [hn]
  all_goals rintro rfl; revert hc; decide

/-- A token that is spelled in the text is found there, a number if the text does not go on with
it. -/
theorem scan_spelled {token : Token} {s : List Char} (hs : token.Spelled s)
    (h : Blanks text (s ++ rest)) (hr : ∀ n, token = .number n → Delimited rest) :
    scan text = token :: scan rest := by
  rw [h.scan_eq]
  cases hs with
  | null => simp [scan, readWord]
  | true => simp [scan, readWord]
  | false => simp [scan, readWord]
  | number hl hn => exact scan_number hl hn (hr _ rfl)
  | string hs =>
    cases hs with
    | mk hcs =>
      have hread : readString [] (_ ++ rest) = _ := readString_append hcs []
      rw [List.reverse_nil, List.nil_append, String.ofList_toList] at hread
      rw [List.cons_append, scan]
      split
      · next h => rw [hread] at h; cases h
      · next h => rw [hread] at h; cases h; rfl
  | _ => simp [scan]

end Token
end Json
end RecordTables
