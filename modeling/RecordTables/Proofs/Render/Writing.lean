import RecordTables.Proofs.Instance.Names
import RecordTables.Proofs.Outcome
import RecordTables.Render.Module

/-!
Renderers that run into the end of their target.

A renderer writes its text in many small pieces, and the first piece that is refused ends it: on
every target it does what `putAll` does with pieces that make up the text (`Writes`).  A target that
cannot tell a text from its pieces is given the whole text at once (`run_putAll`).  Strings and
sinks are of this kind, so that a string receives the whole text, and a sink as much of it as it has
room for (`renderers_stop_at_failure`).
-/

namespace RecordTables
namespace Render

/-! ## Pieces of a text -/

/-- What is written, piece by piece up to the first that is refused, is the text of fragments. -/
def Writes {σ : Type} [Target σ] (w : Writing σ Unit) (fragments : List String) : Prop :=
  ∃ pieces, w = putAll pieces ∧ joined pieces = joined fragments

section

variable {σ : Type} [Target σ] {w w' : Writing σ Unit} {a b : List String}

theorem putAll_append (a b : List String) :
    (putAll (a ++ b) : Writing σ Unit) = putAll a >>= fun _ => putAll b := by
  induction a with
  | nil =>
    show putAll b = (pure () : Writing σ Unit) >>= fun _ => putAll b
    rw [pure_bind]
  | cons piece a ih =>
    show (put piece >>= fun _ => putAll (a ++ b)) = _
    rw [ih]
    exact (bind_assoc _ _ _).symm

theorem joined_append (a b : List String) : joined (a ++ b) = joined a ++ joined b :=
  String.join_append

theorem Writes.nothing : Writes (pure () : Writing σ Unit) [] := ⟨[], rfl, rfl⟩

theorem Writes.bind (h : Writes w a) (h' : Writes w' b) : Writes (w >>= fun _ => w') (a ++ b) := by
  obtain ⟨pieces, rfl, ha⟩ := h
  obtain ⟨pieces', rfl, hb⟩ := h'
  refine ⟨pieces ++ pieces', (putAll_append _ _).symm, ?_⟩
  rw [joined_append, joined_append, ha, hb]

theorem Writes.forM {α : Type} {each : α → Writing σ Unit} {lines : α → List String}
    (h : ∀ x, Writes (each x) (lines x)) (xs : List α) :
    Writes (xs.forM each) (xs.flatMap lines) := by
  induction xs with
  | nil => exact .nothing
  | cons x xs ih => exact (h x).bind ih

theorem writes_put (text : String) : Writes (put text : Writing σ Unit) [text] :=
  ⟨[text], (bind_pure _).symm, rfl⟩

theorem writes_putLine (pieces : List String) :
    Writes (putLine pieces : Writing σ Unit) [Markdown.line (joined pieces)] := by
  refine ⟨pieces ++ ["\n"], rfl, ?_⟩
  rw [joined_append]
  simp [joined, Markdown.line]

theorem Writes.congr (h : Writes w a) (hab : a = b) : Writes w b := hab ▸ h

end

/-! ## The renderers -/

namespace Markdown

variable {σ : Type} [Target σ]

theorem line_eq_getter (t : Table) (f : Field) :
    line (joined [t.name, ":", f.name, "() -- return type: ", f.describe t, "<br/>"]) =
      getter t f := by
  simp [getter, joined, toString, String.append_assoc]

theorem line_eq_setter (t : Table) (f : Field) :
    line (joined [t.name, ":", setterName f.name, "(v) -- arg type: ", f.describe t,
      ", returns the record<br/>"]) = setter t f := by
  simp [setter, joined, toString, String.append_assoc]

theorem writes_writeTable (t : Table) :
    Writes (writeTable t : Writing σ Unit) (tableSection t) := by
  -- each line and each loop of the program in its turn
  have hlines : Writes (writeTable t : Writing σ Unit) _ :=
    .bind (writes_putLine _) <| .bind (writes_putLine _) <| .bind (writes_putLine _) <|
    .bind (writes_putLine _) <| .bind (writes_putLine _) <|
    .bind (.forM (fun f => writes_putLine _) _) <|
    .bind (writes_putLine _) <| .bind (writes_putLine _) <|
    .bind (.forM (fun f => writes_putLine _) _) <|
    .bind (writes_putLine _) <| .bind (writes_putLine _) <| .bind (writes_putLine _) <|
    .bind (writes_putLine _) (writes_putLine _)
  refine hlines.congr ?_
  simp only [line_eq_getter, line_eq_setter, ← List.map_eq_flatMap]
  simp [tableSection, joined, toString, String.append_assoc]

theorem writes_write (s : TableSet) : Writes (write s : Writing σ Unit) (fragments s) := by
  have hintroduction := Writes.forM (fun text => writes_put (σ := σ) text) introduction
  rw [List.flatMap_singleton'] at hintroduction
  exact hintroduction.bind (.forM writes_writeTable s.tables)

end Markdown

namespace Module

variable {σ : Type} [Target σ]

theorem lines_eq_entry (module : String) (t : Table) :
    [Markdown.line (joined ["-- ", t.name, "(", Markdown.argumentList t, ")"])] ++
      [Markdown.line (joined [module, ".", t.name, " = ", t.name])] = entry module t := by
  simp [entry, joined, toString, String.append_assoc]

theorem writes_write (s : TableSet) (module : String) :
    Writes (write s module : Writing σ Unit) (fragments s module) := by
  have hlines : Writes (write s module : Writing σ Unit) _ :=
    .bind (writes_putLine _) <| .bind (writes_putLine _) <| .bind (writes_putLine _) <|
    .bind (.forM (fun t => .bind (writes_putLine _) (writes_putLine _)) _) <|
    .bind (writes_putLine _) (writes_putLine _)
  refine hlines.congr ?_
  simp only [lines_eq_entry]
  simp [fragments, joined, toString, String.append_assoc]

end Module

/-! ## Targets -/

/-- A target that cannot tell a text from its pieces. -/
class Seamless (σ : Type) [Target σ] : Prop where
  put_empty : ∀ out : σ, Target.put "" out = (true, out)
  put_append : ∀ (a b : String) (out : σ), Target.put (a ++ b) out =
    if (Target.put a out).1 then Target.put b (Target.put a out).2
    else (false, (Target.put a out).2)

section

variable {σ : Type} [Target σ]

theorem run_put (text : String) (out : σ) :
    (put text : Writing σ Unit).run.run out =
      (if (Target.put text out).1 then .ok () else .error (), (Target.put text out).2) := by
  have hrun : (put text : Writing σ Unit).run.run out =
      (unless (Target.put text out).1 do throw () : Writing σ Unit).run.run
        (Target.put text out).2 := rfl
  rw [hrun]
  cases (Target.put text out).1 <;> rfl

/-- The pieces of a text might as well be written at once. -/
theorem run_putAll [Seamless σ] (pieces : List String) (out : σ) :
    (putAll pieces : Writing σ Unit).run.run out = (put (joined pieces)).run.run out := by
  induction pieces generalizing out with
  | nil =>
    rw [run_put, joined, String.join_nil, Seamless.put_empty]
    rfl
  | cons piece rest ih =>
    have hjoined : joined (piece :: rest) = piece ++ joined rest := String.join_cons
    have hput := run_put piece out
    rw [putAll, run_put, hjoined, Seamless.put_append]
    cases htaken : (Target.put piece out).1 with
    | true =>
      rw [htaken, if_pos rfl] at hput
      rw [run_bind_ok hput, ih, run_put, if_pos rfl]
    | false =>
      rw [htaken, if_neg Bool.false_ne_true] at hput
      rw [run_bind_error hput, if_neg Bool.false_ne_true]
      rfl

theorem Writes.run_eq [Seamless σ] {w : Writing σ Unit} {fragments : List String}
    (h : Writes w fragments) (out : σ) :
    w.run.run out = (put (joined fragments)).run.run out := by
  obtain ⟨pieces, rfl, hsame⟩ := h
  rw [run_putAll, hsame]

end

instance : Seamless String where
  put_empty _ := congrArg (true, ·) String.append_empty
  put_append _ _ _ := congrArg (true, ·) String.append_assoc.symm

/-- What does not fit leaves no room behind. -/
theorem Sink.put_append (out : Sink) (first second : List UInt8) :
    out.put (first ++ second) =
      if (out.put first).1 then (out.put first).2.put second else (false, (out.put first).2) := by
  unfold put
  rw [List.length_append, List.take_append]
  by_cases hfits : first.length ≤ out.room
  · have hwhole : first.length + second.length ≤ out.room ↔
        second.length ≤ out.room - first.length := by omega
    have hroom : out.room - (first.length + second.length) =
        out.room - first.length - second.length := by omega
    rw [if_pos (decide_eq_true hfits), decide_eq_decide.2 hwhole, hroom, List.append_assoc,
      List.take_of_length_le hfits]
  · have hwhole : ¬first.length + second.length ≤ out.room := by omega
    have hnone : out.room - (first.length + second.length) = 0 ∧ out.room - first.length = 0 := by
      omega
    rw [if_neg (by simpa using hfits), decide_eq_false hwhole, hnone.1, hnone.2, List.take_zero,
      List.append_nil]

instance : Seamless Sink where
  put_empty out := by
    show out.put (Text.bytesOf "") = (true, out)
    simp [Sink.put, Text.bytesOf_eq_flatMap]
  put_append a b out := by
    show out.put (Text.bytesOf (a ++ b)) = _
    rw [Text.bytesOf_append]
    exact out.put_append _ _

/-! ## Renderers -/

/-- On every target a renderer writes the pieces of its text up to the first that is refused.  A
string receives the whole text; a sink with room for `n` bytes receives as much of the text as fits,
and the renderer ends well exactly if that is all of it. -/
structure StopsAtFailure (write : (σ : Type) → [Target σ] → Writing σ Unit) (text : String)
    (n : Nat) : Prop where
  pieces : ∀ (σ : Type) [Target σ], ∃ pieces, joined pieces = text ∧ write σ = putAll pieces
  whole : (write String).run.run "" = (.ok (), text)
  outcome : ((write Sink).run.run (.withRoom n)).1 = .ok () ↔ (Text.bytesOf text).length ≤ n
  received : ((write Sink).run.run (.withRoom n)).2.received =
    (Text.bytesOf text).take (min n (Text.bytesOf text).length)

theorem stopsAtFailure_of_writes {write : (σ : Type) → [Target σ] → Writing σ Unit}
    {fragments : List String} (h : ∀ (σ : Type) [Target σ], Writes (write σ) fragments) (n : Nat) :
    StopsAtFailure write (joined fragments) n := by
  have hsink := (h Sink).run_eq (.withRoom n)
  rw [run_put] at hsink
  constructor
  · intro σ _
    obtain ⟨pieces, hw, hjoined⟩ := h σ
    exact ⟨pieces, hjoined, hw⟩
  · rw [(h String).run_eq, run_put]
    show (Except.ok (), "" ++ joined fragments) = _
    rw [String.empty_append]
  · rw [hsink]
    show (if decide ((Text.bytesOf (joined fragments)).length ≤ n) = true then Except.ok () else
      Except.error ()) = _ ↔ _
    by_cases hfits : (Text.bytesOf (joined fragments)).length ≤ n
    · rw [if_pos (decide_eq_true hfits)]
      exact ⟨fun _ => hfits, fun _ => rfl⟩
    · rw [if_neg (by simpa using hfits)]
      exact ⟨nofun, fun h => absurd h hfits⟩
  · rw [hsink]
    show [] ++ (Text.bytesOf (joined fragments)).take n = _
    rw [List.nil_append, List.take_eq_take_min]

/-- Both renderers write exactly their text, as far as it is taken, and tell whether all of it
was. -/
theorem renderers_stop_at_failure (s : TableSet) (module : String) (n : Nat) :
    StopsAtFailure (fun _ => Markdown.write s) (Markdown.render s) n ∧
      StopsAtFailure (fun _ => Module.write s module) (Module.render s module) n :=
  ⟨stopsAtFailure_of_writes (fun _ => Markdown.writes_write s) n,
    stopsAtFailure_of_writes (fun _ => Module.writes_write s module) n⟩

end Render
end RecordTables
