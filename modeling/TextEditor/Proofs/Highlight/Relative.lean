import TextEditor.Highlight.Semantic

/-!
# Tokens by relative numbers

A server gives the place of a token relative to the token before it.  Decoding adds the numbers up
again: the line and the start at which it is after each group of five are those of the token that
the group was written for, so that every token comes back with its own numbers, and the legend is
asked for the type that was written.
-/

namespace TextEditor.SemanticToken

/-- A token by its own numbers. -/
structure Numbers where
  line : Int
  start : Int
  length : Int
  typeIndex : Int
  modifiers : Int
  deriving DecidableEq, Repr

/-- Tokens in groups of five numbers, behind a token at the given line and start.  A start is
relative to the token before it if that is on the same line. -/
def relativeFrom (line start : Int) : List Numbers → List Json
  | [] => []
  | t :: rest =>
    .int (t.line - line) :: .int (if t.line = line then t.start - start else t.start) ::
      .int t.length :: .int t.typeIndex :: .int t.modifiers :: relativeFrom t.line t.start rest

/-- Tokens in groups of five numbers. -/
def relative (tokens : List Numbers) : List Json :=
  relativeFrom 0 0 tokens

/-- The name and the category that a legend has for a type; no name and none for one outside. -/
def entry (legend : List String) (index : Int) : String × Category :=
  if h : 0 ≤ index ∧ index.toNat < legend.length then
    (legend[index.toNat], categoryOf legend[index.toNat])
  else ("", .unstyled)

/-- A token with its own numbers, as the legend has it. -/
def Numbers.token (legend : List String) (t : Numbers) : SemanticToken :=
  ⟨.int t.line, .int t.start, .int t.length, (entry legend t.typeIndex).1,
    (entry legend t.typeIndex).2⟩

theorem categoryOf_empty : categoryOf "" = .unstyled := by
  decide

theorem categoryOf_entry (legend : List String) (index : Int) :
    categoryOf (entry legend index).1 = (entry legend index).2 := by
  unfold entry
  split
  · rfl
  · exact categoryOf_empty

theorem typeName_int (legend : List String) (index : Int) :
    typeName legend (.int index) = .ok (entry legend index).1 := by
  have hbounds : typeName legend (.int index) =
      if !decide (0 ≤ index) || decide ((legend.length : Int) ≤ index) then .ok ""
      else .ok (legend[index.toNat]?.getD "") := by
    by_cases hleast : 0 ≤ index
    · by_cases hpast : (legend.length : Int) ≤ index <;>
        simp [typeName, Json.atLeast, Json.whole?, Json.toWhole, bind, Except.bind, pure,
          Except.pure, hleast, hpast]
    · simp [typeName, Json.atLeast, Json.whole?, bind, Except.bind, pure, Except.pure, hleast]
  rw [hbounds, entry]
  by_cases hinside : 0 ≤ index ∧ index.toNat < legend.length
  · rw [dif_pos hinside, if_neg (by simp; omega), List.getElem?_eq_getElem hinside.2,
      Option.getD_some]
  · rw [dif_neg hinside, if_pos (by simp; omega)]

theorem plus_int (m n : Int) : (Json.int m).plus (.int n) = .ok (.int (m + n)) := rfl

/-- A group of five numbers is read as the token it was written for. -/
theorem decodeFrom_group (legend : List String) (line start : Int) (t : Numbers)
    {behind : List Json} {tokens : List SemanticToken}
    (h : decodeFrom legend (.int t.line) (.int t.start) behind = .ok tokens) :
    decodeFrom legend (.int line) (.int start)
      (.int (t.line - line) :: .int (if t.line = line then t.start - start else t.start) ::
        .int t.length :: .int t.typeIndex :: .int t.modifiers :: behind) =
      .ok (t.token legend :: tokens) := by
  rw [decodeFrom, typeName_int, plus_int, plus_int, Numbers.token, ← categoryOf_entry]
  by_cases hline : t.line = line
  · have htruthy : (Json.int (t.line - line)).truthy = false := by simp [Json.truthy, hline]
    have hstart : start + (t.start - start) = t.start := by omega
    rw [htruthy, if_pos hline, hstart, ← hline]
    change (decodeFrom legend (.int t.line) (.int t.start) behind).bind _ = _
    rw [h]
    rfl
  · have htruthy : (Json.int (t.line - line)).truthy = true := by simp [Json.truthy]; omega
    have hnext : line + (t.line - line) = t.line := by omega
    rw [htruthy, if_neg hline, hnext]
    change (decodeFrom legend (.int t.line) (.int t.start) behind).bind _ = _
    rw [h]
    rfl

theorem decodeFrom_short (legend : List String) (line start : Json) {tail : List Json}
    (h : tail.length < 5) : decodeFrom legend line start tail = .ok [] := by
  match tail, h with
  | [], _ | [_], _ | [_, _], _ | [_, _, _], _ | [_, _, _, _], _ => rfl

theorem decodeFrom_relativeFrom (legend : List String) (line start : Int) (tokens : List Numbers)
    {tail : List Json} (h : tail.length < 5) :
    decodeFrom legend (.int line) (.int start) (relativeFrom line start tokens ++ tail) =
      .ok (tokens.map (·.token legend)) := by
  induction tokens generalizing line start with
  | nil => exact decodeFrom_short legend _ _ h
  | cons t rest ih => exact decodeFrom_group legend line start t (ih t.line t.start)

/-- Tokens that were written by relative numbers are decoded to their own lines, starts and lengths
in their order, whatever incomplete group follows; each has the name and the category that the
legend has for its type, or no name and no category if its type lies outside. -/
theorem decode_relative (legend : List String) (tokens : List Numbers) {tail : List Json}
    (h : tail.length < 5) :
    decode legend (relative tokens ++ tail) = .ok (tokens.map (·.token legend)) :=
  decodeFrom_relativeFrom legend 0 0 tokens h

/-- Two tokens on one line, the second with a type outside the legend, and two numbers too many. -/
theorem decode_relative_lines :
    [Json.int 9, .int 9].length < 5 ∧
    decode ["variable", "Function"]
      ([.int 2, .int 4, .int 4, .int 1, .int 0, .int 0, .int 3, .int 1, .int 2, .int 0] ++
        [.int 9, .int 9]) =
      .ok [⟨.int 2, .int 4, .int 4, "Function", .functionName⟩,
        ⟨.int 2, .int 7, .int 1, "", .unstyled⟩] := by
  have hshort : [Json.int 9, .int 9].length < 5 := by decide
  exact ⟨hshort, decode_relative ["variable", "Function"] [⟨2, 4, 4, 1, 0⟩, ⟨2, 7, 1, 2, 0⟩] hshort⟩

end TextEditor.SemanticToken
