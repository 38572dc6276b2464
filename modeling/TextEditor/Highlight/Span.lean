import TextEditor.Settings

/-!
# Spans

A span gives a category to a stretch of the text on screen.
-/

namespace TextEditor

/-- What a stretch of text is shown as. -/
inductive Category where
  | unstyled
  | variableName
  | functionName
  | methodName
  | className
  | enumName
  | comment
  | keyword
  | literal
  | macroName
  | directive
  | primitiveType
  deriving DecidableEq, Repr, Inhabited

namespace Category

def name : Category → String
  | .unstyled => "none"
  | .variableName => "variable"
  | .functionName => "function"
  | .methodName => "method"
  | .className => "class"
  | .enumName => "enum"
  | .comment => "comment"
  | .keyword => "keyword"
  | .literal => "literal"
  | .macroName => "macro"
  | .directive => "preprocessor"
  | .primitiveType => "primitive"

/-- All categories. -/
def all : List Category :=
  [.unstyled, .variableName, .functionName, .methodName, .className, .enumName, .comment,
    .keyword, .literal, .macroName, .directive, .primitiveType]

/-- The category of that name. -/
def ofName? (s : String) : Option Category :=
  all.find? fun c => c.name = s

theorem ofName?_name (c : Category) : ofName? c.name = some c := by
  cases c <;> decide

end Category

/-- A category for `length` characters from `start` on. -/
structure Span where
  start : Int
  length : Int
  category : Category
  deriving DecidableEq, Repr, Inhabited

namespace Span

/-- The offset just after the span. -/
def stop (s : Span) : Int :=
  s.start + s.length

/-- Whether brackets inside the span do not count. -/
def hidesBrackets (s : Span) : Bool :=
  s.category = .comment || s.category = .literal

/-- Whether the span covers an offset. -/
def covers (s : Span) (offset : Int) : Bool :=
  s.start ≤ offset && offset < s.stop

theorem covers_iff {s : Span} {offset : Int} :
    s.covers offset = true ↔ s.start ≤ offset ∧ offset < s.start + s.length := by
  rw [covers, Bool.and_eq_true, decide_eq_true_eq, decide_eq_true_eq, stop]

end Span

end TextEditor
