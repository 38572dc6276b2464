import TextEditor.Highlight.Span
import TextEditor.History.Delta
import TextEditor.Json.Shape

/-!
# Semantic tokens

A language server describes a document by tokens, five numbers each: lines since the last token,
columns since the last token of the same line, length, type and modifiers.  Types are indices into
the legend that the server announced.  Decoding adds the numbers up, and projecting maps the tokens
that have a category to spans of the text on screen.

The numbers are kept as the server sent them, since it may send anything in their place; only using
one that is no number fails.
-/

namespace TextEditor

/-- A token at its place in the document. -/
structure SemanticToken where
  line : Json
  start : Json
  length : Json
  tokenType : String
  category : Category

namespace SemanticToken

/-- The category of each type of tokens that is highlighted, by its name in lower case. -/
def categories : List (String × Category) :=
  [("variable", .variableName), ("localvariable", .variableName), ("enummember", .variableName),
    ("function", .functionName), ("method", .methodName), ("staticmethod", .methodName),
    ("class", .className), ("struct", .className), ("enum", .enumName), ("macro", .macroName),
    ("comment", .comment), ("keyword", .keyword), ("string", .literal), ("number", .literal),
    ("primitive", .primitiveType)]

/-- The category of a type of tokens, in whatever case its name is written. -/
def categoryOf (tokenType : String) : Category :=
  (categories.lookup (String.ofList (Text.lowercase tokenType.toList))).getD .unstyled

/-- The name at an index of the legend; none for an index outside it. -/
def typeName (legend : List String) (index : Json) : Except ShapeFault String := do
  if !(← index.atLeast 0) || (← index.atLeast legend.length) then return ""
  match index with
  | .float _ => throw .operation
  | _ =>
    let n ← index.toWhole
    return legend[n.toNat]?.getD ""

/-- The tokens of groups of five numbers, where the last token lies at the given line and start.  A
last group that is not complete is left out. -/
def decodeFrom (legend : List String) (line start : Json) :
    List Json → Except ShapeFault (List SemanticToken)
  | deltaLine :: deltaStart :: length :: index :: _ :: rest => do
    let (line, start) ←
      if deltaLine.truthy then do pure (← line.plus deltaLine, deltaStart)
      else do pure (line, ← start.plus deltaStart)
    let tokenType ← typeName legend index
    let tokens ← decodeFrom legend line start rest
    return ⟨line, start, length, tokenType, categoryOf tokenType⟩ :: tokens
  | _ => .ok []

/-- The tokens that a server's numbers stand for. -/
def decode (legend : List String) (data : List Json) : Except ShapeFault (List SemanticToken) :=
  decodeFrom legend (.int 0) (.int 0) data

/-- The characters of its line that a token covers, from the first offset to before the second. -/
def extent (t : SemanticToken) (d : Document) (encoding : Encoding) :
    Except ShapeFault (Int × Int) := do
  let some line := t.line.whole? | throw .operation
  let start ← t.start.toWhole
  let length ← t.length.toWhole
  let lineStart : Int := d.lineStart line
  let lineStop : Int := lineStart + d.contentLength line
  match encoding with
  | .utf16 =>
    let content := d.slice lineStart lineStop
    return (lineStart + Text.indexOfUnits content start,
      lineStart + Text.indexOfUnits content (start + length))
  | .utf32 =>
    let first := min (lineStart + start) lineStop
    return (first, min (first + length) lineStop)

/-- The span of a token in the text between two offsets, if it has a category and shows there. -/
def span? (t : SemanticToken) (d : Document) (viewStart viewStop : Int) (encoding : Encoding) :
    Except ShapeFault (Option Span) := do
  if t.category = .unstyled then return none
  if ← t.line.atLeast d.lineCount then return none
  let (first, last) ← t.extent d encoding
  let start := max first viewStart
  let stop := min last viewStop
  return if start < stop then some ⟨start - viewStart, stop - start, t.category⟩ else none

/-- The spans of tokens in the text between two offsets. -/
def spans (tokens : List SemanticToken) (d : Document) (viewStart viewStop : Int)
    (encoding : Encoding) : Except ShapeFault (List Span) := do
  let found ← tokens.mapM fun t => t.span? d viewStart viewStop encoding
  return found.filterMap id

end SemanticToken

end TextEditor
