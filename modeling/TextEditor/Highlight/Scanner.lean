import TextEditor.Highlight.BlockComment
import TextEditor.Highlight.Span
import TextEditor.Language.Profile

/-!
# Lexical scan

One pass over the text on screen finds its comments, string literals, keywords and preprocessor
directives.  At each offset a block comment is tried first, then a string, then a line comment; any
other character belongs to an identifier or ends one.  An identifier is classified when it ends.
-/

namespace TextEditor.Highlight

open Text

/-- The characters of identifiers; the number sign is one, so that directives are words. -/
def isIdentifier (c : Char) : Bool :=
  isWord c || c = '#'

/-- The category of a word: a keyword, or a directive for the preprocessor. -/
def wordCategory? (p : Profile) (word : Text) : Option Category :=
  if p.isKeyword word then some .keyword
  else
    match p.directiveStart with
    | some start => if !start.isEmpty && start.isPrefixOf word then some .directive else none
    | none => none

/-- The span of the word that ends at `offset`; `word` holds its characters, the last first. -/
def wordSpans (p : Profile) (word : Text) (offset : Nat) : List Span :=
  if word.isEmpty then []
  else
    match wordCategory? p word.reverse with
    | some category => [⟨(offset : Int) - word.length, word.length, category⟩]
    | none => []

/-- The number of characters after an opening quote that belong to the string: up to and with the
closing quote, or up to the line break or the end of the text.  The escape character takes the
character after it along, unless that is a line break. -/
def stringLength (p : Profile) : Text → Nat
  | [] => 0
  | [c] =>
    if p.stringQuote.isPrefixOf [c] then p.stringQuote.length
    else if isLineBreak c then 0
    else 1
  | c :: d :: rest =>
    if [c] = p.escapeChar && !isLineBreak d then 2 + stringLength p rest
    else if p.stringQuote.isPrefixOf (c :: d :: rest) then p.stringQuote.length
    else if isLineBreak c then 0
    else 1 + stringLength p (d :: rest)

/-- The length of the block comment that opens the text, if one does: up to its closer or to the
end of the text. -/
def blockCommentLength? (p : Profile) (t : Text) : Option Nat :=
  match p.blockComment with
  | none => none
  | some (opener, closer) =>
    if opener.isPrefixOf t then
      match findFrom closer (t.drop opener.length) opener.length with
      | some found => some (found + closer.length)
      | none => some t.length
    else none

/-- The length of the line comment that opens the text, if one does: up to the line break. -/
def lineCommentLength? (p : Profile) (t : Text) : Option Nat :=
  match p.lineComment with
  | none => none
  | some opener =>
    if opener.isPrefixOf t then some (t.takeWhile fun c => !isLineBreak c).length else none

/-- The comment or string that opens the text: its length and its category. -/
def delimited? (p : Profile) (t : Text) : Option (Nat × Category) :=
  match blockCommentLength? p t with
  | some length => some (length, .comment)
  | none =>
    if p.stringQuote.isPrefixOf t then
      let quote := p.stringQuote.length
      some (quote + stringLength p (t.drop quote), .literal)
    else (lineCommentLength? p t).map fun length => (length, .comment)

/-- The span of `length` characters from `offset` on, if there are any. -/
def spanOf (offset length : Nat) (category : Category) : List Span :=
  if length = 0 then [] else [⟨offset, length, category⟩]

/-- The spans from `offset` on, after the first `skip` characters, which are classified already.
`word` holds the identifier that is going on, its last character first. -/
def scanFrom (p : Profile) : (skip offset : Nat) → (word : Text) → Text → List Span
  | _, offset, word, [] => wordSpans p word offset
  | skip + 1, offset, word, _ :: rest => scanFrom p skip (offset + 1) word rest
  | 0, offset, word, c :: rest =>
    match delimited? p (c :: rest) with
    | some (length, category) =>
      wordSpans p word offset ++
        (spanOf offset length category ++ scanFrom p (length - 1) (offset + 1) [] rest)
    | none =>
      if isIdentifier c then scanFrom p 0 (offset + 1) (c :: word) rest
      else wordSpans p word offset ++ scanFrom p 0 (offset + 1) [] rest

/-- The spans of a text that does not open inside a comment. -/
def scan (p : Profile) (t : Text) : List Span :=
  scanFrom p 0 0 [] t

/-- The spans of a text that opens inside a block comment, and whether the comment is still open
at its end, where there are no spans. -/
def scanInside (p : Profile) (t : Text) : List Span × Bool :=
  match p.blockComment with
  | none => (scan p t, false)
  | some (_, closer) =>
    match findFrom closer t 0 with
    | none => ([], true)
    | some found =>
      let close := found + closer.length
      (spanOf 0 close .comment ++ scanFrom p close 0 [] t, false)

end TextEditor.Highlight
