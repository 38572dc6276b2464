import TextEditor.Text.CharKind
import TextEditor.Text.Lowercase

/-!
# Language profiles

What the editor knows of a language: its keywords, the delimiters of its comments and strings, the
file extensions by which it is recognised, its language server, and the names of the token types
that the server is taken to use until it says which ones it does.
-/

namespace TextEditor

/-- The languages with a profile of their own, and plain text. -/
inductive Language where
  | cpp
  | rust
  | plain
  deriving DecidableEq, Repr, Inhabited

def Language.identifier : Language → String
  | .cpp => "cpp"
  | .rust => "rust"
  | .plain => "plain"

/-- The language of that identifier. -/
def Language.ofIdentifier? : String → Option Language
  | "cpp" => some .cpp
  | "rust" => some .rust
  | "plain" => some .plain
  | _ => none

/-- Keywords, delimiters and server of one language. -/
structure Profile where
  language : Language
  extensions : List String := []
  keywords : List Text := []
  lineComment : Option Text := some ['/', '/']
  /-- The two ends of a comment that may go over several lines. -/
  blockComment : Option (Text × Text) := some (['/', '*'], ['*', '/'])
  stringQuote : Text := ['"']
  escapeChar : Text := ['\\']
  /-- What a directive for the preprocessor starts with. -/
  directiveStart : Option Text := none
  server : Option String := none
  tokenTypes : List String := []
  deriving DecidableEq, Repr, Inhabited

namespace Profile

def identifier (p : Profile) : String :=
  p.language.identifier

def isKeyword (p : Profile) (word : Text) : Bool :=
  p.keywords.contains word

/-- C and C++. -/
def cpp : Profile where
  language := .cpp
  extensions := ["c", "h", "cpp", "hpp", "cxx"]
  keywords := [
    "alignas", "alignof", "and", "and_eq", "asm", "auto", "bitand", "bitor", "bool", "break",
     "case", "catch", "char", "char8_t", "char16_t", "char32_t", "class", "compl", "concept",
     "const", "consteval", "constexpr", "constinit", "const_cast", "continue", "co_await",
     "co_return", "co_yield", "decltype", "default", "delete", "do", "double", "dynamic_cast",
     "else", "enum", "explicit", "export", "extern", "false", "float", "for", "friend", "goto",
     "if", "inline", "int", "long", "mutable", "namespace", "new", "noexcept", "not", "not_eq",
     "nullptr", "operator", "or", "or_eq", "private", "protected", "public", "register",
     "reinterpret_cast", "requires", "return", "short", "signed", "sizeof", "static",
     "static_assert", "static_cast", "struct", "switch", "template", "this", "thread_local",
     "throw", "true", "try", "typedef", "typeid", "typename", "union", "unsigned", "using",
     "virtual", "void", "volatile", "wchar_t", "while", "xor", "xor_eq"].map String.toList
  directiveStart := some ['#']
  server := some "clangd"
  tokenTypes :=
    ["variable", "localVariable", "parameter", "function", "method", "staticMethod", "field",
     "staticField", "class", "enum", "enumConstant", "typedef", "dependentType", "dependentName",
     "namespace", "templateParameter", "concept", "primitive", "macro", "inactiveCode"]

def rust : Profile where
  language := .rust
  extensions := ["rs"]
  keywords := [
    "as", "break", "const", "continue", "crate", "else", "enum", "extern", "false", "fn", "for",
     "if", "impl", "in", "let", "loop", "match", "mod", "move", "mut", "pub", "ref", "return",
     "self", "Self", "static", "struct", "super", "trait", "true", "type", "unsafe", "use",
     "where", "while", "async", "await", "dyn"].map String.toList
  server := some "rust-analyzer"
  tokenTypes :=
    ["comment", "keyword", "string", "number", "regexp", "operator", "namespace", "type",
     "struct", "class", "interface", "enum", "typeParameter", "function", "member", "property",
     "macro", "variable", "parameter", "label", "attribute", "builtinType", "enumMember",
     "lifetime", "typeAlias", "union", "unresolvedReference"]

/-- Plain text, which has strings but no comments. -/
def plain : Profile where
  language := .plain
  lineComment := none
  blockComment := none

/-- All profiles, in the order in which an extension is looked up. -/
def all : List Profile :=
  [cpp, rust, plain]

def ofLanguage : Language → Profile
  | .cpp => cpp
  | .rust => rust
  | .plain => plain

/-- The profile of an identifier; an unknown one means plain text. -/
def ofIdentifier (name : String) : Profile :=
  ((Language.ofIdentifier? name).map ofLanguage).getD plain

/-- The part of a path after its last slash. -/
def fileName (path : Text) : Text :=
  (path.reverse.takeWhile (· ≠ '/')).reverse

/-- What stands after the last dot of a file name.  Dots at the front of the name do not begin an
extension. -/
def extension (path : Text) : Text :=
  let name := (fileName path).dropWhile (· = '.')
  if name.contains '.' then (name.reverse.takeWhile (· ≠ '.')).reverse else []

/-- The profile for a path, by its extension in lower case; plain text if no profile has it. -/
def ofPath (path : String) : Profile :=
  let wanted := String.ofList (Text.lowercase (extension path.toList))
  (all.find? fun p => p.extensions.contains wanted).getD plain

end Profile

end TextEditor
