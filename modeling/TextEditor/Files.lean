import TextEditor.Bytes.Utf8

/-!
# Files

A folder of files and subfolders that paths are resolved in, and the reading of a document from it.
A document that cannot be found or is not UTF-8 is reported with its path and the cause.
-/

namespace TextEditor

/-- Why a document cannot be loaded. -/
inductive LoadCause where
  | missing
  | isFolder
  | notFolder
  | nameTooLong
  | undecodable (defect : Utf8.Defect)
  deriving DecidableEq, Repr

/-- A document that cannot be loaded. -/
structure LoadFault where
  path : String
  cause : LoadCause
  deriving DecidableEq, Repr

namespace LoadFault

/-- The path in quotes. -/
def quotedPath (f : LoadFault) : String :=
  String.ofList (Text.Quoted.encode f.path.toList)

/-- What the system says of the path. -/
def system (f : LoadFault) (number : Nat) (words : String) : String :=
  s!"[Errno {number}] {words}: {f.quotedPath}"

def reason (f : LoadFault) : String :=
  match f.cause with
  | .missing => f.system 2 "No such file or directory"
  | .isFolder => f.system 21 "Is a directory"
  | .notFolder => f.system 20 "Not a directory"
  | .nameTooLong => f.system 36 "File name too long"
  | .undecodable defect => defect.message

def message (f : LoadFault) : String :=
  s!"cannot load {f.quotedPath}: {f.reason}"

end LoadFault

/-- The files of a folder by their paths in it; a folder of its own has no contents. -/
structure Folder where
  entries : List (String × Option Bytes) := []
  deriving Inhabited

namespace Folder

/-- What a name in a folder stands for. -/
inductive Item where
  | file (contents : Bytes)
  | folder
  deriving DecidableEq, Repr

/-- What lies at the given parts of a path in the folder. -/
def item? (folder : Folder) (parts : List Text) : Option Item :=
  let path := (['/'] : Text).intercalate parts
  match folder.entries.lookup (String.ofList path) with
  | some (some contents) => some (.file contents)
  | some none => some .folder
  | none =>
    if folder.entries.any fun entry => (path ++ ['/']).isPrefixOf entry.1.toList then some .folder
    else none

/-- Follow the parts of a path.  `within` holds the parts reached so far; `above` counts the
folders that were left upward, where nothing else is known. -/
def follow (folder : Folder) (above : Nat) (within : List Text) : List Text → Except LoadCause Item
  | [] => .ok .folder
  | part :: rest =>
    if part.isEmpty || part = ['.'] then follow folder above within rest
    else if part = ['.', '.'] then
      match within.reverse with
      | [] => follow folder (above + 1) [] rest
      | _ :: outer => follow folder above outer.reverse rest
    else if 255 < (Utf8.encode part).length then .error .nameTooLong
    else if 0 < above then .error .missing
    else
      match folder.item? (within ++ [part]) with
      | none => .error .missing
      | some .folder => follow folder above (within ++ [part]) rest
      | some (.file contents) => if rest.isEmpty then .ok (.file contents) else .error .notFolder

/-- The contents of the file at a path.  An entry of that very path comes first; otherwise an
absolute path leads out of the folder. -/
def contents (folder : Folder) (path : String) : Except LoadCause Bytes :=
  let parts := Text.splitOn '/' path.toList
  let above := if path.startsWith "/" then 1 else 0
  match folder.entries.lookup path with
  | some (some contents) => .ok contents
  | some none => .error .isFolder
  | none =>
    if path.isEmpty then .error .missing
    else
      match follow folder above [] parts with
      | .ok (.file contents) => .ok contents
      | .ok .folder => .error .isFolder
      | .error cause => .error cause

/-- The text of the document at a path. -/
def load (folder : Folder) (path : String) : Except LoadFault Text :=
  match folder.contents path with
  | .error cause => .error ⟨path, cause⟩
  | .ok bytes =>
    match Utf8.decodeBlocks [] bytes with
    | .error defect => .error ⟨path, .undecodable defect⟩
    | .ok text => .ok text

end Folder

end TextEditor
