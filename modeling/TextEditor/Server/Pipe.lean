import TextEditor.Bytes.Utf8
import TextEditor.Text.Quoted

/-!
# Pipes

How the pipes to a server process fail and end.
-/

namespace TextEditor.Server

/-- The kinds of failures: of the system, of a value that an operation refuses, and any other. -/
inductive FaultKind where
  | system (name : String)
  | value
  | other (name : String)
  deriving DecidableEq, Repr

/-- A failure of a pipe or of a start. -/
structure PipeFault where
  kind : FaultKind
  message : String
  deriving DecidableEq, Repr

namespace PipeFault

/-- The name of the kind. -/
def kindName (f : PipeFault) : String :=
  match f.kind with
  | .system name => name
  | .value => "ValueError"
  | .other name => name

/-- Whether the failure is one that pipes are expected to have. -/
def isExpected (f : PipeFault) : Bool :=
  match f.kind with
  | .system _ | .value => true
  | .other _ => false

/-- Kind and message. -/
def quoted (f : PipeFault) : String :=
  f.kindName ++ "(" ++ String.ofList (Text.Quoted.encode f.message.toList) ++ ")"

end PipeFault

/-- What comes after the bytes that have arrived. -/
inductive Ending where
  /-- More may arrive. -/
  | awaited
  /-- Nothing. -/
  | closed
  /-- Reading fails. -/
  | broken (fault : PipeFault)
  deriving DecidableEq, Repr

end TextEditor.Server
