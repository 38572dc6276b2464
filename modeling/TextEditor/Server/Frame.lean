import TextEditor.Json.Printer
import TextEditor.Server.Pipe
import TextEditor.Text.Integer

/-!
# Frames

A message travels as a header that gives the length of its body in bytes, a blank line, and the
body.  Two readers take frames apart: `Frame.decode` splits one off bytes that are all there, and
`Frame.read` reads one line by line from a stream whose bytes arrive in time.
-/

namespace TextEditor.Server

/-- Why bytes are not a frame; `header` holds the bytes that show it. -/
inductive FrameFault where
  /-- The field with the length does not come first. -/
  | missingLength (header : Bytes)
  | invalidLength (value header : Bytes)
  /-- The length has more digits than are read. -/
  | endlessLength (digits : Nat)
  | unfinishedHeader (header : Bytes)
  | tooLong (length : Nat) (limit : Int) (header : Bytes)
  | shortBody (expected got : Nat) (header : Bytes)
  deriving DecidableEq, Repr

namespace FrameFault

def message : FrameFault → String
  | .missingLength _ => "missing Content-Length header"
  | .invalidLength value _ =>
    "invalid Content-Length value " ++ String.ofList (Text.Quoted.encodeBytes value)
  | .endlessLength digits => (Text.IntegerDefect.tooLong digits).message
  | .unfinishedHeader _ => "stream ended inside the header"
  | .tooLong length limit _ => s!"message of {length} bytes exceeds the {limit} byte limit"
  | .shortBody expected got _ => s!"expected {expected} body bytes, got {got}"

/-- The bytes that show the fault. -/
def header : FrameFault → Bytes
  | .missingLength header => header
  | .invalidLength _ header => header
  | .endlessLength _ => []
  | .unfinishedHeader header => header
  | .tooLong _ _ header => header
  | .shortBody _ _ header => header

end FrameFault

namespace Frame

/-- The name of the field that comes first, with what separates it from its value. -/
def lengthField : Bytes := Bytes.ofString "Content-Length: "

def lineEnd : Bytes := [13, 10]

/-- A body in its frame. -/
def encode (body : Bytes) : Bytes :=
  lengthField ++ Bytes.ofString (toString body.length) ++ lineEnd ++ lineEnd ++ body

/-- A JSON value in its frame. -/
def encodeJson (v : Json) : Bytes :=
  encode v.printBytes

/-- White space around a number in a header. -/
def isHeaderSpace (b : UInt8) : Bool :=
  b = 32 || (9 ≤ b.toNat && b.toNat ≤ 13)

def isDigit (b : UInt8) : Bool :=
  48 ≤ b.toNat && b.toNat ≤ 57

/-- The bytes without the white space at either end. -/
def trim (bytes : Bytes) : Bytes :=
  ((bytes.dropWhile isHeaderSpace).reverse.dropWhile isHeaderSpace).reverse

/-- The length that the value of the field writes. -/
def readLength (value header : Bytes) : Except FrameFault Nat :=
  let digits := trim value
  if digits.isEmpty || !digits.all isDigit then .error (.invalidLength digits header)
  else if digits.length > Text.integerDigitLimit then .error (.endlessLength digits.length)
  else .ok (digits.foldl (fun total b => total * 10 + (b.toNat - 48)) 0)

/-- The bytes ahead of the first occurrence of `pattern`. -/
def before? (pattern : Bytes) : Bytes → Option Bytes
  | [] => none
  | b :: rest =>
    if pattern.isPrefixOf (b :: rest) then some [] else (before? pattern rest).map (b :: ·)

/-- The length of the body and of the header of the frame at the front of `bytes`, or nothing while
the header is not complete. -/
def parseHeader (bytes : Bytes) : Except FrameFault (Option (Nat × Nat)) :=
  let front := bytes.take lengthField.length
  if !front.isPrefixOf lengthField then .error (.missingLength front)
  else
    match before? lineEnd bytes with
    | none => .ok none
    | some line =>
      match readLength (line.drop lengthField.length) line with
      | .error fault => .error fault
      | .ok length =>
        match before? (lineEnd ++ lineEnd) (bytes.drop line.length) with
        | none => .ok none
        | some fields => .ok (some (length, line.length + fields.length + 4))

/-- The body of the frame at the front of `bytes` and the bytes after it, or nothing while the
frame is not complete. -/
def decode (bytes : Bytes) : Except FrameFault (Option (Bytes × Bytes)) :=
  match parseHeader bytes with
  | .error fault => .error fault
  | .ok none => .ok none
  | .ok (some (length, headerLength)) =>
    let stop := headerLength + length
    if bytes.length < stop then .ok none
    else .ok (some ((bytes.drop headerLength).take length, bytes.drop stop))

theorem parseHeader_pos {bytes : Bytes} {length headerLength : Nat}
    (h : parseHeader bytes = .ok (some (length, headerLength))) : 0 < headerLength := by
  simp only [parseHeader] at h
  split at h
  · cases h
  · split at h
    · cases h
    · split at h
      · cases h
      · split at h
        · cases h
        · cases h
          omega

/-- A frame has a header, so that something of the bytes is used up. -/
theorem length_rest_lt {bytes body rest : Bytes} (h : decode bytes = .ok (some (body, rest))) :
    rest.length < bytes.length := by
  unfold decode at h
  cases hheader : parseHeader bytes with
  | error fault => simp [hheader] at h
  | ok lengths =>
    cases lengths with
    | none => simp [hheader] at h
    | some lengths =>
      obtain ⟨length, headerLength⟩ := lengths
      have hpos := parseHeader_pos hheader
      simp only [hheader] at h
      split at h
      · cases h
      · cases h
        rw [List.length_drop]
        omega

/-- What there is in bytes: the bodies of the frames at their front, the bytes after them, and why
these are no frame if that is known. -/
structure Contents where
  bodies : List Bytes := []
  rest : Bytes := []
  fault : Option FrameFault := none
  deriving DecidableEq, Repr

/-- Split off frames until one is not complete or the bytes are none. -/
def decodeAll (bytes : Bytes) : Contents :=
  match _h : decode bytes with
  | .error fault => { rest := bytes, fault := some fault }
  | .ok none => { rest := bytes }
  | .ok (some (body, rest)) =>
    let contents := decodeAll rest
    { contents with bodies := body :: contents.bodies }
termination_by bytes.length
decreasing_by exact length_rest_lt _h

/-- What becomes of reading from a stream. -/
inductive Reading (α : Type) where
  /-- It has to wait for more bytes. -/
  | waits
  /-- It gives a value and leaves the rest. -/
  | gives (value : α) (rest : Bytes)
  /-- It finds that the bytes are no frame and leaves the rest. -/
  | refuses (fault : FrameFault) (rest : Bytes)
  /-- The stream fails. -/
  | breaks (fault : PipeFault)
  deriving DecidableEq, Repr

/-- A line with its end.  The last line of a stream may have none. -/
def readLine (ending : Ending) (bytes : Bytes) : Reading Bytes :=
  match before? [10] bytes with
  | some line => .gives (line ++ [10]) (bytes.drop (line.length + 1))
  | none =>
    match ending with
    | .awaited => .waits
    | .closed => .gives bytes []
    | .broken fault => .breaks fault

/-- A number of bytes, or fewer if the stream ends before. -/
def readExact (ending : Ending) (count : Nat) (bytes : Bytes) : Reading Bytes :=
  if count ≤ bytes.length then .gives (bytes.take count) (bytes.drop count)
  else
    match ending with
    | .awaited => .waits
    | .closed => .gives bytes []
    | .broken fault => .breaks fault

/-- How many bytes a read of a stream gives, by how many are asked for and how many are there. -/
abbrev Portions := (asked there : Nat) → Nat

/-- A number of bytes by as many reads as it takes, or fewer if the stream ends before.  A read
gives no more than is asked for or there is, and something as long as there is something. -/
def gather (portions : Portions) (ending : Ending) : (count : Nat) → Bytes → Reading Bytes
  | 0, bytes => .gives [] bytes
  | _ + 1, [] =>
    match ending with
    | .awaited => .waits
    | .closed => .gives [] []
    | .broken fault => .breaks fault
  | count + 1, b :: bytes =>
    let asked := count + 1
    let there := bytes.length + 1
    let given := min (max 1 (portions asked there)) (min asked there)
    match gather portions ending (asked - given) ((b :: bytes).drop given) with
    | .waits => .waits
    | .breaks fault => .breaks fault
    | .refuses fault rest => .refuses fault rest
    | .gives more rest => .gives ((b :: bytes).take given ++ more) rest
termination_by count => count

/-- Skip header fields up to the blank line; `header` is the line they follow.  Each line takes at
least one byte, so `fuel` beyond the number of bytes is never used up. -/
def skipFields (ending : Ending) (header : Bytes) : (fuel : Nat) → Bytes → Reading Unit
  | 0, bytes => .refuses (.unfinishedHeader header) bytes
  | fuel + 1, bytes =>
    match readLine ending bytes with
    | .waits => .waits
    | .breaks fault => .breaks fault
    | .refuses fault rest => .refuses fault rest
    | .gives line rest =>
      if line.isEmpty then .refuses (.unfinishedHeader header) rest
      else if line = lineEnd then .gives () rest
      else skipFields ending header fuel rest

/-- The length of the body that the first line of a header gives, within the limit. -/
def lengthOfLine (limit : Option Int) (line : Bytes) : Except FrameFault Nat :=
  if !lengthField.isPrefixOf line then .error (.missingLength line)
  else if !lineEnd.isSuffixOf line then .error (.unfinishedHeader line)
  else
    match readLength ((line.drop lengthField.length).take (line.length - lengthField.length - 2))
        line with
    | .error fault => .error fault
    | .ok length =>
      match limit with
      | some limit => if limit < length then .error (.tooLong length limit line) else .ok length
      | none => .ok length

/-- Read the body of one frame, or nothing at the end of the stream; `exact` reads a number of
bytes.  A length above the limit is refused before the body is read. -/
def readBy (exact : (count : Nat) → Bytes → Reading Bytes) (limit : Option Int) (ending : Ending)
    (bytes : Bytes) : Reading (Option Bytes) :=
  match readLine ending bytes with
  | .waits => .waits
  | .breaks fault => .breaks fault
  | .refuses fault rest => .refuses fault rest
  | .gives line afterLine =>
    if line.isEmpty then .gives none afterLine
    else
      match lengthOfLine limit line with
      | .error fault => .refuses fault afterLine
      | .ok length =>
        match skipFields ending line (afterLine.length + 1) afterLine with
        | .waits => .waits
        | .breaks fault => .breaks fault
        | .refuses fault rest => .refuses fault rest
        | .gives () afterHeader =>
          match exact length afterHeader with
          | .waits => .waits
          | .breaks fault => .breaks fault
          | .refuses fault rest => .refuses fault rest
          | .gives body rest =>
            if body.length < length then .refuses (.shortBody length body.length line) rest
            else .gives (some body) rest

/-- Read one frame of a stream that gives what it is asked for. -/
def read (limit : Option Int) (ending : Ending) (bytes : Bytes) : Reading (Option Bytes) :=
  readBy (readExact ending) limit ending bytes

/-- Read one frame of a stream that gives its bytes in portions. -/
def readIn (portions : Portions) (limit : Option Int) (ending : Ending) (bytes : Bytes) :
    Reading (Option Bytes) :=
  readBy (gather portions ending) limit ending bytes

/-- Read frames from a stream that has ended, each with `one`.  Each takes at least one byte, so
`fuel` beyond the number of bytes is never used up. -/
def readMany (one : Bytes → Reading (Option Bytes)) : (fuel : Nat) → Bytes → Contents
  | 0, bytes => { rest := bytes }
  | fuel + 1, bytes =>
    match one bytes with
    | .gives (some body) rest =>
      let contents := readMany one fuel rest
      { contents with bodies := body :: contents.bodies }
    | .gives none rest => { rest }
    | .refuses fault rest => { rest, fault := some fault }
    | .waits | .breaks _ => { rest := bytes }

/-- Read the frames of a stream that has ended until there are none or one is refused. -/
def readAll (limit : Option Int) (bytes : Bytes) : Contents :=
  readMany (read limit .closed) (bytes.length + 1) bytes

/-- The same of a stream that gives its bytes in portions. -/
def readAllIn (portions : Portions) (limit : Option Int) (bytes : Bytes) : Contents :=
  readMany (readIn portions limit .closed) (bytes.length + 1) bytes

end Frame

end TextEditor.Server
