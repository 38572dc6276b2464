import TextEditor.Text.Basic
import TextEditor.Text.Quoted

/-!
# UTF-8

Documents, clipboard contents and server messages travel as bytes.  Decoding either reports the
first offending bytes, where a sequence that breaks off is offending up to the byte that spoils it,
or puts a replacement character in place of each offending stretch.
-/

namespace TextEditor

/-- Bytes in order. -/
abbrev Bytes := List UInt8

namespace Utf8

/-- The bytes of one character. -/
def encodeChar (c : Char) : Bytes :=
  let n := c.toNat
  if n < 0x80 then [n.toUInt8]
  else if n < 0x800 then [(0xC0 + n / 0x40).toUInt8, (0x80 + n % 0x40).toUInt8]
  else if n < 0x10000 then
    [(0xE0 + n / 0x1000).toUInt8, (0x80 + n / 0x40 % 0x40).toUInt8, (0x80 + n % 0x40).toUInt8]
  else
    [(0xF0 + n / 0x40000).toUInt8, (0x80 + n / 0x1000 % 0x40).toUInt8,
      (0x80 + n / 0x40 % 0x40).toUInt8, (0x80 + n % 0x40).toUInt8]

/-- The bytes of a text. -/
def encode (t : Text) : Bytes :=
  t.flatMap encodeChar

/-- Why bytes are not UTF-8. -/
inductive Reason where
  | invalidStart
  | invalidContinuation
  | unexpectedEnd
  deriving DecidableEq, Repr

/-- The first offending bytes: where they start, and what they are. -/
structure Defect where
  position : Nat
  bytes : Bytes
  reason : Reason
  deriving DecidableEq, Repr

def Reason.message : Reason → String
  | .invalidStart => "invalid start byte"
  | .invalidContinuation => "invalid continuation byte"
  | .unexpectedEnd => "unexpected end of data"

/-- A single byte is shown, a longer stretch located. -/
def Defect.message (d : Defect) : String :=
  match d.bytes with
  | [b] =>
    let digits := String.ofList (Text.Quoted.hexDigits 2 b.toNat)
    s!"'utf-8' codec can't decode byte 0x{digits} in position {d.position}: " ++ d.reason.message
  | bytes =>
    let last := d.position + bytes.length - 1
    s!"'utf-8' codec can't decode bytes in position {d.position}-{last}: " ++ d.reason.message

/-- What stands at the front of some bytes. -/
inductive Front where
  /-- A character that takes `width` bytes. -/
  | char (c : Char) (width : Nat)
  /-- The bytes end within a sequence that is right so far. -/
  | cut
  /-- The first `width` bytes are offending. -/
  | bad (width : Nat) (reason : Reason)
  deriving DecidableEq, Repr

def isContinuation (b : UInt8) : Bool :=
  0x80 ≤ b.toNat && b.toNat < 0xC0

/-- Whether `b` may follow `lead`; some leads allow fewer bytes, so that each character has one
form and surrogates and values above `U+10FFFF` have none. -/
def isSecond (lead b : UInt8) : Bool :=
  isContinuation b &&
    (lead.toNat != 0xE0 || 0xA0 ≤ b.toNat) && (lead.toNat != 0xED || b.toNat < 0xA0) &&
    (lead.toNat != 0xF0 || 0x90 ≤ b.toNat) && (lead.toNat != 0xF4 || b.toNat < 0x90)

/-- The six bits that a continuation byte carries. -/
def payload (b : UInt8) : Nat := b.toNat % 0x40

/-- The character, break or defect that starts with `lead` and goes on with `rest`. -/
def front (lead : UInt8) (rest : Bytes) : Front :=
  let n := lead.toNat
  if n < 0x80 then .char (Char.ofNat n) 1
  else if n < 0xC2 || 0xF4 < n then .bad 1 .invalidStart
  else
    match rest with
    | [] => .cut
    | second :: rest =>
      if !isSecond lead second then .bad 1 .invalidContinuation
      else if n < 0xE0 then .char (Char.ofNat (n % 0x20 * 0x40 + payload second)) 2
      else
        match rest with
        | [] => .cut
        | third :: rest =>
          if !isContinuation third then .bad 2 .invalidContinuation
          else if n < 0xF0 then
            .char (Char.ofNat (n % 0x10 * 0x1000 + payload second * 0x40 + payload third)) 3
          else
            match rest with
            | [] => .cut
            | fourth :: _ =>
              if !isContinuation fourth then .bad 3 .invalidContinuation
              else
                .char (Char.ofNat (n % 8 * 0x40000 + payload second * 0x1000 +
                  payload third * 0x40 + payload fourth)) 4

/-- The characters of the bytes after the first `skip`, and the bytes at the end that begin a
character without completing it.  Positions count from `position`. -/
def decodeOpen : (skip position : Nat) → Bytes → Except Defect (Text × Bytes)
  | _, _, [] => .ok ([], [])
  | skip + 1, position, _ :: rest => decodeOpen skip (position + 1) rest
  | 0, position, lead :: rest =>
    match front lead rest with
    | .char c width =>
      match decodeOpen (width - 1) (position + 1) rest with
      | .ok (text, pending) => .ok (c :: text, pending)
      | .error defect => .error defect
    | .cut => .ok ([], lead :: rest)
    | .bad width reason => .error ⟨position, (lead :: rest).take width, reason⟩

/-- The text that the bytes encode. -/
def decode (bytes : Bytes) : Except Defect Text :=
  match decodeOpen 0 0 bytes with
  | .error defect => .error defect
  | .ok (text, []) => .ok text
  | .ok (_, pending) => .error ⟨bytes.length - pending.length, pending, .unexpectedEnd⟩

/-- The most bytes that a reader of a file takes at once. -/
def blockSize : Nat := 0x10000

/-- The text of bytes that are taken block by block.  A character that a block leaves incomplete is
put in front of the next one, and positions count from the front of what is decoded together. -/
def decodeBlocks (pending : Bytes) : Bytes → Except Defect Text
  | [] => if pending.isEmpty then .ok [] else .error ⟨0, pending, .unexpectedEnd⟩
  | b :: rest =>
    match decodeOpen 0 0 (pending ++ (b :: rest).take blockSize) with
    | .error defect => .error defect
    | .ok (text, pending) =>
      match decodeBlocks pending ((b :: rest).drop blockSize) with
      | .error defect => .error defect
      | .ok later => .ok (text ++ later)
termination_by bytes => bytes.length
decreasing_by
  rw [List.length_drop, List.length_cons, blockSize]
  omega

/-- The text after the first `skip` bytes, with `U+FFFD` for each offending stretch. -/
def decodeLossyFrom : (skip : Nat) → Bytes → Text
  | _, [] => []
  | skip + 1, _ :: rest => decodeLossyFrom skip rest
  | 0, lead :: rest =>
    match front lead rest with
    | .char c width => c :: decodeLossyFrom (width - 1) rest
    | .cut => ['\uFFFD']
    | .bad width _ => '\uFFFD' :: decodeLossyFrom (width - 1) rest

/-- The text with a replacement character for each offending stretch of bytes. -/
def decodeLossy (bytes : Bytes) : Text :=
  decodeLossyFrom 0 bytes

end Utf8

/-- The bytes of an ASCII or UTF-8 literal. -/
def Bytes.ofString (s : String) : Bytes :=
  Utf8.encode s.toList

end TextEditor
