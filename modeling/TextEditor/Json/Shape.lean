import TextEditor.Json.Basic

/-!
# Values of unknown shape

A server's JSON is used as the object, list or number that the protocol promises.  Where it is
something else the use fails; a value that counts as false stands for an empty one.
-/

namespace TextEditor

/-- What a JSON value cannot be used as. -/
inductive ShapeFault where
  /-- It has no members. -/
  | members
  /-- It has no items, or is no number. -/
  | operation
  /-- It is a whole number beyond all floats. -/
  | overflow
  deriving DecidableEq, Repr

namespace Json

/-- The member of that name, null if the object has none. -/
def member (v : Json) (key : String) : Except ShapeFault Json :=
  match v with
  | .obj fields => .ok ((fields.lookup (.whole key)).getD .null)
  | _ => .error .members

/-- The value, or an empty object for one that counts as false. -/
def orEmpty (v : Json) : Json :=
  if v.truthy then v else .obj []

/-- The items of a list, the characters of a string, or the keys of an object; nothing for a value
that counts as false. -/
def itemsOrNone (v : Json) : Except ShapeFault (List Json) :=
  if !v.truthy then .ok []
  else
    match v with
    | .arr items => .ok items
    | .str s => .ok (s.points.map fun p => .str (.ofPoints [p]))
    | .obj fields => .ok (fields.map fun field => .str field.1)
    | _ => .error .operation

/-- The whole number that a value stands for; a truth value stands for one or zero. -/
def whole? : Json → Option Int
  | .int n => some n
  | .bool b => some (if b then 1 else 0)
  | _ => none

/-- The whole numbers from this one on are beyond all floats: halfway between the largest float and
the power of two behind it, the one with exponent 1024. -/
@[irreducible] def floatBound : Nat := 1 <<< 1024 - 1 <<< 970

/-- The float nearest to a whole number. -/
def nearestFloat (n : Int) : Float :=
  let magnitude := Decimal.toFloat n.natAbs 0
  if n < 0 then -magnitude else magnitude

/-- The float nearest to a whole number, if there is one. -/
def asFloat (n : Int) : Except ShapeFault Float :=
  if n.natAbs < floatBound then .ok (nearestFloat n) else .error .overflow

/-- The sum of two numbers, which is whole if both are; texts and lists are put together. -/
def plus (a b : Json) : Except ShapeFault Json :=
  match a.whole?, b.whole? with
  | some m, some n => .ok (.int (m + n))
  | some m, none =>
    match b with
    | .float g => return .float ((← asFloat m) + g)
    | _ => .error .operation
  | none, some n =>
    match a with
    | .float f => return .float (f + (← asFloat n))
    | _ => .error .operation
  | none, none =>
    match a, b with
    | .float f, .float g => .ok (.float (f + g))
    | .str s, .str t => .ok (.str (s.append t))
    | .arr items, .arr more => .ok (.arr (items ++ more))
    | _, _ => .error .operation

/-- Whether a number is at least the given one. -/
def atLeast (v : Json) (n : Int) : Except ShapeFault Bool :=
  match v with
  | .float f => .ok (f >= Float.ofInt n)
  | _ =>
    match v.whole? with
    | some m => .ok (n ≤ m)
    | none => .error .operation

/-- The whole number that a value stands for, where a float without a fraction counts. -/
def toWhole (v : Json) : Except ShapeFault Int :=
  match v with
  | .float f =>
    if f.floor == f && !f.isInf then .ok f.toInt64.toInt else .error .operation
  | _ =>
    match v.whole? with
    | some n => .ok n
    | none => .error .operation

end Json

end TextEditor
