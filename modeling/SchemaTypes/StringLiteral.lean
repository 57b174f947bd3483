import SchemaTypes.Error

/-!
The value of a string literal: the text between its quotes with the escapes carried out.
-/

namespace SchemaTypes.StringLiteral

/-- What an escape stands for. -/
inductive Escape where
  /-- A code point given by its number. -/
  | numbered (n : Nat)
  | literal (c : CodePoint)
  /-- A line break that is skipped. -/
  | continuation
  deriving DecidableEq, Repr

def Escape.value : Escape → Except EscapeFault Text
  | numbered n =>
    match CodePoint.ofNat? n with
    | some c => .ok [c]
    | none => .error (if n ≤ 0x7FFFFFFF then .aboveUnicode else .aboveInt)
  | literal c => .ok [c]
  | continuation => .ok []

def hexValue? (c : CodePoint) : Option Nat :=
  let n := c.val
  if 0x30 ≤ n && n ≤ 0x39 then some (n - 0x30)
  else if 0x41 ≤ n && n ≤ 0x46 then some (n - 0x41 + 10)
  else if 0x61 ≤ n && n ≤ 0x66 then some (n - 0x61 + 10)
  else none

/-- The number a run of hexadecimal digits stands for. -/
def hexNumber (digits : List Nat) : Nat := digits.foldl (fun n d => n * 16 + d) 0

/-- The value of exactly `count` hexadecimal digits at the start of a text. -/
def fixedHex? (count : Nat) (t : Text) : Option Nat :=
  if t.length < count then none else ((t.take count).mapM hexValue?).map hexNumber

/-- The value of the hexadecimal digits before a closing brace, with their number. -/
def bracedHex? (t : Text) : Option (Nat × Nat) :=
  let digits := t.takeWhile (hexValue? · |>.isSome)
  if digits.isEmpty || (t.drop digits.length).head? ≠ some 0x7D then none
  else some (hexNumber (digits.filterMap hexValue?), digits.length)

/-- The letters that stand for control characters. -/
def simpleEscape (c : CodePoint) : CodePoint :=
  if c = 0x6E then 0x0A
  else if c = 0x74 then 0x09
  else if c = 0x72 then 0x0D
  else if c = 0x62 then 0x08
  else if c = 0x66 then 0x0C
  else if c = 0x76 then 0x0B
  else if c = 0x30 then 0x00
  else c

/-- The escape after a backslash with the number of code points it takes; nothing is escaped at the end of the text. -/
def escape? : Text → Option (Escape × Nat)
  | [] => none
  | c :: rest =>
    let plain : Escape × Nat :=
      if c = 0x0D then (.continuation, if rest.head? = some 0x0A then 2 else 1)
      else if c = 0x0A || c = 0x2028 || c = 0x2029 then (.continuation, 1)
      else (.literal (simpleEscape c), 1)
    if c = 0x78 then
      match fixedHex? 2 rest with
      | some n => some (.numbered n, 3)
      | none => some plain
    else if c = 0x75 then
      match (if rest.head? = some 0x7B then bracedHex? rest.tail else none), fixedHex? 4 rest with
      | some (n, count), _ => some (.numbered n, count + 3)
      | none, some n => some (.numbered n, 5)
      | none, none => some plain
    else some plain

/-- Decode a text after the first `skip` code points, which an escape has taken already. -/
def decodeFrom : Nat → Text → Except EscapeFault Text
  | _, [] => .ok []
  | skip + 1, _ :: rest => decodeFrom skip rest
  | 0, c :: rest =>
    if c = 0x5C then
      match escape? rest with
      | none => return c :: (← decodeFrom 0 rest)
      | some (escape, width) => do
        let head ← escape.value
        return head ++ (← decodeFrom width rest)
    else return c :: (← decodeFrom 0 rest)

/-- The value of what stands between the quotes. -/
def decode (t : Text) : Except EscapeFault Text := decodeFrom 0 t

/-- The value of a literal with its quotes. -/
def value (literal : Text) : Except Error Text := (decode (literal.drop 1).dropLast).mapError .escape

end SchemaTypes.StringLiteral
