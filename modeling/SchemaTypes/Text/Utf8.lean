import SchemaTypes.Text.Basic

/-!
UTF-8. Decoding is strict: it refuses overlong forms, surrogates and values above U+10FFFF, and reports the
first ill-formed run of bytes. Encoding refuses surrogates.
-/

namespace SchemaTypes.Utf8

inductive Reason where
  | badStart
  | badContinuation
  | truncated
  deriving DecidableEq, Repr

/-- An ill-formed run of `length` bytes at `position`, whose first byte is `byte`. -/
structure Fault where
  position : Nat
  length : Nat
  byte : UInt8
  reason : Reason
  deriving DecidableEq, Repr

def isContinuation (b : UInt8) : Bool := 0x80 ≤ b && b < 0xC0

/-- The bytes that may follow a lead byte directly: fewer than all continuation bytes for the leads of overlong
forms, of surrogates and of values above U+10FFFF. -/
def isSecond (lead b : UInt8) : Bool :=
  isContinuation b &&
    (lead != 0xE0 || 0xA0 ≤ b) && (lead != 0xED || b < 0xA0) &&
    (lead != 0xF0 || 0x90 ≤ b) && (lead != 0xF4 || b < 0x90)

/-- The payload bits of a sequence as one number. -/
def combine (lead mask : UInt8) (rest : List UInt8) : Nat :=
  rest.foldl (fun n b => n * 64 + (b &&& 0x3F).toNat) (lead &&& mask).toNat

/-- A code point from a well-formed sequence, whose payload is never too large for one. -/
def point (lead mask : UInt8) (rest : List UInt8) : CodePoint :=
  (CodePoint.ofNat? (combine lead mask rest)).getD 0xFFFD

/-- Decode from a given byte position on. -/
def decodeFrom (position : Nat) : List UInt8 → Except Fault Text
  | [] => .ok []
  | a :: rest =>
    let fault (length : Nat) (reason : Reason) : Except Fault Text := .error ⟨position, length, a, reason⟩
    if a < 0x80 then do
      return point a 0x7F [] :: (← decodeFrom (position + 1) rest)
    else if a < 0xC2 then fault 1 .badStart
    else if a < 0xE0 then
      match rest with
      | [] => fault 1 .truncated
      | b :: rest => do
        if !isContinuation b then fault 1 .badContinuation
        else return point a 0x1F [b] :: (← decodeFrom (position + 2) rest)
    else if a < 0xF0 then
      match rest with
      | [] => fault 1 .truncated
      | [b] => if isSecond a b then fault 2 .truncated else fault 1 .badContinuation
      | b :: c :: rest => do
        if !isSecond a b then fault 1 .badContinuation
        else if !isContinuation c then fault 2 .badContinuation
        else return point a 0x0F [b, c] :: (← decodeFrom (position + 3) rest)
    else if a < 0xF5 then
      match rest with
      | [] => fault 1 .truncated
      | [b] => if isSecond a b then fault 2 .truncated else fault 1 .badContinuation
      | [b, c] =>
        if !isSecond a b then fault 1 .badContinuation
        else if !isContinuation c then fault 2 .badContinuation
        else fault 3 .truncated
      | b :: c :: d :: rest => do
        if !isSecond a b then fault 1 .badContinuation
        else if !isContinuation c then fault 2 .badContinuation
        else if !isContinuation d then fault 3 .badContinuation
        else return point a 0x07 [b, c, d] :: (← decodeFrom (position + 4) rest)
    else fault 1 .badStart

def decode (bytes : List UInt8) : Except Fault Text := decodeFrom 0 bytes

/-- The bytes of one code point, by the size of its value. -/
def encodePoint (c : CodePoint) : List UInt8 :=
  let n := c.val
  let tail (m : Nat) : UInt8 := (0x80 + m % 64).toUInt8
  if n < 0x80 then [n.toUInt8]
  else if n < 0x800 then [(0xC0 + n / 0x40).toUInt8, tail n]
  else if n < 0x10000 then [(0xE0 + n / 0x1000).toUInt8, tail (n / 0x40), tail n]
  else [(0xF0 + n / 0x40000).toUInt8, tail (n / 0x1000), tail (n / 0x40), tail n]

/-- A run of `length` surrogates at `position`, the first of them `first`. -/
structure Unencodable where
  position : Nat
  length : Nat
  first : CodePoint
  deriving DecidableEq, Repr

/-- The first run of surrogates in a text. -/
def firstSurrogates? (t : Text) : Option Unencodable :=
  let before := t.takeWhile (!·.isSurrogate)
  match t.drop before.length with
  | [] => none
  | c :: rest => some ⟨before.length, 1 + (rest.takeWhile CodePoint.isSurrogate).length, c⟩

def encode (t : Text) : Except Unencodable (List UInt8) :=
  match firstSurrogates? t with
  | some run => .error run
  | none => .ok (t.flatMap encodePoint)

end SchemaTypes.Utf8
