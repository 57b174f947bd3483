import SchemaTypes.Syntax.Input

/-!
Where a statement may end without a semicolon. The rule looks at the rest of the line and at the first token of the
lines after it. Comments on the rest of the line belong to the statement: the end is found after them.
-/

namespace SchemaTypes.Syntax

/-- What the grammar would accept in place of the end of the statement. -/
structure Continuation where
  /-- An operand has just ended, so a binary operator could follow. -/
  operator : Bool := false
  /-- A function head has just ended, so a body could follow. -/
  body : Bool := false

namespace Input

/-- Past white space and comments, unless a slash that starts no comment is met. -/
def skipToToken? (s : Input) (i : Nat) : Option Nat :=
  let j := s.skipTrivia i
  if s.byte j == ascii '/' then none else some j

/-- Whether a token on a new line leaves the statement before it ended. -/
def startsStatement (s : Input) (next : Continuation) (i : Nat) : Bool :=
  let b := s.byte i
  let c := s.byte (i + 1)
  let isAlpha (b : UInt8) : Bool := isLetter b || b ≥ 0x80
  if b == 0x60 || (".,:;*%><=?^|&/".toList.any (ascii · == b)) then false
  else if b == 0x7B then !next.body
  else if b == 0x28 || b == ascii '[' then !next.operator
  else if b == ascii '+' then c == ascii '+'
  else if b == ascii '-' then c == ascii '-'
  else if b == ascii '!' then c != ascii '='
  else if b == ascii 'i' && c == ascii 'n' then
    isAlpha (s.byte (i + 2)) && !(s.spells "stanceof" (i + 2) && !isAlpha (s.byte (i + 10)))
  else true

/-- Whether the statement may end exactly at an offset. -/
def endsStatement (s : Input) (next : Continuation) (i : Nat) : Bool :=
  go (s.size - i + 1) i
where
  go : Nat → Nat → Bool
    | 0, _ => false
    | fuel + 1, i =>
      if i ≥ s.size then true
      else if s.byte i == 0x7D then
        if s.byte (s.skipSpace (i + 1)) == ascii ':' then next.operator else true
      else if s.spaceWidth i = 0 then false
      else if s.byte i == 0x0A then
        match s.skipToToken? (i + 1) with
        | some j => s.startsStatement next j
        | none => false
      else go fuel (i + s.spaceWidth i)

/-- The offset at which the statement ends without a semicolon, past the comments on its last line. -/
def implicitEnd? (s : Input) (next : Continuation) (i : Nat) : Option Nat :=
  go (s.size - i + 1) i
where
  go : Nat → Nat → Option Nat
    | 0, _ => none
    | fuel + 1, i =>
      if s.endsStatement next i then some i
      else match s.commentEnd? (s.skipSpace i) with
        | some j => go fuel j
        | none => none

end Input
end SchemaTypes.Syntax
