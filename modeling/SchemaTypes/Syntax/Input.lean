import SchemaTypes.Syntax.Kind

/-!
Scanning over the bytes of a source. Each scanner takes a byte offset and answers with another; past the end every
byte reads as zero. Delimiters are ASCII, so ill-formed UTF-8 inside a comment or a literal is stepped over byte by
byte.
-/

namespace SchemaTypes.Syntax

structure Input where
  bytes : ByteArray
  dialect : Dialect

/-- The byte of an ASCII character. -/
def ascii (c : Char) : UInt8 := c.toNat.toUInt8

namespace Input

def size (s : Input) : Nat := s.bytes.size

def byte (s : Input) (i : Nat) : UInt8 :=
  if h : i < s.bytes.size then s.bytes[i] else 0

/-- Whether an ASCII spelling stands at an offset. -/
def spells (s : Input) (spelling : String) (i : Nat) : Bool :=
  go spelling.toList i
where
  go : List Char → Nat → Bool
    | [], _ => true
    | c :: rest, i => s.byte i == ascii c && go rest (i + 1)

/-- The first offset from `i` on at which a condition holds, or the end of the input. -/
def find (s : Input) (condition : Nat → Bool) (i : Nat) : Nat :=
  go (s.size - i) i
where
  go : Nat → Nat → Nat
    | 0, i => i
    | fuel + 1, i => if condition i then i else go fuel (i + 1)

/-- The code point at an offset with its width in bytes. An ill-formed byte has width one and no code point. -/
def point (s : Input) (i : Nat) : Option Nat × Nat :=
  let a := (s.byte i).toNat
  let tail (k : Nat) : Option Nat :=
    let b := (s.byte (i + k)).toNat
    if 0x80 ≤ b && b < 0xC0 then some (b - 0x80) else none
  if a < 0x80 then (some a, 1)
  else if a < 0xE0 then
    match tail 1 with
    | some b => (some ((a - 0xC0) * 64 + b), 2)
    | none => (none, 1)
  else if a < 0xF0 then
    match tail 1, tail 2 with
    | some b, some c => (some (((a - 0xE0) * 64 + b) * 64 + c), 3)
    | _, _ => (none, 1)
  else
    match tail 1, tail 2, tail 3 with
    | some b, some c, some d => (some ((((a - 0xF0) * 64 + b) * 64 + c) * 64 + d), 4)
    | _, _, _ => (none, 1)

def isLineBreak (n : Nat) : Bool := n = 0x0A || n = 0x0D || n = 0x2028 || n = 0x2029

/-- White space between tokens: the Unicode white space together with the byte order mark, the word joiner and the
zero-width space. -/
def isSpace (n : Nat) : Bool :=
  (0x09 ≤ n && n ≤ 0x0D) || n = 0x20 || n = 0x85 || n = 0xA0 || n = 0x1680 || (0x2000 ≤ n && n ≤ 0x200B) ||
  n = 0x2028 || n = 0x2029 || n = 0x202F || n = 0x205F || n = 0x2060 || n = 0x3000 || n = 0xFEFF

/-- The width of the white space character at an offset, zero if there is none. -/
def spaceWidth (s : Input) (i : Nat) : Nat :=
  match s.point i with
  | (some n, width) => if isSpace n then width else 0
  | (none, _) => 0

def isLineBreakAt (s : Input) (i : Nat) : Bool :=
  match s.point i with
  | (some n, _) => isLineBreak n
  | (none, _) => false

/-- The end of the comment that starts at an offset. -/
def commentEnd? (s : Input) (i : Nat) : Option Nat :=
  if s.spells "//" i then some (s.find s.isLineBreakAt i)
  else if s.spells "/*" i then some (min s.size (s.find (s.spells "*/") (i + 2) + 2))
  else none

/-- Past the white space at an offset. -/
def skipSpace (s : Input) (i : Nat) : Nat :=
  go (s.size - i) i
where
  go : Nat → Nat → Nat
    | 0, i => i
    | fuel + 1, i =>
      let width := s.spaceWidth i
      if width = 0 then i else go fuel (i + width)

/-- Past the white space and the comments at an offset. -/
def skipTrivia (s : Input) (i : Nat) : Nat :=
  go (s.size - i) i
where
  go : Nat → Nat → Nat
    | 0, i => i
    | fuel + 1, i =>
      let j := s.skipSpace i
      match s.commentEnd? j with
      | some k => go fuel k
      | none => j

/-- Whether a line ends between two offsets. -/
def breaksLine (s : Input) (i j : Nat) : Bool := s.find s.isLineBreakAt i < j

def isDigit (b : UInt8) : Bool := ascii '0' ≤ b && b ≤ ascii '9'

def isLetter (b : UInt8) : Bool :=
  (ascii 'a' ≤ b && b ≤ ascii 'z') || (ascii 'A' ≤ b && b ≤ ascii 'Z')

def isHexDigit (b : UInt8) : Bool :=
  isDigit b || (ascii 'a' ≤ b && b ≤ ascii 'f') || (ascii 'A' ≤ b && b ≤ ascii 'F')

/-- The width of the escape `\uHHHH` or `\u{H…}` at an offset, zero if there is none. -/
def escapeWidth (s : Input) (i : Nat) : Nat :=
  if !s.spells "\\u" i then 0
  else if s.byte (i + 2) == 0x7B then
    let j := s.find (fun k => !isHexDigit (s.byte k)) (i + 3)
    if s.byte j == 0x7D then j + 1 - i else 0
  else if (List.range 4).all fun k => isHexDigit (s.byte (i + 2 + k)) then 6
  else 0

/-- The width of the character that starts (or continues) an identifier at an offset, zero if there is none. Any
character outside ASCII that is not white space is one. -/
def identifierWidth (s : Input) (first : Bool) (i : Nat) : Nat :=
  let b := s.byte i
  if b < 0x80 then
    if isLetter b || b == ascii '_' || b == ascii '$' || (!first && isDigit b) then 1
    else if b == ascii '\\' then s.escapeWidth i
    else 0
  else match s.point i with
    | (some n, width) => if isSpace n then 0 else width
    | (none, _) => 0

/-- The end of the identifier or keyword that starts at an offset. -/
def wordEnd? (s : Input) (i : Nat) : Option Nat :=
  match s.identifierWidth true i with
  | 0 => none
  | width + 1 => some (go (s.size - i) (i + width + 1))
where
  go : Nat → Nat → Nat
    | 0, i => i
    | fuel + 1, i =>
      let width := s.identifierWidth false i
      if width = 0 then i else go fuel (i + width)

/-- The word at an offset, empty if there is none. Bytes outside ASCII stand for themselves, which is enough to tell
keywords from other words. -/
def word (s : Input) (i : Nat) : String :=
  match s.wordEnd? i with
  | some j => String.ofList ((s.bytes.extract i j).toList.map fun b => Char.ofNat b.toNat)
  | none => ""

/-- The end of the string literal that starts at an offset. A backslash takes the next byte with it. -/
def stringEnd? (s : Input) (i : Nat) : Option Nat :=
  let mark := s.byte i
  if mark == 0x22 || mark == 0x27 then go mark (s.size - i) (i + 1) else none
where
  go (mark : UInt8) : Nat → Nat → Option Nat
    | 0, _ => none
    | fuel + 1, i =>
      if i ≥ s.size then none
      else if s.byte i == mark then some (i + 1)
      else if s.byte i == ascii '\\' then go mark fuel (i + 2)
      else go mark fuel (i + 1)

def digitsEnd (s : Input) (isOne : UInt8 → Bool) (i : Nat) : Nat :=
  s.find (fun k => !(isOne (s.byte k) || s.byte k == ascii '_')) i

/-- The end of the number literal that starts at an offset. -/
def numberEnd? (s : Input) (i : Nat) : Option Nat :=
  let suffixed (j : Nat) : Nat := if s.byte j == ascii 'n' then j + 1 else j
  let exponent (j : Nat) : Nat :=
    if s.byte j == ascii 'e' || s.byte j == ascii 'E' then
      let k := if s.byte (j + 1) == ascii '+' || s.byte (j + 1) == ascii '-' then j + 2 else j + 1
      if isDigit (s.byte k) then s.digitsEnd isDigit k else j
    else j
  let radix := s.byte (i + 1) ||| 0x20
  if s.byte i == ascii '0' && (radix == ascii 'x' || radix == ascii 'b' || radix == ascii 'o') then
    some (suffixed (s.digitsEnd isHexDigit (i + 2)))
  else if isDigit (s.byte i) then
    let whole := s.digitsEnd isDigit i
    if s.byte whole == ascii 'n' then some (whole + 1)
    else if s.byte whole == ascii '.' then some (exponent (s.digitsEnd isDigit (whole + 1)))
    else some (exponent whole)
  else if s.byte i == ascii '.' && isDigit (s.byte (i + 1)) then
    some (exponent (s.digitsEnd isDigit (i + 1)))
  else none

/-- The end of the regular expression literal that starts at an offset. -/
def regexEnd? (s : Input) (i : Nat) : Option Nat :=
  if s.byte i == ascii '/' then go (s.size - i) false (i + 1) else none
where
  go : Nat → Bool → Nat → Option Nat
    | 0, _, _ => none
    | fuel + 1, inClass, i =>
      let b := s.byte i
      if i ≥ s.size || b == 0x0A then none
      else if b == ascii '\\' then go fuel inClass (i + 2)
      else if b == ascii '[' then go fuel true (i + 1)
      else if b == ascii ']' then go fuel false (i + 1)
      else if b == ascii '/' && !inClass then some (s.find (fun k => !isLetter (s.byte k)) (i + 1))
      else go fuel inClass (i + 1)

/-- The end of a run of template text: the closing mark or the start of a substitution. -/
def templateTextEnd (s : Input) (i : Nat) : Nat :=
  go (s.size - i) i
where
  go : Nat → Nat → Nat
    | 0, i => min i s.size
    | fuel + 1, i =>
      if i ≥ s.size then s.size
      else if s.byte i == 0x60 then i
      else if s.byte i == ascii '$' && s.byte (i + 1) == 0x7B then i
      else if s.byte i == ascii '\\' then go fuel (i + 2)
      else go fuel (i + 1)

/-- The end of the bracketed run that starts at an offset, by counting brackets outside comments and literals. A slash
after an operand counts as a division. -/
def closing? (s : Input) (i : Nat) : Option Nat :=
  go (s.size - i) [] 0x28 i
where
  isOperandEnd (b : UInt8) : Bool :=
    isLetter b || isDigit b || b == ascii '_' || b == ascii '$' || b ≥ 0x80 ||
    b == 0x29 || b == ascii ']' || b == 0x7D || b == 0x22 || b == 0x27 || b == 0x60
  /-- Carries the closing marks still awaited, innermost first, and the last byte outside trivia. -/
  go : Nat → List UInt8 → UInt8 → Nat → Option Nat
    | 0, _, _, _ => none
    | fuel + 1, awaited, before, i =>
      if awaited.head? == some 0x60 then
        let j := s.templateTextEnd i
        if s.byte j == 0x60 then go fuel awaited.tail 0x60 (j + 1)
        else if s.byte j == ascii '$' then go fuel (0x7D :: awaited) 0x7B (j + 2)
        else none
      else
        let i := s.skipTrivia i
        let b := s.byte i
        let close := awaited.head? == some b
        if i ≥ s.size then none
        else if close then
          if awaited.tail.isEmpty then some (i + 1) else go fuel awaited.tail b (i + 1)
        else if b == 0x28 then go fuel (0x29 :: awaited) b (i + 1)
        else if b == ascii '[' then go fuel (ascii ']' :: awaited) b (i + 1)
        else if b == 0x7B then go fuel (0x7D :: awaited) b (i + 1)
        else if b == 0x60 then go fuel (0x60 :: awaited) b (i + 1)
        else if b == 0x29 || b == ascii ']' || b == 0x7D then none
        else if b == 0x22 || b == 0x27 then
          match s.stringEnd? i with
          | some j => go fuel awaited b j
          | none => none
        else if b == ascii '/' && !isOperandEnd before then
          match s.regexEnd? i with
          | some j => go fuel awaited 0x29 j
          | none => go fuel awaited b (i + 1)
        else go fuel awaited b (i + 1)

end Input
end SchemaTypes.Syntax
