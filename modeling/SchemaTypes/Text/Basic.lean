/-!
Text as a list of code points. A decoded string literal may hold a lone surrogate, which no `Char` can
represent, so every text that can reach an answer is kept in this form.
-/

namespace SchemaTypes

/-- A Unicode code point, surrogates included. -/
abbrev CodePoint := Fin 0x110000

/-- A text is its code points in order. -/
abbrev Text := List CodePoint

/-- Numerals stand for the code points they count to. -/
instance (n : Nat) : OfNat CodePoint n := ⟨⟨n % 0x110000, Nat.mod_lt n (by decide)⟩⟩

namespace CodePoint

def ofChar (c : Char) : CodePoint :=
  ⟨c.toNat, by
    have h := c.valid
    simp only [UInt32.isValidChar, Nat.isValidChar] at h
    simp only [Char.toNat]
    omega⟩

def isSurrogate (c : CodePoint) : Bool := 0xD800 ≤ c.val && c.val ≤ 0xDFFF

/-- The code point of a number, if it is one. -/
def ofNat? (n : Nat) : Option CodePoint :=
  if h : n < 0x110000 then some ⟨n, h⟩ else none

/-- The character with this code point; there is none for a surrogate. -/
def toChar? (c : CodePoint) : Option Char :=
  if h : c.val.isValidChar then some (Char.ofNatAux c.val h) else none

end CodePoint

namespace Text

def ofString (s : String) : Text := s.toList.map CodePoint.ofChar

instance : Coe String Text := ⟨ofString⟩

/-- The text as a string, unless it holds a surrogate. -/
def toString? (t : Text) : Option String := (t.mapM CodePoint.toChar?).map String.ofList

def hasSurrogate (t : Text) : Bool := t.any CodePoint.isSurrogate

/-- Pieces with a separator between each two of them. -/
def join (separator : Text) : List Text → Text
  | [] => []
  | [t] => t
  | t :: rest => t ++ separator ++ join separator rest

/-- The pieces of a text between the occurrences of one code point; there is always at least one piece. -/
def splitOn (c : CodePoint) : Text → List Text
  | [] => [[]]
  | x :: rest =>
    if x = c then [] :: splitOn c rest
    else match splitOn c rest with
      | [] => [[x]]
      | piece :: pieces => (x :: piece) :: pieces

/-- What is left of a text after a given start. -/
def dropStart? : Text → Text → Option Text
  | [], t => some t
  | _ :: _, [] => none
  | p :: ps, x :: rest => if p = x then dropStart? ps rest else none

/-- What is left of a text before a given end. -/
def dropEnd? (ending t : Text) : Option Text :=
  (dropStart? ending.reverse t.reverse).map List.reverse

def startsWith (start t : Text) : Bool := (dropStart? start t).isSome

def ofNat (n : Nat) : Text := ofString (toString n)

/-- The lower-case hexadecimal digits of a number, padded with zeros to a width. -/
def hex (width n : Nat) : Text :=
  let digits := Nat.toDigits 16 n
  ofString (String.ofList (List.replicate (width - digits.length) '0' ++ digits))

/-- Lexicographic order by code point. -/
def le : Text → Text → Bool
  | [], _ => true
  | _ :: _, [] => false
  | a :: s, b :: t => a < b || (a = b && le s t)

end Text
end SchemaTypes
