import Mathlib.Data.List.Chain
import Mathlib.Data.Nat.Digits.Defs
import SchemaTypes.StringLiteral

/-!
Spellings of strings. Between its quotes a literal is a sequence of pieces, each of which stands for a text of its own: a
code point that is written as it is, one that is written by its number, by a letter or after a backslash, and a line break
that is skipped. Decoding takes exactly one piece at a time, whatever stands before it and after it, so the value of a
literal is what its pieces stand for, one after the other.

The one pair of neighbours that would be read as another piece is a carriage return that is skipped and a line feed after
it. A `Spelling` has no such pair.
-/

namespace SchemaTypes.StringLiteral

/-! ### Pieces -/

/-- A hexadecimal digit. The letters have two cases. -/
structure HexDigit where
  digit : Fin 16
  capital : Bool

def HexDigit.point (d : HexDigit) : CodePoint :=
  if d.digit < 10 then 0x30 + d.digit.castLE (by decide)
  else if d.capital then 0x41 + (d.digit - 10).castLE (by decide)
  else 0x61 + (d.digit - 10).castLE (by decide)

/-- The number that digits stand for, the first of them counting most. -/
def numberOf (digits : List HexDigit) : Nat := Nat.ofDigits 16 (digits.reverse.map (·.digit.val))

/-- The letters that stand for control characters, with the characters. -/
def controls : List (CodePoint × CodePoint) :=
  [(0x6E, 0x0A), (0x74, 0x09), (0x72, 0x0D), (0x62, 0x08), (0x66, 0x0C), (0x76, 0x0B), (0x30, 0x00)]

/-- The letters that start a number, and the code points that start a line break. -/
def openings : List CodePoint := [0x78, 0x75, 0x0A, 0x0D, 0x2028, 0x2029]

inductive LineBreak where
  | lineFeed
  | carriageReturn
  | carriageReturnLineFeed
  | lineSeparator
  | paragraphSeparator

def LineBreak.text : LineBreak → Text
  | lineFeed => [0x0A]
  | carriageReturn => [0x0D]
  | carriageReturnLineFeed => [0x0D, 0x0A]
  | lineSeparator => [0x2028]
  | paragraphSeparator => [0x2029]

/-- A part of a literal that stands for a text of its own. -/
inductive Piece where
  /-- A code point that is written as it is. -/
  | raw (c : CodePoint) (plain : c ≠ 0x5C)
  /-- A number of two digits after `x`. -/
  | short (high low : HexDigit)
  /-- A number of four digits after `u`. -/
  | long (first second third fourth : HexDigit)
  /-- A number of any digits in braces after `u`. -/
  | braced (digits : List HexDigit) (some : digits ≠ [])
  | control (letter c : CodePoint) (known : (letter, c) ∈ controls)
  /-- A code point that stands for itself after a backslash. -/
  | itself (c : CodePoint) (free : c ∉ openings) (plain : c ∉ controls.map Prod.fst)
  /-- A line break that is skipped. -/
  | continuation (lineBreak : LineBreak)

namespace Piece

def spelling : Piece → Text
  | raw c _ => [c]
  | short high low => 0x5C :: 0x78 :: [high, low].map HexDigit.point
  | long first second third fourth => 0x5C :: 0x75 :: [first, second, third, fourth].map HexDigit.point
  | braced digits _ => 0x5C :: 0x75 :: 0x7B :: (digits.map HexDigit.point ++ [0x7D])
  | control letter _ _ => [0x5C, letter]
  | itself c _ _ => [0x5C, c]
  | continuation lineBreak => 0x5C :: lineBreak.text

/-- The text of the code point with a number. -/
def numbered (n : Nat) : Text := (CodePoint.ofNat? n).toList

/-- What a piece stands for. -/
def meaning : Piece → Text
  | raw c _ => [c]
  | short high low => numbered (numberOf [high, low])
  | long first second third fourth => numbered (numberOf [first, second, third, fourth])
  | braced digits _ => numbered (numberOf digits)
  | control _ c _ => [c]
  | itself c _ _ => [c]
  | continuation _ => []

/-- Why a piece stands for nothing: a number in braces may be too large. -/
def fault? : Piece → Option EscapeFault
  | braced digits _ =>
    if numberOf digits ≤ 0x10FFFF then none
    else if numberOf digits ≤ 0x7FFFFFFF then some .aboveUnicode
    else some .aboveInt
  | _ => none

/-- The text that a piece stands for, or why there is none. -/
def outcome (piece : Piece) : Except EscapeFault Text := piece.fault?.elim (.ok piece.meaning) .error

/-- A carriage return that is skipped, and a line feed that would be skipped with it. -/
def Merges : Piece → Piece → Prop
  | continuation .carriageReturn, raw c _ => c = 0x0A
  | _, _ => False

end Piece

/-- What stands between the quotes of a literal, piece by piece. -/
structure Spelling where
  pieces : List Piece
  separate : pieces.IsChain fun piece next => ¬ piece.Merges next

namespace Spelling

def text (s : Spelling) : Text := s.pieces.flatMap Piece.spelling

def meaning (s : Spelling) : Text := s.pieces.flatMap Piece.meaning

/-- The fault of the first piece that has one. -/
def fault? (s : Spelling) : Option EscapeFault := s.pieces.findSome? Piece.fault?

end Spelling

/-! ### Numbers -/

theorem hexValue?_point (d : HexDigit) : hexValue? d.point = some d.digit.val := by
  obtain ⟨digit, capital⟩ := d
  revert digit capital
  decide

theorem hexNumber_eq (digits : List HexDigit) : hexNumber (digits.map (·.digit.val)) = numberOf digits := by
  unfold hexNumber numberOf
  rw [Nat.ofDigits_eq_foldr, List.map_reverse, List.foldr_reverse]
  congr 1
  funext n d
  simp only [Nat.cast_id]
  omega

theorem numberOf_lt (digits : List HexDigit) : numberOf digits < 16 ^ digits.length := by
  have small : ∀ n ∈ digits.reverse.map (·.digit.val), n < 16 := by
    intro n member
    obtain ⟨d, -, rfl⟩ := List.mem_map.mp member
    exact d.digit.isLt
  have bounded := Nat.ofDigits_lt_base_pow_length (by decide : 1 < 16) small
  rwa [List.length_map, List.length_reverse] at bounded

theorem mapM_hexValue? (digits : List HexDigit) :
    (digits.map HexDigit.point).mapM hexValue? = some (digits.map (·.digit.val)) := by
  induction digits with
  | nil => rfl
  | cons d rest ih =>
    rw [List.map_cons, List.mapM_cons, hexValue?_point, ih]
    rfl

theorem filterMap_hexValue? (digits : List HexDigit) :
    (digits.map HexDigit.point).filterMap hexValue? = digits.map (·.digit.val) := by
  induction digits with
  | nil => rfl
  | cons d rest ih => rw [List.map_cons, List.filterMap_cons_some (hexValue?_point d), ih, List.map_cons]

theorem fixedHex?_append (digits : List HexDigit) (rest : Text) :
    fixedHex? digits.length (digits.map HexDigit.point ++ rest) = some (numberOf digits) := by
  have long : ¬ (digits.map HexDigit.point ++ rest).length < digits.length := by
    rw [List.length_append, List.length_map]
    omega
  have front : (digits.map HexDigit.point ++ rest).take digits.length = digits.map HexDigit.point :=
    List.take_left' (List.length_map _)
  rw [fixedHex?, if_neg long, front, mapM_hexValue?, Option.map_some, hexNumber_eq]

/-- The digits in braces end at the closing brace, which is no digit. -/
theorem bracedHex?_append {digits : List HexDigit} (some : digits ≠ []) (rest : Text) :
    bracedHex? (digits.map HexDigit.point ++ 0x7D :: rest) = .some (numberOf digits, digits.length) := by
  have inside : ∀ c ∈ digits.map HexDigit.point, (hexValue? c).isSome = true := by
    intro c member
    obtain ⟨d, -, rfl⟩ := List.mem_map.mp member
    rw [hexValue?_point]
    rfl
  have taken : (digits.map HexDigit.point ++ 0x7D :: rest).takeWhile (hexValue? · |>.isSome) =
      digits.map HexDigit.point := by
    rw [List.takeWhile_append_of_pos inside, List.takeWhile_cons_of_neg (by decide), List.append_nil]
  unfold bracedHex?
  simp only [taken, List.length_map]
  have dropped : (digits.map HexDigit.point ++ 0x7D :: rest).drop digits.length = 0x7D :: rest :=
    List.drop_left' (List.length_map _)
  rw [dropped, filterMap_hexValue?, hexNumber_eq]
  simp [some]

/-! ### One piece -/

/-- What an escape has taken is not looked at again. -/
theorem decodeFrom_append (taken rest : Text) : decodeFrom taken.length (taken ++ rest) = decodeFrom 0 rest := by
  induction taken with
  | nil => rfl
  | cons c taken ih => exact ih

theorem decodeFrom_escape {rest : Text} {escape : Escape} (taken : Text)
    (found : escape? (taken ++ rest) = some (escape, taken.length)) :
    decodeFrom 0 (0x5C :: taken ++ rest) = escape.value >>= fun head => (head ++ ·) <$> decodeFrom 0 rest := by
  rw [List.cons_append, decodeFrom, if_pos rfl, found]
  simp only [decodeFrom_append]
  rfl

theorem point_ne_brace (d : HexDigit) : d.point ≠ 0x7B := by
  intro same
  have read := hexValue?_point d
  rw [same] at read
  cases read

theorem escape?_short {rest : Text} {n : Nat} (read : fixedHex? 2 rest = some n) :
    escape? (0x78 :: rest) = some (.numbered n, 3) := by
  simp [escape?, read]

theorem escape?_long {rest : Text} {n : Nat} (unbraced : rest.head? ≠ some 0x7B) (read : fixedHex? 4 rest = some n) :
    escape? (0x75 :: rest) = some (.numbered n, 5) := by
  simp [escape?, unbraced, read]

theorem escape?_braced {rest : Text} {n count : Nat} (read : bracedHex? rest = some (n, count)) :
    escape? (0x75 :: 0x7B :: rest) = some (.numbered n, count + 3) := by
  simp [escape?, read]

theorem escape?_letter {c : CodePoint} (free : c ∉ openings) (rest : Text) :
    escape? (c :: rest) = some (.literal (simpleEscape c), 1) := by
  simp only [openings, List.mem_cons, List.not_mem_nil, or_false, not_or] at free
  simp [escape?, free]

theorem escape?_carriageReturn {rest : Text} (alone : rest.head? ≠ some 0x0A) :
    escape? (0x0D :: rest) = some (.continuation, 1) := by
  simp [escape?, alone]

theorem simpleEscape_of_known {letter c : CodePoint} (known : (letter, c) ∈ controls) : simpleEscape letter = c := by
  have each : controls.all (fun entry => simpleEscape entry.1 = entry.2) = true := by decide
  exact of_decide_eq_true (List.all_eq_true.mp each (letter, c) known)

theorem not_mem_openings_of_known {letter c : CodePoint} (known : (letter, c) ∈ controls) : letter ∉ openings := by
  have each : controls.all (fun entry => openings.all fun opening => opening ≠ entry.1) = true := by decide
  have different := List.all_eq_true.mp (List.all_eq_true.mp each (letter, c) known)
  exact fun member => of_decide_eq_true (different letter member) rfl

theorem simpleEscape_of_plain {c : CodePoint} (plain : c ∉ controls.map Prod.fst) : simpleEscape c = c := by
  simp only [controls, List.map_cons, List.map_nil, List.mem_cons, List.not_mem_nil, or_false, not_or] at plain
  simp [simpleEscape, plain]

theorem value_numbered {n : Nat} (small : n ≤ 0x10FFFF) : (Escape.numbered n).value = .ok (Piece.numbered n) := by
  have point : CodePoint.ofNat? n = some ⟨n, by omega⟩ := dif_pos (by omega)
  simp only [Escape.value, Piece.numbered, point, Option.toList_some]

theorem value_numbered_large {n : Nat} (large : 0x10FFFF < n) :
    (Escape.numbered n).value = .error (if n ≤ 0x7FFFFFFF then .aboveUnicode else .aboveInt) := by
  have none : CodePoint.ofNat? n = none := dif_neg (by omega)
  simp only [Escape.value, none]

namespace Piece

theorem outcome_short (high low : HexDigit) :
    (short high low).outcome = (Escape.numbered (numberOf [high, low])).value := by
  have small : numberOf [high, low] < 16 ^ 2 := numberOf_lt [high, low]
  rw [value_numbered (by omega)]
  rfl

theorem outcome_long (first second third fourth : HexDigit) :
    (long first second third fourth).outcome = (Escape.numbered (numberOf [first, second, third, fourth])).value := by
  have small : numberOf [first, second, third, fourth] < 16 ^ 4 := numberOf_lt [first, second, third, fourth]
  rw [value_numbered (by omega)]
  rfl

theorem outcome_braced (digits : List HexDigit) (some : digits ≠ []) :
    (braced digits some).outcome = (Escape.numbered (numberOf digits)).value := by
  by_cases small : numberOf digits ≤ 0x10FFFF
  · rw [value_numbered small]
    simp [outcome, fault?, meaning, small]
  · rw [value_numbered_large (by omega)]
    simp only [outcome, fault?, if_neg small]
    split <;> rfl

/-- A piece at the start of a text is decoded to what it stands for, and what follows is decoded on its own. -/
theorem decodeFrom_spelling (piece : Piece) (rest : Text)
    (separate : piece = continuation .carriageReturn → rest.head? ≠ some 0x0A) :
    decodeFrom 0 (piece.spelling ++ rest) = piece.outcome >>= fun head => (head ++ ·) <$> decodeFrom 0 rest := by
  cases piece with
  | raw c plain =>
    simp only [spelling, List.cons_append, List.nil_append]
    rw [decodeFrom, if_neg plain]
    rfl
  | short high low =>
    have read := fixedHex?_append [high, low] rest
    rw [outcome_short]
    exact decodeFrom_escape (0x78 :: [high, low].map HexDigit.point) (escape?_short read)
  | long first second third fourth =>
    have read := fixedHex?_append [first, second, third, fourth] rest
    have unbraced : ([first, second, third, fourth].map HexDigit.point ++ rest).head? ≠ some 0x7B :=
      fun same => point_ne_brace first (Option.some.inj same)
    rw [outcome_long]
    exact decodeFrom_escape (0x75 :: [first, second, third, fourth].map HexDigit.point) (escape?_long unbraced read)
  | braced digits some =>
    have found := escape?_braced (bracedHex?_append some rest)
    rw [outcome_braced]
    refine decodeFrom_escape (0x75 :: 0x7B :: (digits.map HexDigit.point ++ [0x7D])) ?_
    simpa using found
  | control letter c known =>
    have found := escape?_letter (not_mem_openings_of_known known) rest
    rw [simpleEscape_of_known known] at found
    exact decodeFrom_escape [letter] found
  | itself c free plain =>
    have found := escape?_letter free rest
    rw [simpleEscape_of_plain plain] at found
    exact decodeFrom_escape [c] found
  | continuation lineBreak =>
    have found : escape? (lineBreak.text ++ rest) = some (.continuation, lineBreak.text.length) := by
      cases lineBreak with
      | carriageReturn => exact escape?_carriageReturn (separate rfl)
      | _ => rfl
    exact decodeFrom_escape lineBreak.text found

/-- A line feed at the start of a piece is the whole of it. -/
theorem eq_raw_of_head? {piece : Piece} {rest : Text} (feed : (piece.spelling ++ rest).head? = some 0x0A) :
    ∃ plain, piece = raw 0x0A plain := by
  cases piece with
  | raw c plain =>
    obtain rfl : c = 0x0A := Option.some.inj feed
    exact ⟨plain, rfl⟩
  | _ => exact absurd (Option.some.inj feed) (by decide)

end Piece

/-! ### Sequences of pieces -/

/-- Pieces are decoded one by one, up to the first that stands for nothing. -/
theorem decodeFrom_pieces {pieces : List Piece} (separate : pieces.IsChain fun piece next => ¬ piece.Merges next) :
    decodeFrom 0 (pieces.flatMap Piece.spelling) =
      (pieces.findSome? Piece.fault?).elim (.ok (pieces.flatMap Piece.meaning)) .error := by
  induction pieces with
  | nil => rfl
  | cons piece rest ih =>
    have alone : piece = .continuation .carriageReturn → (rest.flatMap Piece.spelling).head? ≠ some 0x0A := by
      rintro rfl feed
      cases rest with
      | nil => cases feed
      | cons next further =>
        obtain ⟨plain, rfl⟩ := Piece.eq_raw_of_head? feed
        exact (List.isChain_cons_cons.mp separate).1 rfl
    rw [List.flatMap_cons, piece.decodeFrom_spelling _ alone, ih separate.tail, List.findSome?_cons, List.flatMap_cons,
      Piece.outcome]
    cases piece.fault? with
    | some fault => rfl
    | none => cases rest.findSome? Piece.fault? <;> rfl

/-- The value of a literal is what its pieces stand for, one after the other. If a number in braces is too large, there is
no value, and the first such number decides why. -/
theorem value_spelling (opening closing : CodePoint) (s : Spelling) :
    value (opening :: (s.text ++ [closing])) = s.fault?.elim (.ok s.meaning) fun fault => .error (.escape fault) := by
  have inside : ((opening :: (s.text ++ [closing])).drop 1).dropLast = s.text := List.dropLast_concat
  rw [value, inside, decode, Spelling.text, decodeFrom_pieces s.separate, Spelling.fault?, Spelling.meaning]
  cases s.pieces.findSome? Piece.fault? <;> rfl

end SchemaTypes.StringLiteral
