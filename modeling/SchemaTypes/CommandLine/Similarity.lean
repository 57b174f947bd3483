import SchemaTypes.Text.Basic

/-!
How alike two texts are, by the matching blocks they share: the longest common block, then those to its left and to its
right. Used to suggest a command for a mistyped one.
-/

namespace SchemaTypes.Similarity

/-- How long a common start two texts have. -/
def commonStart : Text → Text → Nat
  | a :: s, b :: t => if a = b then commonStart s t + 1 else 0
  | _, _ => 0

/-- A block that stands at one place in a text and at another place in a second one. -/
structure Block where
  first : Nat
  second : Nat
  size : Nat

/-- The longest common block; of several, the one that starts earliest in the first text, then in the second. -/
def longestBlock (s t : Text) : Block :=
  let candidates := (List.range s.length).flatMap fun i =>
    (List.range t.length).map fun j => Block.mk i j (commonStart (s.drop i) (t.drop j))
  candidates.foldl (fun best b => if best.size < b.size then b else best) ⟨0, 0, 0⟩

/-- How many code points lie in matching blocks, for blocks nested up to a depth. -/
def matched : Nat → Text → Text → Nat
  | 0, _, _ => 0
  | depth + 1, s, t =>
    let b := longestBlock s t
    if b.size = 0 then 0
    else b.size + matched depth (s.take b.first) (t.take b.second) +
      matched depth (s.drop (b.first + b.size)) (t.drop (b.second + b.size))

/-- Twice the matched part over the whole, as numerator and denominator. -/
def ratio (s t : Text) : Nat × Nat := (2 * matched (s.length + 1) s t, s.length + t.length)

/-- At least six tenths of the two texts match. -/
def isClose (s t : Text) : Bool := let (part, whole) := ratio s t; 6 * whole ≤ 10 * part

/-- The candidates that are close to a text, the closest first, and the later of two names where they are equally
close. -/
def closest (t : Text) (candidates : List Text) : List Text :=
  let before (a b : Text) : Bool :=
    let (p, q) := ratio a t
    let (r, s) := ratio b t
    if p * s = r * q then b.le a else r * q < p * s
  (candidates.filter (isClose · t)).mergeSort before

end SchemaTypes.Similarity
