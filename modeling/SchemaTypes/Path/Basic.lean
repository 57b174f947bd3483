import SchemaTypes.Text.Basic

/-!
Slash-separated paths. Parsing drops empty and `.` components and keeps `..`; a path that starts with exactly two
slashes has a root of its own.
-/

namespace SchemaTypes

inductive Root where
  | relative
  | slash
  | doubleSlash
  deriving DecidableEq, Repr

structure Path where
  root : Root
  parts : List Text
  deriving DecidableEq, Repr

namespace Root

def text : Root → Text
  | relative => []
  | slash => "/"
  | doubleSlash => "//"

/-- The root a text starts with: three slashes or more are one. -/
def of (t : Text) : Root :=
  match (t.takeWhile (· = 0x2F)).length with
  | 0 => relative
  | 2 => doubleSlash
  | _ => slash

end Root

namespace Path

/-- The components of a text between its slashes, without empty ones and dots. -/
def components (t : Text) : List Text :=
  (Text.splitOn 0x2F t).filter fun part => !part.isEmpty && part != [0x2E]

def ofText (t : Text) : Path := ⟨Root.of t, components t⟩

def isAbsolute (p : Path) : Bool := p.root ≠ .relative

/-- The text of a path; the empty relative path is a dot. -/
def toText (p : Path) : Text :=
  if p.root = .relative && p.parts.isEmpty then "." else p.root.text ++ Text.join "/" p.parts

/-- The last component, empty for a root and for the empty relative path. -/
def name (p : Path) : Text := p.parts.getLast?.getD []

def parent (p : Path) : Path := { p with parts := p.parts.dropLast }

def withName (p : Path) (name : Text) : Path := { p with parts := p.parts.dropLast ++ [name] }

/-- The part of a file name from its last dot on. A dot at either end of the name starts no suffix. -/
def suffixOf (name : Text) : Text :=
  let tail := name.reverse.takeWhile (· ≠ 0x2E)
  if tail.length = 0 || tail.length + 1 ≥ name.length then [] else name.drop (name.length - tail.length - 1)

def suffix (p : Path) : Text := suffixOf p.name

/-- Two path texts one after the other; an absolute one drops what stands before it. -/
def joinText (base next : Text) : Text :=
  if next.head? = some 0x2F then next
  else if base.isEmpty || base.getLast? = some 0x2F then base ++ next
  else base ++ "/" ++ next

/-- One component put on a normalised absolute path, innermost component first. -/
def normalStep (parts : List Text) (part : Text) : List Text :=
  if part = ([0x2E, 0x2E] : Text) then parts.tail else part :: parts

/-- The components of an absolute path with every `..` carried out; at the root it changes nothing. -/
def normalParts (parts : List Text) : List Text := (parts.foldl normalStep []).reverse

/-- An absolute path text in normal form. -/
def normalized (t : Text) : Path := ⟨Root.of t, normalParts (components t)⟩

end Path
end SchemaTypes
