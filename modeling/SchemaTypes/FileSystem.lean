import SchemaTypes.Error
import SchemaTypes.OrderedMap

/-!
A file system as a value: files and directories by location. Paths are walked component by component, so a missing
directory before `..` is noticed.
-/

namespace SchemaTypes

/-- The components from the root down. -/
abbrev Location := List Text

inductive Entry where
  | file (bytes : ByteArray)
  | directory

def Entry.isFile : Entry → Bool
  | file _ => true
  | directory => false

/-- Entries by location. The root is always a directory. -/
structure FileSystem where
  entries : OrderedMap Location Entry

namespace FileSystem

def empty : FileSystem := ⟨.empty⟩

def lookup (fs : FileSystem) (location : Location) : Option Entry :=
  if location.isEmpty then some .directory else fs.entries.get? location

/-- The location that components lead to from another one. All but the last have to be directories. -/
def walk (fs : FileSystem) : Location → List Text → Except AccessFault Location
  | location, [] => .ok location
  | location, part :: rest =>
    match fs.lookup location with
    | none => .error .notFound
    | some (.file _) => .error .notDirectory
    | some .directory =>
      fs.walk (if part = ([0x2E, 0x2E] : Text) then location.dropLast else location ++ [part]) rest

/-- The location of a path seen from a working directory. -/
def locate (fs : FileSystem) (cwd : Location) (path : Path) : Except AccessFault Location :=
  fs.walk (if path.isAbsolute then [] else cwd) path.parts

def entry? (fs : FileSystem) (cwd : Location) (path : Path) : Option Entry :=
  match fs.locate cwd path with
  | .ok location => fs.lookup location
  | .error _ => none

/-- Surrogates that stand for raw bytes in a path. -/
def isEscapedByte (c : CodePoint) : Bool := 0xDC80 ≤ c.val && c.val ≤ 0xDCFF

/-- The first run of surrogates in a path that cannot be written as bytes. -/
def unencodable? (path : Path) : Option Utf8.Unencodable :=
  Utf8.firstSurrogates? (path.toText.map fun c => if isEscapedByte c then 0x3F else c)

/-- Why a path cannot be handed to the operating system at all: it cannot be written as bytes, or it would end early. -/
def refusal? (path : Path) : Option Error :=
  match unencodable? path with
  | some run => some (.unencodable run)
  | none => if 0 ∈ path.toText then some .embeddedNull else none

/-- Whether a path leads to anything. Faults of the operating system for which one cannot tell, such as a name that is too
long or a directory that may not be searched, are left out. -/
def exists? (fs : FileSystem) (cwd : Location) (path : Path) : Bool :=
  (refusal? path).isNone && (fs.entry? cwd path).isSome

def read (fs : FileSystem) (cwd : Location) (path : Path) : Except Error ByteArray := do
  if let some e := refusal? path then throw e
  match fs.locate cwd path with
  | .error fault => throw (.access fault path)
  | .ok location =>
    match fs.lookup location with
    | none => throw (.access .notFound path)
    | some .directory => throw (.access .isDirectory path)
    | some (.file bytes) => return bytes

/-- Put an entry at a location, with the directories above it. -/
def put (fs : FileSystem) (location : Location) (entry : Entry) : FileSystem :=
  let above := (List.range location.length).map location.take
  let made := above.foldl (fun (m : OrderedMap Location Entry) place =>
    if place.isEmpty then m else m.insertNew place .directory) fs.entries
  ⟨if location.isEmpty then made else made.insert location entry⟩

def erase (fs : FileSystem) (location : Location) : FileSystem := ⟨fs.entries.erase location⟩

/-- Make one directory whose parent exists. -/
def makeOne (fs : FileSystem) (cwd : Location) (path : Path) : Except AccessFault FileSystem := do
  let location ← fs.locate cwd path
  match fs.lookup location with
  | some _ => throw .alreadyExists
  | none => return fs.put location .directory

/-- A directory that is there already is no fault. -/
def tolerate (fs : FileSystem) (cwd : Location) (path : Path) (fault : AccessFault) : Except Error FileSystem :=
  match fs.entry? cwd path with
  | some .directory => .ok fs
  | _ => .error (.access fault path)

/-- Make a directory with the missing ones above it. The number bounds how many may be missing. -/
def makeWith (cwd : Location) : Nat → FileSystem → Path → FileSystem × Except Error Unit
  | 0, fs, path => (fs, .error (.access .notFound path))
  | depth + 1, fs, path =>
    match fs.makeOne cwd path with
    | .ok made => (made, .ok ())
    | .error .notFound =>
      if path.parent = path then (fs, .error (.access .notFound path))
      else match makeWith cwd depth fs path.parent with
        | (made, .error e) => (made, .error e)
        | (made, .ok ()) =>
          match made.makeOne cwd path with
          | .ok done => (done, .ok ())
          | .error fault =>
            match made.tolerate cwd path fault with
            | .ok done => (done, .ok ())
            | .error e => (made, .error e)
    | .error fault =>
      match fs.tolerate cwd path fault with
      | .ok done => (done, .ok ())
      | .error e => (fs, .error e)

/-- Make a directory with all missing ones above it. On a fault the ones made so far stay. -/
def makeDirectory (fs : FileSystem) (cwd : Location) (path : Path) : FileSystem × Except Error Unit :=
  match refusal? path with
  | some e => (fs, .error e)
  | none => makeWith cwd (path.parts.length + 1) fs path

/-- Write a text to a file. The file is opened, and so emptied, before the text is encoded. -/
def write (fs : FileSystem) (cwd : Location) (path : Path) (text : Text) : FileSystem × Except Error Unit :=
  match refusal? path with
  | some e => (fs, .error e)
  | none =>
    match fs.locate cwd path with
    | .error fault => (fs, .error (.access fault path))
    | .ok location =>
      match fs.lookup location with
      | some .directory => (fs, .error (.access .isDirectory path))
      | _ =>
        match Utf8.encode text with
        | .ok bytes => (fs.put location (.file bytes.toByteArray), .ok ())
        | .error run => (fs.put location (.file .empty), .error (.unencodable run))

end FileSystem
end SchemaTypes
