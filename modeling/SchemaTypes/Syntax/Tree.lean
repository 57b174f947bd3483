import SchemaTypes.Syntax.Node
import SchemaTypes.Syntax.Program

/-!
Syntax trees from source text: the outline of the program with the comments put back between its tokens.
-/

namespace SchemaTypes.Syntax
namespace Node

/-- The row of every offset. -/
def rowTable (bytes : ByteArray) : Array Nat :=
  (bytes.foldl (fun (rows, row) b =>
    let row := if b == 0x0A then row + 1 else row
    (rows.push row, row)) (#[0], 0)).1

/-- A source as the tree builder needs it. -/
structure Page where
  input : Input
  rows : Array Nat

def Page.row (page : Page) (i : Nat) : Nat := page.rows[i]?.getD 0

def Page.slice (page : Page) (start stop : Nat) : List UInt8 := (page.input.bytes.extract start stop).toList

def comment (page : Page) (start stop : Nat) : Node :=
  mk .comment none (page.slice start stop) (page.row start) (page.row stop) []

/-- The comments between two offsets. -/
def comments (page : Page) (start stop : Nat) : List Node :=
  go (stop - start) start
where
  go : Nat → Nat → List Node
    | 0, _ => []
    | fuel + 1, i =>
      let j := page.input.skipSpace i
      if j ≥ stop then []
      else match page.input.commentEnd? j with
        | some k => comment page j k :: go fuel k
        | none => []

mutual

/-- A node of an outline with the comments that stand inside it. -/
def ofOutline (page : Page) : Outline → Node
  | .mk kind role start stop children =>
    mk kind role (page.slice start stop) (page.row start) (page.row stop)
      (ofOutlines page start children)

/-- The nodes of a list of outlines with the comments before each of them, from an offset on. -/
def ofOutlines (page : Page) (start : Nat) : List Outline → List Node
  | [] => []
  | outline :: rest =>
    comments page start outline.start ++ ofOutline page outline :: ofOutlines page outline.stop rest

end

theorem spells_comments_go (page : Page) (stop fuel i : Nat) :
    ∀ node ∈ comments.go page stop fuel i, node.Spells page.input.bytes := by
  induction fuel generalizing i with
  | zero => simp [comments.go]
  | succ fuel ih =>
    intro node member
    rw [comments.go] at member
    split at member
    · cases member
    · split at member
      next k _ =>
        rcases List.mem_cons.mp member with rfl | later
        · exact .mk ⟨_, _, rfl⟩ (by simp)
        · exact ih k node later
      · cases member

mutual

/-- A tree is cut out of the text, whatever the outline. -/
theorem spells_ofOutline (page : Page) : ∀ outline, (ofOutline page outline).Spells page.input.bytes
  | .mk kind role start stop children => by
    rw [ofOutline]
    exact .mk ⟨start, stop, rfl⟩ (spells_ofOutlines page start children)

theorem spells_ofOutlines (page : Page) (start : Nat) :
    ∀ outlines, ∀ node ∈ ofOutlines page start outlines, node.Spells page.input.bytes
  | [] => by simp [ofOutlines]
  | outline :: rest => by
    intro node member
    rw [ofOutlines] at member
    rcases List.mem_append.mp member with comment | member
    · exact spells_comments_go page _ _ _ node comment
    · rcases List.mem_cons.mp member with rfl | later
      · exact spells_ofOutline page outline
      · exact spells_ofOutlines page outline.stop rest node later

end

end Node

/-- The syntax tree of a source text. -/
def parse (dialect : Dialect) (bytes : ByteArray) : Node :=
  let input : Input := { bytes, dialect }
  Node.ofOutline { input, rows := Node.rowTable bytes } (Parser.program input)

theorem spells_parse (dialect : Dialect) (bytes : ByteArray) : (parse dialect bytes).Spells bytes :=
  Node.spells_ofOutline { input := { bytes, dialect }, rows := Node.rowTable bytes } _

/-- A way to make trees from source texts. All that is asked of it here is that the nodes of a tree are cut out of the
text. -/
structure TreeParser where
  parse : Dialect → ByteArray → Node
  spells : ∀ dialect bytes, (parse dialect bytes).Spells bytes

/-- The parser of this library. -/
def TreeParser.standard : TreeParser where
  parse := Syntax.parse
  spells := spells_parse

end SchemaTypes.Syntax
