import SchemaTypes.Error
import SchemaTypes.Syntax.Kind

/-!
Syntax trees. A node carries its exact source text and the rows it starts and ends on. Comments are children like any
other, placed between the tokens they stand between.
-/

namespace SchemaTypes.Syntax

inductive Node where
  | mk (kind : Kind) (role : Option Role) (bytes : List UInt8) (startRow endRow : Nat) (children : List Node)

namespace Node

def kind : Node → Kind | mk k _ _ _ _ _ => k
def role : Node → Option Role | mk _ r _ _ _ _ => r
def bytes : Node → List UInt8 | mk _ _ b _ _ _ => b
/-- The row of the first byte, counted by line feeds from zero. -/
def startRow : Node → Nat | mk _ _ _ r _ _ => r
/-- The row just past the last byte. -/
def endRow : Node → Nat | mk _ _ _ _ r _ => r
def children : Node → List Node | mk _ _ _ _ _ c => c

/-- The source text of a node; it need not be well-formed UTF-8. -/
def text (n : Node) : Except Error Text := (Utf8.decode n.bytes).mapError .undecodable

def isComment (n : Node) : Bool := n.kind == .comment

/-- The children that are neither punctuation nor comments. -/
def members (n : Node) : List Node := n.children.filter fun c => c.kind.isNamed && !c.isComment

/-- The first child that plays a given part. -/
def child? (n : Node) (role : Role) : Option Node := n.children.find? (·.role == some role)

/-- A node spells a part of a text, and so do all nodes inside it. -/
inductive Spells (text : ByteArray) : Node → Prop
  | mk {kind : Kind} {role : Option Role} {bytes : List UInt8} {startRow endRow : Nat} {children : List Node}
      (slice : ∃ start stop, bytes = (text.extract start stop).toList)
      (inside : ∀ child ∈ children, Spells text child) :
      Spells text (.mk kind role bytes startRow endRow children)

theorem sizeOf_lt_of_mem_children {n c : Node} (h : c ∈ n.children) : sizeOf c < sizeOf n := by
  cases n with
  | mk k r b s e cs =>
    have := List.sizeOf_lt_of_mem (show c ∈ cs from h)
    simp only [mk.sizeOf_spec]
    omega

theorem sizeOf_lt_of_mem_members {n c : Node} (h : c ∈ n.members) : sizeOf c < sizeOf n :=
  sizeOf_lt_of_mem_children (List.mem_filter.1 h).1

theorem sizeOf_lt_of_child?_eq_some {n c : Node} {role : Role} (h : n.child? role = some c) :
    sizeOf c < sizeOf n :=
  sizeOf_lt_of_mem_children (List.mem_of_find?_eq_some h)

end Node
end SchemaTypes.Syntax
