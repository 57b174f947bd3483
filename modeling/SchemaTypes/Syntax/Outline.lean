import SchemaTypes.Syntax.Kind

/-!
An outline is a parse by byte offsets. It holds every token of the text but no comments; those lie in the gaps
between its tokens.
-/

namespace SchemaTypes.Syntax

inductive Outline where
  | mk (kind : Kind) (role : Option Role) (start stop : Nat) (children : List Outline)

namespace Outline

def kind : Outline → Kind | mk k _ _ _ _ => k
def role : Outline → Option Role | mk _ r _ _ _ => r
def start : Outline → Nat | mk _ _ s _ _ => s
def stop : Outline → Nat | mk _ _ _ s _ => s
def children : Outline → List Outline | mk _ _ _ _ c => c

def leaf (kind : Kind) (start stop : Nat) : Outline := mk kind none start stop []

/-- A node reaches from its first child to its last. -/
def node (kind : Kind) (children : List Outline) : Outline :=
  mk kind none ((children.head?.map start).getD 0) ((children.getLast?.map stop).getD 0) children

/-- The same outline playing a part in its parent. -/
def as (outline : Outline) (role : Role) : Outline :=
  mk outline.kind (some role) outline.start outline.stop outline.children

def withKind (outline : Outline) (kind : Kind) : Outline :=
  mk kind outline.role outline.start outline.stop outline.children

end Outline
end SchemaTypes.Syntax
