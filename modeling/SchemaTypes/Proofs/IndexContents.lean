import SchemaTypes.Proofs.IndexAgreement
import SchemaTypes.Proofs.SyntaxParts

/-!
What the index of a file contains, told by the source. The declarators of a file stand at addresses in its syntax tree,
and addresses in lexicographic order are in source order. A name is in the index if one of its declarators builds objects.
It stands for the last of these, and its place among the other names is that of the first of these.
-/

namespace SchemaTypes

open Syntax

/-! ### Declarators in source order -/

/-- The way from a node down to a part of it: which child to take, step by step. The lexicographic order of addresses is
the order in which the parts begin in the source, with a node before its children. -/
abbrev Address := List Nat

/-- A list of declarators, behind `const`, `let` or `var`. -/
def Syntax.Node.IsDeclarationList (n : Node) : Prop := n.kind = .lexicalDeclaration ∨ n.kind = .variableDeclaration

/-- The statement that encloses a declarator, given the place around the declarator and the one around that. It is the
export around the list of declarators, or the list itself if there is no export right around it. A declarator outside of
such a list has no statement. -/
inductive Encloses : Option Placed → Option Placed → Option Placed → Prop
  | exported {list outer : Placed} (declares : list.node.IsDeclarationList)
      (exports : outer.node.kind = .exportStatement) : Encloses (some list) (some outer) (some outer)
  | listed {list : Placed} {around : Option Placed} (declares : list.node.IsDeclarationList)
      (unexported : ∀ outer, around = some outer → outer.node.kind ≠ .exportStatement) :
      Encloses (some list) around (some list)
  | outside {parent around : Option Placed} (undeclared : ∀ list, parent = some list → ¬ list.node.IsDeclarationList) :
      Encloses parent around none

theorem encloses_statementOf (parent around : Option Placed) :
    Encloses parent around (Declarator.statementOf parent around) := by
  unfold Declarator.statementOf
  cases parent with
  | none => exact .outside (by simp)
  | some list =>
    have told : (list.node.kind == .lexicalDeclaration || list.node.kind == .variableDeclaration) = true ↔
        list.node.IsDeclarationList := by
      rw [Bool.or_eq_true, beq_iff_eq, beq_iff_eq, Node.IsDeclarationList]
    dsimp only
    split
    next declares =>
      cases around with
      | none => exact .listed (told.mp declares) (by simp)
      | some outer =>
        dsimp only
        split
        next exports => exact .exported (told.mp declares) (beq_iff_eq.mp exports)
        next other =>
          refine .listed (told.mp declares) fun outer' same exports => ?_
          cases same
          exact other (beq_iff_eq.mpr exports)
    next other =>
      refine .outside fun list' same declares => ?_
      cases same
      exact other (told.mpr declares)

theorem Encloses.unique {parent around statement statement' : Option Placed} (encloses : Encloses parent around statement)
    (encloses' : Encloses parent around statement') : statement = statement' := by
  cases encloses with
  | exported declares exports =>
    cases encloses' with
    | exported => rfl
    | listed _ unexported => exact absurd exports (unexported _ rfl)
    | outside undeclared => exact absurd declares (undeclared _ rfl)
  | listed declares unexported =>
    cases encloses' with
    | exported _ exports => exact absurd exports (unexported _ rfl)
    | listed => rfl
    | outside undeclared => exact absurd declares (undeclared _ rfl)
  | outside undeclared =>
    cases encloses' with
    | exported declares => exact absurd declares (undeclared _ rfl)
    | listed declares => exact absurd declares (undeclared _ rfl)
    | outside => rfl

/-- A declarator of a single name stands at an address below a place, given the place around that and the one around
both. -/
inductive DeclaresAt : Option Placed → Option Placed → Placed → Address → Declarator → Prop
  | here {parent around statement : Option Placed} {place : Placed} {name : Node}
      (kind : place.node.kind = .variableDeclarator) (named : place.node.child? .name = some name)
      (identifier : name.kind = .identifier) (encloses : Encloses parent around statement) :
      DeclaresAt parent around place [] ⟨place.node, statement⟩
  | inside {parent around : Option Placed} {place child : Placed} {i : Nat} {rest : Address} {d : Declarator}
      (found : place.node.placedChildren[i]? = some child) (inner : DeclaresAt (some place) parent child rest d) :
      DeclaresAt parent around place (i :: rest) d

theorem DeclaresAt.partOf {parent around : Option Placed} {place : Placed} {address : Address} {d : Declarator}
    (declares : DeclaresAt parent around place address d) : d.node.PartOf place.node := by
  induction declares with
  | here => exact .refl _
  | inside found _ ih => exact ih.trans (Node.partOf_of_mem_placedChildren (List.mem_of_getElem? found))

/-- A list has what stands at addresses, in the order of the addresses. -/
def InOrder {α : Type} (stands : Address → α → Prop) (l : List α) : Prop :=
  ∃ located : List (Address × α), located.map Prod.snd = l ∧ located.Pairwise (fun a b => a.1 < b.1) ∧
    ∀ address a, (address, a) ∈ located ↔ stands address a

namespace InOrder

variable {α : Type} {stands stands' : Address → α → Prop} {l l' : List α}

theorem congr (ordered : InOrder stands l) (same : ∀ address a, stands address a ↔ stands' address a) :
    InOrder stands' l := by
  obtain ⟨located, listed, increasing, told⟩ := ordered
  exact ⟨located, listed, increasing, fun address a => (told address a).trans (same address a)⟩

theorem exists_address (ordered : InOrder stands l) {a : α} (member : a ∈ l) : ∃ address, stands address a := by
  obtain ⟨located, rfl, -, told⟩ := ordered
  obtain ⟨⟨address, a⟩, inside, rfl⟩ := List.mem_map.mp member
  exact ⟨address, (told address a).mp inside⟩

theorem nil : InOrder (fun _ (_ : α) => False) [] := ⟨[], rfl, List.Pairwise.nil, by simp⟩

theorem single (address : Address) (a : α) : InOrder (fun address' a' => address' = address ∧ a' = a) [a] :=
  ⟨[(address, a)], rfl, List.pairwise_singleton _ _, by simp⟩

theorem append (ordered : InOrder stands l) (ordered' : InOrder stands' l')
    (apart : ∀ address a address' a', stands address a → stands' address' a' → address < address') :
    InOrder (fun address a => stands address a ∨ stands' address a) (l ++ l') := by
  obtain ⟨located, rfl, increasing, told⟩ := ordered
  obtain ⟨located', rfl, increasing', told'⟩ := ordered'
  refine ⟨located ++ located', by rw [List.map_append], ?_, fun address a => ?_⟩
  · refine List.pairwise_append.mpr ⟨increasing, increasing', fun (address, a) early (address', a') late => ?_⟩
    exact apart address a address' a' ((told address a).mp early) ((told' address' a').mp late)
  · rw [List.mem_append, told, told']

/-- What stands below a child stands one step further below the node. -/
theorem below (ordered : InOrder stands l) (i : Nat) :
    InOrder (fun address a => ∃ rest, address = i :: rest ∧ stands rest a) l := by
  obtain ⟨located, rfl, increasing, told⟩ := ordered
  refine ⟨located.map fun (rest, a) => (i :: rest, a), by simp, ?_, fun address a => ?_⟩
  · refine List.pairwise_map.mpr (increasing.imp fun earlier => ?_)
    exact List.cons_lt_cons_iff.mpr (.inr ⟨rfl, earlier⟩)
  · constructor
    · intro member
      obtain ⟨⟨rest, a'⟩, inside, same⟩ := List.mem_map.mp member
      cases same
      exact ⟨rest, rfl, (told rest a).mp inside⟩
    · rintro ⟨rest, rfl, below⟩
      exact List.mem_map.mpr ⟨(rest, a), (told rest a).mpr below, rfl⟩

/-- A traversal that may leave elements out keeps the addresses of the others. -/
theorem exists_placed {β ε : Type} {f : α → Except ε (Option β)} {located : List (Address × α)} {found : List β}
    (read : (located.map Prod.snd).filterMapM f = .ok found) :
    ∃ placed : List (Address × β), placed.map Prod.snd = found ∧
      (placed.map Prod.fst).Sublist (located.map Prod.fst) ∧
      ∀ address b, (address, b) ∈ placed ↔ ∃ a, (address, a) ∈ located ∧ f a = .ok (some b) := by
  induction located generalizing found with
  | nil =>
    cases read
    exact ⟨[], rfl, List.Sublist.refl _, by simp⟩
  | cons entry rest ih =>
    obtain ⟨address₀, a₀⟩ := entry
    rw [List.map_cons, List.filterMapM_cons] at read
    obtain ⟨item, first, remaining⟩ := bind_eq_ok_iff.mp read
    cases item with
    | none =>
      obtain ⟨placed, listed, further, told⟩ := ih remaining
      refine ⟨placed, listed, further.cons address₀, fun address b => (told address b).trans ?_⟩
      constructor
      · rintro ⟨a, member, taken⟩
        exact ⟨a, List.mem_cons_of_mem _ member, taken⟩
      · rintro ⟨a, member, taken⟩
        rcases List.mem_cons.mp member with same | member
        · cases same
          cases first.symm.trans taken
        · exact ⟨a, member, taken⟩
    | some b₀ =>
      obtain ⟨others, others_read, success⟩ := bind_eq_ok_iff.mp remaining
      cases success
      obtain ⟨placed, listed, further, told⟩ := ih others_read
      refine ⟨(address₀, b₀) :: placed, by rw [List.map_cons, listed], further.cons_cons address₀, fun address b => ?_⟩
      rw [List.mem_cons, told]
      constructor
      · rintro (same | ⟨a, member, taken⟩)
        · cases same
          exact ⟨a₀, List.mem_cons_self, first⟩
        · exact ⟨a, List.mem_cons_of_mem _ member, taken⟩
      · rintro ⟨a, member, taken⟩
        rcases List.mem_cons.mp member with same | member
        · cases same
          cases first.symm.trans taken
          exact .inl rfl
        · exact .inr ⟨a, member, taken⟩

/-- What is read off each element of a list stands where the element stands. -/
theorem filterMapM {β ε : Type} {f : α → Except ε (Option β)} {found : List β} (ordered : InOrder stands l)
    (read : l.filterMapM f = .ok found) :
    InOrder (fun address b => ∃ a, stands address a ∧ f a = .ok (some b)) found := by
  obtain ⟨located, rfl, increasing, told⟩ := ordered
  obtain ⟨placed, listed, further, told'⟩ := exists_placed read
  refine ⟨placed, listed, ?_, fun address b => ?_⟩
  · exact List.pairwise_map.mp ((List.pairwise_map.mpr increasing).sublist further)
  · simp only [told', told]

end InOrder

/-- The declarators in some children of a node are in order if those in each child are. The children before them are
`before`, and there are `i` of them. -/
theorem declaratorsInAll_inOrder {parent around : Option Placed} {children : List Node}
    (each : ∀ child ∈ children, ∀ before,
      InOrder (DeclaresAt parent around ⟨child, before⟩) (Node.declaratorsIn parent around before child))
    (before : List Node) (i : Nat) :
    InOrder (fun address d => ∃ j child rest, (Node.placedChildren.go before children)[j]? = some child ∧
      address = (i + j) :: rest ∧ DeclaresAt parent around child rest d)
      (Node.declaratorsInAll parent around before children) := by
  induction children generalizing before i with
  | nil =>
    refine InOrder.nil.congr fun address d => ?_
    simp [Node.placedChildren.go]
  | cons child children ih =>
    have here := (each child List.mem_cons_self before).below i
    have further := ih (fun other member => each other (List.mem_cons_of_mem child member)) (child :: before) (i + 1)
    simp only [Node.declaratorsInAll, Node.placedChildren.go]
    refine (here.append further ?_).congr fun address d => ?_
    · rintro address d address' d' ⟨rest, rfl, -⟩ ⟨j, other, rest', -, rfl, -⟩
      exact List.cons_lt_cons_iff.mpr (.inl (by omega))
    · constructor
      · rintro (⟨rest, rfl, inner⟩ | ⟨j, other, rest, found, rfl, inner⟩)
        · exact ⟨0, ⟨child, before⟩, rest, rfl, rfl, inner⟩
        · exact ⟨j + 1, other, rest, found, by rw [Nat.add_assoc, Nat.add_comm 1 j], inner⟩
      · rintro ⟨j, other, rest, found, rfl, inner⟩
        cases j with
        | zero =>
          cases found
          exact .inl ⟨rest, rfl, inner⟩
        | succ j => exact .inr ⟨j, other, rest, found, by rw [Nat.add_assoc, Nat.add_comm 1 j], inner⟩

theorem declaratorsIn_eq (parent around : Option Placed) (before : List Node) (node : Node) :
    Node.declaratorsIn parent around before node =
      (if node.kind == .variableDeclarator && ((node.child? .name).map Node.kind) == some .identifier then
        [⟨node, Declarator.statementOf parent around⟩] else []) ++
      Node.declaratorsInAll (some ⟨node, before⟩) parent [] node.children := by
  cases node
  rw [Node.declaratorsIn]
  rfl

/-- A node is a declarator of a single name itself, or it is none. -/
theorem own_inOrder (parent around : Option Placed) (place : Placed) :
    InOrder (fun address d => address = [] ∧ DeclaresAt parent around place [] d)
      (if place.node.kind == .variableDeclarator && ((place.node.child? .name).map Node.kind) == some .identifier then
        [⟨place.node, Declarator.statementOf parent around⟩] else []) := by
  split
  next told =>
    simp only [Bool.and_eq_true, beq_iff_eq, Option.map_eq_some_iff] at told
    obtain ⟨kind, name, named, identifier⟩ := told
    refine (InOrder.single [] _).congr fun address d => and_congr_right fun _ => ⟨?_, fun declares => ?_⟩
    · rintro rfl
      exact .here kind named identifier (encloses_statementOf parent around)
    · cases declares with
      | here _ _ _ encloses => rw [encloses.unique (encloses_statementOf parent around)]
  next untold =>
    refine InOrder.nil.congr fun address d => ⟨False.elim, ?_⟩
    rintro ⟨-, ⟨kind, named, identifier, -⟩⟩
    simp [kind, named, identifier] at untold

/-- The declarators in a node are those that stand at addresses below it, in source order. -/
theorem declaratorsIn_inOrder (parent around : Option Placed) (before : List Node) (node : Node) :
    InOrder (DeclaresAt parent around ⟨node, before⟩) (Node.declaratorsIn parent around before node) := by
  have each : ∀ child ∈ node.children, ∀ before', InOrder (DeclaresAt (some ⟨node, before⟩) parent ⟨child, before'⟩)
      (Node.declaratorsIn (some ⟨node, before⟩) parent before' child) :=
    fun child _ before' => declaratorsIn_inOrder (some ⟨node, before⟩) parent before' child
  rw [declaratorsIn_eq]
  refine ((own_inOrder parent around ⟨node, before⟩).append (declaratorsInAll_inOrder each [] 0) ?_).congr
    fun address d => ?_
  · rintro address d address' d' ⟨rfl, -⟩ ⟨j, child, rest, -, rfl, -⟩
    exact List.nil_lt_cons _ _
  · constructor
    · rintro (⟨rfl, declares⟩ | ⟨j, child, rest, found, rfl, inner⟩)
      · exact declares
      · rw [Nat.zero_add]
        exact .inside found inner
    · intro declares
      cases declares with
      | here kind named identifier encloses => exact .inl ⟨rfl, .here kind named identifier encloses⟩
      | inside found inner => exact .inr ⟨_, _, _, found, by rw [Nat.zero_add], inner⟩
termination_by sizeOf node
decreasing_by
  rename_i member
  exact Node.sizeOf_lt_of_mem_children member

/-- A declarator gives its value to a name. -/
def Declarator.Names (d : Declarator) (name : Text) : Prop :=
  ∃ node, d.node.child? .name = some node ∧ node.text = .ok name

theorem namedDeclarators_inOrder {root : Node} {named : List (Text × Declarator)}
    (read : root.namedDeclarators = .ok named) :
    InOrder (fun address declared => DeclaresAt none none ⟨root, []⟩ address declared.2 ∧ declared.2.Names declared.1)
      named := by
  refine ((declaratorsIn_inOrder none none [] root).filterMapM read).congr fun address declared => ?_
  obtain ⟨name, d⟩ := declared
  constructor
  · rintro ⟨d', declares, taken⟩
    split at taken
    next node found =>
      obtain ⟨text, named, taken⟩ := bind_eq_ok_iff.mp taken
      cases taken
      exact ⟨declares, node, found, named⟩
    · cases taken
  · rintro ⟨declares, node, found, named⟩
    refine ⟨d, declares, ?_⟩
    dsimp only at found named ⊢
    rw [found]
    dsimp only
    rw [named]
    rfl

namespace Compilation

/-! ### Contents -/

/-- Of declarations at addresses, some one of a name stands before all those of another name. -/
def Precedes (stands : Address → Declaration → Prop) (name next : Text) : Prop :=
  ∃ address declaration, stands address declaration ∧ declaration.name = name ∧
    ∀ other declaration', stands other declaration' → declaration'.name = next → address < other

/-- What an index contains, if declarations stand at addresses: the names of those that do; under each name the
declaration at the last address of the name; and the names in the order of their first addresses. -/
structure Contents (stands : Address → Declaration → Prop) (index : DeclarationIndex) : Prop where
  mem_keys : ∀ name, name ∈ index.keys ↔ ∃ address declaration, stands address declaration ∧ declaration.name = name
  latest : ∀ name entry, index.get? name = some entry → entry.name = name ∧ ∃ address, stands address entry ∧
    ∀ later declaration, stands later declaration → address < later → declaration.name ≠ name
  ordered : index.keys.Pairwise (Precedes stands)

variable {stands stands' : Address → Declaration → Prop} {index : DeclarationIndex} {last : Address}
  {declaration : Declaration}

/-- A declaration after all others comes first of no name that was there. -/
theorem Precedes.insert {name next : Text} (precedes : Precedes stands name next)
    (before : ∀ address other, stands address other → address < last) :
    Precedes (fun address other => stands address other ∨ address = last ∧ other = declaration) name next := by
  obtain ⟨address, other, stand, named, first⟩ := precedes
  refine ⟨address, other, .inl stand, named, ?_⟩
  rintro address' other' (old | ⟨rfl, -⟩) named'
  · exact first address' other' old named'
  · exact before address other stand

namespace Contents

theorem congr (contents : Contents stands index)
    (same : ∀ address declaration, stands address declaration ↔ stands' address declaration) :
    Contents stands' index := by
  obtain rfl : stands = stands' := by
    funext address declaration
    exact propext (same address declaration)
  exact contents

theorem empty : Contents (fun _ _ => False) .empty where
  mem_keys := by simp [OrderedMap.keys, OrderedMap.empty]
  latest := by simp
  ordered := List.Pairwise.nil

/-- One more declaration at an address after all others. -/
theorem insert (contents : Contents stands index) (before : ∀ address other, stands address other → address < last) :
    Contents (fun address other => stands address other ∨ address = last ∧ other = declaration)
      (index.insert declaration.name declaration) where
  mem_keys := by
    intro name
    rw [OrderedMap.mem_keys_insert, contents.mem_keys]
    constructor
    · rintro (⟨address, other, stand, named⟩ | rfl)
      · exact ⟨address, other, .inl stand, named⟩
      · exact ⟨last, declaration, .inr ⟨rfl, rfl⟩, rfl⟩
    · rintro ⟨address, other, stand | ⟨-, rfl⟩, named⟩
      · exact .inl ⟨address, other, stand, named⟩
      · exact .inr named.symm
  latest := by
    intro name entry found
    rw [OrderedMap.get?_insert] at found
    split at found
    next same =>
      cases found
      refine ⟨same, last, .inr ⟨rfl, rfl⟩, ?_⟩
      rintro later other (old | ⟨rfl, -⟩) after
      · exact absurd (before later other old) (List.lt_asymm after)
      · exact absurd after (List.lt_irrefl _)
    next different =>
      obtain ⟨named, address, stand, none⟩ := contents.latest name entry found
      refine ⟨named, address, .inl stand, ?_⟩
      rintro later other (old | ⟨rfl, rfl⟩) after
      · exact none later other old after
      · exact different
  ordered := by
    have kept : index.keys.Pairwise
        (Precedes fun address other => stands address other ∨ address = last ∧ other = declaration) :=
      contents.ordered.imp fun precedes => precedes.insert before
    rw [OrderedMap.keys_insert]
    split
    · exact kept
    next absent =>
      refine List.pairwise_append.mpr ⟨kept, List.pairwise_singleton _ _, fun name old next new => ?_⟩
      obtain ⟨address, other, stand, named⟩ := (contents.mem_keys name).mp old
      refine ⟨address, other, .inl stand, named, ?_⟩
      rintro address' other' (old' | ⟨rfl, -⟩) named'
      · rw [List.mem_singleton.mp new] at named'
        exact absurd ((contents.mem_keys _).mpr ⟨address', other', old', named'⟩) absent
      · exact before address other stand

end Contents

section Index

variable {w : Workspace} {c : Compilation} {file : SourceFile}

theorem declaration?_eq_some_iff {declared : Text × Declarator} {declaration : Declaration} :
    declaration? w c file declared = some declaration ↔
      declaration = ⟨declared.1, declaration.objects, file, declared.2.statement⟩ ∧ declaration.objects ≠ [] ∧
        ∃ value, declared.2.value? = some value ∧
          (run (valueLiterals file declared.1 value) w c).1 = .ok declaration.objects := by
  constructor
  · intro found
    unfold declaration? at found
    split at found
    next first rest literals =>
      cases found
      refine ⟨rfl, List.cons_ne_nil _ _, ?_⟩
      unfold declaratorLiterals at literals
      split at literals
      · cases literals
      next value valued => exact ⟨value, valued, literals⟩
    · cases found
  · rintro ⟨same, filled, value, valued, literals⟩
    have given : declaratorLiterals w c file declared = .ok declaration.objects := by
      simp only [declaratorLiterals, valued]
      exact literals
    rw [declaration?_of_literals given, if_neg filled, ← same]

/-- The declarators of a file, entered one after the other. -/
theorem foldl_enter_contents {placed : List (Address × Text × Declarator)}
    (increasing : placed.Pairwise fun a b => a.1 < b.1) :
    Contents (fun address declaration => ∃ declared, (address, declared) ∈ placed ∧
        declaration? w c file declared = some declaration)
      ((placed.map Prod.snd).foldl
        (fun index declared => enter index declared.1 (declaration? w c file declared)) .empty) := by
  induction placed using List.reverseRecOn with
  | nil => exact Contents.empty.congr (by simp)
  | append_singleton placed last ih =>
    obtain ⟨address, declared⟩ := last
    obtain ⟨earlier, -, apart⟩ := List.pairwise_append.mp increasing
    have contents := ih earlier
    rw [List.map_append, List.foldl_append, List.map_singleton, List.foldl_cons, List.foldl_nil]
    cases found : declaration? w c file declared with
    | none =>
      refine contents.congr fun address' declaration => exists_congr fun declared' => ?_
      rw [List.mem_append, List.mem_singleton]
      constructor
      · rintro ⟨member, stands⟩
        exact ⟨.inl member, stands⟩
      · rintro ⟨member | same, stands⟩
        · exact ⟨member, stands⟩
        · cases same
          cases found.symm.trans stands
    | some declaration =>
      have named : declaration.name = declared.1 := by rw [(declaration?_eq_some_iff.mp found).1]
      rw [enter, ← named]
      have before : ∀ address' other, (∃ declared', (address', declared') ∈ placed ∧
          declaration? w c file declared' = some other) → address' < address := by
        rintro address' other ⟨declared', member, -⟩
        exact apart _ member _ (List.mem_singleton.mpr rfl)
      refine (contents.insert before).congr fun address' other => ?_
      constructor
      · rintro (⟨declared', member, stands⟩ | ⟨rfl, rfl⟩)
        · exact ⟨declared', List.mem_append_left _ member, stands⟩
        · exact ⟨declared, List.mem_append_right _ (List.mem_singleton.mpr rfl), found⟩
      · rintro ⟨declared', member, stands⟩
        rcases List.mem_append.mp member with member | same
        · exact .inl ⟨declared', member, stands⟩
        · cases List.mem_singleton.mp same
          exact .inr ⟨rfl, Option.some.inj (stands.symm.trans found)⟩

/-- A declarator at an address of a file stands for a declaration: it gives the name a value that is reduced to one or
more object literals. The declaration belongs to the file and has the statement that encloses the declarator. -/
def StandsAt (w : Workspace) (c : Compilation) (file : SourceFile) (address : Address) (declaration : Declaration) : Prop :=
  ∃ d value, DeclaresAt none none ⟨file.root, []⟩ address d ∧ d.Names declaration.name ∧ d.value? = some value ∧
    (run (valueLiterals file declaration.name value) w c).1 = .ok declaration.objects ∧ declaration.objects ≠ [] ∧
    declaration.file = file ∧ declaration.statement = d.statement

theorem buildIndex_contents {index : DeclarationIndex} (built : (run (buildIndex file) w c).1 = .ok index) :
    Contents (StandsAt w c file) index := by
  obtain ⟨named, listed, folded⟩ := buildIndex_eq_foldlM built
  obtain ⟨placed, rfl, increasing, told⟩ := namedDeclarators_inOrder (file.declarators_eq ▸ listed)
  rw [eq_foldl_of_foldlM folded]
  refine (foldl_enter_contents increasing).congr fun address declaration => ?_
  constructor
  · rintro ⟨⟨name, d⟩, member, found⟩
    obtain ⟨declares, names⟩ := (told _ _).mp member
    obtain ⟨same, filled, value, valued, literals⟩ := declaration?_eq_some_iff.mp found
    have named : declaration.name = name := by rw [same]
    refine ⟨d, value, declares, named ▸ names, valued, named ▸ literals, filled, by rw [same], by rw [same]⟩
  · rintro ⟨d, value, declares, names, valued, literals, filled, owned, stated⟩
    refine ⟨(declaration.name, d), (told _ _).mpr ⟨declares, names⟩, ?_⟩
    refine declaration?_eq_some_iff.mpr ⟨?_, filled, value, valued, literals⟩
    rw [← owned, ← stated]

/-! ### Objects -/

/-- An object literal of a file that is reached along imports. -/
def ObjectInReach (w : Workspace) (shown : Path → Except Error SourceFile) (file : SourceFile) (object : Node) : Prop :=
  object.kind = .object ∧ ∃ owner, Reaches w shown file owner ∧ object.PartOf owner.root

theorem ObjectInReach.of_reaches {shown : Path → Except Error SourceFile} {next : SourceFile} {object : Node}
    (reached : Reaches w shown file next) (inReach : ObjectInReach w shown next object) :
    ObjectInReach w shown file object := by
  obtain ⟨kind, owner, further, part⟩ := inReach
  exact ⟨kind, owner, reached.trans further, part⟩

theorem objectInReach_of_inlineObject {shown : Path → Except Error SourceFile} {expression literal : Node}
    (part : expression.PartOf file.root) (shape : Shape.ofNode expression = .ok (.inlineObject literal)) :
    ObjectInReach w shown file literal := by
  have inside : literal.PartOf expression := Shape.partOf_of_mem_nodes shape (by simp [Shape.nodes])
  exact ⟨Shape.kind_of_inlineObject shape, file, .refl, inside.trans part⟩

/-- The value of a declarator of a file is a part of its tree. -/
theorem partOf_of_binding {name : Text} {d : Declarator} {value : Node} (bound : file.binding? name = .ok (some d))
    (valued : d.value? = some value) : value.PartOf file.root := by
  obtain ⟨before, after, listed, -⟩ := SourceFile.binding?_eq_some_iff.mp bound
  have ordered := namedDeclarators_inOrder (file.declarators_eq ▸ listed)
  obtain ⟨address, declares, -⟩ := ordered.exists_address (List.mem_append_right before List.mem_cons_self)
  exact (Node.partOf_of_child?_eq_some valued).trans declares.partOf

/-- What a member of a composition adds by itself. -/
theorem objectInReach_of_contribution {member : Node} {objects : List Node} (part : member.PartOf file.root)
    (added : contribution w c file member = .own (.ok objects)) :
    ∀ object ∈ objects, ObjectInReach w (view w c) file object := by
  unfold contribution at added
  split at added
  · cases added
  next literal shape =>
    cases added
    intro object member
    rw [List.mem_singleton.mp member]
    exact objectInReach_of_inlineObject part shape
  · have none : objects = [] := by
      repeat' split at added
      all_goals cases added
      all_goals rfl
    simp [none]

/-- Whatever an expression of a file is reduced to are object literals of files that are reached along imports. -/
theorem objectLiterals_inReach (depth : Nat) {active : List BindingKey} {expression : Node} {objects : List Node}
    (part : expression.PartOf file.root)
    (followed : (run (objectLiterals depth active file expression) w c).1 = .ok objects) :
    ∀ object ∈ objects, ObjectInReach w (view w c) file object := by
  induction depth generalizing active file expression objects with
  | zero => cases followed
  | succ depth ih =>
    have viewed := viewed_objectLiterals w depth
    rw [objectLiterals, literalsWith_outcome viewed active ⟨file, expression⟩] at followed
    cases shape : Shape.ofNode expression with
    | error e =>
      rw [shape] at followed
      cases followed
    | ok read =>
      rw [shape] at followed
      cases read with
      | inlineObject literal =>
        cases followed
        intro object member
        rw [List.mem_singleton.mp member]
        exact objectInReach_of_inlineObject part shape
      | composeCall members =>
        dsimp only at followed
        cases made : members.mapM fun member => (run (memberLiterals (objectLiterals depth) active file member) w c).1 with
        | error e =>
          rw [made] at followed
          cases followed
        | ok lists =>
          rw [made] at followed
          cases followed
          intro object member
          obtain ⟨list, listed, inside⟩ := List.mem_flatten.mp member
          obtain ⟨source, argument, taken⟩ := (mapM_ok_of_mem made).2 list listed
          have sourcePart := (Shape.partOf_of_mem_nodes shape argument).trans part
          rw [memberLiterals_outcome viewed] at taken
          cases added : contribution w c file source with
          | own outcome =>
            rw [added] at taken
            cases taken
            exact objectInReach_of_contribution sourcePart added object inside
          | bound key value =>
            rw [added] at taken
            dsimp only at taken
            split at taken
            · cases taken
              cases inside
            · obtain ⟨reached, d, bound, valued⟩ := contribution_reaches added
              exact (ih (partOf_of_binding bound valued) taken object inside).of_reaches reached
      | _ =>
        cases followed
        simp

theorem StandsAt.objectsInReach {address : Address} {declaration : Declaration}
    (stands : StandsAt w c file address declaration) :
    ∀ object ∈ declaration.objects, ObjectInReach w (view w c) file object := by
  obtain ⟨d, value, declares, -, valued, literals, -, -, -⟩ := stands
  rw [run_valueLiterals] at literals
  exact objectLiterals_inReach _ ((Node.partOf_of_child?_eq_some valued).trans declares.partOf) literals

/-! ### The index that is handed out -/

/-- In a workspace that has stayed as it is, a kept index is the one that would be built now. -/
theorem buildIndex_of_asked {index : DeclarationIndex}
    (origin : c.indexes.get? file.path = none ∨ w.Holds file ∧ Sound w c)
    (asked : (run (indexDeclarations file) w c).1 = .ok index) : (run (buildIndex file) w c).1 = .ok index := by
  rcases origin with unkept | ⟨held, sound⟩
  · rw [run_indexDeclarations, unkept] at asked
    cases outcome : run (buildIndex file) w c with
    | mk result after =>
      rw [outcome] at asked
      cases result with
      | error e => cases asked
      | ok built => exact asked
  · rw [index_of_sound held sound] at asked
    rw [← asked]
    have viewed : Viewed w (buildIndex file) (HoldsFiles (· = file)) := (viewed_law w).buildIndex trivial rfl
    exact (viewed {}).2.2 c sound.files

/-- The contents of the index of a file, built now or kept from before while the workspace has stayed as it is. A name is
in the index just if some declarator of a single name, at any depth of the syntax tree, gives it a value that is reduced to
one or more object literals. Its entry has the objects and the statement of the last such declarator in source order, and
the file itself; the names are in the order of the first such declarator of each. All objects of an entry, of which there
is one at least, are object literals of files that are reached along imports. -/
theorem indexDeclarations_contents {index : DeclarationIndex}
    (origin : c.indexes.get? file.path = none ∨ w.Holds file ∧ Sound w c)
    (asked : (run (indexDeclarations file) w c).1 = .ok index) :
    Contents (StandsAt w c file) index ∧
      ∀ name entry, index.get? name = some entry → entry.file = file ∧ entry.objects ≠ [] ∧
        ∀ object ∈ entry.objects, ObjectInReach w (view w c) file object := by
  have contents := buildIndex_contents (buildIndex_of_asked origin asked)
  refine ⟨contents, fun name entry found => ?_⟩
  obtain ⟨-, address, stands, -⟩ := contents.latest name entry found
  have inReach := stands.objectsInReach
  obtain ⟨d, value, -, -, -, -, filled, owned, -⟩ := stands
  exact ⟨owned, filled, inReach⟩

end Index

/-- A name that is bound three times: in a list to an object, in an export to a composition with a member from another
file, and to a number. -/
def reboundName : Workspace :=
  .ofSources [("a.ts", "import \x7bB\x7d from './b'\nlet N=Type.Object(\x7b\x7d),M=N\n" ++
      "export let N=compose(B,B)\nvar N=1,M=Type.Object(\x7b\x7d)"),
    ("b.ts", "let B=Type.Object(\x7b\x7d)")]

/-- How many objects an entry of an index has, and the kind and the row of its statement. -/
def entrySummary (entry : Declaration) : Nat × Option (Kind × Nat) :=
  (entry.objects.length, entry.statement.map fun statement => (statement.node.kind, statement.node.startRow))

set_option maxRecDepth 100000 in
theorem indexDeclarations_contents_reboundName :
    ∃ index, (run (indexDeclarations (fileAt reboundName (.ofText "/w/a.ts"))) reboundName {}).1 = .ok index ∧
      index.entries.map (fun entry => (entry.1, entrySummary entry.2)) =
        [(("N" : Text), 2, some (.exportStatement, 2)), ("M", 1, some (.variableDeclaration, 3))] ∧
      Contents (StandsAt reboundName {} (fileAt reboundName (.ofText "/w/a.ts"))) index := by
  have listed : (run (indexDeclarations (fileAt reboundName (.ofText "/w/a.ts"))) reboundName {}).1.toOption.map
      (fun index => index.entries.map fun entry => (entry.1, entrySummary entry.2)) =
        some [(("N" : Text), 2, some (.exportStatement, 2)), ("M", 1, some (.variableDeclaration, 3))] := by
    decide +kernel
  obtain ⟨index, indexed, entries⟩ := exists_eq_ok_of_toOption listed
  exact ⟨index, indexed, entries, (indexDeclarations_contents (.inl rfl) indexed).1⟩

end Compilation
end SchemaTypes
