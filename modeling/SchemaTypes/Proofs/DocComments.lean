import Mathlib.Data.List.TakeWhile
import Mathlib.Order.Interval.Set.Defs
import SchemaTypes.Proofs.FieldLines
import SchemaTypes.Proofs.IndexContents

/-!
Which comments document a node. A comment is known by its position among the siblings, since two of them may have one text
and stand on one row. The comments that are considered for a node are the last ones of those directly before it: all that
start below the row on which the sibling before them ends. So each comment is considered for one node at most, and the
documentation of a pair that becomes no field is lost.
-/

namespace SchemaTypes

open Syntax

/-- Siblings as they follow each other in a source: none starts above the one before it. -/
def SourceOrdered (siblings : List Node) : Prop := siblings.Pairwise fun a b => a.startRow ≤ b.startRow

instance (siblings : List Node) : Decidable (SourceOrdered siblings) :=
  inferInstanceAs (Decidable (siblings.Pairwise fun a b => a.startRow ≤ b.startRow))

namespace Placed

/-! ### Places -/

/-- A node stands in its place in a list of siblings. -/
def Among (place : Placed) (siblings : List Node) : Prop :=
  ∃ after, siblings = place.before.reverse ++ place.node :: after

/-- The position of a node among its siblings. -/
def position (place : Placed) : Nat := place.before.length

/-- The positions of the comments that are considered for a node. -/
def considered (place : Placed) : Set Nat :=
  Set.Ico (place.position - place.leadingComments.length) place.position

theorem among_of_mem_placedChildren {place : Placed} {n : Node} (member : place ∈ n.placedChildren) :
    place.Among n.children := by
  have placed (before l : List Node) (member : place ∈ Node.placedChildren.go before l) :
      ∃ after, before.reverse ++ l = place.before.reverse ++ place.node :: after := by
    induction l generalizing before with
    | nil => cases member
    | cons child rest ih =>
      rcases List.mem_cons.mp member with rfl | later
      · exact ⟨rest, rfl⟩
      · obtain ⟨after, same⟩ := ih (child :: before) later
        refine ⟨after, ?_⟩
        rw [← same, List.reverse_cons, List.append_assoc, List.singleton_append]
  exact placed [] n.children member

/-- A place is told by its position. -/
theorem eq_of_position {place other : Placed} {siblings : List Node} (among : place.Among siblings)
    (among' : other.Among siblings) (same : place.position = other.position) : place = other := by
  obtain ⟨after, split⟩ := among
  obtain ⟨after', split'⟩ := among'
  have lengths : place.before.reverse.length = other.before.reverse.length := by
    rw [List.length_reverse, List.length_reverse]
    exact same
  obtain ⟨front, rest⟩ := List.append_inj (split.symm.trans split') lengths
  obtain ⟨node, -⟩ := List.cons.inj rest
  cases place
  cases other
  rw [List.reverse_inj] at front
  exact congrArg₂ Placed.mk node front

theorem getElem?_position {place : Placed} {siblings : List Node} (among : place.Among siblings) :
    siblings[place.position]? = some place.node := by
  obtain ⟨after, rfl⟩ := among
  rw [List.getElem?_append_right (by simp [position])]
  simp [position]

/-! ### The comments before a node -/

/-- How the siblings before a node divide: what is there up to the last one that is no comment, the comments that trail
that one, and the comments that lead up to the node. -/
structure Division (before front trailing leading : List Node) : Prop where
  split : before = front ++ (trailing ++ leading)
  comments : ∀ c ∈ trailing ++ leading, c.isComment = true
  rows : front = [] ∧ trailing = [] ∨ ∃ earlier sibling, front = earlier ++ [sibling] ∧ sibling.isComment = false ∧
    (∀ c ∈ trailing, c.startRow ≤ sibling.endRow) ∧ ∀ c ∈ leading, sibling.endRow < c.startRow

/-- In a list in which a property is kept once it holds, the elements that have it are the last ones. -/
theorem exists_append_filter {α : Type} {p : α → Bool} {l : List α}
    (kept : l.Pairwise fun a b => p a = true → p b = true) :
    ∃ front, l = front ++ l.filter p ∧ ∀ a ∈ front, p a = false := by
  induction l with
  | nil => exact ⟨[], rfl, by simp⟩
  | cons a l ih =>
    obtain ⟨further, kept⟩ := List.pairwise_cons.mp kept
    cases here : p a with
    | true =>
      have all : l.filter p = l := List.filter_eq_self.mpr fun b member => further b member here
      exact ⟨[], by rw [List.filter_cons_of_pos here, all]; rfl, by simp⟩
    | false =>
      obtain ⟨front, split, none⟩ := ih kept
      refine ⟨a :: front, ?_, ?_⟩
      · rw [List.filter_cons_of_neg (by simp [here]), List.cons_append, ← split]
      · intro b member
        rcases List.mem_cons.mp member with rfl | later
        · exact here
        · exact none b later

theorem exists_division (place : Placed) (ordered : SourceOrdered place.before.reverse) :
    ∃ front trailing, Division place.before.reverse front trailing place.leadingComments := by
  have whole : place.before.reverse =
      (place.before.dropWhile Node.isComment).reverse ++ (place.before.takeWhile Node.isComment).reverse := by
    rw [← List.reverse_append, List.takeWhile_append_dropWhile]
  have comments : ∀ c ∈ (place.before.takeWhile Node.isComment).reverse, c.isComment = true := fun c member =>
    List.mem_takeWhile_imp (List.mem_reverse.mp member)
  cases rest : place.before.dropWhile Node.isComment with
  | nil =>
    have all : place.leadingComments = (place.before.takeWhile Node.isComment).reverse := by
      unfold leadingComments
      rw [rest]
    refine ⟨[], [], ?_, ?_, .inl ⟨rfl, rfl⟩⟩
    · rw [whole, rest, all]
      rfl
    · rw [all]
      exact comments
  | cons sibling others =>
    have some : place.leadingComments =
        (place.before.takeWhile Node.isComment).reverse.filter (sibling.endRow < ·.startRow) := by
      unfold leadingComments
      rw [rest]
    have solid : sibling.isComment = false := by
      have first := List.head?_dropWhile_not Node.isComment place.before
      rwa [rest] at first
    -- rows do not decrease, so once a comment starts low enough all further ones do
    have kept : (place.before.takeWhile Node.isComment).reverse.Pairwise fun a b =>
        decide (sibling.endRow < a.startRow) = true → decide (sibling.endRow < b.startRow) = true := by
      rw [SourceOrdered, whole] at ordered
      refine (List.pairwise_append.mp ordered).2.1.imp fun {a b} lower low => ?_
      rw [decide_eq_true_eq] at low ⊢
      omega
    obtain ⟨trailing, split, high⟩ := exists_append_filter kept
    refine ⟨others.reverse ++ [sibling], trailing, ?_, ?_, .inr ⟨others.reverse, sibling, rfl, solid, ?_, ?_⟩⟩
    · rw [some, ← split, whole, rest, List.reverse_cons]
    · rw [some, ← split]
      exact comments
    · intro c member
      have above := high c member
      rw [decide_eq_false_iff_not] at above
      omega
    · intro c member
      rw [some, List.mem_filter, decide_eq_true_eq] at member
      exact member.2

/-- The last sibling before a position that is no comment. -/
structure NearestBefore (siblings : List Node) (i p : Nat) (sibling : Node) : Prop where
  before : p < i
  stands : siblings[p]? = some sibling
  solid : sibling.isComment = false
  between : ∀ k c, p < k → k < i → siblings[k]? = some c → c.isComment = true

/-- A comment leads up to a position: there are only comments from it on, and it starts below the row on which the last
sibling before that is no comment ends, if there is one. -/
structure LeadsUpTo (siblings : List Node) (i j : Nat) : Prop where
  before : j < i
  comments : ∀ k c, j ≤ k → k < i → siblings[k]? = some c → c.isComment = true
  below : ∀ p sibling c, NearestBefore siblings i p sibling → siblings[j]? = some c → sibling.endRow < c.startRow

namespace Division

variable {before front trailing leading siblings after : List Node} {node : Node}

theorem length_eq (division : Division before front trailing leading) :
    before.length = front.length + (trailing.length + leading.length) := by
  rw [division.split, List.length_append, List.length_append]

/-- What stands behind the front is a comment. -/
theorem mem_of_getElem? (division : Division before front trailing leading) (split : siblings = before ++ node :: after)
    {k : Nat} {c : Node} (behind : front.length ≤ k) (ahead : k < before.length) (stands : siblings[k]? = some c) :
    c ∈ trailing ++ leading := by
  have length := division.length_eq
  rw [split, division.split, List.append_assoc, List.getElem?_append_right behind, List.getElem?_append_left] at stands
  · exact List.mem_of_getElem? stands
  · rw [List.length_append]
    omega

/-- What stands in the last part leads up to the node. -/
theorem mem_leading (division : Division before front trailing leading) (split : siblings = before ++ node :: after)
    {k : Nat} {c : Node} (behind : before.length - leading.length ≤ k) (ahead : k < before.length)
    (stands : siblings[k]? = some c) : c ∈ leading := by
  have length := division.length_eq
  rw [split, division.split, ← List.append_assoc, List.append_assoc, List.getElem?_append_right,
    List.getElem?_append_left] at stands
  · exact List.mem_of_getElem? stands
  · rw [List.length_append]
    omega
  · rw [List.length_append]
    omega

theorem mem_trailing (division : Division before front trailing leading) (split : siblings = before ++ node :: after)
    {k : Nat} {c : Node} (behind : front.length ≤ k) (ahead : k < before.length - leading.length)
    (stands : siblings[k]? = some c) : c ∈ trailing := by
  have length := division.length_eq
  rw [split, division.split, List.append_assoc, List.getElem?_append_right behind, List.append_assoc,
    List.getElem?_append_left] at stands
  · exact List.mem_of_getElem? stands
  · omega

/-- The last part has the comments that lead up to the node. -/
theorem leadsUpTo_iff (division : Division before front trailing leading) (split : siblings = before ++ node :: after)
    (j : Nat) :
    LeadsUpTo siblings before.length j ↔ before.length - leading.length ≤ j ∧ j < before.length := by
  have length := division.length_eq
  rcases division.rows with ⟨rfl, rfl⟩ | ⟨earlier, sibling, rfl, solid, high, low⟩
  · -- there are nothing but comments before the node
    rw [List.length_nil] at length
    constructor
    · intro leads
      have ahead := leads.before
      omega
    · rintro ⟨-, ahead⟩
      refine ⟨ahead, fun k c _ limit stands => ?_, fun p sibling c nearest _ => ?_⟩
      · exact division.comments c (division.mem_of_getElem? split (Nat.zero_le k) limit stands)
      · have comment := division.comments sibling
          (division.mem_of_getElem? split (Nat.zero_le p) nearest.before nearest.stands)
        exact absurd (comment.symm.trans nearest.solid) (by decide)
  · rw [List.length_append, List.length_singleton] at length
    have here : siblings[earlier.length]? = some sibling := by
      rw [split, division.split]
      simp
    have comment {k : Nat} {c : Node} (behind : earlier.length < k) (limit : k < before.length)
        (stands : siblings[k]? = some c) : c.isComment = true := by
      apply division.comments c
      apply division.mem_of_getElem? split _ limit stands
      rw [List.length_append, List.length_singleton]
      omega
    constructor
    · intro leads
      have ahead := leads.before
      -- the sibling is no comment, so a comment that leads up to the node stands behind it
      have behind : earlier.length < j := by
        by_contra early
        have wrong := leads.comments earlier.length sibling (by omega) (by omega) here
        exact absurd (wrong.symm.trans solid) (by decide)
      refine ⟨?_, ahead⟩
      by_contra short
      have inside : j < siblings.length := by
        rw [split, List.length_append]
        omega
      have stands : siblings[j]? = some siblings[j] := List.getElem?_eq_getElem inside
      have member := division.mem_trailing split (k := j) (by simp; omega) (by omega) stands
      have nearest : NearestBefore siblings before.length earlier.length sibling :=
        ⟨by omega, here, solid, fun k c late limit stands => comment late limit stands⟩
      have above := high _ member
      have below := leads.below _ _ _ nearest stands
      omega
    · rintro ⟨late, ahead⟩
      refine ⟨ahead, fun k c behind limit stands => comment (by omega) limit stands, ?_⟩
      intro p found c nearest stands
      have position : p = earlier.length := by
        rcases Nat.lt_trichotomy p earlier.length with early | same | late'
        · have wrong := nearest.between earlier.length sibling early (by omega) here
          exact absurd (wrong.symm.trans solid) (by decide)
        · exact same
        · have wrong := comment late' nearest.before nearest.stands
          exact absurd (wrong.symm.trans nearest.solid) (by decide)
      subst position
      cases here.symm.trans nearest.stands
      exact low c (division.mem_leading split late ahead stands)

end Division

section Considered

variable {place : Placed} {siblings : List Node} (among : place.Among siblings)
include among

theorem sourceOrdered_before (ordered : SourceOrdered siblings) : SourceOrdered place.before.reverse := by
  obtain ⟨after, rfl⟩ := among
  exact (List.pairwise_append.mp ordered).1

/-- The considered comments are those that lead up to the node. -/
theorem mem_considered_iff (ordered : SourceOrdered siblings) (j : Nat) :
    j ∈ place.considered ↔ LeadsUpTo siblings place.position j := by
  obtain ⟨front, trailing, division⟩ := place.exists_division (sourceOrdered_before among ordered)
  obtain ⟨after, split⟩ := among
  have told := division.leadsUpTo_iff split j
  rw [List.length_reverse] at told
  exact told.symm

/-- The leading comments are those at the considered positions. -/
theorem leadingComments_eq_slice (ordered : SourceOrdered siblings) :
    place.leadingComments =
      (siblings.take place.position).drop (place.position - place.leadingComments.length) := by
  obtain ⟨front, trailing, division⟩ := place.exists_division (sourceOrdered_before among ordered)
  have length := division.length_eq
  rw [List.length_reverse] at length
  obtain ⟨after, split⟩ := among
  have taken : siblings.take place.position = place.before.reverse := by
    rw [split, List.take_append_of_le_length (by simp [position]), List.take_of_length_le (by simp [position])]
  rw [taken, division.split, ← List.append_assoc, List.drop_append_of_le_length, List.drop_of_length_le, List.nil_append]
  · simp only [List.length_append, position]
    omega
  · simp only [List.length_append, position]
    omega

/-- No comment is considered for two different nodes that are no comments themselves. -/
theorem apart_considered (ordered : SourceOrdered siblings) {other : Placed} (among' : other.Among siblings)
    (solid : place.node.isComment = false) (solid' : other.node.isComment = false) (different : place ≠ other) :
    ∀ j ∈ place.considered, j ∉ other.considered := by
  intro j mine others
  have leads := (mem_considered_iff among ordered j).mp mine
  have leads' := (mem_considered_iff among' ordered j).mp others
  rcases Nat.lt_trichotomy place.position other.position with earlier | same | later
  · have wrong := leads'.comments _ _ (Nat.le_of_lt leads.before) earlier (getElem?_position among)
    exact absurd (wrong.symm.trans solid) (by decide)
  · exact different (eq_of_position among among' same)
  · have wrong := leads.comments _ _ (Nat.le_of_lt leads'.before) later (getElem?_position among')
    exact absurd (wrong.symm.trans solid') (by decide)

end Considered

/-! ### Documentation -/

/-- A text is that of a documentation comment. -/
def IsDoc (t : Text) : Prop := ∃ rest : Text, t = ("/**" : Text) ++ rest

theorem startsWith_iff_isDoc (t : Text) : Text.startsWith "/**" t = true ↔ IsDoc t := by
  rw [Text.startsWith, Option.isSome_iff_exists]
  constructor
  · rintro ⟨rest, found⟩
    exact ⟨rest, Text.dropStart?_eq_some found⟩
  · rintro ⟨rest, rfl⟩
    exact ⟨rest, Text.dropStart?_append _ rest⟩

/-- The text of the sibling at a position. -/
def TextAt (siblings : List Node) (j : Nat) (t : Text) : Prop := ∃ c, siblings[j]? = some c ∧ c.text = .ok t

/-- Of the siblings at some positions, all of which can be read, one is a documentation comment and has none past it. -/
def Selects (siblings : List Node) (positions : Set Nat) (past : Nat → Nat → Prop) (doc : Text) : Prop :=
  (∀ j ∈ positions, ∃ t, TextAt siblings j t) ∧
    ∃ j ∈ positions, ∃ t, TextAt siblings j t ∧ IsDoc t ∧ doc = t.trim ∧
      ∀ k ∈ positions, past j k → ∀ t', TextAt siblings k t' → ¬ IsDoc t'

theorem firstDoc_eq_map (place : Placed) :
    place.firstDoc = (place.leadingComments.mapM Node.text).map fun texts =>
      (texts.filter (Text.startsWith "/**")).head?.map Text.trim := by
  rw [firstDoc, docComments]
  cases place.leadingComments.mapM Node.text <;> rfl

theorem lastDoc_eq_map (place : Placed) :
    place.lastDoc = (place.leadingComments.mapM Node.text).map fun texts =>
      (texts.filter (Text.startsWith "/**")).getLast?.map Text.trim := by
  rw [lastDoc, docComments]
  cases place.leadingComments.mapM Node.text <;> rfl

section Selection

variable {α : Type} {p : α → Bool} {l : List α} {a : α}

theorem head?_filter_eq_some_iff :
    (l.filter p).head? = some a ↔
      ∃ k : Nat, l[k]? = some a ∧ p a = true ∧ ∀ (i : Nat) b, i < k → l[i]? = some b → p b = false := by
  rw [List.head?_filter, List.find?_eq_some_iff_getElem]
  constructor
  · rintro ⟨holds, k, inside, rfl, earlier⟩
    refine ⟨k, List.getElem?_eq_getElem inside, holds, fun i b before found => ?_⟩
    obtain ⟨_, rfl⟩ := List.getElem?_eq_some_iff.mp found
    simpa using earlier i before
  · rintro ⟨k, found, holds, earlier⟩
    obtain ⟨inside, rfl⟩ := List.getElem?_eq_some_iff.mp found
    refine ⟨holds, k, inside, rfl, fun i before => ?_⟩
    simpa using earlier i _ before (List.getElem?_eq_getElem (Nat.lt_trans before inside))

theorem getLast?_filter_eq_some_iff :
    (l.filter p).getLast? = some a ↔
      ∃ k : Nat, l[k]? = some a ∧ p a = true ∧ ∀ (i : Nat) b, k < i → l[i]? = some b → p b = false := by
  rw [← List.head?_reverse, ← List.filter_reverse, List.head?_filter, OrderedMap.find?_reverse_eq_some_iff]
  constructor
  · rintro ⟨before, after, rfl, holds, later⟩
    refine ⟨before.length, by simp, holds, fun i b behind found => ?_⟩
    obtain ⟨k, rfl⟩ := Nat.exists_eq_add_of_lt behind
    rw [List.getElem?_append_right (by omega), Nat.add_assoc, Nat.add_sub_cancel_left, List.getElem?_cons_succ] at found
    exact later b (List.mem_of_getElem? found)
  · rintro ⟨k, found, holds, later⟩
    obtain ⟨inside, rfl⟩ := List.getElem?_eq_some_iff.mp found
    refine ⟨l.take k, l.drop (k + 1), by simp, holds, fun b member => ?_⟩
    obtain ⟨i, here⟩ := List.mem_iff_getElem?.mp member
    rw [List.getElem?_drop] at here
    exact later (k + 1 + i) b (by omega) here

end Selection

section Documentation

variable {place : Placed} {siblings : List Node} (among : place.Among siblings) (ordered : SourceOrdered siblings)
include among ordered

theorem length_leadingComments_le : place.leadingComments.length ≤ place.position := by
  obtain ⟨front, trailing, division⟩ := place.exists_division (sourceOrdered_before among ordered)
  have length := division.length_eq
  rw [List.length_reverse] at length
  rw [position]
  omega

/-- The considered positions are those of the leading comments, one after the other. -/
theorem getElem?_leadingComments (k : Nat) (c : Node) :
    place.leadingComments[k]? = some c ↔
      place.position - place.leadingComments.length + k ∈ place.considered ∧
        siblings[place.position - place.leadingComments.length + k]? = some c := by
  have slice : place.leadingComments[k]? =
      ((siblings.take place.position).drop (place.position - place.leadingComments.length))[k]? := by
    rw [← leadingComments_eq_slice among ordered]
  rw [slice, List.getElem?_drop, List.getElem?_take, considered, Set.mem_Ico]
  split
  next inside => simp [inside]
  next outside => simp [outside]

/-- The texts of the leading comments are those at the considered positions. -/
theorem getElem?_texts {texts : List Text} (read : place.leadingComments.mapM Node.text = .ok texts) (k : Nat) (t : Text) :
    texts[k]? = some t ↔ place.position - place.leadingComments.length + k ∈ place.considered ∧
      TextAt siblings (place.position - place.leadingComments.length + k) t := by
  rw [getElem?_of_mapM read]
  simp only [getElem?_leadingComments among ordered, TextAt]
  constructor
  · rintro ⟨c, ⟨inside, stands⟩, text⟩
    exact ⟨inside, c, stands, text⟩
  · rintro ⟨inside, c, stands, text⟩
    exact ⟨c, ⟨inside, stands⟩, text⟩

theorem exists_texts_iff :
    (∃ texts, place.leadingComments.mapM Node.text = .ok texts) ↔ ∀ j ∈ place.considered, ∃ t, TextAt siblings j t := by
  have short := length_leadingComments_le among ordered
  rw [exists_mapM_eq_ok_iff]
  constructor
  · intro each j inside
    obtain ⟨k, rfl⟩ := Nat.exists_eq_add_of_le inside.1
    have behind := inside.2
    have within : k < place.leadingComments.length := by omega
    have found := List.getElem?_eq_getElem within
    obtain ⟨-, stands⟩ := (getElem?_leadingComments among ordered k _).mp found
    obtain ⟨t, text⟩ := each _ (List.getElem_mem within)
    exact ⟨t, _, stands, text⟩
  · intro each c member
    obtain ⟨k, found⟩ := List.mem_iff_getElem?.mp member
    obtain ⟨inside, stands⟩ := (getElem?_leadingComments among ordered k c).mp found
    obtain ⟨t, c', stands', text⟩ := each _ inside
    cases stands.symm.trans stands'
    exact ⟨t, text⟩

/-- Picking one of the documentation comments by how they follow each other is selecting it by position. -/
theorem doc_eq_some_iff (pick : List Text → Option Text) (past : Nat → Nat → Prop)
    (shift : ∀ n j k, past (n + j) (n + k) ↔ past j k)
    (picks : ∀ (texts : List Text) t, pick (texts.filter (Text.startsWith "/**")) = some t ↔
      ∃ j : Nat, texts[j]? = some t ∧ Text.startsWith "/**" t = true ∧
        ∀ (k : Nat) t', past j k → texts[k]? = some t' → Text.startsWith "/**" t' = false) (doc : Text) :
    ((place.leadingComments.mapM Node.text).map fun texts =>
      (pick (texts.filter (Text.startsWith "/**"))).map Text.trim) = .ok (some doc) ↔
      Selects siblings place.considered past doc := by
  have plain (t : Text) : Text.startsWith "/**" t = false ↔ ¬ IsDoc t := by
    rw [← startsWith_iff_isDoc, Bool.not_eq_true]
  rw [Selects, ← exists_texts_iff among ordered]
  cases read : place.leadingComments.mapM Node.text with
  | error e => simp [Except.map]
  | ok texts =>
    have placed := getElem?_texts among ordered read
    rw [Except.map, Except.ok.injEq, Option.map_eq_some_iff]
    simp only [picks, startsWith_iff_isDoc, plain]
    constructor
    · rintro ⟨t, ⟨j, found, isDoc, none⟩, rfl⟩
      obtain ⟨inside, here⟩ := (placed j t).mp found
      refine ⟨⟨texts, rfl⟩, _, inside, t, here, isDoc, rfl, fun k member further t' there => ?_⟩
      obtain ⟨i, rfl⟩ := Nat.exists_eq_add_of_le member.1
      exact none i t' ((shift _ _ _).mp further) ((placed i t').mpr ⟨member, there⟩)
    · rintro ⟨-, j, inside, t, here, isDoc, rfl, none⟩
      obtain ⟨i, rfl⟩ := Nat.exists_eq_add_of_le inside.1
      refine ⟨t, ⟨i, (placed i t).mpr ⟨inside, here⟩, isDoc, fun k t' further found => ?_⟩, rfl⟩
      obtain ⟨member, there⟩ := (placed k t').mp found
      exact none _ member ((shift _ _ _).mpr further) t' there

theorem doc_eq_none_iff (pick : List Text → Option Text) (empty : ∀ docs, pick docs = none ↔ docs = []) :
    ((place.leadingComments.mapM Node.text).map fun texts =>
      (pick (texts.filter (Text.startsWith "/**"))).map Text.trim) = .ok none ↔
      ∀ j ∈ place.considered, ∃ t, TextAt siblings j t ∧ ¬ IsDoc t := by
  constructor
  · intro absent
    have readable : ∀ j ∈ place.considered, ∃ t, TextAt siblings j t := by
      apply (exists_texts_iff among ordered).mp
      cases read : place.leadingComments.mapM Node.text with
      | error e =>
        rw [read] at absent
        cases absent
      | ok texts => exact ⟨texts, rfl⟩
    intro j inside
    obtain ⟨t, here⟩ := readable j inside
    refine ⟨t, here, fun isDoc => ?_⟩
    obtain ⟨texts, read⟩ := (exists_texts_iff among ordered).mpr readable
    rw [read, Except.map, Except.ok.injEq, Option.map_eq_none_iff, empty, List.filter_eq_nil_iff] at absent
    obtain ⟨i, rfl⟩ := Nat.exists_eq_add_of_le inside.1
    have found := (getElem?_texts among ordered read i t).mpr ⟨inside, here⟩
    exact absent t (List.mem_of_getElem? found) ((startsWith_iff_isDoc t).mpr isDoc)
  · intro plain
    obtain ⟨texts, read⟩ := (exists_texts_iff among ordered).mpr fun j inside =>
      (plain j inside).imp fun t both => both.1
    rw [read, Except.map, Except.ok.injEq, Option.map_eq_none_iff, empty, List.filter_eq_nil_iff]
    intro t member
    obtain ⟨i, found⟩ := List.mem_iff_getElem?.mp member
    obtain ⟨inside, c, stands, text⟩ := (getElem?_texts among ordered read i t).mp found
    obtain ⟨t', ⟨c', stands', text'⟩, notDoc⟩ := plain _ inside
    cases stands.symm.trans stands'
    cases text.symm.trans text'
    rwa [startsWith_iff_isDoc]

end Documentation

/-- The comments before a node in its place, and the documentation they give to it. -/
structure Documented (siblings : List Node) (place : Placed) : Prop where
  /-- The considered comments are all those that lead up to the node, without a gap. -/
  slice : place.leadingComments =
    (siblings.take place.position).drop (place.position - place.leadingComments.length)
  mem_considered : ∀ j, j ∈ place.considered ↔ LeadsUpTo siblings place.position j
  /-- No other node has a comment with it in common. -/
  apart : ∀ other : Placed, other.Among siblings → other.node.isComment = false → other ≠ place →
    ∀ j ∈ other.considered, j ∉ place.considered
  last_some : ∀ doc, place.lastDoc = .ok (some doc) ↔ Selects siblings place.considered (· < ·) doc
  first_some : ∀ doc, place.firstDoc = .ok (some doc) ↔ Selects siblings place.considered (· > ·) doc
  last_none : place.lastDoc = .ok none ↔ ∀ j ∈ place.considered, ∃ t, TextAt siblings j t ∧ ¬ IsDoc t
  first_none : place.firstDoc = .ok none ↔ ∀ j ∈ place.considered, ∃ t, TextAt siblings j t ∧ ¬ IsDoc t

theorem documented {place : Placed} {siblings : List Node} (among : place.Among siblings)
    (ordered : SourceOrdered siblings) (solid : place.node.isComment = false) : Documented siblings place where
  slice := leadingComments_eq_slice among ordered
  mem_considered := mem_considered_iff among ordered
  apart := fun _ among' solid' different => apart_considered among' ordered among solid' solid different
  last_some := by
    intro doc
    rw [lastDoc_eq_map]
    apply doc_eq_some_iff among ordered List.getLast? (· < ·)
    · intro n j k
      omega
    · intro texts t
      exact getLast?_filter_eq_some_iff
  first_some := by
    intro doc
    rw [firstDoc_eq_map]
    apply doc_eq_some_iff among ordered List.head? (· > ·)
    · intro n j k
      omega
    · intro texts t
      exact head?_filter_eq_some_iff
  last_none := by
    rw [lastDoc_eq_map]
    exact doc_eq_none_iff among ordered List.getLast? fun _ => List.getLast?_eq_none_iff
  first_none := by
    rw [firstDoc_eq_map]
    exact doc_eq_none_iff among ordered List.head? fun _ => List.head?_eq_none_iff

end Placed

/-! ### Fields -/

theorem exists_kept_of_filterMapM {α β ε : Type} {f : α → Except ε (Option β)} {l : List α} {found : List β}
    (read : l.filterMapM f = .ok found) :
    ∃ kept : List α, kept.Sublist l ∧ List.Forall₂ (fun a b => a ∈ l ∧ f a = .ok (some b)) kept found := by
  induction l generalizing found with
  | nil =>
    cases read
    exact ⟨[], .slnil, .nil⟩
  | cons a l ih =>
    rw [List.filterMapM_cons] at read
    obtain ⟨item, first, read⟩ := bind_eq_ok_iff.mp read
    cases item with
    | none =>
      obtain ⟨kept, sublist, each⟩ := ih read
      exact ⟨kept, sublist.cons a, each.imp fun _ _ both => both.imp_left (List.mem_cons_of_mem a)⟩
    | some b =>
      obtain ⟨others, rest, read⟩ := bind_eq_ok_iff.mp read
      cases read
      obtain ⟨kept, sublist, each⟩ := ih rest
      refine ⟨a :: kept, sublist.cons_cons a, .cons ⟨List.mem_cons_self, first⟩ ?_⟩
      exact each.imp fun _ _ both => both.imp_left (List.mem_cons_of_mem a)

/-- A field with its documentation is that of a pair that is not dropped, and has the last documentation before it. -/
theorem Field.lastDoc_of_ofPair {place : Placed} {field : Field} (made : Field.ofPair true place = .ok (some field)) :
    place.lastDoc = .ok field.doc ∧ ¬ place.node.IsDropped := by
  unfold Field.ofPair at made
  obtain ⟨found, keyed, made⟩ := bind_eq_ok_iff.mp made
  cases found with
  | none => cases made
  | some named =>
    obtain ⟨name, value⟩ := named
    obtain ⟨found, built, made⟩ := bind_eq_ok_iff.mp made
    cases found with
    | none => cases made
    | some schema =>
      dsimp only at made
      rw [if_pos rfl] at made
      obtain ⟨doc, documented, made⟩ := bind_eq_ok_iff.mp made
      cases made
      refine ⟨documented, ?_⟩
      rintro (nameless | ⟨name', value', keyed', outside⟩)
      · cases keyed.symm.trans nameless
      · cases keyed.symm.trans keyed'
        cases built.symm.trans outside

theorem isComment_of_pair {n : Node} (pair : n.kind = .pair) : n.isComment = false := by
  rw [Node.isComment, pair]
  rfl

/-- A field of a literal is made of one of its pairs. Its documentation is the last one before that pair, and no comment
before it is one before a pair that is dropped. -/
structure Field.MadeAt (literal : Node) (place : Placed) (field : Field) : Prop where
  pair : place.node.kind = .pair
  made : Field.ofPair true place = .ok (some field)
  doc : place.lastDoc = .ok field.doc
  apart : ∀ dropped ∈ literal.placedChildren, dropped.node.kind = .pair → dropped.node.IsDropped →
    ∀ j ∈ dropped.considered, j ∉ place.considered

/-- The fields of a literal are those of some of its pairs, in their order. -/
theorem Field.exists_madeAt_of_ofLiteral {literal : Node} {fields : List Field} (ordered : SourceOrdered literal.children)
    (read : Field.ofLiteral true literal = .ok fields) :
    ∃ places : List Placed, places.Sublist literal.placedChildren ∧
      List.Forall₂ (Field.MadeAt literal) places fields := by
  obtain ⟨places, sublist, each⟩ := exists_kept_of_filterMapM read
  refine ⟨places, sublist.trans List.filter_sublist, each.imp ?_⟩
  rintro place field ⟨member, made⟩
  obtain ⟨listed, kind⟩ := List.mem_filter.mp member
  have pair := beq_iff_eq.mp kind
  obtain ⟨doc, kept⟩ := Field.lastDoc_of_ofPair made
  refine ⟨pair, made, doc, fun dropped listed' pair' drop => ?_⟩
  apply Placed.apart_considered (Placed.among_of_mem_placedChildren listed') ordered
    (Placed.among_of_mem_placedChildren listed) (isComment_of_pair pair') (isComment_of_pair pair)
  rintro rfl
  exact kept drop

/-! ### Statements -/

/-- Siblings in a tree: the children of some part of it, or its root alone. -/
def SiblingsIn (root : Node) (siblings : List Node) : Prop :=
  siblings = [root] ∨ ∃ parent : Node, parent.PartOf root ∧ siblings = parent.children

/-- A node stands in its place in a tree. -/
def Placed.Within (place : Placed) (root : Node) : Prop := ∃ siblings, SiblingsIn root siblings ∧ place.Among siblings

theorem Placed.Within.partOf {place : Placed} {root : Node} (within : place.Within root) : place.node.PartOf root := by
  obtain ⟨siblings, rfl | ⟨parent, part, rfl⟩, among⟩ := within
  · have member := List.mem_of_getElem? (getElem?_position among)
    rw [List.mem_singleton.mp member]
    exact .refl root
  · have member := List.mem_of_getElem? (getElem?_position among)
    exact (Node.partOf_of_mem_children member).trans part

theorem Placed.Within.child {place child : Placed} {root : Node} (within : place.Within root)
    (member : child ∈ place.node.placedChildren) : child.Within root :=
  ⟨place.node.children, .inr ⟨place.node, within.partOf, rfl⟩, among_of_mem_placedChildren member⟩

/-- The statement around a declarator is the list around it or the export around that, and neither is a comment. -/
theorem Encloses.eq_or_eq {parent around : Option Placed} {place : Placed} (encloses : Encloses parent around (some place)) :
    (parent = some place ∨ around = some place) ∧ place.node.isComment = false := by
  cases encloses with
  | exported declares exports =>
    refine ⟨.inr rfl, ?_⟩
    rw [Node.isComment, exports]
    rfl
  | listed declares unexported =>
    refine ⟨.inl rfl, ?_⟩
    rw [Node.isComment]
    rcases declares with kind | kind <;> rw [kind] <;> rfl

theorem DeclaresAt.statement_within {parent around : Option Placed} {place statement : Placed} {address : Address}
    {d : Declarator} {root : Node} (declares : DeclaresAt parent around place address d)
    (parents : ∀ above, parent = some above ∨ around = some above → above.Within root) (within : place.Within root)
    (stated : d.statement = some statement) : statement.Within root ∧ statement.node.isComment = false := by
  induction declares with
  | here kind named identifier encloses =>
    cases stated
    obtain ⟨above, solid⟩ := encloses.eq_or_eq
    exact ⟨parents statement above, solid⟩
  | inside found inner ih =>
    apply ih _ (within.child (List.mem_of_getElem? found)) stated
    rintro above (here | further)
    · cases here
      exact within
    · exact parents above (.inl further)

/-- Which comments document what. In a literal whose children follow each other as in a source, the comments considered for
a child are those that lead up to it, and no two children have one in common. The last documentation among them is the one
nearest to the child and the first one is the farthest, and there is neither just if there is none. A field of the literal
has the last documentation of its own pair, and none of its comments is one of a pair that is dropped. The same is true of
the statement of a declarator among its siblings. -/
theorem docs_attach :
    (∀ literal : Node, SourceOrdered literal.children →
      (∀ place ∈ literal.placedChildren, place.node.isComment = false → Placed.Documented literal.children place) ∧
      ∀ fields, Field.ofLiteral true literal = .ok fields → ∃ places : List Placed,
        places.Sublist literal.placedChildren ∧ List.Forall₂ (Field.MadeAt literal) places fields) ∧
    ∀ (root : Node) (d : Declarator) (place : Placed), d ∈ root.declarators → d.statement = some place →
      ∃ siblings, SiblingsIn root siblings ∧ place.Among siblings ∧
        (SourceOrdered siblings → Placed.Documented siblings place) := by
  refine ⟨fun literal ordered => ⟨fun place member solid => ?_, fun fields read => ?_⟩,
    fun root d place member stated => ?_⟩
  · exact Placed.documented (Placed.among_of_mem_placedChildren member) ordered solid
  · exact Field.exists_madeAt_of_ofLiteral ordered read
  · obtain ⟨address, declares⟩ := (declaratorsIn_inOrder none none [] root).exists_address member
    have start : Placed.Within ⟨root, []⟩ root := ⟨[root], .inl rfl, [], rfl⟩
    obtain ⟨⟨siblings, inside, among⟩, solid⟩ := declares.statement_within (by simp) start stated
    exact ⟨siblings, inside, among, fun ordered => Placed.documented among ordered solid⟩

/-- A literal with a comment behind its brace, two documentations for one pair, one behind a comma and one for a pair that
is dropped. -/
def strayComments : Node :=
  Field.literalOf "(\x7b // t\n/** a */\n/** b */\nx:Type.String(), /** c */\n/** d */ y:1,\nz:Type.Null()\x7d)"

/-- An exported list with two documentations before it. -/
def documentedExport : Node := Syntax.parse .typescript "/** a */\n/** b */\nexport let x=1".toUTF8

mutual

/-- Whether the children of a node follow each other as in a source, and those of every node in it. -/
def Syntax.Node.isOrdered : Node → Bool
  | .mk _ _ _ _ _ children => decide (SourceOrdered children) && Node.areOrdered children

def Syntax.Node.areOrdered : List Node → Bool
  | [] => true
  | child :: rest => child.isOrdered && Node.areOrdered rest

end

theorem Syntax.Node.isOrdered_of_mem {l : List Node} (ordered : areOrdered l = true) :
    ∀ child ∈ l, child.isOrdered = true := by
  induction l with
  | nil => simp
  | cons first rest ih =>
    rw [areOrdered, Bool.and_eq_true] at ordered
    intro child member
    rcases List.mem_cons.mp member with rfl | later
    · exact ordered.1
    · exact ih ordered.2 child later

theorem Syntax.Node.PartOf.isOrdered {part whole : Node} (inside : part.PartOf whole)
    (ordered : whole.isOrdered = true) : part.isOrdered = true := by
  induction inside using Relation.ReflTransGen.head_induction_on with
  | refl => exact ordered
  | @head child parent member _ ih =>
    obtain ⟨kind, role, bytes, startRow, endRow, children⟩ := parent
    rw [Node.isOrdered, Bool.and_eq_true] at ih
    exact isOrdered_of_mem ih.2 child member

theorem SiblingsIn.sourceOrdered {root : Node} {siblings : List Node} (inside : SiblingsIn root siblings)
    (ordered : root.isOrdered = true) : SourceOrdered siblings := by
  rcases inside with rfl | ⟨parent, part, rfl⟩
  · exact List.pairwise_singleton _ _
  · have own := part.isOrdered ordered
    obtain ⟨kind, role, bytes, startRow, endRow, children⟩ := parent
    rw [Node.isOrdered, Bool.and_eq_true] at own
    exact of_decide_eq_true own.1

theorem docs_attach_strayComments :
    SourceOrdered strayComments.children ∧
    (Field.ofLiteral true strayComments).toOption.map (List.map Field.doc) = some [some ("/** b */" : Text), none] ∧
    (∀ place ∈ strayComments.placedChildren, place.node.isComment = false →
      Placed.Documented strayComments.children place) ∧
    (∀ fields, Field.ofLiteral true strayComments = .ok fields → ∃ places : List Placed,
      places.Sublist strayComments.placedChildren ∧ List.Forall₂ (Field.MadeAt strayComments) places fields) ∧
    ∃ d ∈ documentedExport.declarators, ∃ place siblings, d.statement = some place ∧
      place.node.kind = .exportStatement ∧ place.firstDoc.toOption = some (some ("/** a */" : Text)) ∧
      place.Among siblings ∧ Placed.Documented siblings place := by
  have ordered : SourceOrdered strayComments.children := by decide +kernel
  have docs : (Field.ofLiteral true strayComments).toOption.map (List.map Field.doc) =
      some [some ("/** b */" : Text), none] := by
    decide +kernel
  have aligned : documentedExport.isOrdered = true := by decide +kernel
  have stated : (documentedExport.declarators.filterMap fun d =>
      d.statement.map fun place => (place.node.kind, place.firstDoc.toOption)) =
        [(.exportStatement, some (some ("/** a */" : Text)))] := by
    decide +kernel
  obtain ⟨fields, made⟩ := docs_attach.1 strayComments ordered
  refine ⟨ordered, docs, fields, made, ?_⟩
  have listed : (Kind.exportStatement, some (some ("/** a */" : Text))) ∈ documentedExport.declarators.filterMap
      fun d => d.statement.map fun place => (place.node.kind, place.firstDoc.toOption) := by
    rw [stated]
    exact List.mem_cons_self
  obtain ⟨d, member, seen⟩ := List.mem_filterMap.mp listed
  obtain ⟨place, placed, same⟩ := Option.map_eq_some_iff.mp seen
  obtain ⟨kind, first⟩ := Prod.mk.inj same
  obtain ⟨siblings, inside, among, documented⟩ := docs_attach.2 documentedExport d place member placed
  exact ⟨d, member, place, siblings, placed, kind, first, among, documented (inside.sourceOrdered aligned)⟩

end SchemaTypes
