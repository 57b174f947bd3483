import SchemaTypes.Proofs.AliasScope
import SchemaTypes.Proofs.Words.Programs

/-!
Words and lines. No byte of a word ends a line, an identifier of a syntax tree has the bytes of a word, and an ASCII code
point is decoded from its own byte only. So the names that references in a source refer to stand on one line.
-/

namespace SchemaTypes

/-! ### Words of the text -/

namespace Syntax.Input

variable {s : Input}

/-- The bytes that end a line. -/
def endsLine (b : UInt8) : Bool := b = 0x0A || b = 0x0D

/-- A byte of a class that the ends of lines are not in. -/
theorem endsLine_of_class (p : UInt8 → Bool) {b : UInt8} (inside : p b = true) (feed : p 0x0A = false)
    (carriage : p 0x0D = false) : endsLine b = false := by
  have notFeed : b ≠ 0x0A := by
    intro same
    rw [same, feed] at inside
    cases inside
  have notCarriage : b ≠ 0x0D := by
    intro same
    rw [same, carriage] at inside
    cases inside
  simp [endsLine, notFeed, notCarriage]

/-- No line ends between two offsets. -/
def OneLine (s : Input) (i j : Nat) : Prop := ∀ k, i ≤ k → k < j → endsLine (s.byte k) = false

theorem OneLine.of_le {i j : Nat} (reversed : j ≤ i) : s.OneLine i j := by
  intro k after before
  omega

theorem OneLine.append {i j k : Nat} (front : s.OneLine i j) (back : s.OneLine j k) : s.OneLine i k := by
  intro place after before
  by_cases early : place < j
  · exact front place after early
  · exact back place (by omega) before

theorem OneLine.single {i : Nat} (other : endsLine (s.byte i) = false) : s.OneLine i (i + 1) := by
  intro k after before
  have same : k = i := by omega
  rw [same]
  exact other

theorem find_go_spec {condition : Nat → Bool} {fuel i k : Nat} (after : i ≤ k) (before : k < find.go condition fuel i) :
    condition k = false := by
  induction fuel generalizing i with
  | zero =>
    rw [find.go] at before
    omega
  | succ fuel ih =>
    rw [find.go] at before
    split at before
    · omega
    next unmet =>
      by_cases start : k = i
      · rw [start]
        simpa using unmet
      · exact ih (by omega) before

/-- What a search steps over does not meet its condition. -/
theorem eq_false_of_lt_find {condition : Nat → Bool} {i k : Nat} (after : i ≤ k) (before : k < s.find condition i) :
    condition k = false := find_go_spec after before

theorem oneLine_escape (i : Nat) : s.OneLine i (i + s.escapeWidth i) := by
  unfold escapeWidth
  split
  · exact .of_le (by omega)
  next marked =>
    have opening : s.byte i = ascii '\\' ∧ s.byte (i + 1) = ascii 'u' := by
      simpa [spells, spells.go] using marked
    have first : endsLine (s.byte i) = false := by
      rw [opening.1]
      decide
    have second : endsLine (s.byte (i + 1)) = false := by
      rw [opening.2]
      decide
    have start : s.OneLine i (i + 2) := .append (.single first) (.single second)
    split
    next brace =>
      have third : endsLine (s.byte (i + 2)) = false := by
        rw [beq_iff_eq.mp brace]
        decide
      dsimp only
      split
      next closed =>
        have last : endsLine (s.byte (s.find (fun k => !isHexDigit (s.byte k)) (i + 3))) = false := by
          rw [beq_iff_eq.mp closed]
          decide
        have digits : s.OneLine (i + 3) (s.find (fun k => !isHexDigit (s.byte k)) (i + 3)) := by
          intro k after before
          have digit := eq_false_of_lt_find after before
          exact endsLine_of_class isHexDigit (by simpa using digit) (by decide) (by decide)
        have whole := start.append (.append (.single third) (.append digits (.single last)))
        intro k after before
        exact whole k after (by omega)
      · exact .of_le (by omega)
    · split
      next digits =>
        refine start.append fun k after before => endsLine_of_class isHexDigit ?_ (by decide) (by decide)
        have digit := List.all_eq_true.mp digits (k - (i + 2)) (List.mem_range.mpr (by omega))
        rwa [show i + 2 + (k - (i + 2)) = k by omega] at digit
      · exact .of_le (by omega)

theorem endsLine_of_high {b : UInt8} (high : 0x80 ≤ b.toNat) : endsLine b = false :=
  endsLine_of_class (0x80 ≤ ·.toNat) (by simpa using high) (by decide) (by decide)

/-- A character outside ASCII has no byte in ASCII. -/
theorem oneLine_point {i n width : Nat} (high : 0x80 ≤ (s.byte i).toNat) (read : s.point i = (some n, width)) :
    s.OneLine i (i + width) := by
  have tail : ∀ {k m : Nat}, (if 0x80 ≤ (s.byte (i + k)).toNat && (s.byte (i + k)).toNat < 0xC0
      then some ((s.byte (i + k)).toNat - 0x80) else none) = some m →
      endsLine (s.byte (i + k)) = false := by
    intro k m found
    split at found
    next inside =>
      simp only [Bool.and_eq_true, decide_eq_true_eq] at inside
      exact endsLine_of_high inside.1
    · cases found
  have lead : s.OneLine i (i + 1) := .single (endsLine_of_high high)
  -- one case for each width
  unfold point at read
  dsimp only at read
  rw [if_neg (by omega)] at read
  split at read
  · split at read
    next b found =>
      cases read
      exact lead.append (.single (tail found))
    · cases read
  · split at read
    · split at read
      next b c second third =>
        cases read
        exact lead.append (.append (.single (tail second)) (.single (tail third)))
      · cases read
    · split at read
      next b c d second third fourth =>
        cases read
        exact lead.append (.append (.single (tail second)) (.append (.single (tail third)) (.single (tail fourth))))
      · cases read

theorem oneLine_identifier (first : Bool) (i : Nat) : s.OneLine i (i + s.identifierWidth first i) := by
  unfold identifierWidth
  dsimp only
  split
  next low =>
    split
    next letter =>
      refine .single (endsLine_of_class
        (fun b => isLetter b || b == ascii '_' || b == ascii '$' || (!first && isDigit b)) letter ?_ ?_)
      all_goals cases first <;> decide
    · split
      · exact oneLine_escape i
      · exact .of_le (by omega)
  next high =>
    have above : 0x80 ≤ (s.byte i).toNat := by
      simpa [UInt8.lt_iff_toNat_lt] using high
    split
    next n width read =>
      split
      · exact .of_le (by omega)
      · exact oneLine_point above read
    · exact .of_le (by omega)

theorem oneLine_word_go (fuel i : Nat) : s.OneLine i (wordEnd?.go s fuel i) := by
  induction fuel generalizing i with
  | zero =>
    rw [wordEnd?.go]
    exact .of_le (by omega)
  | succ fuel ih =>
    rw [wordEnd?.go]
    split
    · exact .of_le (by omega)
    · exact (oneLine_identifier false i).append (ih _)

/-- A word stands on one line. -/
theorem oneLine_word {i j : Nat} (ending : s.wordEnd? i = some j) : s.OneLine i j := by
  unfold wordEnd? at ending
  split at ending
  · cases ending
  next width starts =>
    cases ending
    have first := oneLine_identifier (s := s) true i
    rw [starts] at first
    exact first.append (oneLine_word_go _ _)

end Syntax.Input

/-! ### Identifiers of a tree -/

namespace Syntax.Node

theorem mem_of_mem_toList_loop {bytes : ByteArray} {b : UInt8} {i : Nat} {sofar : List UInt8}
    (member : b ∈ ByteArray.toList.loop bytes i sofar) :
    b ∈ sofar ∨ ∃ k, k < bytes.size ∧ bytes.get! k = b := by
  fun_induction ByteArray.toList.loop bytes i sofar with
  | case1 i sofar inside ih =>
    rcases ih member with earlier | later
    · rcases List.mem_cons.mp earlier with here | earlier
      · exact .inr ⟨i, inside, here.symm⟩
      · exact .inl earlier
    · exact .inr later
  | case2 => exact .inl (List.mem_reverse.mp member)

theorem exists_of_mem_slice {page : Page} {start stop : Nat} {b : UInt8} (member : b ∈ page.slice start stop) :
    ∃ k, start ≤ k ∧ k < stop ∧ page.input.byte k = b := by
  rcases mem_of_mem_toList_loop member with none | ⟨k, inside, found⟩
  · cases none
  · rw [ByteArray.size_extract] at inside
    refine ⟨start + k, by omega, by omega, ?_⟩
    have within : start + k < page.input.bytes.size := by omega
    have here : k < (page.input.bytes.data.extract start stop).size := by
      rw [Array.size_extract]
      exact inside
    rw [Input.byte, dif_pos within, ← found, ByteArray.get!, ByteArray.data_extract, getElem!_pos _ k here,
      Array.getElem_extract]
    rfl

/-- A comment as it stands between tokens: it plays no part in the node around it, and there is nothing in it. -/
structure BareComment (n : Node) : Prop where
  comment : n.kind = .comment
  role : n.role = none
  leaf : n.children = []

theorem comments_go {page : Page} {stop fuel i : Nat} {node : Node} (member : node ∈ comments.go page stop fuel i) :
    node.BareComment := by
  induction fuel generalizing i with
  | zero => cases member
  | succ fuel ih =>
    rw [comments.go] at member
    split at member
    · cases member
    · split at member
      · rcases List.mem_cons.mp member with here | later
        · subst here
          exact ⟨rfl, rfl, rfl⟩
        · exact ih later
      · cases member

/-- A child in a list of nodes with their comments is a comment or the node of an outline. -/
theorem mem_ofOutlines {page : Page} {start : Nat} {outlines : List Outline} {node : Node}
    (member : node ∈ ofOutlines page start outlines) :
    node.BareComment ∨ ∃ o ∈ outlines, node = ofOutline page o := by
  induction outlines generalizing start with
  | nil => cases member
  | cons o rest ih =>
    rw [ofOutlines, List.mem_append, List.mem_cons] at member
    rcases member with comment | here | later
    · exact .inl (comments_go comment)
    · exact .inr ⟨o, List.mem_cons_self, here⟩
    · rcases ih later with comment | ⟨other, listed, same⟩
      · exact .inl comment
      · exact .inr ⟨other, List.mem_cons_of_mem o listed, same⟩

/-- A bare comment has no parts but itself. -/
theorem BareComment.eq_of_partOf {n part : Node} (bare : n.BareComment) (inside : part.PartOf n) : part = n := by
  rcases Relation.ReflTransGen.cases_tail inside with same | ⟨child, -, member⟩
  · exact same.symm
  · rw [bare.leaf] at member
    cases member

/-- An identifier in the tree of an outline stands on one line. -/
theorem endsLine_of_worded {page : Page} {o : Outline} (worded : o.Worded page.input) {node : Node}
    (part : node.PartOf (ofOutline page o)) (identifier : node.kind = .identifier) :
    ∀ b ∈ node.bytes, Input.endsLine b = false := by
  induction worded with
  | @mk kind role start stop children solid word inside ih =>
    rcases Relation.ReflTransGen.cases_tail part with same | ⟨child, further, member⟩
    · subst same
      rw [ofOutline] at identifier ⊢
      intro b member
      obtain ⟨k, after, before, rfl⟩ := exists_of_mem_slice member
      exact Input.oneLine_word (word identifier) k after before
    · rw [ofOutline] at member
      rcases mem_ofOutlines member with bare | ⟨o, listed, same⟩
      · rw [bare.eq_of_partOf further, bare.comment] at identifier
        cases identifier
      · subst same
        exact ih o listed further

/-- Only what stands between tokens is a comment in the tree of an outline. -/
theorem bareComment_of_worded {page : Page} {o : Outline} (worded : o.Worded page.input) {node : Node}
    (part : node.PartOf (ofOutline page o)) (comment : node.kind = .comment) : node.BareComment := by
  induction worded with
  | @mk kind role start stop children solid word inside ih =>
    rcases Relation.ReflTransGen.cases_tail part with same | ⟨child, further, member⟩
    · subst same
      rw [ofOutline] at comment
      exact absurd comment solid
    · rw [ofOutline] at member
      rcases mem_ofOutlines member with bare | ⟨o, listed, same⟩
      · rwa [bare.eq_of_partOf further]
      · subst same
        exact ih o listed further

end Syntax.Node

namespace Syntax.TreeParser

/-- What is asked of a parser where its trees are looked into: comments are bare, and identifiers stand on one line. -/
structure Lawful (parser : TreeParser) : Prop where
  bare : ∀ {dialect bytes} {part : Node}, part.PartOf (parser.parse dialect bytes) → part.kind = .comment →
    part.BareComment
  oneLine : ∀ {dialect bytes} {part : Node}, part.PartOf (parser.parse dialect bytes) → part.kind = .identifier →
    ∀ b ∈ part.bytes, Input.endsLine b = false

theorem standard_lawful : standard.Lawful where
  bare := fun inside comment => Node.bareComment_of_worded (Parser.worded_program _) inside comment
  oneLine := fun inside identifier => Node.endsLine_of_worded (Parser.worded_program _) inside identifier

end Syntax.TreeParser

/-! ### Decoded text -/

namespace Utf8

theorem le_point {lead mask : UInt8} {rest : List UInt8} (high : 0x80 ≤ combine lead mask rest) :
    0x80 ≤ (point lead mask rest).val := by
  unfold point CodePoint.ofNat?
  split
  · exact high
  · decide

theorem toNat_and_payload (b : UInt8) : (b &&& 0x3F).toNat = b.toNat % 64 := by
  rw [UInt8.toNat_and]
  exact Nat.and_two_pow_sub_one_eq_mod _ 6

theorem le_combine_two {a b : UInt8} (above : ¬ a < 0xC2) (below : a < 0xE0) : 0x80 ≤ combine a 0x1F [b] := by
  have lead : (a &&& 0x1F).toNat = a.toNat % 32 := by
    rw [UInt8.toNat_and]
    exact Nat.and_two_pow_sub_one_eq_mod _ 5
  simp only [UInt8.lt_iff_toNat_lt, UInt8.reduceToNat] at above below
  simp only [combine, List.foldl_cons, List.foldl_nil, lead]
  omega

theorem le_combine_three {a b c : UInt8} (above : ¬ a < 0xE0) (below : a < 0xF0) (second : isSecond a b = true) :
    0x80 ≤ combine a 0x0F [b, c] := by
  have lead : (a &&& 0x0F).toNat = a.toNat % 16 := by
    rw [UInt8.toNat_and]
    exact Nat.and_two_pow_sub_one_eq_mod _ 4
  simp only [isSecond, isContinuation, Bool.and_eq_true, Bool.or_eq_true, bne_iff_ne, decide_eq_true_eq, ne_eq,
    UInt8.le_iff_toNat_le, UInt8.lt_iff_toNat_lt, ← UInt8.toNat_inj, UInt8.reduceToNat] at above below second
  simp only [combine, List.foldl_cons, List.foldl_nil, lead, toNat_and_payload]
  omega

theorem le_combine_four {a b c d : UInt8} (above : ¬ a < 0xF0) (below : a < 0xF5) (second : isSecond a b = true) :
    0x80 ≤ combine a 0x07 [b, c, d] := by
  have lead : (a &&& 0x07).toNat = a.toNat % 8 := by
    rw [UInt8.toNat_and]
    exact Nat.and_two_pow_sub_one_eq_mod _ 3
  simp only [isSecond, isContinuation, Bool.and_eq_true, Bool.or_eq_true, bne_iff_ne, decide_eq_true_eq, ne_eq,
    UInt8.le_iff_toNat_le, UInt8.lt_iff_toNat_lt, ← UInt8.toNat_inj, UInt8.reduceToNat] at above below second
  simp only [combine, List.foldl_cons, List.foldl_nil, lead, toNat_and_payload]
  omega

theorem point_ascii {a : UInt8} (low : a < 0x80) : (point a 0x7F []).val = a.toNat := by
  have value : combine a 0x7F [] = a.toNat := by
    rw [combine, List.foldl_nil, UInt8.toNat_and]
    exact (Nat.and_two_pow_sub_one_eq_mod _ 7).trans (Nat.mod_eq_of_lt low)
  have small : a.toNat < 0x110000 := Nat.lt_trans a.toNat_lt (by decide)
  rw [point, value, CodePoint.ofNat?, dif_pos small]
  rfl

/-- A code point comes from the rest of the bytes where the first one is another. -/
theorem exists_of_mem_next {decoded : Except Fault Text} {first c : CodePoint} {t : Text} (other : c ≠ first)
    (read : (do return first :: (← decoded)) = Except.ok t) (member : c ∈ t) :
    ∃ more, decoded = .ok more ∧ c ∈ more := by
  obtain ⟨more, further, same⟩ := bind_eq_ok_iff.mp read
  cases same
  rcases List.mem_cons.mp member with here | later
  · exact absurd here other
  · exact ⟨more, further, later⟩

/-- An ASCII code point is decoded from its own byte only. -/
theorem exists_byte_of_mem {position : Nat} {bytes : List UInt8} {t : Text} (read : decodeFrom position bytes = .ok t)
    {c : CodePoint} (low : c.val < 0x80) (member : c ∈ t) : ∃ b ∈ bytes, b.toNat = c.val := by
  have below : ∀ {lead mask : UInt8} {rest : List UInt8}, 0x80 ≤ combine lead mask rest → c ≠ point lead mask rest := by
    intro lead mask rest high same
    have high := le_point high
    rw [← same] at high
    omega
  fun_induction decodeFrom position bytes generalizing t
  case case1 =>
    cases read
    cases member
  case case2 position a rest ascii ih =>
    by_cases here : c = point a 0x7F []
    · exact ⟨a, List.mem_cons_self, by rw [here, point_ascii ascii]⟩
    · obtain ⟨more, further, later⟩ := exists_of_mem_next here read member
      obtain ⟨b, listed, same⟩ := ih further later
      exact ⟨b, by simp [listed], same⟩
  -- the code points of longer sequences are above ASCII
  case case6 position a _ above under b rest _ ih =>
    obtain ⟨more, further, later⟩ := exists_of_mem_next (below (le_combine_two above under)) read member
    obtain ⟨b, listed, same⟩ := ih further later
    exact ⟨b, by simp [listed], same⟩
  case case12 position a _ _ above under b d rest second _ ih =>
    have high := le_combine_three (c := d) above under (by simpa using second)
    obtain ⟨more, further, later⟩ := exists_of_mem_next (below high) read member
    obtain ⟨b, listed, same⟩ := ih further later
    exact ⟨b, by simp [listed], same⟩
  case case22 position a _ _ _ above under b d e rest second _ _ ih =>
    have high := le_combine_four (c := d) (d := e) above under (by simpa using second)
    obtain ⟨more, further, later⟩ := exists_of_mem_next (below high) read member
    obtain ⟨b, listed, same⟩ := ih further later
    exact ⟨b, by simp [listed], same⟩
  all_goals cases read

end Utf8

/-! ### References -/

theorem Text.dropStart?_eq_some {start t rest : Text} (found : dropStart? start t = some rest) : t = start ++ rest := by
  fun_induction dropStart? start t with
  | case1 t =>
    cases found
    rfl
  | case2 => cases found
  | case3 start c t ih =>
    rw [ih found]
    rfl
  | case4 => cases found

theorem Text.dropStart?_append (start rest : Text) : dropStart? start (start ++ rest) = some rest := by
  induction start with
  | nil => rw [List.nil_append, dropStart?]
  | cons c start ih => rw [List.cons_append, dropStart?, if_pos rfl, ih]

theorem append_of_referenceBase? {name base : Text} (found : referenceBase? name = some base) :
    name = base ++ ("Ref" : Text) := by
  have dropped : Text.dropEnd? "Ref" name = some base := by
    unfold referenceBase? at found
    split at found
    · cases found
    · exact found
  obtain ⟨front, start, same⟩ := Option.map_eq_some_iff.mp dropped
  have whole := congrArg List.reverse (Text.dropStart?_eq_some start)
  rw [List.reverse_reverse, List.reverse_append, List.reverse_reverse, same] at whole
  exact whole

/-- The code points that end a line. -/
def CodePoint.endsLine (c : CodePoint) : Bool := c = 0x0A || c = 0x0D

/-- No line ends in a text. -/
def Text.IsUnbroken (t : Text) : Prop := ∀ c ∈ t, c.endsLine = false

/-- The base of a reference in a source stands on one line. -/
theorem Syntax.Node.RefersTo.isUnbroken {parser : TreeParser} (lawful : parser.Lawful) {dialect : Dialect}
    {bytes : ByteArray} {part : Node} {base : Text} (refers : part.RefersTo base)
    (inside : part.PartOf (parser.parse dialect bytes)) : base.IsUnbroken := by
  obtain ⟨node, name, further, identifier, named, based⟩ := refers
  have decoded := Node.decode_of_text named
  have clean := lawful.oneLine (further.trans inside) identifier
  intro c member
  have mentioned : c ∈ name := by
    rw [append_of_referenceBase? based]
    exact List.mem_append_left _ member
  by_cases ends : c.endsLine = true
  · have either : c = 0x0A ∨ c = 0x0D := by simpa [CodePoint.endsLine] using ends
    have low : c.val < 0x80 := by rcases either with rfl | rfl <;> decide
    obtain ⟨b, listed, same⟩ := Utf8.exists_byte_of_mem decoded low mentioned
    have byte : b = 0x0A ∨ b = 0x0D := by
      rcases either with rfl | rfl
      · exact .inl (UInt8.toNat_inj.mp same)
      · exact .inr (UInt8.toNat_inj.mp same)
    have clear := clean b listed
    rcases byte with rfl | rfl <;> exact absurd clear (by decide)
  · simpa using ends

end SchemaTypes
