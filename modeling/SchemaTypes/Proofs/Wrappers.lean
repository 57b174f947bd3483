import SchemaTypes.Proofs.AliasScope

/-!
Expressions in wrappers. A wrapper is a call of a method of the builder that takes one schema, `Type.Optional(e)` or
`Type.Array(e)`, and a word of wrappers is put around an expression one after the other. Types follow words letter by
letter: each array adds its brackets and drops the mark, and each optional sets the mark. So of a whole word only the
number of arrays and the outermost wrapper show in the type.
-/

namespace SchemaTypes

open Syntax

/-! ### Wrappers -/

/-- The methods of the builder that take one schema. -/
inductive Wrapper where
  | optional
  | array
  deriving DecidableEq, Repr

namespace Wrapper

def method : Wrapper → Text
  | optional => "Optional"
  | array => "Array"

def shape : Wrapper → Node → Shape
  | optional => .optionalOf
  | array => .arrayOf

/-- The call of a wrapper on one expression, `Type.Optional(inner)` or `Type.Array(inner)`. Comments, line ends, type
arguments and a final comma may stand in it. -/
def Around (wrapper : Wrapper) (inner outer : Node) : Prop :=
  outer.Calls "Type" wrapper.method ∧ outer.callArguments = [inner]

end Wrapper

namespace Shape

/-- No other method of the builder wraps an expression. -/
theorem ofBuilderCall_rest_ne (wrapper : Wrapper) (method : Text) (args : List Node) (inner : Node) :
    ofBuilderCall.rest method args (.unrecognized .callExpression) ≠ wrapper.shape inner := by
  unfold ofBuilderCall.rest
  cases wrapper <;> repeat' split
  all_goals exact Shape.noConfusion

theorem ofBuilderCall_eq_shape_iff {wrapper : Wrapper} {method : Text} {args : List Node} {inner : Node} :
    ofBuilderCall method args = wrapper.shape inner ↔ method = wrapper.method ∧ args = [inner] := by
  constructor
  · intro read
    unfold ofBuilderCall at read
    dsimp only at read
    split at read
    next argument =>
      split at read
      next isOptional =>
        cases wrapper <;> cases read
        exact ⟨isOptional, rfl⟩
      · split at read
        next isArray =>
          cases wrapper <;> cases read
          exact ⟨isArray, rfl⟩
        · exact absurd read (ofBuilderCall_rest_ne wrapper method _ inner)
    · exact absurd read (ofBuilderCall_rest_ne wrapper method _ inner)
  · rintro ⟨rfl, rfl⟩
    cases wrapper with
    | optional => rfl
    | array => rfl

theorem ofMethodCall_eq_shape_iff {wrapper : Wrapper} {receiver method : Text} {args : List Node} {inner : Node} :
    ofMethodCall receiver method args = wrapper.shape inner ↔
      receiver = Text.ofString "Type" ∧ method = wrapper.method ∧ args = [inner] := by
  have other : ofMethodCall.other receiver method args = wrapper.shape inner ↔
      receiver = Text.ofString "Type" ∧ method = wrapper.method ∧ args = [inner] := by
    unfold ofMethodCall.other
    split
    next builder => rw [ofBuilderCall_eq_shape_iff, and_iff_right builder]
    next stranger =>
      refine iff_of_false ?_ fun called => stranger called.1
      cases wrapper <;> exact Shape.noConfusion
  unfold ofMethodCall
  split
  next key =>
    split
    next importing =>
      -- the receiver of an import is not the builder
      simp only [Bool.and_eq_true, decide_eq_true_eq] at importing
      refine iff_of_false ?_ fun called => ?_
      · cases wrapper <;> exact Shape.noConfusion
      · have same := importing.1.symm.trans called.1
        exact absurd same (by decide)
    · exact other
  · exact other

/-- An expression has the shape of a wrapper exactly if it is a call of the wrapper. -/
theorem ofNode_eq_shape_iff {wrapper : Wrapper} {inner outer : Node} :
    ofNode outer = .ok (wrapper.shape inner) ↔ wrapper.Around inner outer := by
  constructor
  · intro read
    rcases ofNode_eq_ok read with ⟨-, name, -, told⟩ | told | ⟨kind, told⟩ | ⟨receiver, method, calls, told⟩
    · cases based : referenceBase? name <;> rw [based] at told <;> cases wrapper <;> cases told
    · cases wrapper <;> cases told
    · cases wrapper <;> cases told
    · obtain ⟨rfl, rfl, listed⟩ := ofMethodCall_eq_shape_iff.mp told.symm
      exact ⟨calls, listed⟩
  · rintro ⟨calls, listed⟩
    rw [ofNode_of_calls calls, ofMethodCall_eq_shape_iff.mpr ⟨rfl, rfl, listed⟩]

end Shape

/-! ### Words -/

/-- The same expression, wherever it stands: on other rows, and in whatever part of its parent. -/
def Syntax.Node.SameExpression (n m : Node) : Prop :=
  n.kind = m.kind ∧ n.bytes = m.bytes ∧ n.children.map Node.unplaced = m.children.map Node.unplaced

theorem Syntax.Node.SameExpression.refl (n : Node) : n.SameExpression n := ⟨rfl, rfl, rfl⟩

/-- An expression with a word of wrappers around it, the outermost first. -/
inductive Wrapped (core : Node) : List Wrapper → Node → Prop
  | bare {copy : Node} (same : copy.SameExpression core) : Wrapped core [] copy
  | around {wrapper : Wrapper} {word : List Wrapper} {inner outer : Node} (inside : Wrapped core word inner)
      (call : wrapper.Around inner outer) : Wrapped core (wrapper :: word) outer

/-- A node without children on one row. -/
def Syntax.Node.leaf (kind : Kind) (role : Option Role) (text : Text) (row : Nat) : Node :=
  .mk kind role (text.flatMap Utf8.encodePoint) row row []

@[simp] theorem Syntax.Node.kind_leaf (kind : Kind) (role : Option Role) (text : Text) (row : Nat) :
    (leaf kind role text row).kind = kind := rfl

theorem Syntax.Node.text_leaf {kind : Kind} {role : Option Role} {text : Text} {row : Nat}
    (spelled : (Utf8.decode (text.flatMap Utf8.encodePoint)).toOption = some text) :
    (leaf kind role text row).text = .ok text := by
  unfold Node.text leaf Node.bytes
  cases decoded : Utf8.decode (text.flatMap Utf8.encodePoint) with
  | error fault =>
    rw [decoded] at spelled
    cases spelled
  | ok read =>
    rw [decoded] at spelled
    cases spelled
    rfl

namespace Wrapper

/-- The call of a wrapper as it is written without spaces. -/
def call (wrapper : Wrapper) (inner : Node) : Node :=
  let first := inner.startRow
  let last := inner.endRow
  let names : List Node := [.leaf .identifier (some .receiver) "Type" first, .leaf .token none "." first,
    .leaf .propertyIdentifier (some .property) wrapper.method first]
  let listed : List Node := [.leaf .token none "(" first, inner, .leaf .token none ")" last]
  let callee := Node.mk .memberExpression (some .callee) (names.flatMap Node.bytes) first first names
  let arguments := Node.mk .arguments (some .arguments) (listed.flatMap Node.bytes) first last listed
  .mk .callExpression none (callee.bytes ++ arguments.bytes) first last [callee, arguments]

theorem around_call (wrapper : Wrapper) {inner : Node} (named : inner.kind ≠ .token) (code : inner.kind ≠ .comment) :
    wrapper.Around inner (wrapper.call inner) := by
  refine ⟨⟨_, _, _, rfl, rfl, rfl, rfl, rfl, Node.text_leaf (by decide), Node.text_leaf ?_⟩, ?_⟩
  · cases wrapper <;> decide +kernel
  · change Node.members _ = [inner]
    simp [Node.members, Node.children, Node.isComment, Kind.isNamed, named, code]

/-- Every word can be put around every expression. -/
theorem wrapped_foldr_call {core : Node} (named : core.kind ≠ .token) (code : core.kind ≠ .comment)
    (word : List Wrapper) : Wrapped core word (word.foldr call core) := by
  -- what stands inside a wrapper is the expression itself or a call, so it counts as an argument
  have argument (word : List Wrapper) :
      (word.foldr call core).kind ≠ .token ∧ (word.foldr call core).kind ≠ .comment := by
    cases word with
    | nil => exact ⟨named, code⟩
    | cons wrapper word => exact ⟨Kind.noConfusion, Kind.noConfusion⟩
  induction word with
  | nil => exact .bare (.refl core)
  | cons wrapper word ih => exact .around ih (wrapper.around_call (argument word).1 (argument word).2)

end Wrapper

/-- The wrappers around an expression, outermost first, and the expression inside all of them. -/
def Syntax.Node.peel (n : Node) : List Wrapper × Node :=
  match _h : Shape.ofNode n with
  | .ok (.optionalOf inner) => inner.peel.map (.optional :: ·) id
  | .ok (.arrayOf inner) => inner.peel.map (.array :: ·) id
  | _ => ([], n)
termination_by sizeOf n
decreasing_by all_goals exact Shape.sizeOf_lt_of_mem_nodes _h (by simp [Shape.nodes])

/-- An expression is made of the wrappers around it and of what they are around. -/
theorem wrapped_of_peel {n core : Node} (same : n.peel.2.SameExpression core) : Wrapped core n.peel.1 n := by
  fun_induction Node.peel n with
  | case1 n inner read ih => exact .around (ih same) (Shape.ofNode_eq_shape_iff.mp read)
  | case2 n inner read ih => exact .around (ih same) (Shape.ofNode_eq_shape_iff.mp read)
  | case3 n _ _ => exact .bare same

/-- For an expression without children, what can be computed tells that it is in wrappers. -/
theorem wrapped_of_peel_leaf {n core : Node} {word : List Wrapper} {kind : Kind} {bytes : List UInt8}
    (peeled : n.peel.map id (fun copy => (copy.kind, copy.bytes, copy.children.isEmpty)) = (word, kind, bytes, true))
    (bare : (core.kind, core.bytes, core.children.isEmpty) = (kind, bytes, true)) : Wrapped core word n := by
  simp only [Prod.map, Prod.mk.injEq, id_eq, List.isEmpty_iff] at peeled bare
  obtain ⟨rfl, kind, bytes, children⟩ := peeled
  obtain ⟨bareKind, bareBytes, bareChildren⟩ := bare
  refine wrapped_of_peel ⟨kind.trans bareKind.symm, bytes.trans bareBytes.symm, ?_⟩
  rw [children, bareChildren]

/-! ### Types -/

namespace Wrapper

def schema : Wrapper → Schema → Schema
  | optional => .optional
  | array => .array

/-- What a wrapper makes of the type in it. -/
def typeText : Wrapper → TypeText → TypeText
  | optional, type => { text := type.text, optional := true }
  | array, type => { text := type.text ++ "[]", optional := false }

theorem typeText_schema (wrapper : Wrapper) (schema : Schema) (aliases : AliasTable) (depth : Int) :
    (wrapper.schema schema).typeText aliases depth = wrapper.typeText (schema.typeText aliases depth) := by
  cases wrapper <;> simp only [Wrapper.schema, Schema.typeText, typeText]

end Wrapper

theorem Schema.ofNode_of_around {wrapper : Wrapper} {inner outer : Node} (around : wrapper.Around inner outer) :
    ofNode outer = (ofNode inner).map (Option.map wrapper.schema) := by
  rw [ofNode_eq_ofShape, Shape.ofNode_eq_shape_iff.mpr around]
  change ofShape (wrapper.shape inner) = _
  cases wrapper <;> rw [Wrapper.shape, ofShape] <;> cases ofNode inner <;> rfl

/-- The type of a wrapper's call is made from the type of its argument. -/
theorem inferType_of_around {wrapper : Wrapper} {inner outer : Node} (around : wrapper.Around inner outer)
    (aliases : AliasTable) (depth : Int) :
    inferType aliases depth outer = (inferType aliases depth inner).map (Option.map wrapper.typeText) := by
  rw [inferType_eq_map, inferType_eq_map, Schema.ofNode_of_around around]
  cases Schema.ofNode inner with
  | error e => rfl
  | ok found =>
    cases found with
    | none => rfl
    | some schema => simp only [Except.map, Option.map_some, Wrapper.typeText_schema]

/-- Where an expression stands does not matter for its type. -/
theorem inferType_of_sameExpression {n m : Node} (same : n.SameExpression m) (aliases : AliasTable) (depth : Int) :
    inferType aliases depth n = inferType aliases depth m := by
  have read : Schema.ofNode n = Schema.ofNode m := by
    rw [← Schema.ofNode_unplaced n, ← Schema.ofNode_unplaced m]
    obtain ⟨kind, role, bytes, startRow, endRow, children⟩ := n
    obtain ⟨kind', role', bytes', startRow', endRow', children'⟩ := m
    obtain ⟨sameKind, sameBytes, alike⟩ := same
    simp only [Node.kind, Node.bytes, Node.children] at sameKind sameBytes alike
    -- reading never asks for the part that the expression itself plays
    rw [Node.unplaced, Node.unplaced, Node.unplacedAll_eq_map, Node.unplacedAll_eq_map, sameKind, sameBytes,
      alike, Schema.ofNode_eq_ofShape, Schema.ofNode_eq_ofShape]
    rfl
  rw [inferType, inferType, read]

/-- The type of an expression in a word of wrappers, by the letters of the word from the innermost on. -/
theorem inferType_of_wrapped {core outer : Node} {word : List Wrapper} (wrapped : Wrapped core word outer)
    (aliases : AliasTable) (depth : Int) :
    inferType aliases depth outer =
      (inferType aliases depth core).map (Option.map fun type => word.foldr Wrapper.typeText type) := by
  induction wrapped with
  | bare same =>
    rw [inferType_of_sameExpression same]
    cases inferType aliases depth core with
    | error e => rfl
    | ok found => cases found <;> rfl
  | around inside call ih =>
    rw [inferType_of_around call, ih]
    cases inferType aliases depth core with
    | error e => rfl
    | ok found => cases found <;> rfl

theorem brackets_append (n : Nat) : brackets n ++ ("[]" : Text) = brackets (n + 1) := by
  induction n with
  | zero => rfl
  | succ n ih => rw [brackets, List.cons_append, List.cons_append, ih, ← brackets]

/-- Each array of a word adds its brackets, wherever it stands. -/
theorem text_foldr_typeText (word : List Wrapper) (type : TypeText) :
    (word.foldr Wrapper.typeText type).text = type.text ++ brackets (word.count .array) := by
  induction word with
  | nil => exact (List.append_nil _).symm
  | cons wrapper word ih =>
    cases wrapper with
    | optional => exact ih
    | array =>
      rw [List.foldr_cons, Wrapper.typeText, ih, List.append_assoc, brackets_append, List.count_cons_self]

/-- The outermost wrapper settles the mark. -/
theorem optional_foldr_typeText (word : List Wrapper) (type : TypeText) :
    (word.foldr Wrapper.typeText type).optional = true ↔
      word.head? = some .optional ∨ word = [] ∧ type.optional = true := by
  cases word with
  | nil => simp
  | cons wrapper word => cases wrapper <;> simp [Wrapper.typeText]

/-- The types of expressions in wrappers. Every word can be put around every expression, and however it is written, with
any aliases and at any depth: the expression in its wrappers has no type exactly if it has none by itself, and raises
exactly if it does by itself, with the same error. Otherwise its type has the text of the expression's own type and one
pair of brackets for each array of the word, and it is optional exactly if the outermost wrapper is, or if there is no
wrapper and the expression is optional by itself. -/
theorem inferType_in_wrappers (core : Node) (word : List Wrapper) (aliases : AliasTable) (depth : Int) :
    (core.kind ≠ .token → core.kind ≠ .comment → Wrapped core word (word.foldr Wrapper.call core)) ∧
    ∀ outer, Wrapped core word outer →
      (inferType aliases depth outer = .ok none ↔ inferType aliases depth core = .ok none) ∧
      (∀ e, inferType aliases depth outer = .error e ↔ inferType aliases depth core = .error e) ∧
      ∀ type, inferType aliases depth core = .ok (some type) →
        ∃ type', inferType aliases depth outer = .ok (some type') ∧
          type'.text = type.text ++ brackets (word.count .array) ∧
          (type'.optional = true ↔ word.head? = some .optional ∨ word = [] ∧ type.optional = true) := by
  refine ⟨fun named code => Wrapper.wrapped_foldr_call named code word, fun outer wrapped => ?_⟩
  rw [inferType_of_wrapped wrapped]
  cases inferType aliases depth core with
  | error e =>
    refine ⟨by simp [Except.map], fun e => Iff.rfl, fun type typed => ?_⟩
    cases typed
  | ok found =>
    refine ⟨by cases found <;> simp [Except.map], by simp [Except.map], fun type typed => ?_⟩
    cases typed
    exact ⟨_, rfl, text_foldr_typeText word type, optional_foldr_typeText word type⟩

/-- A reference alone. -/
def bareReference : Node := valueOfA "const A=XRef"

/-- The same reference on another row, with a comment and a final comma between the wrappers. -/
def wrappedReference : Node := valueOfA "const A=Type.Optional(Type.Array(/* rows */Type.Optional(\nXRef,)))"

set_option maxRecDepth 100000 in
theorem inferType_in_wrappers_reference :
    Wrapped bareReference [.optional, .array, .optional] wrappedReference ∧
      ∃ type, inferType spellingAliases 0 wrappedReference = .ok (some type) ∧
        type.text = Text.ofString "Y[]" ∧ type.optional = true := by
  have peeled : wrappedReference.peel.map id (fun copy => (copy.kind, copy.bytes, copy.children.isEmpty)) =
      ([.optional, .array, .optional], Kind.identifier, [0x58, 0x52, 0x65, 0x66], true) := by decide +kernel
  have bare : (bareReference.kind, bareReference.bytes, bareReference.children.isEmpty) =
      (Kind.identifier, [0x58, 0x52, 0x65, 0x66], true) := by decide +kernel
  have typed : (inferType spellingAliases 0 bareReference).toOption.join.map TypeText.text =
      some (Text.ofString "Y") := by decide +kernel
  have wrapped := wrapped_of_peel_leaf peeled bare
  obtain ⟨type, evaluated, name⟩ := exists_eq_ok_some typed
  have types := (inferType_in_wrappers bareReference [.optional, .array, .optional] spellingAliases 0).2 _ wrapped
  obtain ⟨type', evaluated', text, mark⟩ := types.2.2 type evaluated
  refine ⟨wrapped, type', evaluated', ?_, mark.mpr (.inl rfl)⟩
  rw [text, name]
  decide

end SchemaTypes
