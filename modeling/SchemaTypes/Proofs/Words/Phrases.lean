import SchemaTypes.Proofs.Words.Basic

/-!
The phrases below expressions and statements answer with identifiers that are words: names and literals, bindings,
types, classes, markup, imports and exports.
-/

namespace SchemaTypes.Syntax.Parser

open Outline

variable {s : Input}

/-! ### Names and literals -/

theorem finds_bindingName {kind : Kind} (solid : kind ≠ .comment) : Finds s (bindingName kind) :=
  .skip fun _ => .ite .failure (finds_anyWord solid)

theorem finds_stringLiteral : Finds s stringLiteral := finds_scan (by decide) _

theorem finds_numberLiteral : Finds s numberLiteral := finds_scan (by decide) _

theorem finds_privateName : Finds s privateName := finds_scan (by decide) _

theorem finds_propertyWord : Finds s (anyWord .propertyIdentifier <|> privateName) :=
  (finds_anyWord (by decide)).orElse finds_privateName

theorem lists_wordIf {c : Prop} [Decidable c] : Lists s (if c then one (anyWord .token) else failure) :=
  .ite (lists_one (finds_anyWord (by decide))) .failure

theorem lists_modifiers (words : List String) : Lists s (modifiers words) :=
  lists_many (.skip fun _ => .skip fun _ => lists_wordIf)

theorem lists_entityName : Lists s entityName := by
  refine (finds_anyWord (by decide)).bind fun first met => ?_
  exact (lists_many (lists_pair (finds_punct _) finds_propertyWord)).bind fun rest restMet =>
    .pure (by simp [met, restMet])

theorem lists_semicolon (next : Continuation) : Lists s (semicolon next) := by
  refine .skip fun _ => .skip fun _ => ?_
  split
  · exact .skip fun _ => .pure (by simp [worded_leaf])
  · exact lists_one (finds_punct _)

theorem lists_implicitSemicolon (next : Continuation) : Lists s (implicitSemicolon next) := by
  refine .skip fun _ => .skip fun _ => ?_
  split
  · exact .skip fun _ => .pure (by simp [worded_leaf])
  · exact .pure allWorded_nil

/-- Parts that are gathered one after the other, with a mark for the last of them. -/
theorem gathers_iterate {step : List Outline × Bool → Parser (Option (List Outline × Bool))}
    (each : ∀ parts done, AllWorded s parts →
      Yields s (fun r => ∀ next ∈ r, AllWorded s next.1) (step (parts, done)))
    {parts : List Outline} (worded : AllWorded s parts) (done : Bool) :
    Yields s (fun gathered : List Outline × Bool => AllWorded s gathered.1) (iterate step (parts, done)) :=
  .iterate (fun sofar met => each sofar.1 sofar.2 met) worded

theorem allWorded_text (start stop : Nat) :
    AllWorded s (if start < stop then [Outline.leaf .other start stop] else []) := by
  split
  · simp [worded_leaf]
  · simp

/-- A template finds what is found between its texts. -/
theorem finds_template {phrase : Parser Outline} (found : Finds s phrase) : Finds s (template phrase) := by
  refine finds_node (by decide) ((finds_punct _).bind fun start met => ?_)
  refine (gathers_iterate (fun parts done worded => ?_) (by simp [met]) false).bind fun gathered worded => .pure worded
  refine .ite (.pure (by simp)) (.skip fun _ => .skip fun _ => .ite ?_ (.ite ?_ .failure))
  · refine .skip fun _ => .pure ?_
    simp [worded, worded_leaf, allWorded_text]
  · refine .skip fun _ => found.bracketed.bind fun inner i => (finds_punct _).bind fun close e => .pure ?_
    simp [worded, worded_leaf, allWorded_text, i, e]

/-! ### Imports and exports -/

theorem finds_moduleName : Finds s moduleName := finds_stringLiteral.orElse (finds_anyWord (by decide))

theorem lists_renaming : Lists s (when (isAtWord "as") do return [← keyword "as", ← moduleName]) :=
  lists_when (lists_pair (finds_keyword _) finds_moduleName)

theorem finds_specifier {kind : Kind} (other : kind.IsOther) : Finds s (specifier kind) := by
  refine finds_node other (.skip fun _ => .skip fun _ => .skip fun _ => ?_)
  -- both branches go on with the same parser
  extract_lets _ marked
  have rest : ∀ mark, AllWorded s mark → Lists s (marked mark) := fun mark m =>
    finds_moduleName.bind fun name n => lists_renaming.bind fun newName r => .pure (by simp [m, n, r])
  exact .ite ((lists_one (finds_anyWord (by decide))).bind rest) (rest [] allWorded_nil)

theorem finds_specifiers {list item : Kind} (otherList : list.IsOther) (otherItem : item.IsOther) :
    Finds s (specifiers list item) :=
  finds_node otherList (lists_cons (finds_punct _) (lists_listUntil _ (lists_one (finds_specifier otherItem))))

theorem finds_namespaceImport : Finds s namespaceImport :=
  finds_node (by decide) (lists_triple (finds_punct _) (finds_keyword _) (finds_anyWord (by decide)))

theorem finds_importClause : Finds s importClause := by
  have listed : Finds s (namespaceImport <|> specifiers .namedImports .importSpecifier) :=
    finds_namespaceImport.orElse (finds_specifiers (by decide) (by decide))
  refine finds_node (by decide) (.skip fun _ => .skip fun _ => .ite (lists_one listed) ?_)
  refine (finds_bindingName (by decide)).bind fun name n => Yields.bind (lists_when ?_) fun rest r => .pure (by simp [n, r])
  exact lists_pair (finds_punct _) listed

section Rules

variable {self : Rules} (rules : ∀ goal, Finds s (self goal))
include rules

theorem finds_propertyName : Finds s (propertyName self) := by
  refine (finds_anyWord (by decide)).orElse (finds_stringLiteral.orElse (finds_numberLiteral.orElse
    (finds_privateName.orElse ?_)))
  exact finds_node (by decide) (lists_triple (finds_punct _) (rules _).bracketed (finds_punct _))

theorem finds_spread : Finds s (spread self) :=
  finds_node (by decide) (lists_pair (finds_punct _) (rules _))

theorem finds_argumentList : Finds s (argumentList self) :=
  finds_enclosed (by decide) _ (lists_listUntil _ (lists_one ((finds_spread rules).orElse (rules _))))

theorem finds_typeArguments : Finds s (typeArguments self) :=
  finds_node (by decide) (lists_cons (finds_punct _) (lists_listUntil _ (lists_one (rules _))))

theorem lists_annotations : Lists s ( annotation self) :=
  lists_when (lists_pair (finds_punct _) (rules _))

theorem lists_initializer : Lists s (initializer self) :=
  .skip fun _ => .skip fun _ => .skip fun _ => .ite
    ((finds_punct _).bind fun mark m => (rules _).bind fun value v => .pure (by simp [m, v])) (.pure allWorded_nil)

theorem finds_parenthesized : Finds s (parenthesized self) :=
  finds_node (by decide) (lists_triple (finds_punct _) (rules _).bracketed (finds_punct _))

theorem finds_decorator : Finds s (decorator self) := by
  refine finds_node (by decide) ((finds_punct _).bind fun mark m => ?_)
  refine Yields.bind (.orElse (lists_one (finds_parenthesized rules)) lists_entityName) fun target t => ?_
  refine (lists_when (lists_optional (lists_one (finds_typeArguments rules)))).bind fun types y => ?_
  exact (lists_when (lists_one (finds_argumentList rules))).bind fun args a => .pure (by simp [m, t, y, a])

theorem lists_decorators : Lists s (decorators self) := lists_many (lists_one (finds_decorator rules))

/-! ### Bindings -/

theorem lists_patternWithDefault : Lists s (patternWithDefault self) :=
  lists_cons (rules _) (lists_initializer rules)

theorem lists_restPattern : Lists s (restPattern self) :=
  lists_pair (finds_punct _) (rules _)

theorem lists_patternProperty : Lists s (patternProperty self) := by
  refine (lists_restPattern rules).orElse (.orElse ?_ ?_)
  · exact (finds_propertyName rules).bind fun key k => (finds_punct _).bind fun colon c =>
      (lists_patternWithDefault rules).bind fun value v => .pure (by simp [k, c, v])
  · exact lists_cons (finds_bindingName (by decide)) (lists_initializer rules)

theorem finds_patternRule : Finds s (patternRule self) := by
  refine .skip fun _ => .ite ?_ (.skip fun _ => .ite ?_ (finds_bindingName (by decide)))
  · exact finds_enclosed (by decide) _ (lists_listUntil _ (lists_patternProperty rules))
  · exact finds_enclosed (by decide) _
      (lists_listUntil _ ((lists_restPattern rules).orElse (lists_patternWithDefault rules)))

theorem lists_parameter : Lists s (parameter self) := by
  refine (lists_decorators rules).bind fun marks m => ?_
  refine (lists_many (.skip fun _ => .skip fun _ => lists_wordIf)).bind fun words w => ?_
  refine (lists_optionalPunct _).bind fun dots d => ?_
  refine ((finds_keyword _).orElse (rules _)).bind fun name n => ?_
  refine (lists_optionalPunct _).bind fun mark o => ?_
  refine (lists_annotations rules).bind fun type t => ?_
  exact (lists_initializer rules).bind fun value v => .pure (by simp [m, w, d, n, o, t, v])

theorem finds_parameters : Finds s (parameters self) :=
  finds_enclosed (by decide) _ (lists_listUntil _ (lists_parameter rules))

theorem lists_typeParameter : Lists s (typeParameter self) := by
  refine (lists_many (.skip fun _ => .skip fun _ => lists_wordIf)).bind fun words w => ?_
  refine (finds_anyWord (by decide)).bind fun name n => ?_
  refine Yields.bind (lists_when (lists_pair (finds_keyword _) (rules _))) fun bound b => ?_
  refine Yields.bind (lists_when (lists_pair (finds_punct _) (rules _))) fun default d => ?_
  exact .pure (by simp [w, n, b, d])

theorem lists_typeParameters : Lists s (typeParameters self) :=
  lists_when (lists_one (finds_node (by decide)
    (lists_cons (finds_punct _) (lists_listUntil _ (lists_typeParameter rules)))))

theorem lists_signature : Lists s (signature self) :=
  (lists_typeParameters rules).bind fun types t => (finds_parameters rules).bind fun params p =>
    (lists_annotations rules).bind fun result r => .pure (by simp [t, p, r])

/-! ### Types -/

theorem finds_functionType : Finds s (functionType self) :=
  finds_node (by decide) ((lists_typeParameters rules).bind fun types t => (finds_parameters rules).bind fun params p =>
    (finds_punct _).bind fun arrow a => (rules _).bind fun result r => .pure (by simp [t, p, a, r]))

theorem finds_constructorType : Finds s (constructorType self) :=
  finds_node (by decide) ((lists_optionalKeyword _).bind fun words w =>
    (finds_keyword _).bind fun word k => (finds_functionType rules).bind fun type t => .pure (by simp [w, k, t]))

theorem lists_bracketKey : Lists s (bracketKey self) := by
  refine (finds_punct _).bind fun start m => Yields.bind (.bracketed (.orElse ?_ (.orElse ?_ (lists_one (rules _)))))
    fun inner i => (finds_punct _).bind fun stop e => .pure (by simp [m, i, e])
  · exact lists_triple (finds_anyWord (by decide)) (finds_punct _) (rules _)
  · refine (finds_anyWord (by decide)).bind fun name n => (finds_keyword _).bind fun word w =>
      (rules _).bind fun type t => ?_
    exact Yields.bind (lists_when (lists_pair (finds_keyword _) (rules _))) fun renamed r =>
      .pure (by simp [n, w, t, r])

theorem lists_typeMember : Lists s (typeMember self) := by
  refine .skip fun _ => .skip fun _ => .ite (lists_one (finds_either _ _)) ?_
  refine Yields.bind (lists_optional (lists_pair (finds_either _ _) (finds_keyword _))) fun sign g => ?_
  refine (lists_modifiers _).bind fun words w => ?_
  refine .skip fun _ => .skip fun _ => .skip fun _ => ?_
  extract_lets named
  have rest : ∀ name, AllWorded s name → Lists s (named name) := by
    intro name n
    refine Yields.bind (lists_optional (.orElse (lists_one (finds_either _ _))
      (lists_pair (finds_either _ _) (finds_punct _)))) fun mark m => ?_
    refine .skip fun _ => .skip fun _ => .ite ((lists_signature rules).bind fun head h => .pure ?_)
      ((lists_annotations rules).bind fun head h => .pure ?_)
    · simp [g, w, n, m, h]
    · simp [g, w, n, m, h]
  exact .ite ((lists_bracketKey rules).bind rest)
    (.ite (rest [] allWorded_nil) ((lists_one (finds_propertyName rules)).bind rest))

theorem finds_objectType : Finds s (objectType self) :=
  finds_enclosed (by decide) _ (lists_manyUntil _ (lists_typeMember rules))

theorem lists_tupleElement : Lists s (tupleElement self) := by
  refine (lists_optionalPunct _).bind fun dots d => ?_
  refine Yields.bind (lists_optional ((finds_anyWord (by decide)).bind fun name n =>
    (lists_optionalPunct _).bind fun mark m => (finds_punct _).bind fun colon c =>
      .pure (by simp [n, m, c]))) fun label l => ?_
  exact (rules _).bind fun type t => (lists_optionalPunct _).bind fun mark m =>
    .pure (by simp [d, l, t, m])

theorem finds_tupleType : Finds s (tupleType self) :=
  finds_enclosed (by decide) _ (lists_listUntil _ (lists_tupleElement rules))

theorem lists_trailingTypeArguments : Lists s (trailingTypeArguments self) :=
  lists_when (lists_optional (lists_one (finds_typeArguments rules)))

theorem lists_importType : Lists s (importType self) := by
  refine (finds_keyword _).bind fun word w => (finds_argumentList rules).bind fun args a => ?_
  exact Yields.bind (lists_many (lists_pair (finds_punct _) (finds_anyWord (by decide)))) fun names n =>
    .pure (by simp [w, a, n])

theorem finds_typeQuery : Finds s (typeQuery self) :=
  finds_node (by decide) ((finds_keyword _).bind fun word w =>
    ((lists_importType rules).orElse lists_entityName).bind fun target t =>
      (lists_trailingTypeArguments rules).bind fun types y => .pure (by simp [w, t, y]))

theorem finds_primaryType : Finds s (primaryType self) := by
  refine .skip fun _ => .skip fun _ => .ite ?_ (.ite (finds_objectType rules) (.ite (finds_tupleType rules)
    (.ite (finds_template (rules _)) (.ite ?_ (.ite (finds_punct _) (.ite (finds_typeQuery rules) (.ite ?_
      (.ite ?_ (finds_stringLiteral.orElse finds_numberLiteral)))))))))
  · exact finds_node (by decide) (lists_triple (finds_punct _) (rules _).bracketed (finds_punct _))
  · exact finds_node (by decide) (lists_pair (finds_punct _) finds_numberLiteral)
  · exact finds_node (by decide) ((lists_importType rules).bind fun path p =>
      (lists_trailingTypeArguments rules).bind fun types t => .pure (by simp [p, t]))
  · exact finds_node (by decide) (lists_entityName.bind fun name n =>
      (lists_trailingTypeArguments rules).bind fun types t => .pure (by simp [n, t]))

theorem finds_postfixType : Finds s (postfixType self) := by
  refine (finds_primaryType rules).bind fun first f => .iterate (fun type t => ?_) f
  refine .skip fun _ => .skip fun _ => .ite ?_ (.pure (by simp))
  exact (finds_punct _).bind fun start m => (lists_optional (lists_one (rules _).bracketed)).bind fun index i =>
    (finds_punct _).bind fun stop e => .pure (by simp [t, m, i, e])

theorem finds_typeOperandRule : Finds s (typeOperandRule self) := by
  refine .skip fun _ => .skip fun _ => .ite (finds_functionType rules) (.skip fun _ =>
    .ite ((finds_functionType rules).orElse (finds_postfixType rules)) (.skip fun _ =>
      .ite ((finds_constructorType rules).orElse (finds_postfixType rules)) (.skip fun _ => .ite ?_ (.skip fun _ =>
        .ite ?_ (finds_postfixType rules)))))
  · refine finds_node (by decide) ((finds_keyword _).bind fun word w => (finds_anyWord (by decide)).bind fun name n => ?_)
    exact Yields.bind (lists_optional ((finds_keyword _).bind fun mark m => (rules _).bind fun type t =>
      .skip fun _ => .ite .failure (.pure (by simp [m, t])))) fun bound b => .pure (by simp [w, n, b])
  · exact finds_node (by decide) (lists_pair (finds_anyWord (by decide)) (rules _))

theorem finds_unionType : Finds s (unionType self) := by
  refine (lists_optional (lists_one (finds_either _ _))).bind fun lead l => ?_
  refine (rules _).bind fun first f => ?_
  refine Yields.bind (lists_many (.skip fun _ => .skip fun _ => .ite .fail ?_)) fun rest r =>
    .ite (.pure f) (.pure (by simp [l, f, r]))
  exact lists_pair (finds_either _ _) (rules _)

theorem finds_typeExprRule : Finds s (typeExprRule self) := by
  refine .skip fun _ => .skip fun _ => .ite ?_ (.ite ?_ ?_)
  · refine finds_node (by decide) ((finds_keyword _).bind fun word w => (finds_anyWord (by decide)).bind fun name n => ?_)
    exact Yields.bind (lists_when (lists_pair (finds_keyword _) (rules _))) fun type t => .pure (by simp [w, n, t])
  · exact finds_node (by decide) (lists_triple (finds_anyWord (by decide)) (finds_keyword _) (rules _))
  · refine (finds_unionType rules).bind fun type t => .skip fun _ => .ite (.orElse ?_ (.pure t)) (.pure t)
    exact finds_node (by decide) ((finds_keyword _).bind fun word w => (finds_unionType rules).bind fun bound b =>
      (finds_punct _).bind fun query q => (rules _).bind fun first f => (finds_punct _).bind fun colon c =>
        (rules _).bind fun second e => .pure (by simp [t, w, b, q, f, c, e]))

/-! ### Classes -/

theorem lists_classMember : Lists s (classMember self) := by
  refine .skip fun _ => .skip fun _ => .ite (lists_one (finds_either _ _))
    (.skip fun _ => .skip fun _ => .ite ?_ (lists_one (finds_node (by decide) ?_)))
  · exact lists_pair (finds_keyword _) (rules _)
  refine (lists_decorators rules).bind fun marks m => (lists_modifiers _).bind fun words w =>
    (lists_optionalPunct _).bind fun star t => .skip fun _ => ?_
  extract_lets named
  have rest : ∀ name, AllWorded s name → Lists s (named name) := by
    intro name n
    refine (lists_optional (lists_one (finds_either _ _))).bind fun mark o => ?_
    refine .skip fun _ => .skip fun _ => .ite ?_ ?_
    · exact (lists_signature rules).bind fun head h => (lists_when (lists_one (rules _))).bind fun body b =>
        .pure (by simp [m, w, t, n, o, h, b])
    · exact (lists_annotations rules).bind fun type y => (lists_initializer rules).bind fun value v =>
        .pure (by simp [m, w, t, n, o, y, v])
  exact .ite ((lists_bracketKey rules).bind rest) ((lists_one (finds_propertyName rules)).bind rest)

theorem finds_classBody : Finds s (classBody self) :=
  finds_enclosed (by decide) _ (lists_manyUntil _ (lists_classMember rules))

theorem lists_heritage : Lists s (heritage self) := by
  refine Yields.bind (lists_when ?_) fun base b => Yields.bind (lists_when ?_) fun promised p => .pure (by simp [b, p])
  · exact (finds_keyword _).bind fun word w => (rules _).bind fun value v =>
      (lists_when (lists_one (finds_typeArguments rules))).bind fun types t => .pure (by simp [w, v, t])
  · refine (finds_keyword _).bind fun word w => (rules _).bind fun type t => Yields.bind (lists_many ?_) fun more m =>
      .pure (by simp [w, t, m])
    exact lists_pair (finds_punct _) (rules _)

theorem lists_classTail : Lists s (classTail self) := by
  refine (finds_keyword _).bind fun word w => .skip fun _ => .skip fun _ => ?_
  extract_lets named
  have rest : ∀ name, AllWorded s name → Lists s (named name) := by
    intro name n
    exact (lists_typeParameters rules).bind fun types t => (lists_heritage rules).bind fun bases b =>
      (finds_classBody rules).bind fun body y => .pure (by simp [w, n, t, b, y])
  exact .ite (rest [] allWorded_nil) ((lists_optional (lists_one (finds_bindingName (by decide)))).bind rest)

/-! ### Markup -/

theorem finds_markupExpression : Finds s (markupExpression self) :=
  finds_node (by decide) ((finds_punct _).bind fun start m =>
    (lists_optional (lists_one ((finds_spread rules).orElse (rules _)).bracketed)).bind fun inner i =>
      (finds_punct _).bind fun stop e => .pure (by simp [m, i, e]))

theorem lists_markupAttribute : Lists s (markupAttribute self) := by
  refine .skip fun _ => .ite (lists_one (finds_markupExpression rules)) ?_
  refine (finds_scan (by decide) _).bind fun name n => Yields.bind (lists_when ?_) fun value v => .pure (by simp [n, v])
  exact lists_pair (finds_punct _) ((finds_scan (by decide) _).orElse ((finds_markupExpression rules).orElse (rules _)))

theorem lists_content : Lists s (content self) := by
  refine (gathers_iterate (fun parts done worded => ?_) allWorded_nil false).bind fun gathered met => .pure met
  refine .ite (.pure (by simp)) (.skip fun _ => .skip fun _ => .skip fun _ =>
    .ite ?_ (.ite ?_ (.ite ?_ .failure)))
  · exact (finds_markupExpression rules).bind fun inner i => .pure (by simp [worded, allWorded_text, i])
  · have close : Finds s (node .other do
        let head := [← punct "<", ← punct "/"]
        let name ← optional (one (scan .other markupNameEnd?))
        return head ++ name ++ [← punct ">"]) :=
      finds_node (by decide) ((finds_punct _).bind fun start m => (finds_punct _).bind fun slash l =>
        (lists_optional (lists_one (finds_scan (by decide) _))).bind fun name n => (finds_punct _).bind fun stop e =>
          .pure (by simp [m, l, n, e]))
    exact close.bind fun tag t => .pure (by simp [worded, allWorded_text, t])
  · exact (rules _).bind fun inner i => .pure (by simp [worded, allWorded_text, i])

theorem finds_markupRule : Finds s (markupRule self) := by
  refine (finds_punct _).bind fun start m => .skip fun _ => .ite ?_ ?_
  · exact (finds_punct _).bind fun stop e => (lists_content rules).bind fun inner i => .pure (by simp [m, e, i])
  · refine (finds_scan (by decide) _).bind fun name n =>
      (lists_when (lists_one (finds_typeArguments rules))).bind fun types t =>
        (lists_many (lists_markupAttribute rules)).bind fun attributes a => .skip fun _ => .ite ?_ ?_
    · exact (finds_punct _).bind fun slash l => (finds_punct _).bind fun stop e => .pure (by simp [m, n, t, a, l, e])
    · exact (finds_punct _).bind fun stop e => (lists_content rules).bind fun inner i =>
        .pure (by simp [m, n, t, a, e, i])

/-! ### Imports and exports with expressions in them -/

theorem lists_attributes : Lists s (attributes self) :=
  .skip fun _ => .skip fun _ => .skip fun _ => .ite (lists_pair (finds_anyWord (by decide)) (rules _)) (.pure allWorded_nil)

theorem lists_fromClause : Lists s (fromClause self) :=
  (finds_keyword _).bind fun word w => finds_stringLiteral.bind fun source o =>
    (lists_attributes rules).bind fun marks m => .pure (by simp [w, o, m])

theorem lists_importAlias : Lists s (importAlias self) := by
  refine Yields.bind (lists_optional (.skip fun _ => .ite .failure (lists_one (finds_keyword _)))) fun mark m => ?_
  refine (finds_bindingName (by decide)).bind fun name n => (finds_punct _).bind fun sign g =>
    Yields.bind (.orElse ?_ lists_entityName) fun target t => .pure (by simp [m, n, g, t])
  exact lists_pair (finds_keyword _) (finds_argumentList rules)

theorem finds_importStatement : Finds s (importStatement self) := by
  refine finds_node (by decide) ((finds_keyword _).bind fun word w => .skip fun _ => .skip fun _ => .skip fun _ => ?_)
  refine Yields.bind (.orElse ?_ ((lists_importAlias rules).orElse ?_)) fun body b =>
    (lists_semicolon _).bind fun ending e => .pure (by simp [w, b, e])
  · exact finds_stringLiteral.bind fun source o => (lists_attributes rules).bind fun marks m => .pure (by simp [o, m])
  · have rest : ∀ mark, AllWorded s mark → Lists s (do
        let clause ← importClause
        return mark ++ [clause] ++ (← fromClause self)) := fun mark m =>
      finds_importClause.bind fun clause c => (lists_fromClause rules).bind fun origin o => .pure (by simp [m, c, o])
    exact .ite ((lists_one (finds_anyWord (by decide))).bind rest) (rest [] allWorded_nil)

theorem lists_exportList : Lists s (exportList self) := by
  refine (lists_optionalKeyword _).bind fun mark m => .skip fun _ => ?_
  extract_lets listed
  have rest : ∀ names, AllWorded s names → Lists s (listed names) := fun names n =>
    (lists_when (lists_fromClause rules)).bind fun origin o => (lists_semicolon _).bind fun ending e =>
      .pure (by simp [m, n, o, e])
  refine .ite ?_ ((lists_one (finds_specifiers (by decide) (by decide))).bind rest)
  exact (finds_punct _).bind fun star t => lists_renaming.bind fun newName r => rest _ (by simp [t, r])

theorem lists_exportedAlias : Lists s (exportedAlias self) :=
  (finds_keyword _).bind fun word w => (lists_importAlias rules).bind fun named a =>
    (lists_semicolon _).bind fun ending e => .pure (by simp [w, a, e])

end Rules

end SchemaTypes.Syntax.Parser
