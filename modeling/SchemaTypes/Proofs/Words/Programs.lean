import SchemaTypes.Proofs.Words.Phrases

/-!
Expressions and statements answer with identifiers that are words, and so does a whole program. The goals of the grammar
are tied together by a bound on the depth, so the induction is on that bound.
-/

namespace SchemaTypes.Syntax.Parser

open Outline

variable {s : Input}

section Rules

variable {self : Rules} (rules : ∀ goal, Finds s (self goal))
include rules

/-! ### Expressions -/

theorem finds_arrowBody : Finds s (arrowBody self) := .skip fun _ => .ite (rules _) (rules _)

theorem finds_arrowTail {lead : List Outline} (worded : AllWorded s lead) : Finds s (arrowTail self lead) := by
  refine finds_node (by decide) (.skip fun _ => .skip fun _ => ?_)
  extract_lets headed
  have rest : ∀ head, AllWorded s head → Lists s (headed head) := fun head h =>
    (finds_punct _).bind fun arrow a => (finds_arrowBody rules).bind fun body b => .pure (by simp [worded, h, a, b])
  refine .ite ?_ ((lists_one (finds_bindingName (by decide))).bind rest)
  refine (lists_typeParameters rules).bind fun types t => (finds_parameters rules).bind fun params p =>
    .skip fun _ => .ite ?_ (rest _ (by simp [t, p]))
  exact (lists_annotations rules).bind fun result r => rest _ (by simp [t, p, r])

theorem finds_asyncArrow : Finds s (asyncArrow self) :=
  (finds_keyword _).bind fun word w => finds_arrowTail rules (by simp [w])

theorem finds_functionExpression : Finds s (functionExpression self) := by
  refine (lists_optionalKeyword _).bind fun lead l => (finds_keyword _).bind fun word w =>
    (lists_optionalPunct _).bind fun star t =>
      (lists_optional (lists_one (finds_bindingName (by decide)))).bind fun name n =>
        (lists_signature rules).bind fun head h => (rules _).bind fun body b => .pure ?_
  have other : (if star.isEmpty then Kind.functionExpression else .generatorFunction).IsOther := by
    split <;> decide
  rw [worded_node other]
  simp [l, w, t, n, h, b]

theorem finds_parenthesizedOrArrow : Finds s (parenthesizedOrArrow self) := by
  have inner : Lists s (do return (← self .sequence) :: (← annotation self)) :=
    lists_cons (rules _) (lists_annotations rules)
  have plain : Finds s (node .parenthesizedExpression do
      let start ← punct "("
      let inner ← bracketed do return (← self .sequence) :: (← annotation self)
      return [start] ++ inner ++ [← punct ")"]) :=
    finds_node (by decide) ((finds_punct _).bind fun start m => inner.bracketed.bind fun inner i =>
      (finds_punct _).bind fun stop e => .pure (by simp [m, i, e]))
  have arrow : Finds s (arrowTail self []) := finds_arrowTail rules allWorded_nil
  refine .skip fun _ => .skip fun _ => ?_
  split
  · exact arrow.orElse plain
  · exact .skip fun _ => .ite (arrow.orElse plain) plain

theorem finds_objectMember : Finds s (objectMember self) := by
  refine .skip fun _ => .ite (finds_spread rules) ?_
  refine (lists_modifiers _).bind fun words w => (lists_optionalPunct _).bind fun star t =>
    (finds_propertyName rules).bind fun name n => .skip fun _ => .ite ?_ ?_
  · exact (finds_punct _).bind fun colon c => (rules _).bind fun value v => .pure (by simp [n, c, v])
  · refine (lists_optionalPunct _).bind fun mark m => .skip fun _ => .skip fun _ => .ite ?_ ?_
    · exact (lists_signature rules).bind fun head h => (rules _).bind fun body b => .pure (by simp [w, t, n, m, h, b])
    · exact (lists_initializer rules).bind fun default d =>
        .ite (.pure (n.withKind (by decide))) (.pure (by simp [n, d]))

theorem finds_objectLiteral : Finds s (objectLiteral self) :=
  finds_enclosed (by decide) _ (lists_listUntil _ (lists_one (finds_objectMember rules)))

theorem finds_arrayLiteral : Finds s (arrayLiteral self) :=
  finds_enclosed (by decide) _ (lists_listUntil _ (lists_one ((finds_spread rules).orElse (rules _))))

theorem finds_newExpression : Finds s (newExpression self) := by
  refine (finds_keyword _).bind fun word w => .skip fun _ => .ite ?_ ?_
  · exact (finds_punct _).bind fun dot d => (finds_anyWord (by decide)).bind fun name n => .pure (by simp [w, d, n])
  refine (rules _).bind fun first f => Yields.bind (.iterate (fun callee c => ?_) f) fun callee c =>
    (lists_when (lists_optional (lists_one (finds_typeArguments rules)))).bind fun types t =>
      (lists_when (lists_one (finds_argumentList rules))).bind fun args a => .pure (by simp [w, c, t, a])
  refine .skip fun _ => .ite ?_ (.skip fun _ => .ite ?_ (.pure (by simp)))
  · exact (finds_punct _).bind fun dot d => finds_propertyWord.bind fun name n => .pure (by simp [c, d, n])
  · exact (finds_punct _).bind fun start m => (rules _).bracketed.bind fun index i =>
      (finds_punct _).bind fun stop e => .pure (by simp [c, m, i, e])

theorem finds_importExpression : Finds s (importExpression self) := by
  refine (finds_keyword _).bind fun word w => .skip fun _ => .ite ?_ ?_
  · exact (finds_punct _).bind fun dot d => (finds_anyWord (by decide)).bind fun name n => .pure (by simp [w, d, n])
  · have callee : (word.withKind .other).Worded s := w.withKind (by decide)
    exact (finds_argumentList rules).bind fun args a => .pure (by simp [callee, a])

theorem finds_classExpression : Finds s (classExpression self) :=
  finds_node (by decide) ((lists_decorators rules).bind fun marks m => (lists_classTail rules).bind fun tail t =>
    .pure (by simp [m, t]))

theorem finds_wordExpression (word : String) : Finds s (wordExpression self word) := by
  have arrow : Finds s (arrowTail self []) := finds_arrowTail rules allWorded_nil
  have name : Finds s (anyWord .identifier) := finds_anyWord (by decide)
  exact .ite (finds_functionExpression rules) (.ite (finds_classExpression rules) (.ite (finds_newExpression rules)
    (.ite (finds_importExpression rules) (.ite (finds_anyWord (by decide)) (.ite (finds_anyWord (by decide))
      (.ite (finds_anyWord (by decide)) (.ite (finds_anyWord (by decide)) (.ite (finds_anyWord (by decide))
        (.ite (finds_anyWord (by decide)) (.skip fun _ => .ite ((finds_functionExpression rules).orElse name)
          (.skip fun _ => .skip fun _ => .ite arrow (.ite ((finds_asyncArrow rules).orElse name)
            (finds_bindingName (by decide))))))))))))))

theorem finds_primaryRule : Finds s (primaryRule self) := by
  have arrow : Finds s (arrowTail self []) := finds_arrowTail rules allWorded_nil
  exact .skip fun _ => .skip fun _ => .ite (finds_wordExpression rules _) (.ite (finds_parenthesizedOrArrow rules)
    (.ite (finds_arrayLiteral rules) (.ite (finds_objectLiteral rules) (.ite (finds_template (rules _))
      (.ite finds_stringLiteral (.ite (finds_scan (by decide) _) (.ite (finds_classExpression rules)
        (.ite finds_privateName (.ite (.skip fun _ => .ite (arrow.orElse (rules _)) (rules _))
          finds_numberLiteral)))))))))

theorem finds_member {target dot : Outline} (t : target.Worded s) (d : dot.Worded s) :
    Finds s (member self target dot) := by
  refine .skip fun _ => .ite ?_ (.skip fun _ => .skip fun _ => .ite ?_ ?_)
  · exact (finds_punct _).bind fun start m => (rules _).bracketed.bind fun index i =>
      (finds_punct _).bind fun stop e => .pure (by simp [t, d, m, i, e])
  · exact (lists_when (lists_one (finds_typeArguments rules))).bind fun types y =>
      (finds_argumentList rules).bind fun args a => .pure (by simp [t, d, y, a])
  · exact finds_propertyWord.bind fun name n => .pure (by simp [t, d, n])

theorem finds_instantiation {target : Outline} (t : target.Worded s) : Finds s (instantiation self target) := by
  refine (finds_typeArguments rules).bind fun types y => .skip fun _ => .ite ?_ (.ite ?_ ?_)
  · exact (finds_argumentList rules).bind fun args a => .pure (by simp [t, y, a])
  · exact (finds_template (rules _)).bind fun text x => .pure (by simp [t, y, x])
  · exact .skip fun _ => .skip fun _ => .skip fun _ => .skip fun _ => .ite (.pure (by simp [t, y])) .failure

theorem yields_postfixStep {target : Outline} (t : target.Worded s) :
    Yields s (fun r => ∀ o ∈ r, Worded s o) (postfixStep self target) := by
  refine .skip fun _ => .skip fun _ => .ite ?_ (.ite ?_ (.ite ?_ (.ite ?_ (.ite ?_ (.skip fun _ => .ite ?_
    (.skip fun _ => .ite ?_ (.ite (.orElse ?_ (.pure (by simp))) (.pure (by simp)))))))))
  · exact (finds_punct _).bind fun dot d => (finds_member rules t d).bind fun o found => .pure (by simp [found])
  · exact (finds_punct _).bind fun dot d => finds_propertyWord.bind fun name n => .pure (by simp [t, d, n])
  · exact (finds_punct _).bind fun start m => (rules _).bracketed.bind fun index i =>
      (finds_punct _).bind fun stop e => .pure (by simp [t, m, i, e])
  · exact (finds_argumentList rules).bind fun args a => .pure (by simp [t, a])
  · exact (finds_template (rules _)).bind fun text x => .pure (by simp [t, x])
  · exact (finds_punct _).bind fun mark m => .pure (by simp [t, m])
  · exact (finds_punct _).bind fun mark m => .pure (by simp [t, m])
  · exact (finds_instantiation rules t).bind fun o found => .pure (by simp [found])

theorem finds_postfixes {target : Outline} (t : target.Worded s) : Finds s (iterate (postfixStep self) target) :=
  .iterate (fun _ worded => yields_postfixStep rules worded) t

theorem finds_postfixExpression : Finds s (postfixExpression self) :=
  (rules _).bind fun _ found => finds_postfixes rules found

theorem yields_assertionStep {operand : Outline} (o : operand.Worded s) :
    Yields s (fun r => ∀ o ∈ r, Worded s o) (assertionStep self operand) := by
  have type : Finds s (do if ← isAtWord "const" then keyword "const" else self .typeExpr) :=
    .skip fun _ => .ite (finds_keyword _) (rules _)
  refine .skip fun _ => .ite ?_ (.skip fun _ => .ite ?_ (.pure (by simp)))
  · exact (finds_keyword _).bind fun word w => type.bind fun type t => .pure (by simp [o, w, t])
  · exact (finds_keyword _).bind fun word w => type.bind fun type t => .pure (by simp [o, w, t])

theorem finds_unaryRule : Finds s (unaryRule self) := by
  refine .skip fun _ => .skip fun _ => .ite ?_ (.ite ?_ (.ite ?_ (.skip fun _ => .ite ?_ (.skip fun _ =>
    .ite (.orElse ?_ ?_) (finds_postfixExpression rules)))))
  · exact (finds_punct _).bind fun mark m => (rules _).bind fun operand o => .pure (by simp [m, o])
  · exact (finds_punct _).bind fun mark m => (rules _).bind fun operand o => .pure (by simp [m, o])
  · exact (finds_anyWord (by decide)).bind fun mark m => (rules _).bind fun operand o => .pure (by simp [m, o])
  · exact (finds_keyword _).bind fun mark m => (rules _).bind fun first f =>
      Yields.bind (.iterate (fun _ worded => yields_assertionStep rules worded) f) fun operand o =>
        .pure (by simp [m, o])
  · exact (finds_arrowTail rules allWorded_nil).bind fun _ found => finds_postfixes rules found
  · exact (finds_typeArguments rules).bind fun types t => (rules _).bind fun operand o => .pure (by simp [t, o])

theorem finds_binaryRule (level : Nat) : Finds s (binaryRule self level) := by
  refine (rules _).bind fun first f => .iterate (fun left l => .skip fun word => ?_) f
  extract_lets joined
  -- the operator is read in two ways, and what is done with it is the same
  have rest : ∀ operator, Yields s (fun r => ∀ o ∈ r, Worded s o) (joined operator) := by
    intro operator
    refine .ite ?_ (.ite (yields_assertionStep rules l) (.pure (by simp)))
    have right : ∀ mark, Worded s mark → Yields s (fun r => ∀ o ∈ r, Worded s o) (do
        let right ← self (.binary (if operator == "**" then bindingLevel operator else bindingLevel operator + 1))
        return some (.node .binaryExpression [left, mark, right])) :=
      fun mark m => (rules _).bind fun right r => .pure (by simp [l, m, r])
    exact .ite ((finds_punct _).bind right) ((finds_anyWord (by decide)).bind right)
  exact .ite (rest _) (.skip fun operator => rest operator)

theorem finds_conditional {test : Outline} (worded : test.Worded s) : Finds s (conditional self test) := by
  have branch : Lists s (do return [← self .expression, ← punct ":"]) :=
    lists_pair (rules _) (finds_punct _)
  have plain : Lists s (withReader ({ · with typedArrow := false }) do return [← self .expression, ← punct ":"]) :=
    branch.withReader _ fun _ => rfl
  exact (finds_punct _).bind fun mark m => (branch.orElse plain).bind fun first f =>
    (rules _).bind fun second e => .pure (by simp [worded, m, f, e])

theorem finds_yieldExpression : Finds s (yieldExpression self) := by
  refine finds_node (by decide) (.skip fun _ => (finds_keyword _).bind fun word w =>
    (lists_optionalPunct _).bind fun star t => .skip fun _ => .ite ?_ (.pure (by simp [w, t])))
  exact (lists_optional (lists_one (rules _))).bind fun operand o => .pure (by simp [w, t, o])

theorem finds_expressionRule : Finds s (expressionRule self) := by
  refine .skip fun _ => .ite (finds_yieldExpression rules) ((rules _).bind fun left l => .skip fun _ =>
    .ite (finds_conditional rules l) (.ite ?_ (.ite ?_ (.pure l))))
  · exact (finds_punct _).bind fun mark m => (rules _).bind fun value v => .pure (by simp [l, m, v])
  · exact (finds_punct _).bind fun mark m => (rules _).bind fun value v => .pure (by simp [l, m, v])

theorem finds_sequenceRule : Finds s (sequenceRule self) := by
  refine (rules _).bind fun first f => Yields.bind (lists_many ?_) fun rest r => .ite (.pure f) (.pure (by simp [f, r]))
  exact lists_pair (finds_punct _) (rules _)

/-! ### Statements -/

theorem finds_variableDeclarator : Finds s (variableDeclarator self) :=
  finds_node (by decide) ((rules _).bind fun name n => (lists_optionalPunct _).bind fun mark m =>
    (lists_annotations rules).bind fun type t => (lists_initializer rules).bind fun value v =>
      .pure (by simp [n, m, t, v]))

theorem finds_variableStatement : Finds s (variableStatement self) := by
  refine .skip fun isVar => ((finds_keyword _).orElse ((finds_keyword _).orElse (finds_keyword _))).bind fun word w =>
    (finds_variableDeclarator rules).bind fun first f => Yields.bind (lists_many ?_) fun rest r =>
      (lists_semicolon _).bind fun ending e => .pure ?_
  · exact lists_pair (finds_punct _) (finds_variableDeclarator rules)
  · have other : (if isVar then Kind.variableDeclaration else .lexicalDeclaration).IsOther := by
      split <;> decide
    rw [worded_node other]
    simp [w, f, r, e]

theorem finds_functionDeclaration : Finds s (functionDeclaration self) := by
  refine finds_node (by decide) ((lists_optionalKeyword _).bind fun lead l =>
    (finds_keyword _).bind fun word w => (lists_optionalPunct _).bind fun star t =>
      (finds_bindingName (by decide)).bind fun name n => (lists_signature rules).bind fun head h =>
        .skip fun _ => .ite ?_ ?_)
  · exact (lists_one (rules _)).bind fun body b => .pure (by simp [l, w, t, n, h, b])
  · exact (lists_semicolon _).bind fun body b => .pure (by simp [l, w, t, n, h, b])

theorem finds_classDeclaration {marks : List Outline} (worded : AllWorded s marks) :
    Finds s (classDeclaration self marks) := by
  refine .skip fun _ => .skip fun _ => .ite .fail (.skip fun _ => .ite ?_ ?_)
  · exact (finds_keyword _).bind fun word w => (lists_classTail rules).bind fun tail t =>
      .pure (by simp [worded, w, t])
  · exact (lists_classTail rules).bind fun tail t => (lists_implicitSemicolon _).bind fun ending e =>
      .pure (by simp [worded, t, e])

theorem finds_interfaceDeclaration : Finds s (interfaceDeclaration self) := by
  refine finds_node (by decide) ((finds_keyword _).bind fun word w => (finds_anyWord (by decide)).bind fun name n =>
    (lists_typeParameters rules).bind fun types t => Yields.bind (lists_when ?_) fun bases b =>
      (finds_objectType rules).bind fun body o => .pure (by simp [w, n, t, b, o]))
  refine (finds_keyword _).bind fun word w => (rules _).bind fun type t => Yields.bind (lists_many ?_) fun more m =>
    .pure (by simp [w, t, m])
  exact lists_pair (finds_punct _) (rules _)

theorem finds_enumDeclaration : Finds s (enumDeclaration self) := by
  have entry : Lists s (do return (← propertyName self) :: (← initializer self)) :=
    lists_cons (finds_propertyName rules) (lists_initializer rules)
  exact finds_node (by decide) ((lists_optionalKeyword _).bind fun lead l =>
    (finds_keyword _).bind fun word w => (finds_anyWord (by decide)).bind fun name n => (finds_punct _).bind fun start m =>
      (lists_listUntil _ entry).bracketed.bind fun members r => .pure (by simp [l, w, n, m, r]))

theorem finds_typeAlias : Finds s (typeAlias self) :=
  finds_node (by decide) ((finds_keyword _).bind fun word w => (finds_anyWord (by decide)).bind fun name n =>
    (lists_typeParameters rules).bind fun types t => (finds_punct _).bind fun sign g => (rules _).bind fun value v =>
      (lists_semicolon _).bind fun ending e => .pure (by simp [w, n, t, g, v, e]))

theorem finds_moduleDeclaration : Finds s (moduleDeclaration self) :=
  finds_node (by decide) (((finds_keyword _).orElse (finds_keyword _)).bind fun word w =>
    ((lists_one finds_stringLiteral).orElse lists_entityName).bind fun name n =>
      (lists_when (lists_one (rules _))).bind fun body b => .pure (by simp [w, n, b]))

theorem finds_ambientDeclaration : Finds s (ambientDeclaration self) := by
  refine finds_node (by decide) ((finds_keyword _).bind fun word w => .skip fun _ => .skip fun _ => .ite ?_ ?_)
  · exact (finds_keyword _).bind fun mark m => (rules _).bind fun body b => .pure (by simp [w, m, b])
  · exact (rules _).bind fun body b => .pure (by simp [w, b])

theorem lists_exportDefault : Lists s (exportDefault self) := by
  refine (finds_keyword _).bind fun word w => (lists_decorators rules).bind fun marks m =>
    Yields.bind (.orElse (lists_one ?_) ?_) fun body b => .pure (by simp [w, b])
  · exact (finds_functionDeclaration rules).orElse ((finds_classDeclaration rules m).orElse
      ((finds_interfaceDeclaration rules).orElse (finds_enumDeclaration rules)))
  · exact lists_cons (rules _) (lists_semicolon _)

theorem finds_exportStatement {marks : List Outline} (worded : AllWorded s marks) :
    Finds s (exportStatement self marks) := by
  refine finds_node (by decide) ((finds_keyword _).bind fun word w => .skip fun _ => .skip fun _ => .skip fun _ =>
    .skip fun _ => .skip fun _ => ?_)
  extract_lets exported
  -- every form of an export ends in the same node
  have rest : ∀ body, AllWorded s body → Lists s (exported body) := fun body b => .pure (by simp [worded, w, b])
  refine .skip fun _ => .skip fun _ => .ite ((lists_exportList rules).bind rest) (.ite ?_ (.ite ?_
    (.ite ((lists_exportedAlias rules).bind rest) (.ite ((lists_exportDefault rules).bind rest)
      (.ite ?_ ((lists_one (rules _)).bind rest))))))
  · exact (finds_punct _).bind fun sign g => (rules _).bind fun value v => (lists_semicolon _).bind fun ending e =>
      rest _ (by simp [g, v, e])
  · exact (finds_keyword _).bind fun mark m => (finds_keyword _).bind fun space p =>
      (finds_anyWord (by decide)).bind fun name n => (lists_semicolon _).bind fun ending e => rest _ (by simp [m, p, n, e])
  · exact (lists_decorators rules).bind fun inner i => (lists_one (finds_classDeclaration rules i)).bind rest

theorem finds_decorated : Finds s (decorated self) :=
  (lists_decorators rules).bind fun _ worded => .skip fun _ =>
    .ite (finds_exportStatement rules worded) (finds_classDeclaration rules worded)

theorem finds_expressionStatement : Finds s (expressionStatement self) :=
  finds_node (by decide) (lists_cons (rules _) (lists_semicolon _))

theorem finds_ifStatement : Finds s (ifStatement self) := by
  refine finds_node (by decide) ((finds_keyword _).bind fun word w => (finds_parenthesized rules).bind fun test t =>
    (rules _).bind fun body b => Yields.bind (lists_when (lists_one (finds_node (by decide) ?_))) fun other o =>
      .pure (by simp [w, t, b, o]))
  exact lists_pair (finds_keyword _) (rules _)

theorem lists_forEachHead : Lists s (forEachHead self) := by
  refine Yields.bind (.orElse ?_ (lists_one (rules _))) fun left l =>
    ((finds_keyword _).orElse (finds_keyword _)).bind fun word w => (rules _).bind fun value v =>
      .pure (by simp [l, w, v])
  exact ((finds_keyword _).orElse ((finds_keyword _).orElse (finds_keyword _))).bind fun word w =>
    (rules _).bind fun pattern p => (lists_initializer rules).bind fun value v => .pure (by simp [w, p, v])

theorem lists_forHead : Lists s (forHead self) := by
  have part : ∀ close : String, Lists s (do
      let value ← optional (one (self .sequence))
      return value ++ [← punct close]) := fun close =>
    (lists_optional (lists_one (rules _))).bind fun value v => (finds_punct _).bind fun mark m =>
      .pure (by simp [v, m])
  exact ((lists_one (finds_variableStatement rules)).orElse (part _)).bind fun start m =>
    (part _).bind fun condition c => (lists_optional (lists_one (rules _))).bind fun step t => .pure (by simp [m, c, t])

theorem finds_forStatement : Finds s (forStatement self) := by
  have closed : ∀ head : Parser (List Outline), Lists s head → Lists s (do return (← head) ++ [← punct ")"]) :=
    fun head found => found.bind fun inner i => (finds_punct _).bind fun stop e => .pure (by simp [i, e])
  exact finds_node (by decide) ((finds_keyword _).bind fun word w =>
    (lists_optionalKeyword _).bind fun mark m => (finds_punct _).bind fun start t =>
      ((closed _ (lists_forEachHead rules)).orElse (closed _ (lists_forHead rules))).bracketed.bind fun head h =>
        (rules _).bind fun body b => .pure (by simp [w, m, t, h, b]))

theorem finds_doStatement : Finds s (doStatement self) :=
  finds_node (by decide) ((finds_keyword _).bind fun word w => (rules _).bind fun body b =>
    (finds_keyword _).bind fun mark m => (finds_parenthesized rules).bind fun test t =>
      (lists_optional (lists_semicolon _)).bind fun ending e => .pure (by simp [w, b, m, t, e]))

theorem finds_tryStatement : Finds s (tryStatement self) := by
  refine finds_node (by decide) ((finds_keyword _).bind fun word w => (rules _).bind fun body b =>
    Yields.bind (lists_when (lists_one (finds_node (by decide) ?_))) fun handler h =>
      Yields.bind (lists_when (lists_one (finds_node (by decide) ?_))) fun finalizer f =>
        .pure (by simp [w, b, h, f]))
  · refine (finds_keyword _).bind fun word w => Yields.bind (lists_when ?_) fun binding g =>
      (rules _).bind fun body b => .pure (by simp [w, g, b])
    exact (finds_punct _).bind fun start m => (rules _).bind fun pattern p =>
      (lists_annotations rules).bind fun type t => (finds_punct _).bind fun stop e => .pure (by simp [m, p, t, e])
  · exact lists_pair (finds_keyword _) (rules _)

theorem lists_switchCase : Lists s (switchCase self) := by
  refine lists_one (finds_node (by decide) (.skip fun _ => ?_))
  extract_lets headed
  have rest : ∀ head, AllWorded s head → Lists s (headed head) := fun head h =>
    (finds_punct _).bind fun colon c => (lists_many (lists_one (rules _))).bind fun body b =>
      .pure (by simp [h, c, b])
  refine .ite ((lists_one (finds_keyword _)).bind rest) ?_
  exact (finds_keyword _).bind fun word w => (rules _).bind fun value v => rest _ (by simp [w, v])

theorem finds_switchStatement : Finds s (switchStatement self) := by
  refine finds_node (by decide) ((finds_keyword _).bind fun word w => (finds_parenthesized rules).bind fun test t =>
    Yields.bind (finds_node (by decide) ?_) fun body b => .pure (by simp [w, t, b]))
  exact lists_cons (finds_punct _) (lists_manyUntil _ (lists_switchCase rules)).bracketed

omit rules in
theorem finds_jump (word : String) {operand : Parser Outline} (found : Finds s operand) :
    Finds s (jump word operand) := by
  refine finds_node (by decide) ((finds_keyword _).bind fun head h => .skip fun _ => .skip fun _ => ?_)
  have ended : Lists s (do return head :: (← semicolon {})) :=
    (lists_semicolon _).bind fun ending e => .pure (by simp [h, e])
  split
  · exact ended
  · exact .skip fun _ => .ite ended (found.bind fun value v => (lists_semicolon _).bind fun ending e =>
      .pure (by simp [h, v, e]))

theorem finds_labeled : Finds s (labeled self) :=
  finds_node (by decide) (lists_triple (finds_bindingName (by decide)) (finds_punct _) (rules _))

theorem finds_blockRule (operand : Bool) : Finds s (blockRule self operand) :=
  finds_node (by decide) ((finds_punct _).bind fun start m =>
    (lists_manyUntil _ (lists_one (rules _))).bracketed.bind fun inner i =>
      (lists_implicitSemicolon _).bind fun ending e => .pure (by simp [m, i, e]))

theorem finds_contextual (word second : String) : Finds s (contextual self word second) := by
  refine .skip fun _ => .skip fun _ => .ite .failure (.ite (finds_typeAlias rules)
    (.ite (finds_interfaceDeclaration rules) (.ite ?_ (.ite (finds_classDeclaration rules allWorded_nil)
      (.ite ?_ (.ite (finds_moduleDeclaration rules) (.ite ?_ .failure)))))))
  · exact .skip fun _ => .ite (finds_ambientDeclaration rules) .failure
  · exact .skip fun _ => .ite (finds_functionDeclaration rules) .failure
  · exact finds_node (by decide) (lists_cons (finds_moduleDeclaration rules) (lists_optional (lists_semicolon _)))

theorem finds_guardedStatement (word : String) :
    Finds s (node .other do return [← keyword word, ← parenthesized self, ← self .statement]) :=
  finds_node (by decide) (lists_triple (finds_keyword _) (finds_parenthesized rules) (rules _))

theorem finds_statementRule : Finds s (statementRule self) := by
  refine .skip fun _ => .skip fun word => .skip fun second => .skip fun _ => .ite (rules _)
    (.ite (finds_node (by decide) (lists_one (finds_punct _))) (.ite (finds_decorated rules) ?_))
  split
  · exact finds_expressionStatement rules
  · exact finds_variableStatement rules
  · exact .ite (finds_enumDeclaration rules) (finds_variableStatement rules)
  · exact .ite ((finds_variableStatement rules).orElse (finds_expressionStatement rules))
      (finds_expressionStatement rules)
  · exact finds_functionDeclaration rules
  · exact finds_classDeclaration rules allWorded_nil
  · exact finds_enumDeclaration rules
  · exact .ite (finds_expressionStatement rules) (finds_importStatement rules)
  · exact finds_exportStatement rules allWorded_nil
  · exact finds_ifStatement rules
  · exact finds_forStatement rules
  · exact finds_guardedStatement rules _
  · exact finds_guardedStatement rules _
  · exact finds_doStatement rules
  · exact finds_tryStatement rules
  · exact finds_switchStatement rules
  · exact finds_jump _ (finds_anyWord (by decide))
  · exact finds_jump _ (finds_anyWord (by decide))
  · exact finds_jump _ (rules _)
  · exact finds_jump _ (rules _)
  · exact finds_node (by decide) (lists_cons (finds_keyword _) (lists_semicolon _))
  · exact (finds_contextual rules word second).orElse ((finds_labeled rules).orElse (finds_expressionStatement rules))

/-- One step of the grammar finds words as identifiers, if everything nested inside does. -/
theorem finds_rule (goal : Goal) : Finds s (rule self goal) := by
  cases goal with
  | sequence => exact finds_sequenceRule rules
  | expression => exact finds_expressionRule rules
  | binary level => exact finds_binaryRule rules level
  | unary => exact finds_unaryRule rules
  | primary => exact finds_primaryRule rules
  | markup => exact finds_markupRule rules
  | pattern => exact finds_patternRule rules
  | typeExpr => exact finds_typeExprRule rules
  | typeOperand => exact finds_typeOperandRule rules
  | statement => exact finds_statementRule rules
  | block operand => exact finds_blockRule rules operand

end Rules

/-! ### Programs -/

theorem finds_goal (depth : Nat) : ∀ goal, Finds s (Parser.goal depth goal) := by
  induction depth with
  | zero => exact fun _ => .failure
  | succ depth ih => exact finds_rule ih

theorem lists_statements : Lists s statements := by
  have lead : Lists s hashBang :=
    lists_when (.skip fun _ => .skip fun _ => lists_one (finds_leafTo (by decide) _))
  have step : ∀ depth (sofar : List Outline), AllWorded s sofar → Yields s (fun r => ∀ all ∈ r, AllWorded s all)
      (do if ← isAtEnd then return none else return some (sofar ++ [← Parser.goal depth .statement])) := by
    intro depth sofar worded
    refine .skip fun _ => .ite (.pure (by simp)) ((finds_goal _ _).bind fun found o => .pure ?_)
    simp [worded, o]
  exact .skip fun _ => lead.bind fun front f => (Yields.iterate (step _) allWorded_nil).bind fun body b =>
    .pure (by simp [f, b])

/-- Every identifier of a program is a word of its text. -/
theorem worded_program (s : Input) : (program s).Worded s := by
  refine .mk (by decide) (fun same => by cases same) fun child mem => ?_
  rcases List.mem_append.mp mem with inside | last
  · cases parsed : (statements.run { input := s }).run { last := 0, next := s.skipTrivia 0 } with
    | none => simp [parsed] at inside
    | some answer =>
      have worded := lists_statements _ _ _ _ rfl parsed
      exact worded child (by simpa [parsed] using inside)
  · rw [List.mem_singleton.mp last]
    exact worded_leaf (by decide) _ _

end SchemaTypes.Syntax.Parser
