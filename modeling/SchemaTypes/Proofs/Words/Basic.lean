import SchemaTypes.Syntax.Tree

/-!
Identifiers of an outline are words of the text, that is, what the scanner of words takes, and no node of an outline is a
comment. The grammar finds identifiers by one parser only, so the property goes through the other parsers: each answers
with identifiers that are words if the parsers inside it do. Here are the combinators and the parsers of single tokens.
-/

namespace SchemaTypes.Syntax

/-- Every identifier in an outline is a word of the text, and nothing in it is a comment. -/
inductive Outline.Worded (s : Input) : Outline → Prop
  | mk {kind : Kind} {role : Option Role} {start stop : Nat} {children : List Outline} (solid : kind ≠ .comment)
      (word : kind = .identifier → s.wordEnd? start = some stop) (inside : ∀ child ∈ children, Worded s child) :
      Worded s (.mk kind role start stop children)

/-- The kinds of the nodes that are neither identifiers nor comments. -/
def Kind.IsOther (kind : Kind) : Prop := kind ≠ .identifier ∧ kind ≠ .comment

instance (kind : Kind) : Decidable kind.IsOther := inferInstanceAs (Decidable (_ ∧ _))

@[simp] theorem Kind.isOther_iff {kind : Kind} : kind.IsOther ↔ kind ≠ .identifier ∧ kind ≠ .comment := Iff.rfl

/-- Every one of some outlines is of that kind. -/
def Outline.AllWorded (s : Input) (outlines : List Outline) : Prop := ∀ o ∈ outlines, o.Worded s

namespace Outline

variable {s : Input}

@[simp] theorem allWorded_nil : AllWorded s [] := by simp [AllWorded]

@[simp] theorem allWorded_cons {o : Outline} {rest : List Outline} :
    AllWorded s (o :: rest) ↔ o.Worded s ∧ AllWorded s rest := by simp [AllWorded]

@[simp] theorem allWorded_append {front back : List Outline} :
    AllWorded s (front ++ back) ↔ AllWorded s front ∧ AllWorded s back := by
  simp only [AllWorded, List.mem_append]
  grind

theorem worded_leaf {kind : Kind} (other : kind.IsOther) (start stop : Nat) : (leaf kind start stop).Worded s :=
  .mk other.2 (fun same => absurd same other.1) (by simp)

@[simp] theorem worded_node {kind : Kind} (other : kind.IsOther) {children : List Outline} :
    (node kind children).Worded s ↔ AllWorded s children := by
  constructor
  · rintro ⟨-, -, inside⟩
    exact inside
  · exact fun inside => .mk other.2 (fun same => absurd same other.1) inside

@[simp] theorem worded_as {o : Outline} {role : Role} : (o.as role).Worded s ↔ o.Worded s := by
  obtain ⟨kind, role, start, stop, children⟩ := o
  constructor
  · rintro ⟨solid, word, inside⟩
    exact .mk solid word inside
  · rintro ⟨solid, word, inside⟩
    exact .mk solid word inside

theorem Worded.withKind {o : Outline} {kind : Kind} (worded : o.Worded s) (other : kind.IsOther) :
    (o.withKind kind).Worded s := by
  obtain ⟨-, -, inside⟩ := worded
  exact .mk other.2 (fun same => absurd same other.1) inside

end Outline

namespace Parser

/-- Whatever a parser answers with on an input meets a condition. -/
def Yields (s : Input) {α : Type} (post : α → Prop) (p : Parser α) : Prop :=
  ∀ scope cursor a next, scope.input = s → (p.run scope).run cursor = some (a, next) → post a

abbrev Finds (s : Input) (p : Parser Outline) : Prop := Yields s (Outline.Worded s) p

abbrev Lists (s : Input) (p : Parser (List Outline)) : Prop := Yields s (Outline.AllWorded s) p

variable {s : Input} {α β : Type} {post : α → Prop} {goal : β → Prop}

namespace Yields

theorem pure {a : α} (holds : post a) : Yields s post (pure a) := by
  intro scope cursor a' next _ success
  cases success
  exact holds

theorem failure : Yields s post (failure : Parser α) := by
  intro scope cursor a next _ success
  cases success

theorem bind {p : Parser α} {f : α → Parser β} (first : Yields s post p)
    (second : ∀ a, post a → Yields s goal (f a)) : Yields s goal (p >>= f) := by
  intro scope cursor b next given success
  rw [ReaderT.run_bind, StateT.run_bind] at success
  obtain ⟨⟨a, middle⟩, found, success⟩ := Option.bind_eq_some_iff.mp success
  exact second a (first scope cursor a middle given found) scope middle b next given success

theorem skip {p : Parser α} {f : α → Parser β} (second : ∀ a, Yields s goal (f a)) : Yields s goal (p >>= f) := by
  have first : Yields s (fun _ => True) p := fun _ _ _ _ _ _ => trivial
  exact first.bind fun a _ => second a

theorem fail {f : α → Parser β} : Yields s goal (Alternative.failure >>= f) := by
  have first : Yields s (fun _ : α => False) Alternative.failure := failure
  exact first.bind fun _ impossible => impossible.elim

theorem orElse {p q : Parser α} (first : Yields s post p) (second : Yields s post q) : Yields s post (p <|> q) := by
  intro scope cursor a next given success
  change ((p.run scope).run cursor <|> (q.run scope).run cursor) = some (a, next) at success
  cases found : (p.run scope).run cursor with
  | none =>
    rw [found] at success
    exact second scope cursor a next given success
  | some answer =>
    rw [found] at success
    exact first scope cursor a next given (found.trans success)

theorem ite {c : Prop} [Decidable c] {p q : Parser α} (first : Yields s post p) (second : Yields s post q) :
    Yields s post (if c then p else q) := by
  split
  · exact first
  · exact second

theorem iterateWith {step : α → Parser (Option α)} (each : ∀ a, post a → Yields s (fun r => ∀ b ∈ r, post b) (step a))
    (fuel : Nat) {a : α} (holds : post a) : Yields s post (iterateWith step fuel a) := by
  induction fuel generalizing a with
  | zero => exact pure holds
  | succ fuel ih =>
    refine (each a holds).bind fun r met => ?_
    cases r with
    | none => exact pure holds
    | some b => exact ih (met b rfl)

theorem iterate {step : α → Parser (Option α)} (each : ∀ a, post a → Yields s (fun r => ∀ b ∈ r, post b) (step a))
    {a : α} (holds : post a) : Yields s post (iterate step a) :=
  skip fun _ => iterateWith each _ holds

theorem withReader {p : Parser α} (f : Scope → Scope) (same : ∀ scope, (f scope).input = scope.input)
    (inner : Yields s post p) : Yields s post (withReader f p) := by
  intro scope cursor a next given success
  exact inner (f scope) cursor a next ((same scope).trans given) success

theorem bracketed {p : Parser α} (inner : Yields s post p) : Yields s post (bracketed p) :=
  withReader _ (fun _ => rfl) inner

end Yields

open Outline

theorem finds_leafTo {kind : Kind} (other : kind.IsOther) (stop : Nat) : Finds s (leafTo kind stop) :=
  .skip fun _ => .skip fun _ => .pure (worded_leaf other _ _)

theorem finds_punct (spelling : String) : Finds s (punct spelling) :=
  .skip fun _ => .ite (.skip fun _ => finds_leafTo (by decide) _) .failure

theorem finds_either (spelling other : String) : Finds s (punct spelling <|> punct other) :=
  (finds_punct _).orElse (finds_punct _)

theorem run_input (scope : Scope) (cursor : Cursor) : (input.run scope).run cursor = some (scope.input, cursor) := rfl

theorem run_get (scope : Scope) (cursor : Cursor) :
    ((get : Parser Cursor).run scope).run cursor = some (cursor, cursor) := rfl

/-- Identifiers are found by this parser alone. -/
theorem finds_anyWord {kind : Kind} (solid : kind ≠ .comment) : Finds s (anyWord kind) := by
  intro scope cursor o next given success
  simp only [anyWord, scan, ReaderT.run_bind, StateT.run_bind, run_input, run_get, Option.bind_eq_bind,
    Option.bind_some] at success
  split at success
  next stop ending =>
    cases success
    exact .mk solid (fun _ => given ▸ ending) (by simp)
  · cases success

theorem finds_scan {kind : Kind} (other : kind.IsOther) (scanner : Input → Nat → Option Nat) :
    Finds s (scan kind scanner) := by
  refine .skip fun _ => .skip fun _ => ?_
  split
  · exact finds_leafTo other _
  · exact .failure

theorem finds_keyword (word : String) : Finds s (keyword word) :=
  .skip fun _ => .ite (finds_scan (by decide) _) .failure

theorem finds_node {kind : Kind} (other : kind.IsOther) {p : Parser (List Outline)} (inner : Lists s p) :
    Finds s (node kind p) :=
  inner.bind fun _ worded => .pure ((worded_node other).mpr worded)

theorem lists_one {p : Parser Outline} (found : Finds s p) : Lists s (one p) :=
  found.bind fun _ worded => .pure (by simp [worded])

theorem lists_pair {p q : Parser Outline} (first : Finds s p) (second : Finds s q) :
    Lists s (do return [← p, ← q]) :=
  first.bind fun _ f => second.bind fun _ e => .pure (by simp [f, e])

theorem lists_triple {p q r : Parser Outline} (first : Finds s p) (second : Finds s q) (third : Finds s r) :
    Lists s (do return [← p, ← q, ← r]) :=
  first.bind fun _ f => second.bind fun _ e => third.bind fun _ t => .pure (by simp [f, e, t])

theorem lists_cons {p : Parser Outline} {q : Parser (List Outline)} (first : Finds s p) (rest : Lists s q) :
    Lists s (do return (← p) :: (← q)) :=
  first.bind fun _ f => rest.bind fun _ r => .pure (by simp [f, r])

theorem finds_enclosed {kind : Kind} (other : kind.IsOther) (opening : String) {p : Parser (List Outline)}
    (inner : Lists s p) :
    Finds s (node kind do
      let start ← punct opening
      return start :: (← bracketed p)) :=
  finds_node other (lists_cons (finds_punct _) inner.bracketed)

theorem lists_optional {p : Parser (List Outline)} (found : Lists s p) : Lists s (optional p) :=
  found.orElse (.pure allWorded_nil)

theorem lists_optionalPunct (spelling : String) : Lists s (optional (one (punct spelling))) :=
  lists_optional (lists_one (finds_punct spelling))

theorem lists_optionalKeyword (word : String) : Lists s (optional (one (keyword word))) :=
  lists_optional (lists_one (finds_keyword word))

theorem lists_when {condition : Parser Bool} {p : Parser (List Outline)} (found : Lists s p) :
    Lists s (when condition p) :=
  .skip fun _ => .ite found (.pure allWorded_nil)

theorem lists_many {p : Parser (List Outline)} (found : Lists s p) : Lists s (many p) := by
  refine .iterate (fun sofar worded => .orElse (found.bind fun more further => .pure ?_) (.pure ?_)) allWorded_nil
  · rintro _ ⟨⟩
    simp [worded, further]
  · rintro _ ⟨⟩

theorem lists_manyUntil (close : String) {p : Parser (List Outline)} (found : Lists s p) :
    Lists s (manyUntil close p) := by
  have step : ∀ sofar : List Outline, AllWorded s sofar →
      Yields s (fun r => ∀ all ∈ r, AllWorded s all)
        (do if ← isAt close then return none else return some (sofar ++ (← p))) := by
    intro sofar worded
    refine .skip fun _ => .ite (.pure ?_) (found.bind fun more further => .pure ?_)
    · rintro _ ⟨⟩
    · rintro _ ⟨⟩
      simp [worded, further]
  refine (Yields.iterate step allWorded_nil).bind fun inner worded => (finds_punct close).bind fun mark met => .pure ?_
  simp [worded, met]

theorem lists_listUntil (close : String) {item : Parser (List Outline)} (found : Lists s item) :
    Lists s (listUntil close item) := by
  refine lists_manyUntil close (.orElse (lists_one (finds_punct _)) (found.bind fun more worded => ?_))
  exact .skip fun _ => .skip fun _ => .ite (.pure worded) .failure

end Parser
end SchemaTypes.Syntax
