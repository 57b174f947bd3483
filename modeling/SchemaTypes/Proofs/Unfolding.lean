import SchemaTypes.Proofs.StepLaw

/-!
Compositions without cycles. The plain unfolding of an expression follows every binding that its members lead to, however
often, and has no memory of those it is following. Where bindings carry a rank that decreases from each composition to the
bindings it refers to, the literals of an expression are exactly its plain unfolding: a binding that is shared by several
members is never taken for a cycle.

The outcome of a search depends on the pass only through what the pass sees of the files (`Viewed`). Every member of a
composition can therefore be looked at in the state in which the composition was entered.
-/

namespace SchemaTypes

open Syntax

/-- Whether a shape stands for object literals, its own or those of its members. -/
def Shape.buildsObjects : Shape → Bool
  | inlineObject _ | composeCall _ => true
  | _ => false

namespace Compilation

variable {α β : Type}

/-! ### Searches and the view -/

/-- A step that keeps the view of a pass, and whose outcome is the same in all states with one view. -/
def Viewed (w : Workspace) (step : Compile α) (good : α → Prop) : Prop :=
  ∀ c, view w (run step w c).2 = view w c ∧ (∀ a, (run step w c).1 = .ok a → good a) ∧
    ∀ c', view w c' = view w c → (run step w c').1 = (run step w c).1

namespace Viewed

variable {w : Workspace}

/-- What follows a viewed step may as well be run in the state before it. -/
theorem run_next {step : Compile α} {next : α → Compile β} {good : α → Prop} {final : β → Prop}
    (first : Viewed w step good) {c : Compilation} {a : α} (result : (run step w c).1 = .ok a)
    (rest : Viewed w (next a) final) : (run (step >>= next) w c).1 = (run (next a) w c).1 := by
  rw [run_bind_ok next result]
  exact (rest c).2.2 _ (first c).1

theorem bind {step : Compile α} {next : α → Compile β} {good : α → Prop} {final : β → Prop}
    (first : Viewed w step good) (rest : ∀ a, good a → Viewed w (next a) final) :
    Viewed w (step >>= next) final := by
  intro c
  obtain ⟨kept, holds, alike⟩ := first c
  cases result : (run step w c).1 with
  | error e =>
    rw [run_bind_error next result]
    refine ⟨kept, by simp, fun c' same => ?_⟩
    rw [run_bind_error next ((alike c' same).trans result)]
  | ok a =>
    have viewed := rest a (holds a result)
    refine ⟨?_, ?_, fun c' same => ?_⟩
    · rw [run_bind_ok next result]
      exact (viewed _).1.trans kept
    · rw [run_bind_ok next result]
      exact (viewed _).2.1
    · rw [first.run_next result viewed, first.run_next ((alike c' same).trans result) viewed]
      exact (viewed c).2.2 c' same

theorem load (path : Path) : Viewed w (load path) fun _ => True := by
  intro c
  obtain ⟨result, kept⟩ := load_result w c path
  refine ⟨kept, fun _ _ => trivial, fun c' same => ?_⟩
  rw [result, (load_result w c' path).1, same]

theorem loadReference (reference : Text) (base : Option Path) :
    Viewed w (loadReference reference base) fun _ => True := by
  intro c
  rw [run_loadReference]
  cases resolved : w.resolve reference base with
  | error e =>
    refine ⟨view_probing w c reference, by simp, fun c' same => ?_⟩
    rw [run_loadReference, resolved]
  | ok path =>
    obtain ⟨kept, -, alike⟩ := load (w := w) path (c.probing w reference)
    refine ⟨kept.trans (view_probing w c reference), fun _ _ => trivial, fun c' same => ?_⟩
    rw [run_loadReference, resolved]
    apply alike
    rw [view_probing, view_probing, same]

theorem settle {step : Compile α} {search : Nat → Compile α} {good : α → Prop}
    (each : ∀ bound, Viewed w (search bound) good)
    (settles : ∀ w c, ∃ enough, ∀ bound, enough ≤ bound → run step w c = run (search bound) w c) :
    Viewed w step good := by
  intro c
  obtain ⟨enough, settled⟩ := settles w c
  refine ⟨?_, ?_, fun c' same => ?_⟩
  · rw [settled enough (Nat.le_refl _)]
    exact (each enough c).1
  · rw [settled enough (Nat.le_refl _)]
    exact (each enough c).2.1
  · obtain ⟨enough', settled'⟩ := settles w c'
    rw [settled _ (Nat.le_max_left enough enough'), settled' _ (Nat.le_max_right enough enough')]
    exact (each _ c).2.2 c' same

/-- Each element of a traversal may be looked at in the state before the traversal. -/
theorem run_mapM {f : α → Compile β} (each : ∀ a, Viewed w (f a) fun _ => True) (l : List α) (c : Compilation) :
    (run (l.mapM f) w c).1 = l.mapM fun a => (run (f a) w c).1 := by
  induction l generalizing c with
  | nil => rfl
  | cons a l ih =>
    have kept := (each a c).1
    rw [List.mapM_cons, List.mapM_cons]
    cases result : (run (f a) w c).1 with
    | error e =>
      rw [run_bind_error _ result]
      rfl
    | ok b =>
      have same : (run (l.mapM f) w (run (f a) w c).2).1 = l.mapM fun a => (run (f a) w c).1 := by
        rw [ih]
        congr 1
        funext other
        exact (each other c).2.2 _ kept
      rw [run_bind_ok _ result, run_bind]
      rw [← same]
      cases run (l.mapM f) w (run (f a) w c).2 with
      | mk results last => cases results <;> rfl

end Viewed

theorem viewed_law (w : Workspace) : SearchLaw (fun _ => True) (Viewed w) where
  lift := fun {_} _ {_} holds _ => ⟨rfl, holds, fun _ _ => rfl⟩
  bind := Viewed.bind
  report := fun _ _ => ⟨view_congr rfl, fun _ _ => trivial, fun _ _ => rfl⟩
  loadReference := Viewed.loadReference
  settle := Viewed.settle

theorem viewed_objectLiterals (w : Workspace) (depth : Nat) (active : List BindingKey) (file : SourceFile) (value : Node) :
    Viewed w (objectLiterals depth active file value) fun _ => True :=
  (viewed_law w).objectLiterals depth active file value trivial

/-! ### The plain unfolding -/

/-- An expression in the file it stands in. -/
structure Site where
  file : SourceFile
  expression : Node

/-- What a member adds to a composition. -/
inductive Contribution where
  /-- The literals of the member itself, or the error of looking at it. -/
  | own (outcome : Except Error (List Node))
  /-- Whatever the value of a binding adds. -/
  | bound (key : BindingKey) (value : Site)

/-- What a member of a composition adds to it: an object built in place adds its literal, a name adds what it is bound to,
and all else adds nothing. -/
def contribution (w : Workspace) (c : Compilation) (file : SourceFile) (member : Node) : Contribution :=
  match Shape.ofNode member with
  | .error e => .own (.error e)
  | .ok (.inlineObject literal) => .own (.ok [literal])
  | .ok _ =>
    if member.kind == .identifier then
      match member.text with
      | .error e => .own (.error e)
      | .ok name =>
        match (run (resolveBinding file name) w c).1 with
        | .error e => .own (.error e)
        | .ok none => .own (.ok [])
        | .ok (some (owner, declarator)) =>
          match declarator.value? with
          | none => .own (.ok [])
          | some value => .bound (owner.path, name) ⟨owner, value⟩
    else .own (.ok [])

/-- The plain unfolding of an expression. An object is its literal. A composition is what its members add, one after the
other in their order; it fails by the first member that fails. Nothing is left out for having been met before, so an
expression that leads back to itself has no unfolding. -/
inductive Unfolds (w : Workspace) (c : Compilation) : Site → Except Error (List Node) → Prop
  | unreadable {site : Site} {e : Error} (shape : Shape.ofNode site.expression = .error e) :
    Unfolds w c site (.error e)
  | object {site : Site} {literal : Node} (shape : Shape.ofNode site.expression = .ok (.inlineObject literal)) :
    Unfolds w c site (.ok [literal])
  | composition {site : Site} {members : List Node} (outcomes : Node → Except Error (List Node))
    (shape : Shape.ofNode site.expression = .ok (.composeCall members))
    (own : ∀ member ∈ members, ∀ outcome, contribution w c site.file member = .own outcome → outcomes member = outcome)
    (bound : ∀ member ∈ members, ∀ key value, contribution w c site.file member = .bound key value →
      Unfolds w c value (outcomes member)) :
    Unfolds w c site ((members.mapM outcomes).map List.flatten)
  | other {site : Site} {shape : Shape} (read : Shape.ofNode site.expression = .ok shape)
    (plain : shape.buildsObjects = false) : Unfolds w c site (.ok [])

/-- An expression has at most one unfolding. -/
theorem Unfolds.deterministic {w : Workspace} {c : Compilation} {site : Site} {outcome outcome' : Except Error (List Node)}
    (unfolded : Unfolds w c site outcome) (unfolded' : Unfolds w c site outcome') : outcome = outcome' := by
  induction unfolded generalizing outcome' with
  | unreadable shape =>
    cases unfolded' with
    | unreadable shape' => exact congrArg Except.error (Except.error.inj (shape.symm.trans shape'))
    | object shape' => cases shape.symm.trans shape'
    | composition _ shape' _ _ => cases shape.symm.trans shape'
    | other read' _ => cases shape.symm.trans read'
  | object shape =>
    cases unfolded' with
    | unreadable shape' => cases shape.symm.trans shape'
    | object shape' =>
      cases shape.symm.trans shape'
      rfl
    | composition _ shape' _ _ => cases shape.symm.trans shape'
    | other read' plain =>
      cases shape.symm.trans read'
      cases plain
  | @composition site members outcomes shape own bound ih =>
    cases unfolded' with
    | unreadable shape' => cases shape.symm.trans shape'
    | object shape' => cases shape.symm.trans shape'
    | other read' plain =>
      cases shape.symm.trans read'
      cases plain
    | composition outcomes' shape' own' bound' =>
      cases shape.symm.trans shape'
      have same : ∀ member ∈ members, outcomes member = outcomes' member := by
        intro member inside
        cases added : contribution w c site.file member with
        | own outcome => rw [own member inside outcome added, own' member inside outcome added]
        | bound key value => exact ih member inside key value added (bound' member inside key value added)
      rw [mapM_congr same]
  | other read plain =>
    cases unfolded' with
    | unreadable shape' => cases read.symm.trans shape'
    | object shape' =>
      cases read.symm.trans shape'
      cases plain
    | composition _ shape' _ _ =>
      cases read.symm.trans shape'
      cases plain
    | other _ _ => rfl

/-! ### References between compositions -/

/-- A composition refers to a binding by one of its members. -/
def Refers (w : Workspace) (c : Compilation) (site : Site) (key : BindingKey) (value : Site) : Prop :=
  ∃ members, Shape.ofNode site.expression = .ok (.composeCall members) ∧
    ∃ member ∈ members, contribution w c site.file member = .bound key value

/-- The bindings that are reached from an expression through members of compositions, each with its value. -/
inductive Reached (w : Workspace) (c : Compilation) (start : Site) : BindingKey → Site → Prop
  | direct {key : BindingKey} {value : Site} (reference : Refers w c start key value) : Reached w c start key value
  | further {key key' : BindingKey} {site value : Site} (reached : Reached w c start key site)
    (reference : Refers w c site key' value) : Reached w c start key' value

namespace Reached

variable {w : Workspace} {c : Compilation}

theorem of_refers {site next value : Site} {key key' : BindingKey} (reference : Refers w c site key next)
    (reached : Reached w c next key' value) : Reached w c site key' value := by
  induction reached with
  | direct last => exact .further (.direct reference) last
  | further _ last ih => exact .further ih last

theorem trans {start site value : Site} {key key' : BindingKey} (first : Reached w c start key site)
    (second : Reached w c site key' value) : Reached w c start key' value := by
  induction second with
  | direct last => exact .further first last
  | further _ last ih => exact .further ih last

/-- A rank that decreases along each reference decreases along every path of references. -/
theorem rank_lt {ρ : Type} [Preorder ρ] {rank : BindingKey → ρ} {start site value : Site} {key key' : BindingKey}
    (descends : ∀ key site key' value, Reached w c start key site → Refers w c site key' value → rank key' < rank key)
    (first : Reached w c start key site) (second : Reached w c site key' value) : rank key' < rank key := by
  induction second with
  | direct last => exact descends _ _ _ _ first last
  | further middle last ih => exact (descends _ _ _ _ (first.trans middle) last).trans ih

end Reached

theorem contribution_bound {w : Workspace} {c : Compilation} {file : SourceFile} {member : Node} {key : BindingKey}
    {value : Site} (added : contribution w c file member = .bound key value) :
    ∃ declarator, member.kind = .identifier ∧ member.text = .ok key.2 ∧
      (run (resolveBinding file key.2) w c).1 = .ok (some (value.file, declarator)) ∧
      declarator.value? = some value.expression ∧ value.file.path = key.1 := by
  unfold contribution at added
  split at added
  · cases added
  · cases added
  · split at added
    next identifier =>
      split at added
      · cases added
      next name text =>
        split at added
        · cases added
        · cases added
        next owner declarator found =>
          split at added
          · cases added
          next node valued =>
            cases added
            exact ⟨declarator, by simpa using identifier, text, found, valued, rfl⟩
    · cases added

/-- A binding that a member leads to is in a file that is reached along imports, and that file binds the name. -/
theorem contribution_reaches {w : Workspace} {c : Compilation} {file : SourceFile} {member : Node} {key : BindingKey}
    {value : Site} (added : contribution w c file member = .bound key value) :
    Reaches w (view w c) file value.file ∧
      ∃ declarator, value.file.binding? key.2 = .ok (some declarator) ∧ declarator.value? = some value.expression := by
  obtain ⟨declarator, -, -, found, valued, -⟩ := contribution_bound added
  obtain ⟨-, ⟨result, same, along⟩ | ⟨e, failed, -⟩⟩ := Ensures.resolveBinding file key.2 c (rfl : view w c = view w c)
  · rw [found] at same
    cases same
    obtain ⟨reached, bound⟩ := along value.file declarator rfl
    exact ⟨reached, declarator, bound, valued⟩
  · rw [found] at failed
    cases failed

/-! ### Checking a rank -/

/-- The bindings that a site refers to, with their values. -/
def Site.references (w : Workspace) (c : Compilation) (site : Site) : List (BindingKey × Site) :=
  match Shape.ofNode site.expression with
  | .ok (.composeCall members) =>
    members.filterMap fun member =>
      match contribution w c site.file member with
      | .bound key value => some (key, value)
      | .own _ => none
  | _ => []

theorem Refers.mem_references {w : Workspace} {c : Compilation} {site value : Site} {key : BindingKey}
    (reference : Refers w c site key value) : (key, value) ∈ site.references w c := by
  obtain ⟨members, shape, member, inside, added⟩ := reference
  simp only [Site.references, shape]
  exact List.mem_filterMap.mpr ⟨member, inside, by rw [added]⟩

/-- Whether references from a site go down in rank, avoid the active bindings and end within a depth. -/
def Site.descends (w : Workspace) (c : Compilation) (rank : BindingKey → Nat) (active : List BindingKey) :
    Nat → Site → Bool
  | 0, site => (site.references w c).isEmpty
  | depth + 1, site =>
    (site.references w c).all fun reference =>
      active.all (· ≠ reference.1) && (reference.2.references w c).all (rank ·.1 < rank reference.1) &&
        descends w c rank active depth reference.2

theorem Site.descends_refers {w : Workspace} {c : Compilation} {rank : BindingKey → Nat} {active : List BindingKey}
    {depth : Nat} {site value : Site} {key : BindingKey} (checked : site.descends w c rank active depth = true)
    (reference : Refers w c site key value) :
    key ∉ active ∧ (∀ key' value', Refers w c value key' value' → rank key' < rank key) ∧
      ∃ further, value.descends w c rank active further = true := by
  have listed := reference.mem_references
  cases depth with
  | zero =>
    rw [descends, List.isEmpty_iff] at checked
    rw [checked] at listed
    cases listed
  | succ depth =>
    have here := List.all_eq_true.mp checked (key, value) listed
    simp only [Bool.and_eq_true, decide_eq_true_eq, List.all_eq_true] at here
    obtain ⟨⟨free, lower⟩, further⟩ := here
    exact ⟨fun member => free key member rfl, fun key' value' next => lower (key', value') next.mem_references, depth,
      further⟩

theorem Site.descends_reached {w : Workspace} {c : Compilation} {rank : BindingKey → Nat} {active : List BindingKey}
    {depth : Nat} {start value : Site} {key : BindingKey} (checked : start.descends w c rank active depth = true)
    (reached : Reached w c start key value) :
    key ∉ active ∧ (∀ key' value', Refers w c value key' value' → rank key' < rank key) ∧
      ∃ further, value.descends w c rank active further = true := by
  induction reached with
  | direct reference => exact descends_refers checked reference
  | further _ reference ih =>
    obtain ⟨-, -, further, checked⟩ := ih
    exact descends_refers checked reference

/-! ### Following and unfolding -/

/-- What a member is followed to, seen from the state in which its composition is entered. -/
theorem memberLiterals_outcome {w : Workspace} {follow : Follow}
    (each : ∀ active file value, Viewed w (follow active file value) fun _ => True)
    (active : List BindingKey) (file : SourceFile) (member : Node) (c : Compilation) :
    (run (memberLiterals follow active file member) w c).1 =
      match contribution w c file member with
      | .own outcome => outcome
      | .bound key value =>
        if key ∈ active then .ok [] else (run (follow (key :: active) value.file value.expression) w c).1 := by
  unfold memberLiterals contribution
  simp only [run_bind, run_liftM]
  cases Shape.ofNode member with
  | error e => rfl
  | ok shape =>
    cases shape with
    | inlineObject literal => rfl
    | _ =>
      simp only
      split
      · simp only [run_bind, run_liftM]
        cases member.text with
        | error e => rfl
        | ok name =>
          have kept : view w (run (resolveBinding file name) w c).2 = view w c :=
            ((viewed_law w).resolveBinding trivial name c).1
          simp only
          cases outcome : run (resolveBinding file name) w c with
          | mk found after =>
            rw [outcome] at kept
            cases found with
            | error e => rfl
            | ok found =>
              cases found with
              | none => rfl
              | some binding =>
                obtain ⟨owner, declarator⟩ := binding
                simp only
                cases declarator.value? with
                | none => rfl
                | some value =>
                  simp only
                  split
                  · rfl
                  · exact (each _ owner value c).2.2 after kept
      · rfl

/-- A composition is followed member by member, each seen from the state in which it is entered. -/
theorem literalsWith_outcome {w : Workspace} {follow : Follow}
    (each : ∀ active file value, Viewed w (follow active file value) fun _ => True)
    (active : List BindingKey) (site : Site) (c : Compilation) :
    (run (literalsWith follow active site.file site.expression) w c).1 =
      match Shape.ofNode site.expression with
      | .error e => .error e
      | .ok (.inlineObject literal) => .ok [literal]
      | .ok (.composeCall members) =>
        (members.mapM fun member => (run (memberLiterals follow active site.file member) w c).1).map List.flatten
      | .ok _ => .ok [] := by
  have viewed (member : Node) : Viewed w (memberLiterals follow active site.file member) fun _ => True :=
    (viewed_law w).memberLiterals (fun active file value _ => each active file value) active trivial member
  unfold literalsWith
  simp only [run_bind, run_liftM]
  cases Shape.ofNode site.expression with
  | error e => rfl
  | ok shape =>
    cases shape with
    | composeCall members =>
      simp only [← Viewed.run_mapM viewed, run_bind]
      cases run (members.mapM (memberLiterals follow active site.file)) w c with
      | mk result after => cases result <;> rfl
    | _ => rfl

/-- The bindings that are being followed when a site is entered from a start: they are distinct and in reach along imports,
and each has a higher rank than whatever is reached from the site. -/
structure Trail {ρ : Type} [Preorder ρ] (w : Workspace) (c : Compilation) (rank : BindingKey → ρ) (start : Site)
    (followed : List BindingKey) (site : Site) : Prop where
  distinct : followed.Nodup
  bound : ∀ key ∈ followed, key ∈ reachableKeys w c start.file
  imported : Reaches w (view w c) start.file site.file
  within : ∀ key value, Reached w c site key value → Reached w c start key value
  above : ∀ key value, Reached w c site key value → ∀ earlier ∈ followed, rank key < rank earlier

namespace Trail

variable {ρ : Type} [Preorder ρ] {w : Workspace} {c : Compilation} {rank : BindingKey → ρ} {start : Site}

theorem nil (rank : BindingKey → ρ) (start : Site) : Trail w c rank start [] start where
  distinct := List.nodup_nil
  bound := by simp
  imported := .refl
  within := fun _ _ reached => reached
  above := by simp

/-- A binding that a site refers to was not followed on the way to the site, because all those have a higher rank. -/
theorem fresh {followed : List BindingKey} {site value : Site} {key : BindingKey}
    (trail : Trail w c rank start followed site) (reference : Refers w c site key value) : key ∉ followed := by
  intro member
  exact lt_irrefl _ (trail.above key value (.direct reference) key member)

theorem cons {followed : List BindingKey} {site value : Site} {key : BindingKey}
    (descends : ∀ key site key' value, Reached w c start key site → Refers w c site key' value → rank key' < rank key)
    (trail : Trail w c rank start followed site) (reference : Refers w c site key value) :
    Trail w c rank start (key :: followed) value := by
  obtain ⟨members, -, member, -, added⟩ := id reference
  obtain ⟨along, declarator, bound, -⟩ := contribution_reaches added
  obtain ⟨-, -, -, -, -, path⟩ := contribution_bound added
  have far := trail.imported.trans along
  refine ⟨List.nodup_cons.mpr ⟨trail.fresh reference, trail.distinct⟩, ?_, far, ?_, ?_⟩
  · intro other inside
    rcases List.mem_cons.mp inside with rfl | old
    · exact ⟨value.file, declarator, far, path, bound⟩
    · exact trail.bound other old
  · intro key' value' reached
    exact trail.within key' value' (.of_refers reference reached)
  · intro key' value' reached earlier inside
    rcases List.mem_cons.mp inside with rfl | old
    · exact Reached.rank_lt descends (trail.within _ _ (.direct reference)) reached
    · exact trail.above key' value' (.of_refers reference reached) earlier old

end Trail

/-- Following never meets a binding that it is following already, and it ends before it is nested deeper than there are
bindings in reach. -/
theorem objectLiterals_unfolds {ρ : Type} [Preorder ρ] {w : Workspace} {c : Compilation} {rank : BindingKey → ρ}
    {start : Site} {active : List BindingKey}
    (descends : ∀ key site key' value, Reached w c start key site → Refers w c site key' value → rank key' < rank key)
    (inactive : ∀ key value, Reached w c start key value → key ∉ active)
    {depth : Nat} {followed : List BindingKey} {site : Site} (trail : Trail w c rank start followed site)
    (room : (reachableKeys w c start.file).ncard < depth + followed.length) :
    Unfolds w c site (run (objectLiterals depth (followed ++ active) site.file site.expression) w c).1 := by
  induction depth generalizing followed site with
  | zero =>
    have few := length_le_ncard (reachableKeys_finite w c start.file) trail.distinct trail.bound
    omega
  | succ depth ih =>
    have viewed := viewed_objectLiterals w depth
    rw [objectLiterals, literalsWith_outcome viewed]
    cases shape : Shape.ofNode site.expression with
    | error e => exact .unreadable shape
    | ok read =>
      cases read with
      | inlineObject literal => exact .object shape
      | composeCall members =>
        refine .composition _ shape (fun member inside outcome added => ?_) (fun member inside key value added => ?_)
        · rw [memberLiterals_outcome viewed, added]
        · have reference : Refers w c site key value := ⟨members, shape, member, inside, added⟩
          have unmet : key ∉ followed ++ active := by
            intro met
            rcases List.mem_append.mp met with old | given
            · exact trail.fresh reference old
            · exact inactive key value (trail.within _ _ (.direct reference)) given
          rw [memberLiterals_outcome viewed, added]
          simp only [if_neg unmet]
          exact ih (trail.cons descends reference) (by rw [List.length_cons]; omega)
      | _ => exact .other shape rfl

/-- On compositions without cycles, following is the plain unfolding. Suppose the bindings that are reached from an
expression through members of compositions carry a rank that decreases along each reference. Then, whatever other bindings
are being followed already, the expression is followed to exactly its unfolding, to the same literals in the same order or
to the same error. -/
theorem objectLiterals_eq_iff_unfolds {ρ : Type} [Preorder ρ] {w : Workspace} {c : Compilation} {file : SourceFile}
    {expression : Node} {active : List BindingKey} {depth : Nat} (rank : BindingKey → ρ)
    (descends : ∀ key site key' value, Reached w c ⟨file, expression⟩ key site → Refers w c site key' value →
      rank key' < rank key)
    (inactive : ∀ key value, Reached w c ⟨file, expression⟩ key value → key ∉ active)
    (enough : nestingBound w c file ≤ depth) (outcome : Except Error (List Node)) :
    (run (objectLiterals depth active file expression) w c).1 = outcome ↔ Unfolds w c ⟨file, expression⟩ outcome := by
  have few := ncard_reachableKeys_lt w c file
  have room : (reachableKeys w c file).ncard < depth + ([] : List BindingKey).length := by
    rw [List.length_nil]
    omega
  have unfolds := objectLiterals_unfolds descends inactive (.nil rank ⟨file, expression⟩) room
  constructor
  · rintro rfl
    exact unfolds
  · exact unfolds.deterministic

/-- Compositions over two files that share a member, which one of them has twice. -/
def sharedMembers : Workspace :=
  .ofSources [("a.ts", "import \x7bB\x7d from './b'\nconst C=compose(B,B)\nconst D=compose(C,x,B)"),
    ("b.ts", "const B=Type.Object(\x7b\x7d)")]

/-- The value of the outermost of them. -/
def sharedMembersSite : Site :=
  let file := sharedMembers.parse (.ofText "/w/a.ts") ((sharedMembers.read (.ofText "/w/a.ts")).toOption.getD .empty)
  ⟨file, ((file.binding? "D").toOption.join.bind Declarator.value?).getD file.root⟩

def sharedMembersRank (key : BindingKey) : Nat :=
  if key.2 = Text.ofString "C" then 1 else 0

set_option maxRecDepth 100000 in
theorem unfolds_sharedMembers :
    ∃ literals, literals.length = 3 ∧
      (run (objectLiterals (nestingBound sharedMembers {} sharedMembersSite.file) [(.ofText "/w/a.ts", "D")]
        sharedMembersSite.file sharedMembersSite.expression) sharedMembers {}).1 = .ok literals ∧
      Unfolds sharedMembers {} sharedMembersSite (.ok literals) := by
  have checked : sharedMembersSite.descends sharedMembers {} sharedMembersRank [(.ofText "/w/a.ts", "D")] 2 = true := by
    decide +kernel
  have counted : ((run (objectLiterals (nestingBound sharedMembers {} sharedMembersSite.file) [(.ofText "/w/a.ts", "D")]
      sharedMembersSite.file sharedMembersSite.expression) sharedMembers {}).1.map List.length).toOption = some 3 := by
    decide +kernel
  have unfolds := objectLiterals_eq_iff_unfolds sharedMembersRank
    (fun key site key' value reached => (Site.descends_reached checked reached).2.1 key' value)
    (fun key value reached => (Site.descends_reached checked reached).1) (Nat.le_refl _)
  cases outcome : (run (objectLiterals (nestingBound sharedMembers {} sharedMembersSite.file) [(.ofText "/w/a.ts", "D")]
      sharedMembersSite.file sharedMembersSite.expression) sharedMembers {}).1 with
  | error e =>
    rw [outcome] at counted
    cases counted
  | ok literals =>
    rw [outcome] at counted
    exact ⟨literals, Option.some.inj counted, rfl, (unfolds (.ok literals)).mp outcome⟩

end Compilation
end SchemaTypes
