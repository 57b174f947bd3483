/-!
Outcomes of computations that may fail. A sequence succeeds by the results of its parts, and a traversal fails by the
error of its first element that fails.
-/

namespace SchemaTypes

variable {α β γ ε : Type}

theorem bind_eq_ok_iff {x : Except ε α} {next : α → Except ε β} {b : β} :
    (x >>= next) = .ok b ↔ ∃ a, x = .ok a ∧ next a = .ok b := by
  cases x with
  | error e => simp [bind, Except.bind]
  | ok a => simp [bind, Except.bind]

theorem exists_eq_ok_of_isOk {x : Except ε α} (success : x.isOk = true) : ∃ a, x = .ok a := by
  cases x with
  | error e => cases success
  | ok a => exact ⟨a, rfl⟩

theorem eq_ok_of_toOption {x : Except ε α} {a : α} (seen : x.toOption = some a) : x = .ok a := by
  cases x with
  | error e => cases seen
  | ok a' => exact congrArg Except.ok (Option.some.inj seen)

theorem exists_eq_ok_of_toOption {x : Except ε α} {f : α → β} {b : β} (seen : x.toOption.map f = some b) :
    ∃ a, x = .ok a ∧ f a = b := by
  obtain ⟨a, found, same⟩ := Option.map_eq_some_iff.mp seen
  exact ⟨a, eq_ok_of_toOption found, same⟩

theorem eq_ok_none_of_toOption {x : Except ε (Option α)} (seen : x.toOption.map Option.isNone = some true) :
    x = .ok none := by
  obtain ⟨found, rfl, missing⟩ := exists_eq_ok_of_toOption seen
  rw [Option.isNone_iff_eq_none.mp missing]

theorem exists_eq_ok_some {x : Except ε (Option α)} {f : α → β} {b : β} (seen : x.toOption.join.map f = some b) :
    ∃ a, x = .ok (some a) ∧ f a = b := by
  cases x with
  | error e => cases seen
  | ok found =>
    cases found with
    | none => cases seen
    | some a => exact ⟨a, rfl, Option.some.inj seen⟩

theorem mapM_congr {f g : α → Except ε β} {l : List α} (same : ∀ a ∈ l, f a = g a) : l.mapM f = l.mapM g := by
  induction l with
  | nil => rfl
  | cons a l ih =>
    rw [List.mapM_cons, List.mapM_cons, same a List.mem_cons_self,
      ih fun other member => same other (List.mem_cons_of_mem a member)]

theorem mapM_cons_eq_ok {f : α → Except ε β} {a : α} {l : List α} {bs : List β} (success : (a :: l).mapM f = .ok bs) :
    ∃ b rest, f a = .ok b ∧ l.mapM f = .ok rest ∧ bs = b :: rest := by
  rw [List.mapM_cons] at success
  obtain ⟨b, first, success⟩ := bind_eq_ok_iff.mp success
  obtain ⟨rest, others, success⟩ := bind_eq_ok_iff.mp success
  exact ⟨b, rest, first, others, (Except.ok.inj success).symm⟩

theorem mapM_eq_ok_map {f : α → Except ε β} {g : α → β} {l : List α} (each : ∀ a ∈ l, f a = .ok (g a)) :
    l.mapM f = .ok (l.map g) := by
  induction l with
  | nil => rfl
  | cons a l ih =>
    have rest := ih fun other member => each other (List.mem_cons_of_mem a member)
    rw [List.mapM_cons, each a List.mem_cons_self, rest]
    rfl

theorem mapM_ok_of_mem {f : α → Except ε β} {l : List α} {bs : List β} (success : l.mapM f = .ok bs) :
    (∀ a ∈ l, ∃ b, f a = .ok b) ∧ ∀ b ∈ bs, ∃ a ∈ l, f a = .ok b := by
  induction l generalizing bs with
  | nil =>
    cases success
    constructor <;> intro _ impossible <;> cases impossible
  | cons a l ih =>
    obtain ⟨b, rest, first, others, rfl⟩ := mapM_cons_eq_ok success
    obtain ⟨given, made⟩ := ih others
    constructor
    · intro other member
      rcases List.mem_cons.mp member with rfl | member
      · exact ⟨b, first⟩
      · exact given other member
    · intro other member
      rcases List.mem_cons.mp member with rfl | member
      · exact ⟨a, List.mem_cons_self, first⟩
      · obtain ⟨source, inside, taken⟩ := made other member
        exact ⟨source, List.mem_cons_of_mem a inside, taken⟩

theorem exists_mapM_eq_ok_iff {f : α → Except ε β} {l : List α} :
    (∃ bs, l.mapM f = .ok bs) ↔ ∀ a ∈ l, ∃ b, f a = .ok b := by
  constructor
  · rintro ⟨bs, success⟩
    exact (mapM_ok_of_mem success).1
  · intro each
    induction l with
    | nil => exact ⟨[], rfl⟩
    | cons a l ih =>
      obtain ⟨b, first⟩ := each a List.mem_cons_self
      obtain ⟨bs, rest⟩ := ih fun other member => each other (List.mem_cons_of_mem a member)
      refine ⟨b :: bs, ?_⟩
      rw [List.mapM_cons, first, rest]
      rfl

/-- A traversal gives its results in the places of the elements. -/
theorem getElem?_of_mapM {f : α → Except ε β} {l : List α} {bs : List β} (success : l.mapM f = .ok bs) (k : Nat) (b : β) :
    bs[k]? = some b ↔ ∃ a, l[k]? = some a ∧ f a = .ok b := by
  induction l generalizing bs k with
  | nil =>
    cases success
    simp
  | cons a l ih =>
    obtain ⟨b', rest, first, others, rfl⟩ := mapM_cons_eq_ok success
    cases k with
    | zero => simp [first]
    | succ k => simpa using ih others k

/-- A traversal fails by the error of its first element that fails. -/
theorem mapM_eq_error_iff {f : α → Except ε β} {l : List α} {e : ε} :
    l.mapM f = .error e ↔
      ∃ before a after, l = before ++ a :: after ∧ (∀ earlier ∈ before, ∃ b, f earlier = .ok b) ∧ f a = .error e := by
  constructor
  · intro failed
    induction l with
    | nil => cases failed
    | cons a l ih =>
      rw [List.mapM_cons] at failed
      cases first : f a with
      | error e' =>
        rw [first] at failed
        cases failed
        exact ⟨[], a, l, rfl, by simp, first⟩
      | ok b =>
        cases rest : l.mapM f with
        | ok bs =>
          rw [first, rest] at failed
          cases failed
        | error e' =>
          rw [first, rest] at failed
          cases failed
          obtain ⟨before, x, after, rfl, passed, here⟩ := ih rest
          refine ⟨a :: before, x, after, rfl, ?_, here⟩
          intro earlier member
          rcases List.mem_cons.mp member with rfl | member
          · exact ⟨b, first⟩
          · exact passed earlier member
  · rintro ⟨before, a, after, rfl, passed, failed⟩
    induction before with
    | nil =>
      rw [List.nil_append, List.mapM_cons, failed]
      rfl
    | cons earlier before ih =>
      obtain ⟨b, success⟩ := passed earlier List.mem_cons_self
      have rest := ih fun other member => passed other (List.mem_cons_of_mem earlier member)
      rw [List.cons_append, List.mapM_cons, success, rest]
      rfl

theorem mapM_map_result (f : α → Except ε β) (g : β → γ) (l : List α) :
    l.mapM (fun a => (f a).map g) = (l.mapM f).map (List.map g) := by
  induction l with
  | nil => rfl
  | cons a l ih =>
    rw [List.mapM_cons, List.mapM_cons, ih]
    cases f a with
    | error e => rfl
    | ok b => cases l.mapM f <;> rfl

section FilterMapM

variable {f g : α → Except ε (Option β)}

theorem filterMapM_congr {l : List α} (same : ∀ a ∈ l, f a = g a) : l.filterMapM f = l.filterMapM g := by
  induction l with
  | nil => rfl
  | cons a l ih =>
    have further := ih fun other member => same other (List.mem_cons_of_mem a member)
    rw [List.filterMapM_cons, List.filterMapM_cons, same a List.mem_cons_self, further]

theorem filterMapM_map (h : γ → α) (l : List γ) : (l.map h).filterMapM f = l.filterMapM fun c => f (h c) := by
  induction l with
  | nil => rfl
  | cons c l ih => rw [List.map_cons, List.filterMapM_cons, List.filterMapM_cons, ih]

theorem filterMapM_map_result (h : β → γ) (l : List α) :
    l.filterMapM (fun a => (f a).map (Option.map h)) = (l.filterMapM f).map (List.map h) := by
  induction l with
  | nil => rfl
  | cons a l ih =>
    rw [List.filterMapM_cons, List.filterMapM_cons, ih]
    cases f a with
    | error e => rfl
    | ok found =>
      cases found with
      | none => rfl
      | some b => cases l.filterMapM f <;> rfl

/-- An element that is left out may as well not be there. -/
theorem filterMapM_append_of_none {before after : List α} {a : α} (none : f a = .ok none) :
    (before ++ a :: after).filterMapM f = (before ++ after).filterMapM f := by
  induction before with
  | nil =>
    rw [List.nil_append, List.nil_append, List.filterMapM_cons, none]
    rfl
  | cons first before ih =>
    rw [List.cons_append, List.cons_append, List.filterMapM_cons, List.filterMapM_cons, ih]

theorem mem_of_filterMapM {l : List α} {found : List β} (success : l.filterMapM f = .ok found) :
    ∀ b ∈ found, ∃ a ∈ l, f a = .ok (some b) := by
  induction l generalizing found with
  | nil =>
    cases success
    simp
  | cons a l ih =>
    rw [List.filterMapM_cons] at success
    obtain ⟨item, first, success⟩ := bind_eq_ok_iff.mp success
    have lift {others : List β} (rest : l.filterMapM f = .ok others) {b : β} (member : b ∈ others) :
        ∃ a' ∈ a :: l, f a' = .ok (some b) := by
      obtain ⟨source, inside, taken⟩ := ih rest b member
      exact ⟨source, List.mem_cons_of_mem a inside, taken⟩
    cases item with
    | none => exact fun b member => lift success member
    | some kept =>
      obtain ⟨others, rest, success⟩ := bind_eq_ok_iff.mp success
      cases success
      intro b member
      rcases List.mem_cons.mp member with rfl | member
      · exact ⟨a, List.mem_cons_self, first⟩
      · exact lift rest member

end FilterMapM

/-- A fold whose steps may fail, but not by what was folded before them, is the plain fold if it succeeds. -/
theorem eq_foldl_of_foldlM {f : α → Except ε γ} {g : β → α → β} {l : List α} {b result : β}
    (success : l.foldlM (fun b a => (f a).map fun _ => g b a) b = .ok result) : result = l.foldl g b := by
  induction l generalizing b with
  | nil =>
    cases success
    rfl
  | cons a l ih =>
    rw [List.foldlM_cons] at success
    obtain ⟨next, first, success⟩ := bind_eq_ok_iff.mp success
    have same : next = g b a := by
      cases made : f a with
      | error e =>
        rw [made] at first
        cases first
      | ok c =>
        rw [made] at first
        cases first
        rfl
    rw [ih success, same, List.foldl_cons]

/-- A fold over what each element gives is a traversal and then the plain fold. -/
theorem foldlM_map_result (f : α → Except ε γ) (g : β → γ → β) (l : List α) (b : β) :
    l.foldlM (fun b a => (f a).map (g b)) b = (l.mapM f).map (List.foldl g b) := by
  induction l generalizing b with
  | nil => rfl
  | cons a l ih =>
    rw [List.foldlM_cons, List.mapM_cons]
    cases f a with
    | error e => rfl
    | ok c =>
      change l.foldlM _ (g b c) = _
      rw [ih]
      cases l.mapM f <;> rfl

end SchemaTypes
