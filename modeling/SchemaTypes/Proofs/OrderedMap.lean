import Mathlib.Data.List.Nodup
import SchemaTypes.OrderedMap

/-!
Laws of ordered tables: what a look-up finds after a key was put in, and how the keys and the entries of a table
relate to its look-ups.
-/

namespace SchemaTypes.OrderedMap

variable {κ α : Type} [DecidableEq κ]

private theorem find?_put (k j : κ) (a : α) (entries : List (κ × α)) :
    ((put k a entries).find? (·.1 = j)).map Prod.snd =
      if k = j then some a else (entries.find? (·.1 = j)).map Prod.snd := by
  induction entries with
  | nil => by_cases same : k = j <;> simp [put, same]
  | cons entry rest ih =>
    obtain ⟨i, b⟩ := entry
    by_cases replaced : i = k
    · subst replaced
      by_cases same : i = j <;> simp [put, same]
    · by_cases here : i = j
      · subst here
        have other : ¬ k = i := fun same => replaced same.symm
        simp [put, replaced, other]
      · simpa [put, replaced, here] using ih

@[simp] theorem get?_empty (k : κ) : (empty : OrderedMap κ α).get? k = none := rfl

theorem get?_insert (m : OrderedMap κ α) (k j : κ) (a : α) :
    (m.insert k a).get? j = if k = j then some a else m.get? j := find?_put k j a m.entries

@[simp] theorem get?_insert_self (m : OrderedMap κ α) (k : κ) (a : α) : (m.insert k a).get? k = some a := by
  rw [get?_insert, if_pos rfl]

theorem get?_insert_of_ne (m : OrderedMap κ α) {k j : κ} (a : α) (different : k ≠ j) :
    (m.insert k a).get? j = m.get? j := by
  rw [get?_insert, if_neg different]

theorem mem_entries_of_get? {m : OrderedMap κ α} {k : κ} {a : α} (found : m.get? k = some a) : (k, a) ∈ m.entries := by
  obtain ⟨entry, here, rfl⟩ := Option.map_eq_some_iff.mp found
  have key : entry.1 = k := by simpa using List.find?_some here
  exact key ▸ List.mem_of_find?_eq_some here

/-- Keys do not repeat, so an entry is what its key is looked up as. -/
theorem get?_of_mem_entries {m : OrderedMap κ α} {k : κ} {a : α} (member : (k, a) ∈ m.entries) :
    m.get? k = some a := by
  cases found : m.entries.find? (·.1 = k) with
  | none => simpa using List.find?_eq_none.mp found (k, a) member
  | some entry =>
    have key : entry.1 = k := by simpa using List.find?_some found
    have same : entry = (k, a) :=
      List.inj_on_of_nodup_map m.nodup (List.mem_of_find?_eq_some found) member key
    simp [get?, found, same]

theorem get?_eq_some_iff {m : OrderedMap κ α} {k : κ} {a : α} : m.get? k = some a ↔ (k, a) ∈ m.entries :=
  ⟨mem_entries_of_get?, get?_of_mem_entries⟩

theorem get?_congr_of_perm {m m' : OrderedMap κ α} (same : m'.entries.Perm m.entries) (k : κ) :
    m'.get? k = m.get? k := by
  apply Option.ext
  intro a
  rw [get?_eq_some_iff, get?_eq_some_iff, same.mem_iff]

theorem mem_values_of_get? {m : OrderedMap κ α} {k : κ} {a : α} (found : m.get? k = some a) : a ∈ m.values :=
  List.mem_map.mpr ⟨(k, a), mem_entries_of_get? found, rfl⟩

theorem mem_keys_iff {m : OrderedMap κ α} {k : κ} : k ∈ m.keys ↔ ∃ a, m.get? k = some a := by
  constructor
  · intro member
    obtain ⟨⟨_, a⟩, inside, rfl⟩ := List.mem_map.mp member
    exact ⟨a, get?_of_mem_entries inside⟩
  · rintro ⟨a, found⟩
    exact List.mem_map.mpr ⟨(k, a), mem_entries_of_get? found, rfl⟩

theorem entries_insert_of_get?_eq_none {m : OrderedMap κ α} {k : κ} (a : α) (absent : m.get? k = none) :
    (m.insert k a).entries = m.entries ++ [(k, a)] := by
  have outside : ∀ entry ∈ m.entries, entry.1 ≠ k := by
    rintro ⟨_, b⟩ member rfl
    rw [get?_of_mem_entries member] at absent
    cases absent
  have added : ∀ entries : List (κ × α), (∀ entry ∈ entries, entry.1 ≠ k) → put k a entries = entries ++ [(k, a)] := by
    intro entries
    induction entries with
    | nil => intro _; rfl
    | cons entry rest ih =>
      intro different
      rw [put, if_neg (different entry List.mem_cons_self),
        ih fun other member => different other (List.mem_cons_of_mem entry member)]
      rfl
  exact added m.entries outside

theorem keys_insert_of_get?_eq_none {m : OrderedMap κ α} {k : κ} (a : α) (absent : m.get? k = none) :
    (m.insert k a).keys = m.keys ++ [k] := by
  rw [keys, entries_insert_of_get?_eq_none a absent, List.map_append]
  rfl

theorem keys_insert (m : OrderedMap κ α) (k : κ) (a : α) :
    (m.insert k a).keys = if k ∈ m.keys then m.keys else m.keys ++ [k] := map_fst_put k a m.entries

theorem mem_keys_insert {m : OrderedMap κ α} {k j : κ} {a : α} : j ∈ (m.insert k a).keys ↔ j ∈ m.keys ∨ j = k := by
  rw [keys_insert]
  split
  next present =>
    refine ⟨.inl, ?_⟩
    rintro (old | rfl)
    · exact old
    · exact present
  · rw [List.mem_append, List.mem_singleton]

theorem insertNew_of_get?_eq_none {m : OrderedMap κ α} {k : κ} (a : α) (absent : m.get? k = none) :
    m.insertNew k a = m.insert k a := by
  simp [insertNew, contains, absent]

theorem insertNew_of_get?_eq_some {m : OrderedMap κ α} {k : κ} {b : α} (a : α) (present : m.get? k = some b) :
    m.insertNew k a = m := by
  simp [insertNew, contains, present]

/-- What is there already stays, and only one key can be new. -/
theorem get?_insertNew (m : OrderedMap κ α) (k j : κ) (a : α) :
    (m.insertNew k a).get? j = (m.get? j).or (if k = j then some a else none) := by
  cases found : m.get? k with
  | none =>
    rw [insertNew_of_get?_eq_none a found, get?_insert]
    split
    next same => rw [← same, found, Option.none_or]
    · rw [Option.or_none]
  | some b =>
    rw [insertNew_of_get?_eq_some a found]
    split
    next same => rw [← same, found, Option.some_or]
    · rw [Option.or_none]

/-- Of entries with keys of their own, those whose keys are new are put at the end. -/
theorem entries_foldl_insertNew {β : Type} (key : β → κ) (value : β → α) {l : List β} (distinct : (l.map key).Nodup)
    (m : OrderedMap κ α) :
    (l.foldl (fun m b => m.insertNew (key b) (value b)) m).entries =
      m.entries ++ (l.filter fun b => (m.get? (key b)).isNone).map fun b => (key b, value b) := by
  induction l generalizing m with
  | nil => simp
  | cons b rest ih =>
    obtain ⟨other, distinct⟩ := List.nodup_cons.mp distinct
    have untouched : (rest.filter fun b' => ((m.insertNew (key b) (value b)).get? (key b')).isNone) =
        rest.filter fun b' => (m.get? (key b')).isNone := by
      apply List.filter_congr
      intro b' member
      have different : key b ≠ key b' := fun same => other (same ▸ List.mem_map_of_mem member)
      rw [get?_insertNew, if_neg different, Option.or_none]
    rw [List.foldl_cons, ih distinct, untouched]
    cases found : m.get? (key b) with
    | none =>
      rw [insertNew_of_get?_eq_none _ found, entries_insert_of_get?_eq_none _ found,
        List.filter_cons_of_pos (by simp [found]), List.map_cons, List.append_assoc]
      rfl
    | some a =>
      rw [insertNew_of_get?_eq_some _ found, List.filter_cons_of_neg (by simp [found])]

theorem get?_of_entries_prefix {m m' : OrderedMap κ α} (further : m.entries <+: m'.entries) {k : κ} {a : α}
    (found : m.get? k = some a) : m'.get? k = some a :=
  get?_of_mem_entries (further.subset (mem_entries_of_get? found))

/-! ### Tables that are filled step by step -/

/-- The last element of a list that has a property. -/
theorem find?_reverse_eq_some_iff {β : Type} {p : β → Bool} {l : List β} {b : β} :
    l.reverse.find? p = some b ↔
      ∃ before after, l = before ++ b :: after ∧ p b = true ∧ ∀ later ∈ after, p later = false := by
  rw [List.find?_eq_some_iff_append]
  constructor
  · rintro ⟨holds, after, before, reversed, none⟩
    refine ⟨before.reverse, after.reverse, ?_, holds, fun later member => ?_⟩
    · simpa using congrArg List.reverse reversed
    · simpa using none later (List.mem_reverse.mp member)
  · rintro ⟨before, after, rfl, holds, none⟩
    refine ⟨holds, after.reverse, before.reverse, by simp, fun later member => ?_⟩
    simpa using none later (List.mem_reverse.mp member)

/-- Where each step of a fold writes a key or leaves it alone, the last step that writes it counts. -/
theorem get?_foldl {β : Type} {step : OrderedMap κ α → β → OrderedMap κ α} {k : κ} (writes : β → Bool) (value : β → α)
    (each : ∀ m b, (step m b).get? k = if writes b then some (value b) else m.get? k) (l : List β) (m : OrderedMap κ α) :
    (l.foldl step m).get? k = ((l.reverse.find? writes).map value).or (m.get? k) := by
  induction l generalizing m with
  | nil => rfl
  | cons b rest ih =>
    rw [List.foldl_cons, ih, each, List.reverse_cons, List.find?_append, List.find?_singleton]
    cases rest.reverse.find? writes <;> cases writes b <;> rfl

/-- Of several pairs with one key the last one counts. -/
theorem get?_ofList (pairs : List (κ × α)) (k : κ) :
    (ofList pairs).get? k = (pairs.reverse.find? fun pair => pair.1 = k).map Prod.snd := by
  have each (m : OrderedMap κ α) (pair : κ × α) :
      (m.insert pair.1 pair.2).get? k = if decide (pair.1 = k) = true then some pair.2 else m.get? k := by
    rw [get?_insert]
    simp only [decide_eq_true_eq]
  rw [ofList, get?_foldl _ _ each, get?_empty, Option.or_none]

theorem get?_ofList_eq_some_iff {pairs : List (κ × α)} {k : κ} {a : α} :
    (ofList pairs).get? k = some a ↔ ∃ before after, pairs = before ++ (k, a) :: after ∧ ∀ later ∈ after, later.1 ≠ k := by
  rw [get?_ofList, Option.map_eq_some_iff]
  constructor
  · rintro ⟨⟨key, value⟩, found, rfl⟩
    obtain ⟨before, after, split, here, later⟩ := find?_reverse_eq_some_iff.mp found
    have same : key = k := by simpa using here
    exact ⟨before, after, same ▸ split, fun other member => by simpa using later other member⟩
  · rintro ⟨before, after, split, later⟩
    refine ⟨(k, a), find?_reverse_eq_some_iff.mpr ⟨before, after, split, by simp, fun other member => ?_⟩, rfl⟩
    simpa using later other member

theorem keys_foldl_insert [BEq κ] [LawfulBEq κ] (pairs : List (κ × α)) (m : OrderedMap κ α) :
    (pairs.foldl (fun m (k, a) => m.insert k a) m).keys =
      m.keys ++ ((pairs.map Prod.fst).filter (· ∉ m.keys)).eraseDups := by
  induction pairs generalizing m with
  | nil => simp
  | cons pair rest ih =>
    obtain ⟨k, a⟩ := pair
    rw [List.foldl_cons, ih, keys_insert, List.map_cons]
    by_cases present : k ∈ m.keys
    · rw [if_pos present, List.filter_cons_of_neg (by simpa using present)]
    · -- the key is new: it comes next, and is passed over from here on
      have passed : (rest.map Prod.fst).filter (· ∉ m.keys ++ [k]) =
          ((rest.map Prod.fst).filter (· ∉ m.keys)).filter fun j => !j == k := by
        rw [List.filter_filter]
        refine List.filter_congr fun j _ => ?_
        by_cases same : j = k <;> simp [same]
      rw [if_neg present, List.filter_cons_of_pos (by simpa using present), List.eraseDups_cons, passed,
        List.append_assoc, List.singleton_append]

/-- The keys of a list come in the order in which each of them is met first. -/
theorem keys_ofList [BEq κ] [LawfulBEq κ] (pairs : List (κ × α)) :
    (ofList pairs).keys = (pairs.map Prod.fst).eraseDups := by
  have start : (empty : OrderedMap κ α).keys = [] := rfl
  rw [ofList, keys_foldl_insert, start, List.nil_append, List.filter_eq_self.mpr (by simp)]

omit [DecidableEq κ] in
theorem eraseDups_of_nodup [BEq κ] [LawfulBEq κ] {l : List κ} (distinct : l.Nodup) : l.eraseDups = l := by
  induction l with
  | nil => rfl
  | cons a l ih =>
    obtain ⟨other, distinct⟩ := List.nodup_cons.mp distinct
    have kept : l.filter (fun b => !b == a) = l := List.filter_eq_self.mpr fun b member => by
      have different : b ≠ a := fun same => other (same ▸ member)
      simpa using different
    rw [List.eraseDups_cons, kept, ih distinct]

/-- A table is told by its keys in order and its look-ups. -/
theorem eq_of_keys_of_get? {m m' : OrderedMap κ α} (keys : m.keys = m'.keys) (looked : ∀ k, m.get? k = m'.get? k) :
    m = m' := by
  have listed (m : OrderedMap κ α) : m.entries = m.keys.filterMap fun k => (m.get? k).map (k, ·) := by
    rw [OrderedMap.keys, List.filterMap_map]
    refine List.filterMap_some.symm.trans (List.filterMap_congr fun entry member => ?_)
    rw [Function.comp_apply, get?_of_mem_entries member]
    rfl
  have same : m.entries = m'.entries := by
    rw [listed m, listed m', keys]
    simp only [looked]
  cases m
  cases m'
  cases same
  rfl

theorem ofList_entries (m : OrderedMap κ α) : ofList m.entries = m := by
  refine eq_of_keys_of_get? ?_ fun k => Option.ext fun a => ?_
  · rw [keys_ofList]
    exact eraseDups_of_nodup m.nodup
  · rw [get?_ofList_eq_some_iff, get?_eq_some_iff]
    constructor
    · rintro ⟨before, after, split, -⟩
      simp [split]
    · intro member
      obtain ⟨before, after, split⟩ := List.append_of_mem member
      refine ⟨before, after, split, fun later inside same => ?_⟩
      have distinct := m.nodup
      rw [split, List.map_append, List.map_cons] at distinct
      have outside := (List.nodup_cons.mp (List.nodup_append.mp distinct).2.1).1
      exact outside (List.mem_map.mpr ⟨later, inside, same⟩)

end SchemaTypes.OrderedMap
