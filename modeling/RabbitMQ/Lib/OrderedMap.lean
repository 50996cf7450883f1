import Mathlib.Data.List.Nodup

/-! Maps that remember the order in which their keys were added, with the laws of the `Map` and
`Set` of JavaScript: writing to a key that is present keeps its place, a new key goes last, and
iteration visits the entries in that order. -/

universe u v

structure OrderedMap (κ : Type u) (ν : Type v) where
  entries : List (κ × ν)
  nodup : (entries.map Prod.fst).Nodup

namespace OrderedMap

variable {κ : Type u} {ν : Type v}

def empty : OrderedMap κ ν := ⟨[], .nil⟩

def keys (m : OrderedMap κ ν) : List κ := m.entries.map Prod.fst

/-- The entries that meet a condition, in order. -/
def filter (m : OrderedMap κ ν) (p : κ → ν → Bool) : OrderedMap κ ν :=
  ⟨m.entries.filter fun e => p e.1 e.2, m.nodup.sublist (List.filter_sublist.map _)⟩

/-- How many entries meet a condition. -/
def count (m : OrderedMap κ ν) (p : κ → ν → Bool) : Nat := m.entries.countP fun e => p e.1 e.2

instance : Membership κ (OrderedMap κ ν) := ⟨fun m k => k ∈ m.keys⟩

theorem mem_def {m : OrderedMap κ ν} {k : κ} : k ∈ m ↔ k ∈ m.keys := .rfl

theorem keys_nodup (m : OrderedMap κ ν) : m.keys.Nodup := m.nodup

@[simp] theorem keys_empty : (empty : OrderedMap κ ν).keys = [] := rfl

@[simp] theorem not_mem_empty (k : κ) : k ∉ (empty : OrderedMap κ ν) := List.not_mem_nil

@[simp] theorem count_empty {p : κ → ν → Bool} : (empty : OrderedMap κ ν).count p = 0 := rfl

variable [DecidableEq κ]

def get? (m : OrderedMap κ ν) (k : κ) : Option ν := m.entries.lookup k

def erase (m : OrderedMap κ ν) (k : κ) : OrderedMap κ ν := m.filter fun j _ => j ≠ k

instance (m : OrderedMap κ ν) (k : κ) : Decidable (k ∈ m) :=
  inferInstanceAs (Decidable (k ∈ m.keys))

private theorem keys_replace (l : List (κ × ν)) (k : κ) (v : ν) :
    (l.map fun e => if e.1 = k then (k, v) else e).map Prod.fst = l.map Prod.fst := by
  rw [List.map_map]
  refine List.map_congr_left fun e _ => ?_
  by_cases h : e.1 = k <;> simp [h]

def set (m : OrderedMap κ ν) (k : κ) (v : ν) : OrderedMap κ ν :=
  if h : k ∈ m.keys then
    ⟨m.entries.map fun e => if e.1 = k then (k, v) else e, by
      rw [keys_replace]; exact m.nodup⟩
  else
    ⟨m.entries ++ [(k, v)], by
      rw [List.map_append, List.map_singleton]
      exact List.nodup_append.mpr
        ⟨m.nodup, List.nodup_singleton _, by
          rintro a ha _ (_ | ⟨_, ⟨⟩⟩) rfl
          exact h ha⟩⟩

theorem set_of_mem {m : OrderedMap κ ν} {k : κ} (h : k ∈ m) (v : ν) :
    (m.set k v).entries = m.entries.map fun e => if e.1 = k then (k, v) else e := by
  simp [set, mem_def.mp h]

theorem set_of_not_mem {m : OrderedMap κ ν} {k : κ} (h : k ∉ m) (v : ν) :
    (m.set k v).entries = m.entries ++ [(k, v)] := by
  simp [set, show k ∉ m.keys from h]

/-! ## Lookup -/

theorem get?_eq_some_iff {m : OrderedMap κ ν} {k : κ} {v : ν} :
    m.get? k = some v ↔ (k, v) ∈ m.entries := by
  obtain ⟨l, hl⟩ := m
  simp only [get?]
  induction l with
  | nil => simp
  | cons e l ih =>
    obtain ⟨a, b⟩ := e
    simp only [List.map_cons, List.nodup_cons] at hl
    by_cases hk : k = a
    · subst hk
      have hfresh : (k, v) ∉ l := fun hm => hl.1 (List.mem_map.mpr ⟨_, hm, rfl⟩)
      simp [hfresh, eq_comm]
    · simp [List.lookup_cons, hk, beq_eq_false_iff_ne.mpr hk, ih hl.2]

theorem mem_iff {m : OrderedMap κ ν} {k : κ} : k ∈ m ↔ ∃ v, m.get? k = some v := by
  simp only [get?_eq_some_iff, mem_def, keys, List.mem_map, Prod.exists, exists_and_right,
    exists_eq_right]

theorem not_mem_iff {m : OrderedMap κ ν} {k : κ} : k ∉ m ↔ m.get? k = none := by
  rw [mem_iff, Option.eq_none_iff_forall_ne_some]
  exact not_exists

theorem mem_of_get? {m : OrderedMap κ ν} {k : κ} {v : ν} (h : m.get? k = some v) : k ∈ m :=
  mem_iff.mpr ⟨v, h⟩

@[simp] theorem get?_empty (k : κ) : (empty : OrderedMap κ ν).get? k = none := rfl

theorem get?_filter {m : OrderedMap κ ν} {p : κ → ν → Bool} {k : κ} {v : ν} :
    (m.filter p).get? k = some v ↔ m.get? k = some v ∧ p k v := by
  simp [get?_eq_some_iff, filter]

theorem get?_set (m : OrderedMap κ ν) (k j : κ) (v : ν) :
    (m.set k v).get? j = if j = k then some v else m.get? j := by
  refine Option.ext fun w => ?_
  by_cases hm : k ∈ m
  · rw [get?_eq_some_iff, set_of_mem hm]
    obtain ⟨u, hu⟩ := mem_iff.mp hm
    split
    · subst j
      simp only [List.mem_map, Option.some.injEq]
      constructor
      · rintro ⟨e, _, he⟩
        split at he
        · cases he; rfl
        · rename_i hne; exact absurd (congrArg Prod.fst he) hne
      · rintro rfl
        exact ⟨_, get?_eq_some_iff.mp hu, if_pos rfl⟩
    · rename_i hj
      rw [get?_eq_some_iff]
      simp only [List.mem_map]
      constructor
      · rintro ⟨e, he, h⟩
        split at h
        · exact absurd (congrArg Prod.fst h).symm hj
        · exact h ▸ he
      · exact fun h => ⟨_, h, if_neg hj⟩
  · rw [get?_eq_some_iff, set_of_not_mem hm]
    split
    · subst j
      have hn : (k, w) ∉ m.entries := fun h => hm (mem_of_get? (get?_eq_some_iff.mpr h))
      simp [hn, eq_comm]
    · rename_i hj
      simp [get?_eq_some_iff, hj]

theorem get?_erase (m : OrderedMap κ ν) (k j : κ) :
    (m.erase k).get? j = if j = k then none else m.get? j := by
  refine Option.ext fun w => ?_
  rw [erase, get?_filter]
  split <;> simp_all

@[simp] theorem get?_set_self (m : OrderedMap κ ν) (k : κ) (v : ν) :
    (m.set k v).get? k = some v := by rw [get?_set, if_pos rfl]

@[simp] theorem get?_erase_self (m : OrderedMap κ ν) (k : κ) : (m.erase k).get? k = none := by
  rw [get?_erase, if_pos rfl]

theorem mem_set {m : OrderedMap κ ν} {k j : κ} {v : ν} : j ∈ m.set k v ↔ j = k ∨ j ∈ m := by
  rw [mem_iff, mem_iff, get?_set]
  split <;> simp_all

theorem mem_erase {m : OrderedMap κ ν} {k j : κ} : j ∈ m.erase k ↔ j ≠ k ∧ j ∈ m := by
  rw [mem_iff, mem_iff, get?_erase]
  split <;> simp_all

/-- What holds of every entry holds after one is written of which it holds. -/
theorem forall_set {m : OrderedMap κ ν} {P : κ → ν → Prop} (h : ∀ j w, m.get? j = some w → P j w)
    {k : κ} {v : ν} (hk : P k v) : ∀ j w, (m.set k v).get? j = some w → P j w := by
  intro j w hget
  rw [get?_set] at hget
  split at hget
  · next heq =>
    cases hget
    exact heq ▸ hk
  · exact h j w hget

theorem forall_erase {m : OrderedMap κ ν} {P : κ → ν → Prop} (h : ∀ j w, m.get? j = some w → P j w)
    (k : κ) : ∀ j w, (m.erase k).get? j = some w → P j w := by
  intro j w hget
  rw [get?_erase] at hget
  split at hget
  · cases hget
  · exact h j w hget

theorem erase_of_not_mem {m : OrderedMap κ ν} {k : κ} (h : k ∉ m) : m.erase k = m := by
  obtain ⟨l, hl⟩ := m
  simp only [erase, filter, mk.injEq, List.filter_eq_self]
  rintro ⟨a, b⟩ he
  simp only [ne_eq, decide_not, Bool.not_eq_eq_eq_not, Bool.not_true, decide_eq_false_iff_not]
  rintro rfl
  exact h (List.mem_map.mpr ⟨_, he, rfl⟩)

/-! ## Order -/

theorem keys_set_of_mem {m : OrderedMap κ ν} {k : κ} (h : k ∈ m) (v : ν) :
    (m.set k v).keys = m.keys := by
  rw [keys, set_of_mem h, keys_replace, keys]

theorem keys_set_of_not_mem {m : OrderedMap κ ν} {k : κ} (h : k ∉ m) (v : ν) :
    (m.set k v).keys = m.keys ++ [k] := by
  rw [keys, set_of_not_mem h, List.map_append, keys, List.map_singleton]

theorem keys_erase (m : OrderedMap κ ν) (k : κ) :
    (m.erase k).keys = m.keys.filter (· ≠ k) := by
  simp only [keys, erase, filter, List.filter_map, Function.comp_def]

theorem mem_keys_filter {m : OrderedMap κ ν} {p : κ → ν → Bool} {k : κ} :
    k ∈ (m.filter p).keys ↔ ∃ v, m.get? k = some v ∧ p k v := by
  simp only [← mem_def, mem_iff, get?_filter]

theorem keys_filter_congr {m : OrderedMap κ ν} {p q : κ → ν → Bool}
    (h : ∀ k v, m.get? k = some v → p k v = q k v) : (m.filter p).keys = (m.filter q).keys := by
  rw [keys, keys, filter, filter]
  refine congrArg _ (List.filter_congr fun e he => ?_)
  exact h e.1 e.2 (get?_eq_some_iff.mpr he)

theorem keys_filter_erase (m : OrderedMap κ ν) (p : κ → ν → Bool) (k : κ) :
    ((m.erase k).filter p).keys = (m.filter fun j v => p j v && decide (j ≠ k)).keys := by
  simp only [keys, erase, filter, List.filter_filter]

omit [DecidableEq κ] in
theorem filter_keys_filter (m : OrderedMap κ ν) (p : κ → ν → Bool) (q : κ → Bool) :
    (m.filter p).keys.filter q = (m.filter fun k v => p k v && q k).keys := by
  simp only [keys, filter, List.filter_map, List.filter_filter, Function.comp_def, Bool.and_comm]

theorem keys_filter_set_of_not_mem {m : OrderedMap κ ν} {k : κ} (h : k ∉ m) (v : ν)
    (p : κ → ν → Bool) :
    ((m.set k v).filter p).keys = (m.filter p).keys ++ if p k v then [k] else [] := by
  simp only [keys, filter, set_of_not_mem h, List.filter_append, List.map_append]
  cases hp : p k v <;> simp [hp]

/-! ## Rearranging entries -/

variable {m m' : OrderedMap κ ν} {p : κ → ν → Bool} {k : κ} {v w : ν}

omit [DecidableEq κ] in
theorem entries_nodup (m : OrderedMap κ ν) : m.entries.Nodup := m.nodup.of_map _

/-- Maps with the same lookups hold the same entries. -/
theorem perm_of_get?_eq (h : ∀ k, m.get? k = m'.get? k) : m.entries.Perm m'.entries := by
  refine (List.perm_ext_iff_of_nodup m.entries_nodup m'.entries_nodup).mpr fun ⟨k, v⟩ => ?_
  rw [← get?_eq_some_iff, ← get?_eq_some_iff, h]

theorem perm_erase_of_get? (h : m.get? k = some w) :
    m.entries.Perm ((k, w) :: (m.erase k).entries) := by
  have hnot : (k, w) ∉ (m.erase k).entries := by
    rw [← get?_eq_some_iff, get?_erase_self]
    exact nofun
  refine (List.perm_ext_iff_of_nodup m.entries_nodup
    (List.nodup_cons.mpr ⟨hnot, entries_nodup _⟩)).mpr fun ⟨j, v⟩ => ?_
  rw [List.mem_cons, ← get?_eq_some_iff, ← get?_eq_some_iff, get?_erase]
  by_cases hj : j = k
  · subst hj
    simp [h, eq_comm]
  · simp [hj]

theorem perm_set (m : OrderedMap κ ν) (k : κ) (v : ν) :
    (m.set k v).entries.Perm ((k, v) :: (m.erase k).entries) := by
  refine (perm_erase_of_get? (get?_set_self m k v)).trans (.cons _ (perm_of_get?_eq fun j => ?_))
  simp only [get?_erase, get?_set]
  split
  · rfl
  · rfl

omit [DecidableEq κ] in
theorem eq_empty_of_entries (h : m.entries = []) : m = empty := by
  obtain ⟨l, hl⟩ := m
  cases h
  rfl

theorem get?_head {l : List (κ × ν)} (h : m.entries = (k, v) :: l) :
    m.get? k = some v := get?_eq_some_iff.mpr (h ▸ List.mem_cons_self)

theorem entries_erase_head {l : List (κ × ν)} (h : m.entries = (k, v) :: l) :
    (m.erase k).entries = l := by
  have hnodup := m.nodup
  rw [h, List.map_cons, List.nodup_cons] at hnodup
  simp only [erase, filter, h, List.filter_cons, ne_eq, not_true_eq_false, decide_false,
    Bool.false_eq_true, ↓reduceIte, List.filter_eq_self]
  intro e he
  refine decide_eq_true ?_
  rintro rfl
  exact hnodup.1 (List.mem_map.mpr ⟨e, he, rfl⟩)

/-! ## Counting entries -/

omit [DecidableEq κ] in
private theorem countP_cons_toNat (l : List (κ × ν)) (p : κ → ν → Bool) (k : κ) (v : ν) :
    ((k, v) :: l).countP (fun e => p e.1 e.2) = l.countP (fun e => p e.1 e.2) + (p k v).toNat := by
  rw [List.countP_cons]
  cases p k v <;> rfl

theorem count_eq_zero_iff : m.count p = 0 ↔ ∀ k v, m.get? k = some v → p k v = false := by
  simp only [count, List.countP_eq_zero, Prod.forall, get?_eq_some_iff, Bool.not_eq_true]

theorem count_erase_of_get? (h : m.get? k = some w) :
    (m.erase k).count p + (p k w).toNat = m.count p := by
  rw [count, count, (perm_erase_of_get? h).countP_eq, countP_cons_toNat]

theorem count_erase_of_get?_none (h : m.get? k = none) : (m.erase k).count p = m.count p := by
  rw [erase_of_not_mem (not_mem_iff.mpr h)]

theorem count_set (m : OrderedMap κ ν) (p : κ → ν → Bool) (k : κ) (v : ν) :
    (m.set k v).count p = (m.erase k).count p + (p k v).toNat := by
  rw [count, (perm_set m k v).countP_eq, countP_cons_toNat, count]

theorem count_set_of_get?_none (h : m.get? k = none) (v : ν) :
    (m.set k v).count p = m.count p + (p k v).toNat := by
  rw [count_set, count_erase_of_get?_none h]

theorem count_set_of_get? (h : m.get? k = some w) (v : ν) :
    (m.set k v).count p + (p k w).toNat = m.count p + (p k v).toNat := by
  have := count_erase_of_get? (p := p) h
  rw [count_set]
  omega

theorem count_pred (m : OrderedMap κ ν) (p : κ → ν → Bool) :
    m.count p = m.keys.countP fun k => (m.get? k).any (p k) := by
  rw [count, keys, List.countP_map]
  refine List.countP_congr fun e he => ?_
  rw [Function.comp, get?_eq_some_iff.mpr he, Option.any_some]

/-- Maps with the same keys of which the same ones count. -/
theorem count_congr {q : κ → ν → Bool} (hkeys : m.keys = m'.keys)
    (h : ∀ k, (m.get? k).any (p k) = (m'.get? k).any (q k)) : m.count p = m'.count q := by
  rw [count_pred, count_pred, hkeys]
  exact List.countP_congr fun k _ => by rw [h]

/-- One key no longer counts. -/
theorem count_of_drop {q : κ → ν → Bool} (hkeys : m.keys = m'.keys)
    (h : ∀ j, j ≠ k → (m.get? j).any (p j) = (m'.get? j).any (q j))
    (hk : (m.get? k).any (p k)) (hk' : (m'.get? k).any (q k) = false) :
    m.count p = m'.count q + 1 := by
  have herase : (m.erase k).count p = (m'.erase k).count q := by
    refine count_congr ?_ fun j => ?_
    · rw [keys_erase, keys_erase, hkeys]
    · rw [get?_erase, get?_erase]
      split
      · rfl
      · next hj => exact h j hj
  obtain ⟨v, hv, hp⟩ := (Option.any_eq_true _ _).mp hk
  obtain ⟨v', hv'⟩ := mem_iff.mp (mem_def.mpr (hkeys ▸ mem_def.mp (mem_of_get? hv)))
  rw [hv', Option.any_some] at hk'
  rw [← count_erase_of_get? hv, ← count_erase_of_get? hv', herase, hp, hk']
  rfl

/-! ## Images -/

section
universe w
variable {μ : Type w} (f : ν → μ)

omit [DecidableEq κ] in
@[ext] theorem ext_entries {m m' : OrderedMap κ ν} (h : m.entries = m'.entries) : m = m' := by
  cases m
  cases h
  rfl

/-- The map with another value at each key. -/
def mapValues (m : OrderedMap κ ν) : OrderedMap κ μ :=
  ⟨m.entries.map fun e => (e.1, f e.2), by
    rw [List.map_map]
    exact m.nodup⟩

omit [DecidableEq κ] in
theorem entries_mapValues (m : OrderedMap κ ν) :
    (m.mapValues f).entries = m.entries.map fun e => (e.1, f e.2) := rfl

omit [DecidableEq κ] in
@[simp] theorem keys_mapValues (m : OrderedMap κ ν) : (m.mapValues f).keys = m.keys := by
  rw [keys, keys, mapValues, List.map_map]
  rfl

theorem get?_mapValues (m : OrderedMap κ ν) (k : κ) :
    (m.mapValues f).get? k = (m.get? k).map f := by
  refine Option.ext fun w => ?_
  rw [get?_eq_some_iff, Option.map_eq_some_iff]
  constructor
  · intro hmem
    obtain ⟨e, he, heq⟩ := List.mem_map.mp hmem
    cases heq
    exact ⟨e.2, get?_eq_some_iff.mpr he, rfl⟩
  · rintro ⟨v, hv, rfl⟩
    exact List.mem_map.mpr ⟨(k, v), get?_eq_some_iff.mp hv, rfl⟩

theorem mapValues_set (m : OrderedMap κ ν) (k : κ) (v : ν) :
    (m.set k v).mapValues f = (m.mapValues f).set k (f v) := by
  have hkeys : k ∈ m.mapValues f ↔ k ∈ m := by rw [mem_def, keys_mapValues, mem_def]
  apply ext_entries
  by_cases hk : k ∈ m
  · rw [set_of_mem (hkeys.mpr hk), entries_mapValues, set_of_mem hk, entries_mapValues,
      List.map_map, List.map_map]
    refine List.map_congr_left fun e _ => ?_
    dsimp only [Function.comp]
    split <;> rfl
  · rw [set_of_not_mem (mt hkeys.mp hk), entries_mapValues, set_of_not_mem hk, entries_mapValues,
      List.map_append]
    rfl

theorem mapValues_filter {p : κ → ν → Bool} {q : κ → μ → Bool} {m : OrderedMap κ ν}
    (h : ∀ k v, m.get? k = some v → q k (f v) = p k v) :
    (m.filter p).mapValues f = (m.mapValues f).filter q := by
  apply ext_entries
  change (m.entries.filter fun e => p e.1 e.2).map _ = (m.entries.map _).filter _
  rw [List.filter_map]
  refine congrArg _ (List.filter_congr fun e he => ?_)
  exact (h e.1 e.2 (get?_eq_some_iff.mpr he)).symm

theorem mapValues_erase (m : OrderedMap κ ν) (k : κ) :
    (m.erase k).mapValues f = (m.mapValues f).erase k :=
  mapValues_filter (p := fun j _ => j ≠ k) (q := fun j _ => j ≠ k) f fun _ _ _ => rfl

end

end OrderedMap
