import Mathlib
import RabbitMQ.Lib.OrderedMap

/-! Keyed meters that are brought up to date only when they are used. An entry says what its level
will be at every later instant, a key without an entry is idle, and two stores agree from an
instant on when no later reading tells them apart. -/

universe u v w x

namespace Meter

variable {κ : Type u} {S : Type v} {V : Type w} {T : Type x} [DecidableEq κ] [Preorder T]

/-- The level of a key at an instant. -/
def reading (level : S → T → V) (idle : V) (m : OrderedMap κ S) (k : κ) (now : T) : V :=
  match m.get? k with
  | none => idle
  | some x => level x now

/-- No reading from `t` on tells the stores apart. -/
def Agree (level : S → T → V) (idle : V) (t : T) (m m' : OrderedMap κ S) : Prop :=
  ∀ k now, t ≤ now → reading level idle m k now = reading level idle m' k now

variable {level : S → T → V} {idle : V} {m m₁ m₂ m₃ : OrderedMap κ S} {t t' : T} {k : κ}

omit [Preorder T] in
theorem reading_of_get? {x : S} (h : m.get? k = some x) (now : T) :
    reading level idle m k now = level x now := by
  rw [reading, h]

omit [Preorder T] in
theorem reading_of_get?_none (h : m.get? k = none) (now : T) :
    reading level idle m k now = idle := by
  rw [reading, h]

omit [Preorder T] in
theorem reading_set (x : S) (j : κ) (now : T) : reading level idle (m.set k x) j now =
    if j = k then level x now else reading level idle m j now := by
  rw [reading, OrderedMap.get?_set]
  by_cases hj : j = k
  · rw [if_pos hj, if_pos hj]
  · rw [if_neg hj, if_neg hj, reading]

omit [Preorder T] in
theorem reading_erase (j : κ) (now : T) : reading level idle (m.erase k) j now =
    if j = k then idle else reading level idle m j now := by
  rw [reading, OrderedMap.get?_erase]
  by_cases hj : j = k
  · rw [if_pos hj, if_pos hj]
  · rw [if_neg hj, if_neg hj, reading]

theorem Agree.refl (m : OrderedMap κ S) : Agree level idle t m m := fun _ _ _ => rfl

theorem Agree.symm (h : Agree level idle t m₁ m₂) : Agree level idle t m₂ m₁ :=
  fun k now hle => (h k now hle).symm

theorem Agree.trans (h : Agree level idle t m₁ m₂) (h' : Agree level idle t m₂ m₃) :
    Agree level idle t m₁ m₃ :=
  fun k now hle => (h k now hle).trans (h' k now hle)

theorem Agree.later (h : Agree level idle t m₁ m₂) (hle : t ≤ t') : Agree level idle t' m₁ m₂ :=
  fun k now hnow => h k now (le_trans hle hnow)

/-- Writing entries that read the same. -/
theorem Agree.set (h : Agree level idle t m₁ m₂) {x x' : S}
    (hx : ∀ now, t ≤ now → level x now = level x' now) :
    Agree level idle t (m₁.set k x) (m₂.set k x') := by
  intro j now hle
  rw [reading_set, reading_set, hx now hle, h j now hle]

/-- Bringing an entry up to date. -/
theorem agree_set {x : S} (hx : ∀ now, t ≤ now → level x now = reading level idle m k now) :
    Agree level idle t (m.set k x) m := by
  intro j now hle
  rw [reading_set]
  split
  · next heq => rw [heq, hx now hle]
  · rfl

theorem Agree.erase (h : Agree level idle t m₁ m₂) (k : κ) :
    Agree level idle t (m₁.erase k) (m₂.erase k) := by
  intro j now hle
  rw [reading_erase, reading_erase, h j now hle]

/-- Dropping an entry that reads as idle. -/
theorem agree_erase (hidle : ∀ now, t ≤ now → reading level idle m k now = idle) :
    Agree level idle t (m.erase k) m := by
  intro j now hle
  rw [reading_erase]
  split
  · next heq => rw [heq, hidle now hle]
  · rfl

/-- Dropping the entries that read as idle. -/
theorem agree_filter {p : κ → S → Bool}
    (hidle : ∀ k x, m.get? k = some x → p k x = false → ∀ now, t ≤ now → level x now = idle) :
    Agree level idle t (m.filter p) m := by
  intro k now hle
  cases hx : m.get? k with
  | none =>
    rw [reading_of_get?_none hx, reading_of_get?_none]
    exact Option.eq_none_iff_forall_ne_some.mpr fun x hfilter =>
      nomatch hx.symm.trans (OrderedMap.get?_filter.mp hfilter).1
  | some x =>
    rw [reading_of_get? hx]
    cases hp : p k x with
    | true => exact reading_of_get? (OrderedMap.get?_filter.mpr ⟨hx, hp⟩) now
    | false =>
      rw [reading_of_get?_none, hidle k x hx hp now hle]
      refine Option.eq_none_iff_forall_ne_some.mpr fun y hfilter => ?_
      obtain ⟨hy, hpy⟩ := OrderedMap.get?_filter.mp hfilter
      cases hx.symm.trans hy
      rw [hp] at hpy
      cases hpy

end Meter

/-! ## Memory

What a map holds, charged to the events that put it there. An event is charged for one key at most,
so a map whose keys are all charged has no more of them than there were events. -/

namespace OrderedMap

variable {κ : Type u} {ν : Type v} {ε : Type w} [DecidableEq κ] {f : ε → Option κ} {es : List ε}

omit [DecidableEq κ] in
/-- Each key is charged to an event. -/
theorem length_keys_le (m : OrderedMap κ ν) (h : ∀ k ∈ m, ∃ e ∈ es, f e = some k) :
    m.keys.length ≤ (es.filterMap f).length := by
  refine (List.Nodup.subperm m.keys_nodup fun k hk => ?_).length_le
  obtain ⟨e, he, heq⟩ := h k hk
  exact List.mem_filterMap.mpr ⟨e, he, heq⟩

theorem sum_count_le {keys : List κ} (hnodup : keys.Nodup) (l : List κ) :
    (keys.map fun k => l.count k).sum ≤ l.length :=
  calc (keys.map fun k => l.count k).sum
      = ∑ k ∈ keys.toFinset, l.count k := (List.sum_toFinset _ hnodup).symm
    _ ≤ ∑ k ∈ keys.toFinset ∪ l.toFinset, l.count k :=
        Finset.sum_le_sum_of_subset Finset.subset_union_left
    _ = l.length := by
        have hall : ∀ k ∈ (l : Multiset κ), k ∈ keys.toFinset ∪ l.toFinset := fun k hk =>
          Finset.mem_union_right _ (List.mem_toFinset.mpr hk)
        simpa using Multiset.sum_count_eq_card hall

/-- What an entry holds is charged to events for its key. -/
theorem sum_entries_le (m : OrderedMap κ ν) {size : ν → Nat}
    (h : ∀ k v, m.get? k = some v → size v ≤ (es.filterMap f).count k) :
    (m.entries.map fun e => size e.2).sum ≤ (es.filterMap f).length := by
  refine Nat.le_trans ?_ (sum_count_le m.keys_nodup (es.filterMap f))
  rw [keys, List.map_map]
  refine List.sum_le_sum fun e he => ?_
  exact h e.1 e.2 (get?_eq_some_iff.mpr he)

end OrderedMap
