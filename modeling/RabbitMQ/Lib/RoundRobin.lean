import Mathlib.Data.List.Nodup
import Mathlib.Data.List.ReduceOption
import Mathlib.Data.List.Rotate

/-! Round robin over an array of slots, some of them empty: each turn looks from an index onwards
for the next slot that holds something, and leaves the index behind it. -/

universe u

namespace RoundRobin

variable {α : Type u} {slots : List (Option α)} {index : Nat}

/-- What the next turn finds in so many slots from the index onwards, and the index it leaves. -/
def next (slots : List (Option α)) : Nat → Nat → Option α × Nat
  | 0, index => (none, index)
  | turns + 1, index =>
    match slots[index]?.join with
    | some a => (some a, (index + 1) % slots.length)
    | none => next slots turns ((index + 1) % slots.length)

/-- What the slots hold, from an index onwards and around. -/
def order (slots : List (Option α)) (index : Nat) : List α := (slots.rotate index).reduceOption

theorem order_perm (slots : List (Option α)) (index : Nat) :
    (order slots index).Perm slots.reduceOption :=
  (slots.rotate_perm index).filterMap _

/-- The slot at the index comes first, and last from the next index on. -/
theorem rotate_succ (h : index < slots.length) : ∃ rest,
    slots.rotate index = slots[index] :: rest ∧
      slots.rotate ((index + 1) % slots.length) = rest ++ [slots[index]] := by
  have hhead : (slots.rotate index).head? = some slots[index] := by
    rw [List.head?_rotate h, List.getElem?_eq_getElem h]
  cases hrotate : slots.rotate index with
  | nil => rw [hrotate] at hhead; cases hhead
  | cons x rest =>
    rw [hrotate] at hhead
    cases Option.some.inj hhead
    refine ⟨rest, rfl, ?_⟩
    rw [List.rotate_mod, ← List.rotate_rotate, hrotate, List.rotate_cons_succ, List.rotate_zero]

theorem succ_mod_lt (h : index < slots.length) : (index + 1) % slots.length < slots.length :=
  Nat.mod_lt _ (Nat.lt_of_le_of_lt (Nat.zero_le _) h)

theorem next_lt (h : index < slots.length) (turns : Nat) :
    (next slots turns index).2 < slots.length := by
  induction turns generalizing index with
  | zero => exact h
  | succ turns ih =>
    rw [next]
    split
    · exact succ_mod_lt h
    · exact ih (succ_mod_lt h)

/-- A turn that finds something finds the first of the order, and puts it last. -/
theorem order_of_next {turns next' : Nat} {a : α} (h : index < slots.length)
    (hnext : next slots turns index = (some a, next')) :
    ∃ rest, order slots index = a :: rest ∧ order slots next' = rest ++ [a] := by
  induction turns generalizing index with
  | zero => cases hnext
  | succ turns ih =>
    obtain ⟨rest, hrotate, hsucc⟩ := rotate_succ h
    have hjoin : slots[index]?.join = slots[index] := by
      rw [List.getElem?_eq_getElem h, Option.join_some]
    rw [next, hjoin] at hnext
    split at hnext
    · next b hslot =>
      cases hnext
      rw [hslot] at hrotate hsucc
      refine ⟨rest.reduceOption, ?_, ?_⟩
      · rw [order, hrotate, List.reduceOption_cons_of_some]
      · rw [order, hsucc, List.reduceOption_append]
        rfl
    · next hslot =>
      rw [hslot] at hrotate hsucc
      obtain ⟨found, horder, hafter⟩ := ih (succ_mod_lt h) hnext
      refine ⟨found, ?_, hafter⟩
      rw [← horder, order, order, hrotate, hsucc, List.reduceOption_append,
        List.reduceOption_cons_of_none]
      simp [List.reduceOption]

/-- A turn that finds nothing went through empty slots. -/
theorem empty_of_next {turns next' : Nat} (h : index < slots.length) (hturns : turns ≤ slots.length)
    (hnext : next slots turns index = (none, next')) :
    ∀ slot ∈ (slots.rotate index).take turns, slot = none := by
  induction turns generalizing index with
  | zero => simp
  | succ turns ih =>
    obtain ⟨rest, hrotate, hsucc⟩ := rotate_succ h
    have hjoin : slots[index]?.join = slots[index] := by
      rw [List.getElem?_eq_getElem h, Option.join_some]
    rw [next, hjoin] at hnext
    split at hnext
    · cases hnext
    · next hslot =>
      have hlength : turns ≤ rest.length := by
        have := congrArg List.length hrotate
        rw [List.length_rotate, List.length_cons] at this
        omega
      have hrest := ih (succ_mod_lt h) (Nat.le_of_succ_le hturns) hnext
      rw [hsucc, List.take_append_of_le_length hlength] at hrest
      rw [hrotate, hslot, List.take_succ_cons]
      intro slot hmem
      rcases List.mem_cons.mp hmem with rfl | hmem
      · rfl
      · exact hrest slot hmem

/-- A turn over all slots finds the first of the order, if there is one, and turns the order. -/
theorem next_order (h : index < slots.length) :
    (next slots slots.length index).1 = (order slots index).head? ∧
      order slots (next slots slots.length index).2 = (order slots index).rotate 1 := by
  cases hnext : next slots slots.length index with
  | mk found next' =>
    cases found with
    | some a =>
      obtain ⟨rest, horder, hafter⟩ := order_of_next h hnext
      rw [horder, hafter]
      exact ⟨rfl, by rw [List.rotate_cons_succ, List.rotate_zero]⟩
    | none =>
      have hempty := empty_of_next h (Nat.le_refl _) hnext
      rw [List.take_of_length_le (Nat.le_of_eq (List.length_rotate slots index))] at hempty
      have hnone : ∀ i, order slots i = [] := by
        intro i
        refine List.filterMap_eq_nil_iff.mpr fun slot hmem => ?_
        exact hempty slot (List.mem_rotate.mpr (List.mem_rotate.mp hmem))
      rw [hnone, hnone]
      exact ⟨rfl, rfl⟩

/-! ## Many turns -/

/-- What so many turns find one after another. -/
def turns (order : List α) (count : Nat) : List (Option α) :=
  (List.range count).map fun k => (order.rotate k).head?

theorem turns_succ (order : List α) (count : Nat) :
    turns order (count + 1) = turns order count ++ [(order.rotate count).head?] := by
  rw [turns, List.range_succ, List.map_append]
  rfl

@[simp] theorem length_turns (order : List α) (count : Nat) : (turns order count).length = count := by
  rw [turns, List.length_map, List.length_range]

theorem getElem?_turns {order : List α} {count k : Nat} (h : k < count) :
    (turns order count)[k]? = some (order.rotate k).head? := by
  rw [turns, List.getElem?_map, List.getElem?_range h]
  rfl

/-- As many turns as there are things to find, one after another, find each of them once. -/
theorem window_turns {order : List α} {count i : Nat} (h : i + order.length ≤ count) :
    ((turns order count).drop i).take order.length = (order.rotate i).map some := by
  refine List.ext_getElem? fun k => ?_
  rcases Nat.lt_or_ge k order.length with hk | hk
  · have hlt : k < (order.rotate i).length := (List.length_rotate order i).symm ▸ hk
    rw [List.getElem?_take_of_lt hk, List.getElem?_drop, getElem?_turns (by omega),
      ← List.rotate_rotate, List.head?_rotate hlt, List.getElem?_map,
      List.getElem?_eq_getElem hlt]
    rfl
  · rw [List.getElem?_eq_none, List.getElem?_eq_none]
    · rw [List.length_map, List.length_rotate]
      exact hk
    · exact (List.length_take_le _ _).trans hk

/-- The turns repeat. -/
theorem turns_period {order : List α} {count k : Nat} (h : k + order.length < count) :
    (turns order count)[k + order.length]? = (turns order count)[k]? := by
  rw [getElem?_turns h, getElem?_turns (by omega), Nat.add_comm, ← List.rotate_rotate,
    List.rotate_length]

/-- Slots that hold different things. -/
theorem nodup_reduceOption
    (h : ∀ (i j : Nat) (a : α), slots[i]?.join = some a → slots[j]?.join = some a → i = j) :
    slots.reduceOption.Nodup := by
  induction slots with
  | nil => exact List.nodup_nil
  | cons slot slots ih =>
    have hrest : slots.reduceOption.Nodup :=
      ih fun i j a hi hj => Nat.succ.inj (h (i + 1) (j + 1) a hi hj)
    cases slot with
    | none => exact hrest
    | some a =>
      refine List.nodup_cons.mpr ⟨fun hmem => ?_, hrest⟩
      obtain ⟨slot, hslot, hsome⟩ := List.mem_filterMap.mp hmem
      obtain ⟨i, hi⟩ := List.mem_iff_getElem?.mp hslot
      cases h 0 (i + 1) a rfl (by simpa [hi] using hsome)

end RoundRobin
