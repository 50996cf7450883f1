import Mathlib.Data.List.Basic

/-! Lists by their positions: updates in place, and what they leave of the list. -/

universe u v

namespace List

variable {α : Type u} {β : Type v} {l : List α} {i j : Nat} {a b : α} {f : α → α} {g : α → β}

theorem getElem?_modify_of (h : l[j]? = some a) :
    (l.modify i f)[j]? = some (if i = j then f a else a) := by
  rw [List.getElem?_modify, h]
  rfl

theorem getElem?_modify_cases (h : (l.modify i f)[j]? = some b) :
    ∃ a, l[j]? = some a ∧ b = if i = j then f a else a := by
  rw [List.getElem?_modify, Option.map_eq_map, Option.map_eq_some_iff] at h
  obtain ⟨a, ha, rfl⟩ := h
  exact ⟨a, ha, rfl⟩

theorem modify_of_getElem? (h : l[i]? = some a) : l.modify i f = l.set i (f a) := by
  apply List.ext_getElem?
  intro j
  rw [List.getElem?_modify, List.getElem?_set]
  split
  · next heq =>
    subst heq
    rw [h, if_pos (List.getElem?_eq_some_iff.mp h).1]
    rfl
  · cases l[j]? <;> rfl

theorem getElem?_set_cases (h : (l.set i a)[j]? = some b) :
    (i = j ∧ b = a) ∨ (i ≠ j ∧ l[j]? = some b) := by
  rw [List.getElem?_set] at h
  split at h
  · next heq =>
    split at h
    · exact .inl ⟨heq, (Option.some_inj.mp h).symm⟩
    · cases h
  · next hne => exact .inr ⟨hne, h⟩

theorem getElem?_append_cases (h : (l ++ [a])[j]? = some b) :
    l[j]? = some b ∨ (j = l.length ∧ b = a) := by
  rcases Nat.lt_trichotomy j l.length with hlt | heq | hgt
  · rw [List.getElem?_append_left hlt] at h
    exact .inl h
  · subst heq
    rw [List.getElem?_append_right (Nat.le_refl _), Nat.sub_self] at h
    exact .inr ⟨rfl, (Option.some_inj.mp h).symm⟩
  · rw [List.getElem?_append_right (Nat.le_of_lt hgt), List.getElem?_eq_none] at h
    · cases h
    · exact Nat.sub_pos_of_lt hgt

theorem getElem?_append_of (h : l[j]? = some b) (m : List α) : (l ++ m)[j]? = some b := by
  rw [List.getElem?_append_left (List.getElem?_eq_some_iff.mp h).1]
  exact h

/-- A projection that the update keeps. -/
theorem map_modify_of_same (h : ∀ a, g (f a) = g a) : (l.modify i f).map g = l.map g := by
  apply List.ext_getElem?
  intro j
  rw [List.getElem?_map, List.getElem?_map, List.getElem?_modify]
  cases l[j]? with
  | none => rfl
  | some a =>
    dsimp only [Option.map_eq_map, Option.map_some]
    split
    · rw [h]
    · rfl

theorem filterMap_modify_of_same {g : α → Option β} (h : ∀ a, g (f a) = g a) :
    (l.modify i f).filterMap g = l.filterMap g := by
  have hmap := congrArg (List.filterMap id) (map_modify_of_same h (l := l) (i := i))
  rw [List.filterMap_map, List.filterMap_map] at hmap
  exact hmap

theorem map_set_of_same (ha : l[i]? = some a) (h : g b = g a) : (l.set i b).map g = l.map g := by
  apply List.ext_getElem?
  intro j
  rw [List.getElem?_map, List.getElem?_map, List.getElem?_set]
  split
  · next heq =>
    subst heq
    rw [if_pos (List.getElem?_eq_some_iff.mp ha).1, ha, Option.map_some, Option.map_some, h]
  · rfl

/-- A property that holds at one position at most. -/
theorem length_filter_le_one {p : α → Bool}
    (h : ∀ {i j : Nat} {a b : α}, l[i]? = some a → l[j]? = some b → p a → p b → i = j) :
    (l.filter p).length ≤ 1 := by
  induction l with
  | nil => exact Nat.zero_le 1
  | cons a l ih =>
    cases hp : p a with
    | false =>
      rw [filter_cons_of_neg (by simp [hp])]
      refine ih fun {i j b c} hi hj hpb hpc => ?_
      have heq : i + 1 = j + 1 := h hi hj hpb hpc
      exact Nat.succ.inj heq
    | true =>
      have hnone : l.filter p = [] := by
        apply filter_eq_nil_iff.mpr
        intro b hb hpb
        obtain ⟨j, hj⟩ := mem_iff_getElem?.mp hb
        have heq : 0 = j + 1 := h rfl hj hp hpb
        cases heq
      rw [filter_cons_of_pos hp, hnone]
      exact Nat.le_refl 1
end List
