import Mathlib.Algebra.BigOperators.Group.List.Basic
import Mathlib.Algebra.GroupWithZero.Nat
import Mathlib.Data.List.Induction
import Mathlib.Data.List.Perm.Subperm

/-!
# Lists as tables

A list of tasks that run side by side is a table: a task is known by its place,
one entry changes at a time (`List.set`), and new entries come at the end.  What
is in the table after a change is what was there before or the new entry
(`getElem?_set_cases`, `getElem?_concat_cases`).

`countP_set_add` counts through a change, and `length_le_countP` bounds the
number of places that hold something by the count.

Some of the entries are a table of their own, in which the entry `i` has another
place (`place`): a change to one of them is the same change there
(`filter_set_place`), and a change to another is none (`filter_set_of_not`).
-/

namespace Table

variable {α : Type*} {xs : List α} {i j : ℕ} {x y : α}

theorem getElem?_set_cases (h : (xs.set i x)[j]? = some y) :
    (j = i ∧ y = x) ∨ (j ≠ i ∧ xs[j]? = some y) := by
  by_cases hi : j = i
  · subst hi
    rw [List.getElem?_set_self'] at h
    obtain ⟨_, -, hy⟩ := Option.map_eq_some_iff.mp h
    exact Or.inl ⟨rfl, hy.symm⟩
  · rw [List.getElem?_set_ne (Ne.symm hi)] at h
    exact Or.inr ⟨hi, h⟩

theorem getElem?_concat_cases (h : (xs ++ [x])[j]? = some y) :
    xs[j]? = some y ∨ (j = xs.length ∧ y = x) := by
  by_cases hi : j < xs.length
  · rw [List.getElem?_append_left hi] at h
    exact Or.inl h
  · rw [List.getElem?_append_right (by omega), List.getElem?_singleton] at h
    split at h
    · exact Or.inr ⟨by omega, (Option.some.inj h).symm⟩
    · cases h

theorem getElem?_set_of_some (h : xs[i]? = some y) : (xs.set i x)[i]? = some x :=
  List.getElem?_set_self (List.getElem?_eq_some_iff.mp h).1

theorem getElem?_concat_of_some (h : xs[j]? = some y) : (xs ++ [x])[j]? = some y := by
  rw [List.getElem?_append_left (List.getElem?_eq_some_iff.mp h).1]
  exact h

theorem mem_set_of_ne (h : xs[j]? = some y) (hi : j ≠ i) : y ∈ xs.set i x :=
  List.mem_of_getElem? ((List.getElem?_set_ne (Ne.symm hi)).trans h)

theorem mem_set_self (h : xs[i]? = some y) : x ∈ xs.set i x :=
  List.mem_of_getElem? (getElem?_set_of_some h)

/-! ### Counting -/

variable {p : α → Bool}

/-- **A change moves the count** by what leaves and what comes. -/
theorem countP_set_add (h : xs[i]? = some y) :
    (xs.set i x).countP p + (if p y then 1 else 0) = xs.countP p + if p x then 1 else 0 := by
  induction xs generalizing i with
  | nil => cases h
  | cons z zs ih =>
    cases i with
    | zero =>
      obtain rfl := Option.some.inj h
      rw [List.set_cons_zero, List.countP_cons, List.countP_cons]
      omega
    | succ i =>
      have := ih h
      rw [List.set_cons_succ, List.countP_cons, List.countP_cons]
      omega

/-- **A change moves a total** in the same way. -/
theorem sum_map_set_add (f : α → ℕ) (h : xs[i]? = some y) :
    ((xs.set i x).map f).sum + f y = (xs.map f).sum + f x := by
  induction xs generalizing i with
  | nil => cases h
  | cons z zs ih =>
    cases i with
    | zero =>
      obtain rfl := Option.some.inj h
      rw [List.set_cons_zero, List.map_cons, List.map_cons, List.sum_cons, List.sum_cons]
      omega
    | succ i =>
      have := ih h
      rw [List.set_cons_succ, List.map_cons, List.map_cons, List.sum_cons, List.sum_cons]
      omega

theorem sum_map_concat (f : α → ℕ) : ((xs ++ [x]).map f).sum = (xs.map f).sum + f x := by
  rw [List.map_append, List.sum_append]
  rfl

theorem countP_set_of_eq (h : xs[i]? = some y) (hp : p x = p y) :
    (xs.set i x).countP p = xs.countP p := by
  have hset := @countP_set_add _ _ _ x _ p h
  rw [hp] at hset
  omega

theorem countP_set_le (h : xs[i]? = some y) (hp : p x = true → p y = true) :
    (xs.set i x).countP p ≤ xs.countP p := by
  have hset := @countP_set_add _ _ _ x _ p h
  split at hset <;> split at hset <;> first | omega | simp_all

theorem map_set_of_eq {β : Type*} {f : α → β} (h : xs[i]? = some y) (hf : f x = f y) :
    (xs.set i x).map f = xs.map f := by
  obtain ⟨hi, rfl⟩ := List.getElem?_eq_some_iff.mp h
  rw [List.map_set, hf, ← List.map_set, List.set_getElem_self]

theorem countP_range (xs : List α) :
    (List.range xs.length).countP (fun i => (xs[i]?).any p) = xs.countP p := by
  induction xs using List.reverseRecOn with
  | nil => rfl
  | append_singleton xs x ih =>
    rw [List.length_append, List.length_singleton, List.range_succ, List.countP_append,
      List.countP_append, ← ih]
    congr 1
    · refine List.countP_congr fun i hi => ?_
      rw [List.getElem?_append_left (List.mem_range.mp hi)]
    · rw [List.countP_singleton, List.countP_singleton, List.getElem?_concat_length]
      rfl

/-- **Different places that hold a `p`** are at most as many as the count. -/
theorem length_le_countP {is : List ℕ} (hn : is.Nodup)
    (h : ∀ i ∈ is, ∃ y, xs[i]? = some y ∧ p y = true) : is.length ≤ xs.countP p := by
  rw [← countP_range xs, List.countP_eq_length_filter]
  refine (List.subperm_of_subset hn fun i hi => ?_).length_le
  obtain ⟨y, hy, hp⟩ := h i hi
  refine List.mem_filter.mpr ⟨List.mem_range.mpr (List.getElem?_eq_some_iff.mp hy).1, ?_⟩
  rw [hy]
  exact hp

theorem count_filterMap {β : Type*} [BEq β] [LawfulBEq β] [DecidableEq β] {f : α → Option β}
    {b : β} : (xs.filterMap f).count b = xs.countP fun x => f x = some b := by
  rw [List.count_filterMap]
  refine List.countP_congr fun x _ => ?_
  rw [beq_iff_eq, decide_eq_true_iff]

theorem count_map {β : Type*} [BEq β] [LawfulBEq β] [DecidableEq β] {f : α → β} {b : β} :
    (xs.map f).count b = xs.countP fun x => f x = b := by
  rw [List.count_eq_countP, List.countP_map]
  refine List.countP_congr fun x _ => ?_
  rw [Function.comp_apply, beq_iff_eq, decide_eq_true_iff]

/-- **A change that takes something out** of what is looked for. -/
theorem filterMap_set_perm {β : Type*} {f : α → Option β} {b : β} (h : xs[i]? = some y)
    (hy : f y = some b) (hx : f x = none) :
    (xs.filterMap f).Perm (b :: (xs.set i x).filterMap f) := by
  induction xs generalizing i with
  | nil => cases h
  | cons z zs ih =>
    cases i with
    | zero =>
      obtain rfl := Option.some.inj h
      rw [List.set_cons_zero, List.filterMap_cons_some hy, List.filterMap_cons_none hx]
    | succ i =>
      rw [List.set_cons_succ]
      cases hz : f z with
      | none =>
        rw [List.filterMap_cons_none hz, List.filterMap_cons_none hz]
        exact ih h
      | some c =>
        rw [List.filterMap_cons_some hz, List.filterMap_cons_some hz]
        exact ((ih h).cons c).trans (List.Perm.swap b c _)

/-! ### Some of the entries -/

/-- The place of the entry `i` among the entries with `p`. -/
def place (p : α → Bool) (xs : List α) (i : ℕ) : ℕ := (xs.take i).countP p

@[simp] theorem place_length (xs : List α) : place p xs xs.length = (xs.filter p).length := by
  rw [place, List.take_length, List.countP_eq_length_filter]

theorem place_append (h : i ≤ xs.length) (ys : List α) : place p (xs ++ ys) i = place p xs i := by
  rw [place, List.take_append_of_le_length h, place]

theorem place_cons_succ (z : α) : place p (z :: xs) (i + 1) =
    place p xs i + if p z then 1 else 0 := by
  rw [place, List.take_succ_cons, List.countP_cons, place]

theorem place_set (h : xs[i]? = some y) (hp : p x = p y) : place p (xs.set i x) j =
    place p xs j := by
  rw [place, List.take_set, place]
  by_cases hij : i < j
  · exact countP_set_of_eq ((List.getElem?_take_of_lt hij).trans h) hp
  · have hlen : (xs.take j).length ≤ i :=
      Nat.le_trans (List.length_take_le j xs) (Nat.le_of_not_lt hij)
    rw [List.set_eq_of_length_le hlen]

theorem place_of_all (hall : ∀ x ∈ xs, p x = true) (h : i ≤ xs.length) : place p xs i = i := by
  rw [place, List.countP_eq_length.mpr fun x hx => hall x (List.mem_of_mem_take hx),
    List.length_take_of_le h]

theorem getElem?_place (h : xs[i]? = some x) (hp : p x) :
    (xs.filter p)[place p xs i]? = some x := by
  induction xs generalizing i with
  | nil => cases h
  | cons z zs ih =>
    cases i with
    | zero =>
      obtain rfl := Option.some.inj h
      rw [List.filter_cons_of_pos hp]
      rfl
    | succ i =>
      rw [place_cons_succ]
      by_cases hz : p z
      · rw [List.filter_cons_of_pos hz, if_pos hz, List.getElem?_cons_succ]
        exact ih h
      · rw [List.filter_cons_of_neg hz, if_neg hz, Nat.add_zero]
        exact ih h

theorem map_filter_concat {β : Type*} (hp : p x) (f : α → β) :
    ((xs ++ [x]).filter p).map f = (xs.filter p).map f ++ [f x] := by
  rw [List.filter_append, List.filter_singleton, hp, cond_true, List.map_append]
  rfl

theorem map_filter_concat_of_not {β : Type*} (hp : ¬ p x) (f : α → β) :
    ((xs ++ [x]).filter p).map f = (xs.filter p).map f := by
  rw [List.filter_append, List.filter_singleton, Bool.eq_false_iff.mpr hp, cond_false,
    List.append_nil]

theorem exists_place (h : (xs.filter p)[j]? = some x) :
    ∃ i, xs[i]? = some x ∧ p x ∧ place p xs i = j := by
  induction xs generalizing j with
  | nil => cases h
  | cons z zs ih =>
    by_cases hz : p z
    · rw [List.filter_cons_of_pos hz] at h
      cases j with
      | zero =>
        obtain rfl := Option.some.inj h
        exact ⟨0, rfl, hz, rfl⟩
      | succ j =>
        obtain ⟨i, hi, hp, hj⟩ := ih h
        exact ⟨i + 1, hi, hp, by rw [place_cons_succ, if_pos hz, hj]⟩
    · rw [List.filter_cons_of_neg hz] at h
      obtain ⟨i, hi, hp, hj⟩ := ih h
      exact ⟨i + 1, hi, hp, by rw [place_cons_succ, if_neg hz, Nat.add_zero, hj]⟩

/-- **A change to one of them** is the same change there. -/
theorem filter_set_place (h : xs[i]? = some y) (hy : p y) (hx : p x) :
    (xs.set i x).filter p = (xs.filter p).set (place p xs i) x := by
  induction xs generalizing i with
  | nil => cases h
  | cons z zs ih =>
    cases i with
    | zero =>
      obtain rfl := Option.some.inj h
      rw [List.set_cons_zero, List.filter_cons_of_pos hx, List.filter_cons_of_pos hy]
      rfl
    | succ i =>
      rw [List.set_cons_succ, place_cons_succ]
      by_cases hz : p z
      · rw [List.filter_cons_of_pos hz, List.filter_cons_of_pos hz, if_pos hz,
          List.set_cons_succ, ih h]
      · rw [List.filter_cons_of_neg hz, List.filter_cons_of_neg hz, if_neg hz, Nat.add_zero,
          ih h]

/-- **A change to another** is none. -/
theorem filter_set_of_not (h : xs[i]? = some y) (hy : ¬ p y) (hx : ¬ p x) :
    (xs.set i x).filter p = xs.filter p := by
  induction xs generalizing i with
  | nil => cases h
  | cons z zs ih =>
    cases i with
    | zero =>
      obtain rfl := Option.some.inj h
      rw [List.set_cons_zero, List.filter_cons_of_neg hx, List.filter_cons_of_neg hy]
    | succ i =>
      rw [List.set_cons_succ, List.filter_cons, List.filter_cons, ih h]

end Table
