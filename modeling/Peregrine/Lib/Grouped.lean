import Mathlib.Data.List.Basic

/-!
# Lists grouped by a key

A map that keeps several values for a key, and its keys in the order in which they
came, yields what was put into it with the values of one key together: each at the
place of the first of them, and in their own order (`grouped`).

Grouping loses and adds nothing (`grouped_perm`), and goes with every choice of keys
(`filter_grouped`).  `grouped_eq_self_iff` says when it leaves a list as it is.
-/

namespace Grouped

variable {α β : Type*} {key : α → β} {x : α} {l : List α}

/-- The list with the values of one key together. -/
def grouped [DecidableEq β] (key : α → β) : List α → List α
  | [] => []
  | x :: l =>
    x :: ((grouped key l).filter (key · = key x) ++ (grouped key l).filter (key · ≠ key x))

/-- Nothing stands between two values of one key but what has that key. -/
def Together (key : α → β) (l : List α) : Prop :=
  ∀ x y z, [x, y, z].Sublist l → key z = key x → key y = key x

theorem together_nil : Together key ([] : List α) := fun _ _ _ h => nomatch h

theorem together_cons :
    Together key (x :: l) ↔ (l.Pairwise fun y z => key z = key x → key y = key x) ∧
      Together key l := by
  constructor
  · intro h
    refine ⟨List.pairwise_iff_forall_sublist.mpr fun hs => ?_, fun a y z hs => ?_⟩
    · exact h _ _ _ (hs.cons_cons x)
    · exact h a y z (hs.cons x)
  · rintro ⟨hx, h⟩ a y z hs
    cases hs with
    | cons _ hs => exact h a y z hs
    | cons_cons _ hs => exact List.pairwise_iff_forall_sublist.mp hx hs

/-- The values with a property come first exactly if none without it comes before one. -/
theorem filter_append_filter_not_eq_iff {p : α → Prop} [DecidablePred p] :
    l.filter (p ·) ++ l.filter (¬ p ·) = l ↔ l.Pairwise fun y z => p z → p y := by
  induction l with
  | nil => exact iff_of_true rfl .nil
  | cons y l ih =>
    rw [List.pairwise_cons]
    by_cases hy : p y
    · rw [List.filter_cons_of_pos (by simpa using hy), List.filter_cons_of_neg (by simpa using hy)]
      rw [List.cons_append, List.cons_inj_right, ih]
      exact (and_iff_right fun z _ _ => hy).symm
    · rw [List.filter_cons_of_neg (by simpa using hy), List.filter_cons_of_pos (by simpa using hy)]
      constructor
      · intro h
        -- a value with the property would be the first of all
        have hnone : l.filter (p ·) = [] := by
          cases hl : l.filter (p ·) with
          | nil => rfl
          | cons z rest =>
            rw [hl] at h
            obtain rfl := (List.cons.inj h).1
            have hz := List.of_mem_filter (hl ▸ List.mem_cons_self : z ∈ l.filter (p ·))
            exact absurd (of_decide_eq_true hz) hy
        rw [hnone, List.nil_append, List.cons_inj_right] at h
        refine ⟨fun z hz hpz => ?_, ih.mp (by rw [hnone, h]; rfl)⟩
        have hmem : z ∈ l.filter (p ·) := List.mem_filter.mpr ⟨hz, decide_eq_true hpz⟩
        rw [hnone] at hmem
        cases hmem
      · rintro ⟨hnone, -⟩
        have hno : ∀ z ∈ l, ¬ p z := fun z hz hpz => hy (hnone z hz hpz)
        rw [List.filter_eq_nil_iff.mpr (by simpa using hno),
          List.filter_eq_self.mpr (by simpa using hno), List.nil_append]

theorem Together.filter_append (h : Together key l) (p : β → Prop) [DecidablePred p] :
    Together key (l.filter (fun x => p (key x)) ++ l.filter (fun x => ¬ p (key x))) := by
  have hpairwise : (l.filter (fun x => p (key x)) ++ l.filter (fun x => ¬ p (key x))).Pairwise
      fun y z => p (key z) → p (key y) :=
    filter_append_filter_not_eq_iff.mp (by simp [List.filter_append, List.filter_filter])
  intro x y z hs hzx
  have hxy : p (key y) → p (key x) := List.pairwise_iff_forall_sublist.mp hpairwise
    ((List.sublist_append_left [x, y] [z]).trans hs)
  have hyz : p (key z) → p (key y) := List.pairwise_iff_forall_sublist.mp hpairwise
    ((List.sublist_cons_self x [y, z]).trans hs)
  rw [hzx] at hyz
  -- so the three belong to one part, which is in the old order
  by_cases hx : p (key x)
  · have hpart := hs.filter (fun x => p (key x))
    simp [List.filter_append, List.filter_filter, hx, hyz hx, hzx] at hpart
    exact h x y z (hpart.trans List.filter_sublist) hzx
  · have hpart := hs.filter (fun x => ¬ p (key x))
    simp [List.filter_append, List.filter_filter, hx, mt hxy hx, hzx] at hpart
    exact h x y z (hpart.trans List.filter_sublist) hzx

variable [DecidableEq β]

theorem grouped_perm (key : α → β) (l : List α) : (grouped key l).Perm l := by
  induction l with
  | nil => exact .refl _
  | cons x l ih =>
    refine List.Perm.cons x (List.Perm.trans ?_ ih)
    have hsplit := List.filter_append_perm (key · = key x) (grouped key l)
    simpa using hsplit

theorem mem_grouped : x ∈ grouped key l ↔ x ∈ l := (grouped_perm key l).mem_iff

theorem filter_grouped (p : β → Bool) :
    (grouped key l).filter (fun x => p (key x)) = grouped key (l.filter fun x => p (key x)) := by
  induction l with
  | nil => rfl
  | cons x l ih =>
    rw [grouped, List.filter_cons, List.filter_cons, List.filter_append, List.filter_filter,
      List.filter_filter]
    cases hp : p (key x) with
    | true =>
      rw [if_pos rfl, if_pos rfl, grouped, ← ih, List.filter_filter, List.filter_filter]
      simp only [Bool.and_comm]
    | false =>
      have hnone : (grouped key l).filter (fun y => p (key y) && decide (key y = key x)) = [] := by
        refine List.filter_eq_nil_iff.mpr fun y _ hy => ?_
        obtain ⟨hpy, hkey⟩ := Bool.and_eq_true_iff.mp hy
        rw [of_decide_eq_true hkey, hp] at hpy
        cases hpy
      have hall : (grouped key l).filter (fun y => p (key y) && decide (key y ≠ key x)) =
          (grouped key l).filter fun y => p (key y) := by
        refine List.filter_congr fun y _ => ?_
        cases hpy : p (key y) with
        | false => rfl
        | true =>
          have hne : key y ≠ key x := fun hkey => by
            rw [hkey, hp] at hpy
            cases hpy
          rw [decide_eq_true hne, Bool.and_true]
      rw [if_neg Bool.false_ne_true, if_neg Bool.false_ne_true, hnone, hall, List.nil_append, ih]

theorem together_grouped (key : α → β) (l : List α) : Together key (grouped key l) := by
  induction l with
  | nil => exact together_nil
  | cons x l ih =>
    refine together_cons.mpr ⟨?_, ih.filter_append (· = key x)⟩
    exact filter_append_filter_not_eq_iff.mp (by simp [List.filter_append, List.filter_filter])

/-- **Grouping leaves a list as it is exactly if the values of one key are together.** -/
theorem grouped_eq_self_iff : grouped key l = l ↔ Together key l := by
  constructor
  · intro h
    rw [← h]
    exact together_grouped key l
  · intro h
    induction l with
    | nil => rfl
    | cons x l ih =>
      obtain ⟨hx, hl⟩ := together_cons.mp h
      rw [grouped, ih hl, filter_append_filter_not_eq_iff.mpr hx]

theorem grouped_of_key {b : β} (h : ∀ x ∈ l, key x = b) : grouped key l = l :=
  grouped_eq_self_iff.mpr fun _ _ _ hs _ =>
    (h _ (hs.subset (by simp))).trans (h _ (hs.subset (by simp))).symm

end Grouped
