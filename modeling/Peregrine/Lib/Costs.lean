import Mathlib.Algebra.BigOperators.Group.List.Basic
import Mathlib.Algebra.GroupWithZero.Nat
import Peregrine.Lib.Prog

/-!
# What a program can spend

Every operation has a price.  `Costs w n p` says that no way through the program
`p` costs more than `n`, whatever the operations answer: it is read off the tree
and holds in every world (`Follows.price_le`).  A sequence costs what its parts
cost together (`Costs.bind`).
-/

namespace Prog

variable {S : Sig} {ε δ α β : Type} {w : S.Op → ℕ} {m n : ℕ}

/-- **No way through the program costs more than `n`.** -/
def Costs (w : S.Op → ℕ) : ℕ → Prog S ε α → Prop
  | _, ret _ => True
  | _, fail _ => True
  | n, call o k => w o ≤ n ∧ ∀ x, Costs w (n - w o) (k x)

theorem Costs.mono {p : Prog S ε α} (hp : Costs w m p) (h : m ≤ n) : Costs w n p := by
  induction p generalizing m n with
  | ret a => trivial
  | fail e => trivial
  | call o k ih => exact ⟨hp.1.trans h, fun x => ih x (hp.2 x) (Nat.sub_le_sub_right h _)⟩

/-- **Sequences** cost what their parts cost. -/
theorem Costs.bind {p : Prog S ε α} {f : α → Prog S ε β} (hp : Costs w m p)
    (hf : ∀ a, Costs w n (f a)) : Costs w (m + n) (p >>= f) := by
  induction p generalizing m with
  | ret a => exact (hf a).mono (Nat.le_add_left n m)
  | fail e => trivial
  | call o k ih =>
    refine ⟨hp.1.trans (Nat.le_add_right m n), fun x => ?_⟩
    rw [Nat.sub_add_comm hp.1]
    exact ih x (hp.2 x)

theorem Costs.perform (o : S.Op) : Costs w (w o) (perform o : Prog S ε (S.Ans o)) :=
  ⟨Nat.le_refl _, fun _ => trivial⟩

theorem Costs.ofExcept (f : δ → ε) (r : Except δ α) :
    Costs w 0 (ofExcept f r : Prog S ε α) := by
  cases r <;> trivial

theorem Costs.ensure_bind {c : Prop} [Decidable c] {e : ε} {f : Unit → Prog S ε β}
    (hf : Costs w n (f ())) : Costs w n (ensure c e >>= f) := by
  unfold Prog.ensure
  split
  · exact hf
  · trivial

theorem Costs.free_bind {p : Prog S ε α} {f : α → Prog S ε β} (hp : Costs w 0 p)
    (hf : ∀ a, Costs w n (f a)) : Costs w n (p >>= f) := by
  have hbind := hp.bind hf
  rwa [Nat.zero_add] at hbind

theorem Costs.attempt {p : Prog S δ α} (hp : Costs w n p) :
    Costs w n (attempt p : Prog S ε (Except δ α)) := by
  induction p generalizing n with
  | ret a => trivial
  | fail d => trivial
  | call o k ih => exact ⟨hp.1, fun x => ih x (hp.2 x)⟩

theorem Costs.calls {p : Prog S ε α} (hp : Costs w m p) (h : m ≤ n) :
    Calls (fun o => w o ≤ n) p := by
  induction p generalizing m with
  | ret a => trivial
  | fail e => trivial
  | call o k ih =>
    exact ⟨hp.1.trans h, fun x => ih x (hp.2 x) ((Nat.sub_le m _).trans h)⟩

theorem Calls.costs {p : Prog S ε α} (hp : Calls (fun o => w o = 0) p) : Costs w 0 p := by
  induction p with
  | ret a => trivial
  | fail e => trivial
  | call o k ih =>
    refine ⟨hp.1.le, fun x => ?_⟩
    rw [hp.1]
    exact ih x (hp.2 x)

/-! ### What has been spent -/

/-- What the operations of a history have cost. -/
def price (w : S.Op → ℕ) (l : History S) : ℕ := (l.map fun e => w e.1).sum

/-- **What has been spent** stays within what the program can spend, and so does
what is left of it. -/
theorem Follows.price_le {p q : Prog S ε α} {l : History S} (h : Follows p l q)
    (hp : Costs w n p) : price w l ≤ n ∧ Costs w (n - price w l) q := by
  induction h with
  | start => exact ⟨Nat.zero_le n, hp⟩
  | @answer l o k h x ih =>
    obtain ⟨hle, hcall, hk⟩ := ih
    have hsum : price w (l ++ [⟨o, x⟩]) = price w l + w o := by
      rw [price, List.map_append, List.sum_append]
      rfl
    rw [hsum, ← Nat.sub_sub]
    exact ⟨by omega, hk x⟩

theorem Follows.cons {o : S.Op} {k : S.Ans o → Prog S ε α} {q : Prog S ε α} {l : History S}
    (x : S.Ans o) (h : Follows (k x) l q) : Follows (call o k) (⟨o, x⟩ :: l) q := by
  induction h with
  | start => exact Follows.start.answer x
  | answer h y ih => exact ih.answer y

/-- **What the bound of a program is**: what every way through it has spent, when
every operation can be answered. -/
theorem costs_iff_price_le {p : Prog S ε α} (hans : ∀ o, Nonempty (S.Ans o)) :
    Costs w n p ↔ ∀ l q, Follows p l q → price w l ≤ n := by
  constructor
  · intro hp l q h
    exact (h.price_le hp).1
  · intro h
    induction p generalizing n with
    | ret a => trivial
    | fail e => trivial
    | call o k ih =>
      have hcall : w o ≤ n := by
        obtain ⟨x⟩ := hans o
        have hone := h _ _ ((Follows.start (p := k x)).cons x)
        simpa [price] using hone
      refine ⟨hcall, fun x => ih x fun l q hl => ?_⟩
      have hall : w o + price w l ≤ n := h _ _ (hl.cons x)
      omega

end Prog
