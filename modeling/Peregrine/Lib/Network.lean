import Mathlib.Logic.Function.Basic
import Peregrine.Lib.Runs

/-!
# Networks of programs

Processes that share nothing but channels.  An action of a network is something
that one process does: it takes from the front of one channel, goes on in its
own state, and puts at the back of another channel.

`Separate` is what keeps the processes out of each other's way: an action does
not look at what is behind what it takes, and two actions that can be taken at
once have their own channels at both ends.  Then the order does not matter
(`Separate.commutes`), and by `Runs.settles` one schedule that ends says how
every schedule ends.
-/

/-- Processes `ι` in local states `L`, joined by channels `κ` that carry `ω`, and
what they can do. -/
structure Network (ι κ α ω L : Type*) where
  proc : α → ι
  src : α → κ
  dst : α → κ
  /-- With what is waiting: the next state, what is left waiting, and what is sent. -/
  act : α → L → List ω → Option (L × List ω × List ω)

namespace Network

variable {ι κ α ω L : Type*}

/-- Where every process is, and what waits on every channel. -/
@[ext] structure State (ι κ ω L : Type*) where
  loc : ι → L
  chan : κ → List ω

section Put

variable [DecidableEq κ] {c : κ → List ω} {j k : κ} {x y : List ω}

def put (c : κ → List ω) (k : κ) (x : List ω) : κ → List ω := Function.update c k (c k ++ x)

@[simp] theorem put_nil : put c k [] = c := by
  rw [put, List.append_nil, Function.update_eq_self]

theorem put_self : put c k x k = c k ++ x := Function.update_self k _ c

theorem put_of_ne (h : j ≠ k) : put c k x j = c j := Function.update_of_ne h _ c

theorem put_put : put (put c k x) k y = put c k (x ++ y) := by
  rw [put, put_self, put, Function.update_idem, List.append_assoc, put]

theorem put_comm (h : j ≠ k) : put (put c j x) k y = put (put c k y) j x := by
  rw [put, put_of_ne h.symm, put, put, put_of_ne h, put, Function.update_comm h]

theorem update_eq_put (h : c k = []) : Function.update c k x = put c k x := by
  rw [put, h, List.nil_append]

theorem update_put_self : Function.update (put c k x) k y = Function.update c k y :=
  Function.update_idem _ _ _

theorem update_put : Function.update (put c j x) k (y ++ if j = k then x else []) =
    put (Function.update c k y) j x := by
  by_cases h : j = k
  · subst h
    rw [if_pos rfl, update_put_self, put, Function.update_self, Function.update_idem]
  · rw [if_neg h, List.append_nil, put, put, Function.update_of_ne h, Function.update_comm h]

end Put

variable [DecidableEq ι] [DecidableEq κ]

def step (N : Network ι κ α ω L) (s : State ι κ ω L) (a : α) : Option (State ι κ ω L) :=
  (N.act a (s.loc (N.proc a)) (s.chan (N.src a))).map fun r =>
    { loc := Function.update s.loc (N.proc a) r.1
      chan := put (Function.update s.chan (N.src a) r.2.1) (N.dst a) r.2.2 }

/-- **The processes keep out of each other's way.** -/
structure Separate (N : Network ι κ α ω L) : Prop where
  frame : ∀ {a l l' i i' x}, N.act a l i = some (l', i', x) →
    ∀ j, N.act a l (i ++ j) = some (l', i' ++ j, x)
  apart : ∀ {a b l m i j r r'}, a ≠ b → N.act a l i = some r → N.act b m j = some r' →
    (N.proc a = N.proc b → l = m) → N.src a ≠ N.src b ∧ N.dst a ≠ N.dst b ∧
      (N.proc a = N.proc b → r.1 = l ∧ r'.1 = m)

variable {N : Network ι κ α ω L}

theorem step_eq_some {s t : State ι κ ω L} {a : α} : N.step s a = some t ↔
    ∃ r, N.act a (s.loc (N.proc a)) (s.chan (N.src a)) = some r ∧
      { loc := Function.update s.loc (N.proc a) r.1
        chan := put (Function.update s.chan (N.src a) r.2.1) (N.dst a) r.2.2 } = t :=
  Option.map_eq_some_iff

theorem Separate.act_after (h : N.Separate) {s : State ι κ ω L} {a b : α}
    {r r' : L × List ω × List ω}
    (hab : a ≠ b) (ha : N.act a (s.loc (N.proc a)) (s.chan (N.src a)) = some r)
    (hb : N.act b (s.loc (N.proc b)) (s.chan (N.src b)) = some r') :
    N.act b (Function.update s.loc (N.proc a) r.1 (N.proc b))
      (put (Function.update s.chan (N.src a) r.2.1) (N.dst a) r.2.2 (N.src b)) =
        some (r'.1, r'.2.1 ++ if N.dst a = N.src b then r.2.2 else [], r'.2.2) := by
  obtain ⟨hsrc, -, hkeep⟩ := h.apart hab ha hb (fun hp => by rw [hp])
  have hloc : Function.update s.loc (N.proc a) r.1 (N.proc b) = s.loc (N.proc b) := by
    by_cases hp : N.proc a = N.proc b
    · rw [← hp, Function.update_self]
      exact (hkeep hp).1
    · exact Function.update_of_ne (Ne.symm hp) _ _
  have hchan : put (Function.update s.chan (N.src a) r.2.1) (N.dst a) r.2.2 (N.src b) =
      s.chan (N.src b) ++ if N.dst a = N.src b then r.2.2 else [] := by
    by_cases hd : N.dst a = N.src b
    · rw [if_pos hd, hd, put_self, Function.update_of_ne hsrc.symm]
    · rw [if_neg hd, put_of_ne (Ne.symm hd), Function.update_of_ne hsrc.symm, List.append_nil]
  rw [hloc, hchan]
  exact h.frame hb _

/-- **Actions can be taken in either order.** -/
theorem Separate.commutes (h : N.Separate) : Runs.Commutes N.step := by
  intro s a b s₁ s₂ hab h₁ h₂
  obtain ⟨r, ha, rfl⟩ := step_eq_some.mp h₁
  obtain ⟨r', hb, rfl⟩ := step_eq_some.mp h₂
  obtain ⟨hsrc, hdst, hkeep⟩ := h.apart hab ha hb (fun hp => by rw [hp])
  refine ⟨_, step_eq_some.mpr ⟨_, h.act_after hab ha hb, rfl⟩,
    step_eq_some.mpr ⟨_, h.act_after hab.symm hb ha, ?_⟩⟩
  refine State.ext ?_ ?_
  · show Function.update (Function.update s.loc (N.proc b) r'.1) (N.proc a) r.1 =
      Function.update (Function.update s.loc (N.proc a) r.1) (N.proc b) r'.1
    by_cases hp : N.proc a = N.proc b
    · obtain ⟨hr, hr'⟩ := hkeep hp
      rw [hr, hr', ← hp, Function.update_eq_self]
    · exact Function.update_comm (Ne.symm hp) _ _ _
  · show put (Function.update (put (Function.update s.chan (N.src b) r'.2.1) (N.dst b) r'.2.2)
        (N.src a) (r.2.1 ++ if N.dst b = N.src a then r'.2.2 else [])) (N.dst a) r.2.2 =
      put (Function.update (put (Function.update s.chan (N.src a) r.2.1) (N.dst a) r.2.2)
        (N.src b) (r'.2.1 ++ if N.dst a = N.src b then r.2.2 else [])) (N.dst b) r'.2.2
    rw [update_put, update_put, put_comm hdst.symm, Function.update_comm hsrc]

end Network
