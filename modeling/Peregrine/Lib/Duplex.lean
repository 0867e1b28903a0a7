import Peregrine.Lib.Runs
import Peregrine.Lib.Wire

/-!
# Two programs at the ends of one connection

Each end runs a program over the stream operations and over operations of its
own.  What one end writes waits, in order, until the other reads it; an exact
read waits until the bytes are there, or fails once the other end has failed
and so dropped the connection.  A step is one operation of one end, and which
end moves next is the scheduler's choice.

An end only ever takes bytes off the front of what waits for it and adds bytes
at the back of what waits for the other (`step_frame`), so the two never
disturb each other: `commutes` says that their steps can be swapped.  With
`Runs.settles` it is then enough to find one schedule that ends, by
`reachable_left` and its companions, to know how every schedule ends.
-/

namespace Duplex

open Prog Runs

variable {T U : Sig} {ε δ α β γ τ υ : Type}

/-- Both programs with what they have left to do, what each has written, what of
it the other has not read, and the two worlds around them. -/
structure State (T U : Sig) (ε δ α β τ υ : Type) where
  left : Prog (streamSig.sum T) ε α
  right : Prog (streamSig.sum U) δ β
  leftWrote : List UInt8
  rightWrote : List UInt8
  leftUnread : List UInt8
  rightUnread : List UInt8
  leftEnv : τ
  rightEnv : υ

/-- The two ends. -/
inductive Side
  | left
  | right
  deriving DecidableEq

def State.leftWire (s : State T U ε δ α β τ υ) : Wire (List UInt8) :=
  ⟨s.leftUnread, s.right.failed, []⟩

def State.rightWire (s : State T U ε δ α β τ υ) : Wire (List UInt8) :=
  ⟨s.rightUnread, s.left.failed, []⟩

def State.setLeft (s : State T U ε δ α β τ υ) (p : Prog (streamSig.sum T) ε α)
    (w : Wire (List UInt8) × τ) : State T U ε δ α β τ υ :=
  { s with
    left := p
    leftUnread := w.1.input
    leftWrote := s.leftWrote ++ w.1.output
    rightUnread := s.rightUnread ++ w.1.output
    leftEnv := w.2 }

def State.setRight (s : State T U ε δ α β τ υ) (p : Prog (streamSig.sum U) δ β)
    (w : Wire (List UInt8) × υ) : State T U ε δ α β τ υ :=
  { s with
    right := p
    rightUnread := w.1.input
    rightWrote := s.rightWrote ++ w.1.output
    leftUnread := s.leftUnread ++ w.1.output
    rightEnv := w.2 }

/-- One operation of one end. -/
def step (hl : Handler T τ) (hr : Handler U υ) (s : State T U ε δ α β τ υ) :
    Side → Option (State T U ε δ α β τ υ)
  | .left => (s.left.step (Wire.flat.sum hl) (s.leftWire, s.leftEnv)).map fun r => s.setLeft r.1 r.2
  | .right =>
    (s.right.step (Wire.flat.sum hr) (s.rightWire, s.rightEnv)).map fun r => s.setRight r.1 r.2

/-! ### What one step of one end touches -/

/-- **A step reads at the front and writes at the back**: it goes the same way
when more input is waiting and other output was written before, and it leaves
both where they are. -/
theorem step_frame {h : Handler T τ} {p p' : Prog (streamSig.sum T) ε α}
    {i o : List UInt8} {t : τ} {w' : Wire (List UInt8) × τ}
    (hs : p.step (Wire.flat.sum h) (⟨i, false, o⟩, t) = some (p', w')) :
    ∃ i' x t', w' = (⟨i', false, o ++ x⟩, t') ∧ ∀ j c o₂,
      p.step (Wire.flat.sum h) (⟨i ++ j, c, o₂⟩, t) = some (p', (⟨i' ++ j, c, o₂ ++ x⟩, t')) := by
  cases p with
  | ret a => cases hs
  | fail e => cases hs
  | call op k =>
    obtain ⟨r, hr, hstep⟩ := Option.map_eq_some_iff.mp hs
    obtain ⟨rfl, rfl⟩ := Prod.mk.inj hstep
    cases op with
    | inr op =>
      obtain ⟨r', ho, rfl⟩ := Option.map_eq_some_iff.mp hr
      refine ⟨i, [], r'.2, by rw [List.append_nil], fun j c o₂ => ?_⟩
      simp only [Prog.step, Handler.sum, ho, Option.map_some, List.append_nil]
    | inl op =>
      obtain ⟨r', ho, rfl⟩ := Option.map_eq_some_iff.mp hr
      obtain ⟨i', x, hw, hf⟩ := Wire.flat_frame ho
      refine ⟨i', x, t, by rw [← hw], fun j c o₂ => ?_⟩
      simp only [Prog.step, Handler.sum, hf, Option.map_some]

theorem failed_of_step {S : Sig} {σ : Type} {h : Handler S σ} {p p' : Prog S ε α} {s s' : σ}
    (hs : p.step h s = some (p', s')) : p.failed = false := by
  cases p with
  | ret a => rfl
  | fail e => cases hs
  | call o k => rfl

variable {hl : Handler T τ} {hr : Handler U υ}

theorem step_left_right {s s₁ s₂ : State T U ε δ α β τ υ} (h₁ : step hl hr s .left = some s₁)
    (h₂ : step hl hr s .right = some s₂) :
    ∃ t, step hl hr s₁ .right = some t ∧ step hl hr s₂ .left = some t := by
  obtain ⟨⟨p, w₁⟩, hp, rfl⟩ := Option.map_eq_some_iff.mp h₁
  obtain ⟨⟨q, w₂⟩, hq, rfl⟩ := Option.map_eq_some_iff.mp h₂
  simp only [State.leftWire, failed_of_step hq] at hp
  simp only [State.rightWire, failed_of_step hp] at hq
  obtain ⟨i₁, x₁, t₁, rfl, hf₁⟩ := step_frame hp
  obtain ⟨i₂, x₂, t₂, rfl, hf₂⟩ := step_frame hq
  refine ⟨(s.setLeft p (⟨i₁, false, x₁⟩, t₁)).setRight q (⟨i₂ ++ x₁, false, x₂⟩, t₂), ?_, ?_⟩
  · refine Option.map_eq_some_iff.mpr ⟨(q, (⟨i₂ ++ x₁, p.failed, x₂⟩, t₂)), hf₂ x₁ p.failed [], rfl⟩
  · refine Option.map_eq_some_iff.mpr ⟨(p, (⟨i₁ ++ x₂, q.failed, x₁⟩, t₁)), hf₁ x₂ q.failed [], rfl⟩

/-- **The steps of the two ends can be swapped.** -/
theorem commutes (hl : Handler T τ) (hr : Handler U υ) :
    Commutes (step hl hr : State T U ε δ α β τ υ → Side → _) := by
  intro s a b s₁ s₂ hab h₁ h₂
  cases a with
  | left =>
    cases b with
    | left => exact absurd rfl hab
    | right => exact step_left_right h₁ h₂
  | right =>
    cases b with
    | left =>
      obtain ⟨t, ht₂, ht₁⟩ := step_left_right h₂ h₁
      exact ⟨t, ht₁, ht₂⟩
    | right => exact absurd rfl hab

/-! ### One end running on its own -/

def State.swap (s : State T U ε δ α β τ υ) : State U T δ ε β α υ τ where
  left := s.right
  right := s.left
  leftWrote := s.rightWrote
  rightWrote := s.leftWrote
  leftUnread := s.rightUnread
  rightUnread := s.leftUnread
  leftEnv := s.rightEnv
  rightEnv := s.leftEnv

def Side.swap : Side → Side
  | .left => .right
  | .right => .left

theorem step_swap (s : State T U ε δ α β τ υ) (a : Side) :
    step hr hl s.swap a.swap = (step hl hr s a).map State.swap := by
  cases a with
  | left =>
    show (s.left.step (Wire.flat.sum hl) (s.leftWire, s.leftEnv)).map _ =
      Option.map _ (Option.map _ _)
    rw [Option.map_map]
    rfl
  | right =>
    show (s.right.step (Wire.flat.sum hr) (s.rightWire, s.rightEnv)).map _ =
      Option.map _ (Option.map _ _)
    rw [Option.map_map]
    rfl

theorem reachable_swap {s t : State T U ε δ α β τ υ} (h : Reachable (step hl hr) s t) :
    Reachable (step hr hl) s.swap t.swap := by
  obtain ⟨as, has⟩ := h
  refine ⟨as.map Side.swap, ?_⟩
  induction as generalizing s with
  | nil =>
    cases has
    rfl
  | cons a as ih =>
    obtain ⟨s', hs', hr'⟩ := run_cons_some has
    rw [List.map_cons, run_cons, step_swap, hs']
    exact ih hr'

/-- Where a program leaves the left end: at what follows it, or at its error. -/
def State.leftAfter (s : State T U ε δ α β τ υ) (f : γ → Prog (streamSig.sum T) ε α) :
    Outcome (Wire (List UInt8) × τ) ε γ → Option (State T U ε δ α β τ υ)
  | .ret a w => some (s.setLeft (f a) w)
  | .fail e w => some (s.setLeft (.fail e) w)
  | .stuck _ => none

/-- **What runs to its end on the bytes that are there runs to its end in the
pair.** -/
theorem reachable_left {s t : State T U ε δ α β τ υ} {p : Prog (streamSig.sum T) ε γ}
    {f : γ → Prog (streamSig.sum T) ε α} (hs : s.left = p >>= f)
    (ht : s.leftAfter f (p.run (Wire.flat.sum hl) (s.leftWire, s.leftEnv)) = some t) :
    Reachable (step hl hr) s t := by
  induction p generalizing s with
  | ret a =>
    have hst : s = t := by
      rw [← Option.some.inj ht]
      simp only [State.setLeft, State.leftWire, List.append_nil]
      rw [← show s.left = f a from hs]
    exact hst ▸ .refl s
  | fail e =>
    have hst : s = t := by
      rw [← Option.some.inj ht]
      simp only [State.setLeft, State.leftWire, List.append_nil]
      rw [← show s.left = .fail e from hs]
    exact hst ▸ .refl s
  | call o k ih =>
    cases hx : Wire.flat.sum hl o (s.leftWire, s.leftEnv) with
    | none =>
      rw [run_call_none hx] at ht
      cases ht
    | some r =>
      obtain ⟨x, w, e⟩ := r
      rw [run_call_some hx] at ht
      have hstep : step hl hr s .left = some (s.setLeft (k x >>= f) (w, e)) := by
        show (s.left.step _ _).map _ = _
        rw [hs, call_bind, Prog.step, hx]
        rfl
      refine (Reachable.of_step hstep).trans (ih x rfl ?_)
      have hclosed : w.closed = s.right.failed := by
        cases o with
        | inl o =>
          obtain ⟨r, hr, hw⟩ := Option.map_eq_some_iff.mp hx
          cases hw
          exact Wire.flat_closed hr
        | inr o =>
          obtain ⟨r, hr, hw⟩ := Option.map_eq_some_iff.mp hx
          cases hw
          rfl
      have hm := run_map ((Wire.respects_output w.output).sum hl) (k x)
        (⟨w.input, w.closed, []⟩, e)
      simp only [List.append_nil] at hm
      rw [hm] at ht
      have hw : (s.setLeft (k x >>= f) (w, e)).leftWire = ⟨w.input, w.closed, []⟩ := by
        rw [hclosed]
        rfl
      rw [hw]
      cases hrun : run (Wire.flat.sum hl) (k x) (⟨w.input, w.closed, []⟩, e) with
      | ret a u =>
        rw [show (s.setLeft (k x >>= f) (w, e)).leftEnv = e from rfl, hrun]
        rw [hrun] at ht
        rw [← ht]
        simp only [State.leftAfter, Outcome.map, State.setLeft, List.append_assoc]
      | fail d u =>
        rw [show (s.setLeft (k x >>= f) (w, e)).leftEnv = e from rfl, hrun]
        rw [hrun] at ht
        rw [← ht]
        simp only [State.leftAfter, Outcome.map, State.setLeft, List.append_assoc]
      | stuck u =>
        rw [hrun] at ht
        cases ht

theorem reachable_left_ret {s : State T U ε δ α β τ υ} {p : Prog (streamSig.sum T) ε γ}
    {f : γ → Prog (streamSig.sum T) ε α} {a : γ} {w : Wire (List UInt8) × τ}
    (hs : s.left = p >>= f)
    (hrun : p.run (Wire.flat.sum hl) (s.leftWire, s.leftEnv) = .ret a w) :
    Reachable (step hl hr) s (s.setLeft (f a) w) :=
  reachable_left hs (by rw [hrun]; rfl)

theorem reachable_left_fail {s : State T U ε δ α β τ υ} {p : Prog (streamSig.sum T) ε γ}
    {f : γ → Prog (streamSig.sum T) ε α} {e : ε} {w : Wire (List UInt8) × τ}
    (hs : s.left = p >>= f)
    (hrun : p.run (Wire.flat.sum hl) (s.leftWire, s.leftEnv) = .fail e w) :
    Reachable (step hl hr) s (s.setLeft (.fail e) w) :=
  reachable_left hs (by rw [hrun]; rfl)

theorem reachable_right_ret {s : State T U ε δ α β τ υ} {p : Prog (streamSig.sum U) δ γ}
    {f : γ → Prog (streamSig.sum U) δ β} {a : γ} {w : Wire (List UInt8) × υ}
    (hs : s.right = p >>= f)
    (hrun : p.run (Wire.flat.sum hr) (s.rightWire, s.rightEnv) = .ret a w) :
    Reachable (step hl hr) s (s.setRight (f a) w) :=
  reachable_swap (@reachable_left_ret _ _ _ _ _ _ _ _ _ _ _ s.swap _ _ _ _ hs hrun)

theorem reachable_right_fail {s : State T U ε δ α β τ υ} {p : Prog (streamSig.sum U) δ γ}
    {f : γ → Prog (streamSig.sum U) δ β} {e : δ} {w : Wire (List UInt8) × υ}
    (hs : s.right = p >>= f)
    (hrun : p.run (Wire.flat.sum hr) (s.rightWire, s.rightEnv) = .fail e w) :
    Reachable (step hl hr) s (s.setRight (.fail e) w) :=
  reachable_swap (@reachable_left_fail _ _ _ _ _ _ _ _ _ _ _ s.swap _ _ _ _ hs hrun)

end Duplex
