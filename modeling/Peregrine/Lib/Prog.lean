import Mathlib.Control.Basic
import Mathlib.Logic.Function.Basic
import Peregrine.Lib.Runs

/-!
# Programs over a set of operations

A program performs operations on the outside world and continues with the
answers: `Prog S ε α` is a tree whose inner nodes are operations of the
signature `S`, whose branches are the possible answers, and whose leaves are
results `α` or errors `ε`.  It is a monad, `fail` leaves it early, and what the
operations mean is not said here.

The meaning comes from a `Handler`, which answers an operation in a state of
the world or leaves it unanswered (the program then waits for ever).  `run`
puts the two together; `run_bind` says a sequence runs its parts one after the
other, `run_attempt` what catching an error does, and `run_map` that a map
between two worlds which respects the answers respects whole runs.

What a program can end in (`Ends`) and what it can ask for (`Calls`) is read off
the tree and holds in every world; `eval` is how it ends when each operation has one
answer.  `Follows` is for a program in the middle of its run: what is left of it, and
the answers that have led there.
-/

/-- A set of operations, each with the type of its answers. -/
structure Sig where
  Op : Type
  Ans : Op → Type

/-- The operations of two signatures together. -/
abbrev Sig.sum (S T : Sig) : Sig where
  Op := S.Op ⊕ T.Op
  Ans
    | .inl o => S.Ans o
    | .inr o => T.Ans o

/-- Programs that perform operations of `S`, fail with `ε` or return `α`. -/
inductive Prog (S : Sig) (ε α : Type) : Type
  | ret (a : α)
  | fail (e : ε)
  | call (o : S.Op) (k : S.Ans o → Prog S ε α)

namespace Prog

variable {S : Sig} {ε α β γ σ τ : Type}

def bind : Prog S ε α → (α → Prog S ε β) → Prog S ε β
  | ret a, f => f a
  | fail e, _ => fail e
  | call o k, f => call o fun x => bind (k x) f

instance : Monad (Prog S ε) where
  pure := ret
  bind := bind

def perform (o : S.Op) : Prog S ε (S.Ans o) := call o ret

/-- Return what an operation answered, or leave with its error. -/
def ofExcept {δ : Type} (f : δ → ε) : Except δ α → Prog S ε α
  | .ok a => ret a
  | .error d => fail (f d)

/-- Run to the end and return how it ended, error or not. -/
def attempt {δ : Type} : Prog S δ α → Prog S ε (Except δ α)
  | ret a => ret (.ok a)
  | fail d => ret (.error d)
  | call o k => call o fun x => attempt (k x)

/-- Put a program in the place of each operation. -/
def interp {T : Sig} (f : (o : S.Op) → Prog T ε (S.Ans o)) : Prog S ε α → Prog T ε α
  | ret a => ret a
  | fail e => fail e
  | call o k => bind (f o) fun x => interp f (k x)

/-- Leave with `e` unless `c` holds. -/
def ensure (c : Prop) [Decidable c] (e : ε) : Prog S ε Unit := if c then ret () else fail e

@[simp] theorem pure_eq (a : α) : (pure a : Prog S ε α) = ret a := rfl
@[simp] theorem ret_bind (a : α) (f : α → Prog S ε β) : ret a >>= f = f a := rfl
@[simp] theorem fail_bind (e : ε) (f : α → Prog S ε β) : fail e >>= f = fail e := rfl
@[simp] theorem call_bind (o : S.Op) (k : S.Ans o → Prog S ε α) (f : α → Prog S ε β) :
    call o k >>= f = call o fun x => k x >>= f := rfl
@[simp] theorem ofExcept_ok {δ : Type} (f : δ → ε) (a : α) :
    (ofExcept f (.ok a) : Prog S ε α) = ret a := rfl

theorem bind_ret (p : Prog S ε α) : p >>= ret = p := by
  induction p with
  | ret a => rfl
  | fail e => rfl
  | call o k ih =>
    rw [call_bind]
    exact congrArg (call o) (funext ih)

theorem bind_assoc (p : Prog S ε α) (f : α → Prog S ε β) (g : β → Prog S ε γ) :
    p >>= f >>= g = p >>= fun a => f a >>= g := by
  induction p with
  | ret a => rfl
  | fail e => rfl
  | call o k ih =>
    rw [call_bind, call_bind, call_bind]
    exact congrArg (call o) (funext ih)

instance : LawfulMonad (Prog S ε) :=
  LawfulMonad.mk' (Prog S ε) bind_ret ret_bind bind_assoc

theorem attempt_bind_ofExcept (p : Prog S ε α) (f : α → Prog S ε β) :
    ((attempt p : Prog S ε (Except ε α)) >>= fun r => ofExcept id r >>= f) = p >>= f := by
  induction p with
  | ret a => rfl
  | fail e => rfl
  | call o k ih =>
    rw [attempt, call_bind, call_bind]
    exact congrArg (call o) (funext ih)

theorem interp_bind {T : Sig} (g : (o : S.Op) → Prog T ε (S.Ans o)) (p : Prog S ε α)
    (f : α → Prog S ε β) : interp g (p >>= f) = interp g p >>= fun a => interp g (f a) := by
  induction p with
  | ret a => rfl
  | fail e => rfl
  | call o k ih =>
    have hrest : (fun x => interp g (k x >>= f)) = fun x => interp g (k x) >>= fun a =>
        interp g (f a) := funext ih
    show bind (g o) (fun x => interp g (k x >>= f)) = _
    rw [hrest]
    exact (bind_assoc (g o) (fun x => interp g (k x)) fun a => interp g (f a)).symm

/-! ### How a program can end

`Ends` looks at the tree alone, so what it says holds in every world. -/

/-- Every result of `p` is a `Q` and every error an `E`, whatever the answers. -/
def Ends (Q : α → Prop) (E : ε → Prop) : Prog S ε α → Prop
  | ret a => Q a
  | fail e => E e
  | call _ k => ∀ x, Ends Q E (k x)

variable {Q : α → Prop} {R : β → Prop} {E : ε → Prop}

/-- **Sequences**: what follows may assume what the first part ends in. -/
theorem Ends.bind {p : Prog S ε α} {f : α → Prog S ε β} (hp : Ends Q E p)
    (hf : ∀ a, Q a → Ends R E (f a)) : Ends R E (p >>= f) := by
  induction p with
  | ret a => exact hf a hp
  | fail e => exact hp
  | call o k ih => exact fun x => ih x (hp x)

theorem Ends.mono {Q' : α → Prop} {p : Prog S ε α} (hp : Ends Q E p) (hq : ∀ a, Q a → Q' a) :
    Ends Q' E p := by
  induction p with
  | ret a => exact hq a hp
  | fail e => exact hp
  | call o k ih => exact fun x => ih x (hp x)

theorem Ends.mono_error {E' : ε → Prop} {p : Prog S ε α} (hp : Ends Q E p)
    (he : ∀ e, E e → E' e) : Ends Q E' p := by
  induction p with
  | ret a => exact hp
  | fail e => exact he e hp
  | call o k ih => exact fun x => ih x (hp x)

theorem Ends.any (p : Prog S ε α) : Ends (fun _ => True) (fun _ => True) p := by
  induction p with
  | ret a => trivial
  | fail e => trivial
  | call o k ih => exact ih

theorem Ends.perform (o : S.Op) : Ends (fun _ => True) E (perform o : Prog S ε (S.Ans o)) :=
  fun _ => trivial

theorem Ends.ensure {c : Prop} [Decidable c] {e : ε} (he : E e) :
    Ends (fun _ => c) E (ensure c e : Prog S ε Unit) := by
  unfold Prog.ensure
  split
  · assumption
  · exact he

theorem Ends.ofExcept {δ : Type} {f : δ → ε} (r : Except δ α) (he : ∀ d, E (f d)) :
    Ends (fun _ => True) E (ofExcept f r : Prog S ε α) := by
  cases r with
  | ok a => exact trivial
  | error d => exact he d

/-! ### What a program can ask for -/

/-- Every operation that `p` may perform is a `P`. -/
def Calls (P : S.Op → Prop) : Prog S ε α → Prop
  | ret _ => True
  | fail _ => True
  | call o k => P o ∧ ∀ x, Calls P (k x)

variable {P : S.Op → Prop}

theorem Calls.bind {p : Prog S ε α} {f : α → Prog S ε β} (hp : Calls P p)
    (hf : ∀ a, Calls P (f a)) : Calls P (p >>= f) := by
  induction p with
  | ret a => exact hf a
  | fail e => trivial
  | call o k ih => exact ⟨hp.1, fun x => ih x (hp.2 x)⟩

theorem Calls.perform {o : S.Op} (h : P o) : Calls P (perform o : Prog S ε (S.Ans o)) :=
  ⟨h, fun _ => trivial⟩

theorem Calls.ofExcept {δ : Type} (f : δ → ε) (r : Except δ α) :
    Calls P (ofExcept f r : Prog S ε α) := by
  cases r <;> trivial

theorem Calls.ensure (c : Prop) [Decidable c] (e : ε) : Calls P (ensure c e : Prog S ε Unit) := by
  unfold Prog.ensure
  split
  · trivial
  · trivial

theorem Calls.attempt {δ : Type} {p : Prog S δ α} (hp : Calls P p) :
    Calls P (attempt p : Prog S ε (Except δ α)) := by
  induction p with
  | ret a => trivial
  | fail d => trivial
  | call o k ih => exact ⟨hp.1, fun x => ih x (hp.2 x)⟩

theorem Calls.mono {P' : S.Op → Prop} {p : Prog S ε α} (hp : Calls P p)
    (h : ∀ o, P o → P' o) : Calls P' p := by
  induction p with
  | ret a => trivial
  | fail e => trivial
  | call o k ih => exact ⟨h o hp.1, fun x => ih x (hp.2 x)⟩

/-! ### Handlers -/

/-- How a world in state `σ` answers the operations of `S`; `none` is an
operation that is never answered. -/
abbrev Handler (S : Sig) (σ : Type) := (o : S.Op) → σ → Option (S.Ans o × σ)

/-- How a run ends: with a result, with an error, or waiting for ever. -/
inductive Outcome (σ ε α : Type) : Type
  | ret (a : α) (s : σ)
  | fail (e : ε) (s : σ)
  | stuck (s : σ)
  deriving DecidableEq

/-- Continue with `f` where a result was returned. -/
def Outcome.andThen : Outcome σ ε α → (α → σ → Outcome σ ε β) → Outcome σ ε β
  | .ret a s, f => f a s
  | .fail e s, _ => .fail e s
  | .stuck s, _ => .stuck s

def Outcome.map (f : σ → τ) : Outcome σ ε α → Outcome τ ε α
  | .ret a s => .ret a (f s)
  | .fail e s => .fail e (f s)
  | .stuck s => .stuck (f s)

def run (h : Handler S σ) : Prog S ε α → σ → Outcome σ ε α
  | ret a, s => .ret a s
  | fail e, s => .fail e s
  | call o k, s => match h o s with
    | some (x, s') => run h (k x) s'
    | none => .stuck s

variable {h : Handler S σ}

@[simp] theorem run_ret (a : α) (s : σ) : run h (ret a : Prog S ε α) s = .ret a s := rfl
@[simp] theorem run_fail (e : ε) (s : σ) : run h (fail e : Prog S ε α) s = .fail e s := rfl

theorem run_call_some {o : S.Op} {k : S.Ans o → Prog S ε α} {s s' : σ} {x : S.Ans o}
    (hx : h o s = some (x, s')) : run h (call o k) s = run h (k x) s' := by
  rw [run, hx]

theorem run_call_none {o : S.Op} {k : S.Ans o → Prog S ε α} {s : σ} (hx : h o s = none) :
    run h (call o k) s = .stuck s := by
  rw [run, hx]

/-- One step of a program in a world: one operation, if it is answered. -/
def step (h : Handler S σ) : Prog S ε α → σ → Option (Prog S ε α × σ)
  | call o k, s => (h o s).map fun r => (k r.1, r.2)
  | ret _, _ => none
  | fail _, _ => none

def failed : Prog S ε α → Bool
  | fail _ => true
  | _ => false

/-- **A sequence runs its parts one after the other.** -/
theorem run_bind (p : Prog S ε α) (f : α → Prog S ε β) (s : σ) :
    run h (p >>= f) s = (run h p s).andThen fun a s' => run h (f a) s' := by
  induction p generalizing s with
  | ret a => rfl
  | fail e => rfl
  | call o k ih =>
    rw [call_bind]
    cases hx : h o s with
    | none => rw [run_call_none hx, run_call_none hx]; rfl
    | some r => rw [run_call_some hx, run_call_some hx]; exact ih r.1 r.2

/-- **A sequence returns when its first part returns and the rest, run from
there, returns.** -/
theorem run_bind_eq_ret {p : Prog S ε α} {f : α → Prog S ε β} {s t : σ} {b : β} :
    run h (p >>= f) s = .ret b t ↔
      ∃ a u, run h p s = .ret a u ∧ run h (f a) u = .ret b t := by
  rw [run_bind]
  cases run h p s with
  | ret a u =>
    constructor
    · intro hr
      exact ⟨a, u, rfl, hr⟩
    · rintro ⟨a', u', he, hr⟩
      obtain ⟨rfl, rfl⟩ := Outcome.ret.inj he
      exact hr
  | fail e u => simp [Outcome.andThen]
  | stuck u => simp [Outcome.andThen]

/-- **A check** is passed, or the run does not return. -/
theorem run_ensure_eq_ret {c : Prop} [Decidable c] {e : ε} {f : Unit → Prog S ε β} {s t : σ}
    {b : β} : run h (ensure c e >>= f) s = .ret b t ↔ c ∧ run h (f ()) s = .ret b t := by
  unfold ensure
  by_cases hc : c
  · rw [if_pos hc, ret_bind]
    exact (and_iff_right hc).symm
  · rw [if_neg hc, fail_bind, run_fail]
    simp only [reduceCtorEq, hc, false_and]

theorem run_ensure_last {c : Prop} [Decidable c] {e : ε} {s t : σ} {u : Unit} :
    run h (ensure c e : Prog S ε Unit) s = .ret u t ↔ c ∧ s = t := by
  rw [← bind_ret (ensure c e), run_ensure_eq_ret, run_ret]
  simp only [Outcome.ret.injEq, true_and]

/-- **Catching an error** returns it instead. -/
theorem run_attempt {δ : Type} (p : Prog S δ α) (s : σ) :
    run h (attempt p : Prog S ε (Except δ α)) s = match run h p s with
      | .ret a s' => .ret (.ok a) s'
      | .fail d s' => .ret (.error d) s'
      | .stuck s' => .stuck s' := by
  induction p generalizing s with
  | ret a => rfl
  | fail d => rfl
  | call o k ih =>
    rw [attempt]
    cases hx : h o s with
    | none => rw [run_call_none hx, run_call_none hx]
    | some r => rw [run_call_some hx, run_call_some hx]; exact ih r.1 r.2

/-- **A run ends in one of the ways the program can end.** -/
theorem Ends.of_run {Q : α → Prop} {E : ε → Prop} {p : Prog S ε α} (hp : Ends Q E p) (s : σ) :
    (∀ a s', run h p s = .ret a s' → Q a) ∧ ∀ e s', run h p s = .fail e s' → E e := by
  induction p generalizing s with
  | ret a =>
    refine ⟨fun b s' hr => ?_, fun e s' hr => (by cases hr)⟩
    cases hr
    exact hp
  | fail e =>
    refine ⟨fun b s' hr => (by cases hr), fun d s' hr => ?_⟩
    cases hr
    exact hp
  | call o k ih =>
    cases hx : h o s with
    | none =>
      rw [run_call_none hx]
      exact ⟨fun b s' hr => (by cases hr), fun e s' hr => (by cases hr)⟩
    | some r =>
      rw [run_call_some hx]
      exact ih r.1 (hp r.1) r.2

def Outcome.world : Outcome σ ε α → σ
  | .ret _ s => s
  | .fail _ s => s
  | .stuck s => s

/-- **What every answer keeps, a run keeps**, where it is kept in sequence. -/
theorem run_keeps {R : σ → σ → Prop} (hrefl : ∀ s, R s s)
    (htrans : ∀ s t u, R s t → R t u → R s u)
    (hstep : ∀ o s x s', h o s = some (x, s') → R s s') (p : Prog S ε α) (s : σ) :
    R s (run h p s).world := by
  induction p generalizing s with
  | ret a => exact hrefl s
  | fail e => exact hrefl s
  | call o k ih =>
    cases hx : h o s with
    | none =>
      rw [run_call_none hx]
      exact hrefl s
    | some r =>
      rw [run_call_some hx]
      exact htrans s r.2 _ (hstep o s r.1 r.2 hx) (ih r.1 r.2)

/-- **An invariant of the operations a program performs** is one of its runs. -/
theorem Calls.keeps {P : S.Op → Prop} {I : σ → Prop} {p : Prog S ε α} (hp : Calls P p)
    (hstep : ∀ o s x s', P o → h o s = some (x, s') → I s → I s') {s : σ} (hs : I s) :
    I (run h p s).world := by
  induction p generalizing s with
  | ret a => exact hs
  | fail e => exact hs
  | call o k ih =>
    cases hx : h o s with
    | none =>
      rw [run_call_none hx]
      exact hs
    | some r =>
      rw [run_call_some hx]
      exact ih r.1 (hp.2 r.1) (hstep o s r.1 r.2 hp.1 hx hs)

def answer (p : Prog S ε α) (f : (o : S.Op) → S.Ans o) : Option (Prog S ε α) :=
  match p with
  | call o k => some (k (f o))
  | _ => none

/-- **A run is a sequence of answers**: what returns in some world returns when
it is given the right answers one by one. -/
theorem reachable_of_run (f₀ : (o : S.Op) → S.Ans o) {p : Prog S ε α} {s t : σ} {a : α}
    (hr : run h p s = .ret a t) : Runs.Reachable answer p (ret a) := by
  induction p generalizing s with
  | ret b =>
    cases hr
    exact .refl _
  | fail e => cases hr
  | call o k ih =>
    cases hx : h o s with
    | none =>
      rw [run_call_none hx] at hr
      cases hr
    | some r =>
      rw [run_call_some hx] at hr
      classical
      have hstep : answer (call o k : Prog S ε α) (Function.update f₀ o r.1) = some (k r.1) := by
        rw [answer, Function.update_self]
      exact (Runs.Reachable.of_step hstep).trans (ih r.1 hr)

/-- How a program ends when every answer is that of `f`. -/
def eval (f : (o : S.Op) → S.Ans o) : Prog S ε α → Except ε α
  | ret a => .ok a
  | fail e => .error e
  | call o k => eval f (k (f o))

section Eval

variable {f : (o : S.Op) → S.Ans o}

theorem eval_ensure_bind {c : Prop} [Decidable c] {e : ε} {g : Unit → Prog S ε β} {b : β} :
    eval f (ensure c e >>= g) = .ok b ↔ c ∧ eval f (g ()) = .ok b := by
  unfold ensure
  by_cases hc : c
  · rw [if_pos hc, ret_bind]
    exact (and_iff_right hc).symm
  · rw [if_neg hc, fail_bind]
    exact iff_of_false nofun fun h => hc h.1

theorem eval_ofExcept_bind {δ : Type} {d : δ → ε} {r : Except δ α} {g : α → Prog S ε β} {b : β} :
    eval f (ofExcept d r >>= g) = .ok b ↔ ∃ a, r = .ok a ∧ eval f (g a) = .ok b := by
  cases r with
  | ok a =>
    rw [ofExcept_ok, ret_bind]
    constructor
    · intro h
      exact ⟨a, rfl, h⟩
    · rintro ⟨a', ha, h⟩
      obtain rfl := Except.ok.inj ha
      exact h
  | error e =>
    show Except.error _ = _ ↔ _
    exact iff_of_false nofun fun h => nomatch h.choose_spec.1

/-- **An operation that may fail**, and what is done with what it gives. -/
theorem eval_perform_ofExcept_bind {δ : Type} {o : S.Op} {r : S.Ans o → Except δ α} {d : δ → ε}
    {g : α → Prog S ε β} {b : β} :
    eval f (perform o >>= fun x => ofExcept d (r x) >>= g) = .ok b ↔
      ∃ a, r (f o) = .ok a ∧ eval f (g a) = .ok b := eval_ofExcept_bind

theorem Ends.of_eval {Q : α → Prop} {E : ε → Prop} {p : Prog S ε α} (hp : Ends Q E p) {a : α}
    (h : eval f p = .ok a) : Q a := by
  induction p with
  | ret b =>
    cases h
    exact hp
  | fail e => cases h
  | call o k ih => exact ih (f o) (hp (f o)) h

end Eval

/-- **Running the programs in the place of the operations** is running the
operations in a world that answers as the programs do. -/
theorem run_interp {T : Sig} {f : (o : S.Op) → Prog T ε (S.Ans o)} {g : Handler T τ} {π : σ → τ}
    (hf : ∀ o s, ∃ x s', h o s = some (x, s') ∧ run g (f o) (π s) = .ret x (π s'))
    (p : Prog S ε α) (s : σ) : run g (interp f p) (π s) = (run h p s).map π := by
  induction p generalizing s with
  | ret a => rfl
  | fail e => rfl
  | call o k ih =>
    obtain ⟨x, s', hx, hr⟩ := hf o s
    show run g (f o >>= fun x => interp f (k x)) (π s) = _
    rw [run_bind, hr, run_call_some hx]
    exact ih x s'

/-- `f` carries the answers of `h` to the answers of `h'`. -/
def Respects (h : Handler S σ) (h' : Handler S τ) (f : σ → τ) : Prop :=
  ∀ o s, h' o (f s) = (h o s).map fun r => (r.1, f r.2)

/-- **A map that respects answers respects runs.** -/
theorem run_map {h' : Handler S τ} {f : σ → τ} (hf : Respects h h' f) (p : Prog S ε α) (s : σ) :
    run h' p (f s) = (run h p s).map f := by
  induction p generalizing s with
  | ret a => rfl
  | fail e => rfl
  | call o k ih =>
    have ho := hf o s
    cases hx : h o s with
    | none =>
      rw [hx, Option.map_none] at ho
      rw [run_call_none hx, run_call_none ho]
      rfl
    | some r =>
      rw [hx, Option.map_some] at ho
      rw [run_call_some hx, run_call_some ho]
      exact ih r.1 r.2

def Handler.sum {T : Sig} (h : Handler S σ) (h' : Handler T τ) : Handler (S.sum T) (σ × τ)
  | .inl o, s => (h o s.1).map fun r => (r.1, r.2, s.2)
  | .inr o, s => (h' o s.2).map fun r => (r.1, s.1, r.2)

def silent (T : Sig) : Handler T Unit := fun _ _ => none

/-- Looking at the first of two worlds through a map that respects its answers
respects the answers of both. -/
theorem Respects.sum {T : Sig} {ρ : Type} {h : Handler S σ} {h' : Handler S ρ} {f : σ → ρ}
    (hf : Respects h h' f) (g : Handler T τ) :
    Respects (h.sum g) (h'.sum g) fun s => (f s.1, s.2) := by
  intro o s
  cases o with
  | inl o =>
    show (h' o (f s.1)).map _ = ((h o s.1).map _).map _
    rw [hf o s.1, Option.map_map, Option.map_map]
    rfl
  | inr o =>
    show (g o s.2).map _ = ((g o s.2).map _).map _
    rw [Option.map_map]
    rfl

/-! ### Worlds that may answer anything -/

abbrev History (S : Sig) := List ((o : S.Op) × S.Ans o)

/-- A world whose every answer may depend on the whole history. -/
abbrev Oracle (S : Sig) := History S → (o : S.Op) → S.Ans o

/-- The handler of an oracle: it always answers, and keeps the history. -/
def Oracle.handler (ω : Oracle S) : Handler S (History S) :=
  fun o l => some (ω l o, l ++ [⟨o, ω l o⟩])

/-- `q` is what is left of `p` when its operations have been answered as in the history. -/
inductive Follows (p : Prog S ε α) : History S → Prog S ε α → Prop
  | start : Follows p [] p
  | answer {l : History S} {o : S.Op} {k : S.Ans o → Prog S ε α} (h : Follows p l (call o k))
    (x : S.Ans o) : Follows p (l ++ [⟨o, x⟩]) (k x)

theorem Follows.calls {P : S.Op → Prop} {p q : Prog S ε α} {l : History S} (h : Follows p l q)
    (hp : Calls P p) : Calls P q := by
  induction h with
  | start => exact hp
  | answer h x ih => exact ih.2 x

theorem Follows.mem_calls {P : S.Op → Prop} {p q : Prog S ε α} {l : History S}
    (h : Follows p l q) (hp : Calls P p) : ∀ e ∈ l, P e.1 := by
  induction h with
  | start => exact List.forall_mem_nil _
  | answer h x ih =>
    refine List.forall_mem_append.mpr ⟨ih, List.forall_mem_singleton.mpr ?_⟩
    exact (h.calls hp).1

/-- **The first operation has not been answered yet, or it has.** -/
theorem Follows.cases_call {o : S.Op} {k : S.Ans o → Prog S ε α} {q : Prog S ε α} {l : History S}
    (h : Follows (call o k) l q) :
    (l = [] ∧ q = call o k) ∨ ∃ x l', l = ⟨o, x⟩ :: l' ∧ Follows (k x) l' q := by
  induction h with
  | start => exact Or.inl ⟨rfl, rfl⟩
  | answer h y ih =>
    rcases ih with ⟨rfl, heq⟩ | ⟨x, l', rfl, hl'⟩
    · cases heq
      exact Or.inr ⟨y, [], rfl, .start⟩
    · exact Or.inr ⟨x, l' ++ [⟨_, y⟩], rfl, hl'.answer y⟩

/-- What has happened after a run had happened before, or is an operation of the program. -/
theorem Calls.mem_history {P : S.Op → Prop} {p : Prog S ε α} (hp : Calls P p) (ω : Oracle S)
    (l : History S) : ∀ e ∈ (run ω.handler p l).world, e ∈ l ∨ P e.1 := by
  refine @Calls.keeps _ _ _ _ ω.handler P (fun l' => ∀ e ∈ l', e ∈ l ∨ P e.1) p hp ?_ l
    fun e he => Or.inl he
  intro o s x s' ho hx hs e he
  cases hx
  rcases List.mem_append.mp he with he | he
  · exact hs e he
  · obtain rfl := List.mem_singleton.mp he
    exact Or.inr ho

end Prog
