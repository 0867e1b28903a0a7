import Mathlib.Data.List.Infix

/-!
# Runs of a step function

A system is a partial function `step : σ → α → Option σ`: in a state an action
is either not enabled (`none`) or leads to one next state.  All nondeterminism
sits in the choice of the action, so a run is a list of actions and everything
a scheduler can do is a list.

`run step s as` is where the actions `as` lead from `s`.  `Along step P s as`
says that every step of that run, taken in state `t` with action `a`, meets
`P t a`; it is how a result about *some* runs names them.

`run_invariant` is the rule for every run, `run_invariant_along` the rule for
the runs whose steps meet a condition, and `along_iff_prefix` the exact form:
when a violating step breaks the property at once, the runs whose steps meet
the condition are the runs that keep the property in every state they reach.
`ghost` keeps something beside the state that no step looks at, and `logged` a
log of what the steps show.

Where any two enabled actions can be taken in either order with one outcome,
the schedule does not matter at all: `settles` says that when one run ends in a
state where nothing is enabled, every run is the start of one that ends there.
-/

namespace Runs

variable {σ α : Type*}

/-- The state a list of actions leads to, if each of them is enabled in turn. -/
def run (step : σ → α → Option σ) : σ → List α → Option σ
  | s, [] => some s
  | s, a :: as => (step s a).bind fun s' => run step s' as

def Along (step : σ → α → Option σ) (P : σ → α → Prop) : σ → List α → Prop
  | _, [] => True
  | s, a :: as => P s a ∧ ∀ s', step s a = some s' → Along step P s' as

variable {step : σ → α → Option σ} {P : σ → α → Prop} {Inv Good : σ → Prop}

@[simp] theorem run_nil (s : σ) : run step s [] = some s := rfl

@[simp] theorem run_cons (s : σ) (a : α) (as : List α) :
    run step s (a :: as) = (step s a).bind fun s' => run step s' as := rfl

@[simp] theorem along_nil (s : σ) : Along step P s [] := trivial

@[simp] theorem along_cons (s : σ) (a : α) (as : List α) :
    Along step P s (a :: as) ↔ P s a ∧ ∀ s', step s a = some s' → Along step P s' as := Iff.rfl

theorem run_cons_some {s t : σ} {a : α} {as : List α} (h : run step s (a :: as) = some t) :
    ∃ s', step s a = some s' ∧ run step s' as = some t := Option.bind_eq_some_iff.mp h

theorem run_append (s : σ) (as bs : List α) :
    run step s (as ++ bs) = (run step s as).bind fun s' => run step s' bs := by
  induction as generalizing s with
  | nil => rfl
  | cons a as ih =>
    rw [List.cons_append, run_cons, run_cons, Option.bind_assoc]
    exact Option.bind_congr fun s' _ => ih s'

theorem along_append (s : σ) (as bs : List α) :
    Along step P s (as ++ bs) ↔
      Along step P s as ∧ ∀ t, run step s as = some t → Along step P t bs := by
  induction as generalizing s with
  | nil => simp
  | cons a as ih =>
    simp only [List.cons_append, along_cons, ih, run_cons]
    constructor
    · rintro ⟨h, hr⟩
      refine ⟨⟨h, fun s' hs => (hr s' hs).1⟩, fun t ht => ?_⟩
      obtain ⟨s', hs, hr'⟩ := Option.bind_eq_some_iff.mp ht
      exact (hr s' hs).2 t hr'
    · rintro ⟨⟨h, hr⟩, hb⟩
      exact ⟨h, fun s' hs => ⟨hr s' hs, fun t ht => hb t (by rw [hs]; exact ht)⟩⟩

theorem Along.of_prefix {s : σ} {as bs : List α} (h : Along step P s as) (hp : bs <+: as) :
    Along step P s bs := by
  obtain ⟨cs, rfl⟩ := hp
  exact ((along_append s bs cs).mp h).1

theorem Along.and {Q : σ → α → Prop} {s : σ} {as : List α} (hP : Along step P s as)
    (hQ : Along step Q s as) : Along step (fun s a => P s a ∧ Q s a) s as := by
  induction as generalizing s with
  | nil => trivial
  | cons a as ih => exact ⟨⟨hP.1, hQ.1⟩, fun s' hs => ih (hP.2 s' hs) (hQ.2 s' hs)⟩

theorem along_of_mem {as : List α} (h : ∀ a ∈ as, ∀ s, P s a) (s : σ) : Along step P s as := by
  induction as generalizing s with
  | nil => trivial
  | cons a as ih =>
    refine ⟨h a List.mem_cons_self s, fun s' _ => ih (fun b hb => ?_) s'⟩
    exact h b (List.mem_cons_of_mem a hb)

theorem along_of_forall (h : ∀ s a, P s a) (s : σ) (as : List α) : Along step P s as :=
  along_of_mem (fun a _ s => h s a) s

/-- **An invariant of the steps that meet a condition** holds at the end of
every run made of such steps. -/
theorem run_invariant_along (hs : ∀ s a s', Inv s → P s a → step s a = some s' → Inv s')
    {s t : σ} {as : List α} (h0 : Inv s) (ha : Along step P s as)
    (hr : run step s as = some t) : Inv t := by
  induction as generalizing s with
  | nil => cases hr; exact h0
  | cons a as ih =>
    obtain ⟨s', hs', hr'⟩ := run_cons_some hr
    exact ih (hs s a s' h0 ha.1 hs') (ha.2 s' hs') hr'

/-- **An invariant of every step** holds at the end of every run. -/
theorem run_invariant (hs : ∀ s a s', Inv s → step s a = some s' → Inv s')
    {s t : σ} {as : List α} (h0 : Inv s) (hr : run step s as = some t) : Inv t := by
  induction as generalizing s with
  | nil => cases hr; exact h0
  | cons a as ih =>
    obtain ⟨s', hs', hr'⟩ := run_cons_some hr
    exact ih (hs s a s' h0 hs') hr'

/-- **The runs that keep a property are the runs whose steps meet the
condition**, when a step that meets it keeps the property and a step that does
not breaks it at once.  `Inv` is what holds in every reachable state. -/
theorem along_iff_prefix (hinv : ∀ s a s', Inv s → step s a = some s' → Inv s')
    (hkeep : ∀ s a s', Inv s → Good s → P s a → step s a = some s' → Good s')
    (hbreak : ∀ s a s', Inv s → Good s → step s a = some s' → Good s' → P s a)
    {s t : σ} {as : List α} (h0 : Inv s) (hg : Good s) (hr : run step s as = some t) :
    Along step P s as ↔ ∀ bs u, bs <+: as → run step s bs = some u → Good u := by
  constructor
  · intro ha bs u hp hu
    have hboth : Inv u ∧ Good u :=
      @run_invariant_along σ α step P (fun x => Inv x ∧ Good x)
        (fun x a x' hx hP hx' => ⟨hinv x a x' hx.1 hx', hkeep x a x' hx.1 hx.2 hP hx'⟩)
        s u bs ⟨h0, hg⟩ (ha.of_prefix hp) hu
    exact hboth.2
  · intro hall
    induction as generalizing s with
    | nil => trivial
    | cons a as ih =>
      obtain ⟨s', hs', hr'⟩ := run_cons_some hr
      have hg' : Good s' := by
        refine hall [a] s' ⟨as, rfl⟩ ?_
        rw [run_cons, hs']
        rfl
      refine ⟨hbreak s a s' h0 hg hs' hg', fun s'' hs'' => ?_⟩
      obtain rfl : s' = s'' := Option.some.inj (hs'.symm.trans hs'')
      refine ih (hinv s a s' h0 hs') hg' hr' fun bs u hp hu => ?_
      refine hall (a :: bs) u (List.cons_prefix_cons.mpr ⟨rfl, hp⟩) ?_
      rw [run_cons, hs']
      exact hu

/-- **From one condition on steps to another**, where the steps that meet the
first keep an invariant and meet the second. -/
theorem Along.transfer {Q : σ → α → Prop}
    (hinv : ∀ s a s', Inv s → P s a → step s a = some s' → Inv s')
    (hPQ : ∀ s a s', Inv s → P s a → step s a = some s' → Q s a) {s t : σ} {as : List α}
    (h0 : Inv s) (hr : run step s as = some t) (h : Along step P s as) : Along step Q s as := by
  induction as generalizing s with
  | nil => trivial
  | cons a as ih =>
    obtain ⟨s', hs', hr'⟩ := run_cons_some hr
    refine ⟨hPQ s a s' h0 h.1 hs', fun u hu => ?_⟩
    obtain rfl := Option.some.inj (hs'.symm.trans hu)
    exact ih (hinv s a s' h0 h.1 hs') hr' (h.2 s' hs')

/-! ### Watching a run -/

/-- The system with something kept beside its state, which no step looks at. -/
def ghost {γ : Type*} (step : σ → α → Option σ) (next : σ → γ → α → γ) (x : σ × γ) (a : α) :
    Option (σ × γ) := (step x.1 a).map fun s' => (s', next x.1 x.2 a)

/-- The system with a log of what its steps show. -/
def logged {ε : Type*} (step : σ → α → Option σ) (event : σ → α → List ε) (s : σ × List ε) (a : α) :
    Option (σ × List ε) := (step s.1 a).map fun s' => (s', s.2 ++ event s.1 a)

section Ghost

variable {γ : Type*} {next : σ → γ → α → γ}

theorem ghost_eq_some {x y : σ × γ} {a : α} :
    ghost step next x a = some y ↔ ∃ s', step x.1 a = some s' ∧ (s', next x.1 x.2 a) = y :=
  Option.map_eq_some_iff

/-- **What is kept only watches**: the runs are those without it. -/
theorem run_ghost {s t : σ} {as : List α} (hr : run step s as = some t) (g : γ) :
    ∃ g', run (ghost step next) (s, g) as = some (t, g') := by
  induction as generalizing s g with
  | nil =>
    cases hr
    exact ⟨g, rfl⟩
  | cons a as ih =>
    obtain ⟨s', hs', hr'⟩ := run_cons_some hr
    obtain ⟨g', hg'⟩ := ih hr' (next s g a)
    refine ⟨g', ?_⟩
    rw [run_cons, ghost_eq_some.mpr ⟨s', hs', rfl⟩]
    exact hg'

theorem along_ghost {s : σ} {as : List α} (g : γ) :
    Along (ghost step next) (fun x a => P x.1 a) (s, g) as ↔ Along step P s as := by
  induction as generalizing s g with
  | nil => exact Iff.rfl
  | cons a as ih =>
    rw [along_cons, along_cons]
    refine and_congr_right fun _ => ⟨fun h s' hs' => ?_, fun h x hx => ?_⟩
    · exact (ih _).mp (h (s', next s g a) (ghost_eq_some.mpr ⟨s', hs', rfl⟩))
    · obtain ⟨s', hs', rfl⟩ := ghost_eq_some.mp hx
      exact (ih _).mpr (h s' hs')

end Ghost

section Logged

variable {ε : Type*} {event : σ → α → List ε}

theorem logged_eq_some {s t : σ × List ε} {a : α} :
    logged step event s a = some t ↔ ∃ s', step s.1 a = some s' ∧ (s', s.2 ++ event s.1 a) = t :=
  Option.map_eq_some_iff

/-- **The log only watches**: the runs are those without it. -/
theorem run_logged {s t : σ} {as : List α} (hr : run step s as = some t) (log : List ε) :
    ∃ log', run (logged step event) (s, log) as = some (t, log') :=
  @run_ghost _ _ step _ (fun s log a => log ++ event s a) _ _ _ hr log

theorem along_logged {s : σ} {as : List α} (log : List ε) :
    Along (logged step event) (fun x a => P x.1 a) (s, log) as ↔ Along step P s as :=
  @along_ghost _ _ step P _ (fun s log a => log ++ event s a) _ _ log

end Logged

def Reachable (step : σ → α → Option σ) (init t : σ) : Prop := ∃ as, run step init as = some t

theorem Reachable.refl (s : σ) : Reachable step s s := ⟨[], rfl⟩

theorem Reachable.tail {s t u : σ} {a : α} (h : Reachable step s t) (hs : step t a = some u) :
    Reachable step s u := by
  obtain ⟨as, has⟩ := h
  refine ⟨as ++ [a], ?_⟩
  rw [run_append, has, Option.bind_some, run_cons, hs]
  rfl

theorem Reachable.trans {s t u : σ} (h : Reachable step s t) (h' : Reachable step t u) :
    Reachable step s u := by
  obtain ⟨as, has⟩ := h
  obtain ⟨bs, hbs⟩ := h'
  exact ⟨as ++ bs, by rw [run_append, has, Option.bind_some, hbs]⟩

theorem Reachable.of_step {s t : σ} {a : α} (hs : step s a = some t) : Reachable step s t :=
  (Reachable.refl s).tail hs

/-! ### Where some of the runs lead -/

/-- Some run whose steps meet `P` leads from `s` to `t`. -/
def ReachableAlong (step : σ → α → Option σ) (P : σ → α → Prop) (s t : σ) : Prop :=
  ∃ as, Along step P s as ∧ run step s as = some t

section ReachableAlong

variable {s t u : σ}

theorem ReachableAlong.refl (s : σ) : ReachableAlong step P s s := ⟨[], trivial, rfl⟩

theorem ReachableAlong.trans (h : ReachableAlong step P s t) (h' : ReachableAlong step P t u) :
    ReachableAlong step P s u := by
  obtain ⟨as, ha, has⟩ := h
  obtain ⟨bs, hb, hbs⟩ := h'
  refine ⟨as ++ bs, (along_append s as bs).mpr ⟨ha, fun v hv => ?_⟩, ?_⟩
  · obtain rfl := Option.some.inj (has.symm.trans hv)
    exact hb
  · rw [run_append, has]
    exact hbs

theorem ReachableAlong.of_step {a : α} (hp : P s a) (hs : step s a = some t) :
    ReachableAlong step P s t := by
  refine ⟨[a], ⟨hp, fun _ _ => trivial⟩, ?_⟩
  rw [run_cons, hs]
  rfl

theorem ReachableAlong.reachable (h : ReachableAlong step P s t) : Reachable step s t :=
  h.imp fun _ h => h.2

/-- **An invariant of the steps that meet a condition** holds wherever they lead. -/
theorem ReachableAlong.invariant (hs : ∀ s a s', Inv s → P s a → step s a = some s' → Inv s')
    (h0 : Inv s) (h : ReachableAlong step P s t) : Inv t := by
  obtain ⟨as, ha, has⟩ := h
  exact run_invariant_along hs h0 ha has

end ReachableAlong

/-! ### Where some of the actions lead -/

/-- Actions of one kind lead from `s` to `t`. -/
def Leads (step : σ → α → Option σ) (K : α → Prop) (s t : σ) : Prop :=
  ∃ as, (∀ a ∈ as, K a) ∧ run step s as = some t

section Leads

variable {K : α → Prop} {s t u : σ}

theorem Leads.refl (s : σ) : Leads step K s s := ⟨[], nofun, rfl⟩

theorem Leads.trans (h : Leads step K s t) (h' : Leads step K t u) : Leads step K s u := by
  obtain ⟨as, hk, has⟩ := h
  obtain ⟨bs, hk', hbs⟩ := h'
  refine ⟨as ++ bs, fun a ha => (List.mem_append.mp ha).elim (hk a) (hk' a), ?_⟩
  rw [run_append, has]
  exact hbs

theorem Leads.of_step {a : α} (hk : K a) (hs : step s a = some t) : Leads step K s t := by
  refine ⟨[a], fun b hb => List.mem_singleton.mp hb ▸ hk, ?_⟩
  rw [run_cons, hs]
  rfl

theorem Leads.reachable (h : Leads step K s t) : Reachable step s t :=
  h.imp fun _ h => h.2

end Leads

/-! ### Where the schedule does not matter -/

def Terminal (step : σ → α → Option σ) (t : σ) : Prop := ∀ a, step t a = none

/-- Two different enabled actions can be taken in either order, with one outcome. -/
def Commutes (step : σ → α → Option σ) : Prop :=
  ∀ s a b s₁ s₂, a ≠ b → step s a = some s₁ → step s b = some s₂ →
    ∃ t, step s₁ b = some t ∧ step s₂ a = some t

/-- Every schedule from `s` is finite and can be carried on until it ends in `t`. -/
def Settles (step : σ → α → Option σ) (s t : σ) : Prop :=
  Terminal step t ∧ ∃ n, ∀ as u, run step s as = some u →
    as.length ≤ n ∧ ∃ bs, run step u bs = some t

/-- A step off a terminating run is made up for: the run still ends where it
did, one step shorter. -/
theorem run_after_step (hc : Commutes step) {s s' t : σ} {as : List α} {b : α}
    (ht : Terminal step t) (hr : run step s as = some t) (hb : step s b = some s') :
    ∃ bs, run step s' bs = some t ∧ bs.length + 1 = as.length := by
  induction as generalizing s s' with
  | nil =>
    cases hr
    rw [ht b] at hb
    cases hb
  | cons a as ih =>
    obtain ⟨s₁, hs₁, hr₁⟩ := run_cons_some hr
    by_cases hab : a = b
    · subst hab
      obtain rfl : s₁ = s' := Option.some.inj (hs₁.symm.trans hb)
      exact ⟨as, hr₁, rfl⟩
    · obtain ⟨w, hw₁, hw'⟩ := hc s a b s₁ s' hab hs₁ hb
      obtain ⟨bs, hbs, hlen⟩ := ih hr₁ hw₁
      refine ⟨a :: bs, ?_, by simp only [List.length_cons]; omega⟩
      rw [run_cons, hw']
      exact hbs

/-- **One terminating run settles every run.** -/
theorem settles (hc : Commutes step) {s t : σ} (ht : Terminal step t) (hr : Reachable step s t) :
    Settles step s t := by
  obtain ⟨cs, hcs⟩ := hr
  refine ⟨ht, cs.length, fun as => ?_⟩
  induction as generalizing s cs with
  | nil =>
    intro u hu
    cases hu
    exact ⟨Nat.zero_le _, cs, hcs⟩
  | cons a as ih =>
    intro u hu
    obtain ⟨s', hs', hu'⟩ := run_cons_some hu
    obtain ⟨cs', hcs', hlen⟩ := run_after_step hc ht hcs hs'
    obtain ⟨hle, hend⟩ := ih cs' hcs' u hu'
    exact ⟨by rw [List.length_cons]; omega, hend⟩

end Runs
