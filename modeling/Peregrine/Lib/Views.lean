import Peregrine.Lib.Runs

/-!
# One part of a system, seen alone

A view of a system forgets what does not concern some part of it.  `Shows` says
that the view is a system itself: an action with a label is, seen from the part,
the action of that label, and an action without one is not seen.

`run_seen` takes a run to the run of the part alone, and `run_shown` takes a run
of the part alone back to a run of the whole, so what the part can do does not
depend on the rest.
-/

namespace Runs

variable {σ α τ β : Type*}

/-- **A view that is a system itself.**  `Inv` is what holds in every reachable
state, and `Own` says which labels belong to the part. -/
structure Shows (step : σ → α → Option σ) (part : τ → β → Option τ) (Inv : σ → Prop)
    (view : σ → τ) (label : σ → α → Option β) (Own : β → Prop) : Prop where
  keeps : ∀ s a s', Inv s → step s a = some s' → Inv s'
  seen : ∀ s a b, Inv s → label s a = some b → part (view s) b = (step s a).map view
  unseen : ∀ s a s', Inv s → label s a = none → step s a = some s' → view s' = view s
  own : ∀ s a b, label s a = some b → Own b
  covers : ∀ s b t, Inv s → Own b → part (view s) b = some t → ∃ a, label s a = some b

def labels (step : σ → α → Option σ) (label : σ → α → Option β) : σ → List α → List β
  | _, [] => []
  | s, a :: as => (label s a).toList ++ ((step s a).map fun s' => labels step label s' as).getD []

variable {step : σ → α → Option σ} {part : τ → β → Option τ} {Inv : σ → Prop} {view : σ → τ}
  {label : σ → α → Option β} {Own : β → Prop}

theorem labels_cons {s s' : σ} {a : α} {as : List α} (hs : step s a = some s') :
    labels step label s (a :: as) = (label s a).toList ++ labels step label s' as := by
  rw [labels, hs]
  rfl

theorem Shows.labels_own (h : Shows step part Inv view label Own) {s t : σ} {as : List α}
    (hr : run step s as = some t) : ∀ b ∈ labels step label s as, Own b := by
  induction as generalizing s with
  | nil =>
    intro b hb
    cases hb
  | cons a as ih =>
    obtain ⟨s', hs', hr'⟩ := run_cons_some hr
    intro b hb
    rw [labels_cons hs'] at hb
    rcases List.mem_append.mp hb with hb | hb
    · exact h.own s a b (Option.mem_toList.mp hb)
    · exact ih hr' b hb

/-- **A run, seen from the part**, is the run of the part alone on the labels. -/
theorem Shows.run_seen (h : Shows step part Inv view label Own) {s t : σ} {as : List α}
    (hi : Inv s) (hr : run step s as = some t) :
    run part (view s) (labels step label s as) = some (view t) := by
  induction as generalizing s with
  | nil =>
    cases hr
    rfl
  | cons a as ih =>
    obtain ⟨s', hs', hr'⟩ := run_cons_some hr
    have hrest := ih (h.keeps s a s' hi hs') hr'
    rw [labels_cons hs']
    cases hl : label s a with
    | none =>
      rw [← h.unseen s a s' hi hl hs']
      exact hrest
    | some b =>
      rw [Option.toList_some, List.singleton_append, run_cons, h.seen s a b hi hl, hs']
      exact hrest

/-- **What the part can do alone**, it can do in the system. -/
theorem Shows.run_shown (h : Shows step part Inv view label Own) {s : σ} {t : τ} {bs : List β}
    (hi : Inv s) (hb : ∀ b ∈ bs, Own b) (hr : run part (view s) bs = some t) :
    ∃ as s', run step s as = some s' ∧ view s' = t ∧ labels step label s as = bs := by
  induction bs generalizing s with
  | nil => exact ⟨[], s, rfl, Option.some.inj hr, rfl⟩
  | cons b bs ih =>
    obtain ⟨u, hu, hr'⟩ := run_cons_some hr
    obtain ⟨a, ha⟩ := h.covers s b u hi (hb b List.mem_cons_self) hu
    rw [h.seen s a b hi ha] at hu
    obtain ⟨s₁, hs₁, rfl⟩ := Option.map_eq_some_iff.mp hu
    have hrest : ∀ c ∈ bs, Own c := fun c hc => hb c (List.mem_cons_of_mem b hc)
    obtain ⟨as, s', has, hview, hlab⟩ := ih (h.keeps s a s₁ hi hs₁) hrest hr'
    refine ⟨a :: as, s', ?_, hview, ?_⟩
    · rw [run_cons, hs₁]
      exact has
    · rw [labels_cons hs₁, ha, hlab]
      rfl

end Runs
