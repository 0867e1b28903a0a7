import Mathlib.Data.List.Basic
import Mathlib.Data.List.Forall2

/-!
# The first rule that applies decides

A list of rules, some of which apply to a request: the first one that does
decides, and there is a default for the case that none does (`verdict`).
`FirstOf` says the same without the search, and `verdict_eq_iff` connects the
two.

`verdict_insert_iff` says when one rule more makes no difference,
`verdict_eq_verdict_iff` when two ways of judging the rules make none, and
`verdict_weaken_iff` when it makes none to forget a part of the conditions; and
`verdict_perm_iff` when the order of the rules makes none.
The rules are often compiled first: `mapM_ok` and `mapM_error_iff` are about the
compilation, and `comesTo_forall₂` about its result.
-/

namespace FirstMatch

variable {R S A : Type*}

/-- The action of the first rule that applies, or the default. -/
def verdict (applies : R → Bool) (action : R → A) (default : A) (rules : List R) : A :=
  ((rules.find? applies).map action).getD default

def FirstOf (applies : R → Prop) (rules : List R) (r : R) : Prop :=
  ∃ before after, rules = before ++ r :: after ∧ (∀ q ∈ before, ¬ applies q) ∧ applies r

/-- The rules come to the action `a`: by the first that applies, or by default. -/
def ComesTo (applies : R → Prop) (action : R → A) (default : A) (rules : List R) (a : A) : Prop :=
  (∃ r, FirstOf applies rules r ∧ action r = a) ∨ (∀ r ∈ rules, ¬ applies r) ∧ default = a

theorem comesTo_nil {p : R → Prop} {action : R → A} {default a : A} :
    ComesTo p action default [] a ↔ default = a := by
  constructor
  · rintro (⟨r, ⟨before, after, hsplit, -⟩, -⟩ | ⟨-, ha⟩)
    · cases before <;> cases hsplit
    · exact ha
  · intro ha
    exact Or.inr ⟨fun _ hr => (by cases hr), ha⟩

theorem comesTo_cons {p : R → Prop} {action : R → A} {default a : A} {r : R} {rules : List R} :
    ComesTo p action default (r :: rules) a ↔
      (p r ∧ action r = a) ∨ (¬ p r ∧ ComesTo p action default rules a) := by
  constructor
  · rintro (⟨q, ⟨before, after, hsplit, hbefore, hq⟩, ha⟩ | ⟨hnone, ha⟩)
    · cases before with
      | nil =>
        cases hsplit
        exact Or.inl ⟨hq, ha⟩
      | cons b before =>
        cases hsplit
        exact Or.inr ⟨hbefore _ List.mem_cons_self, Or.inl ⟨q,
          ⟨before, after, rfl, fun x hx => hbefore x (List.mem_cons_of_mem _ hx), hq⟩, ha⟩⟩
    · exact Or.inr ⟨hnone _ List.mem_cons_self,
        Or.inr ⟨fun x hx => hnone x (List.mem_cons_of_mem _ hx), ha⟩⟩
  · rintro (⟨hr, ha⟩ | ⟨hr, ⟨q, ⟨before, after, rfl, hbefore, hq⟩, ha⟩ | ⟨hnone, ha⟩⟩)
    · exact Or.inl ⟨r, ⟨[], rules, rfl, fun _ hx => (by cases hx), hr⟩, ha⟩
    · exact Or.inl ⟨q, ⟨r :: before, after, rfl, List.forall_mem_cons.mpr ⟨hr, hbefore⟩, hq⟩, ha⟩
    · exact Or.inr ⟨List.forall_mem_cons.mpr ⟨hr, hnone⟩, ha⟩

section

variable {applies : R → Bool} {action : R → A} {default : A} {rules : List R}

theorem verdict_cons_pos {r : R} (h : applies r = true) :
    verdict applies action default (r :: rules) = action r := by
  rw [verdict, List.find?_cons_of_pos h]
  rfl

theorem verdict_cons_neg {r : R} (h : applies r = false) :
    verdict applies action default (r :: rules) = verdict applies action default rules := by
  rw [verdict, List.find?_cons_of_neg (by rw [h]; exact Bool.false_ne_true)]
  rfl

theorem verdict_append (before after : List R) :
    verdict applies action default (before ++ after) =
      verdict applies action (verdict applies action default after) before := by
  induction before with
  | nil => rfl
  | cons r before ih =>
    rw [List.cons_append]
    cases h : applies r with
    | true => rw [verdict_cons_pos h, verdict_cons_pos h]
    | false => rw [verdict_cons_neg h, verdict_cons_neg h, ih]

theorem verdict_default (h : ∀ r ∈ rules, applies r = false) :
    verdict applies action default rules = default := by
  induction rules with
  | nil => rfl
  | cons r rules ih =>
    rw [verdict_cons_neg (h r List.mem_cons_self)]
    exact ih fun q hq => h q (List.mem_cons_of_mem _ hq)

theorem forall_false (h : ¬ ∃ r ∈ rules, applies r = true) : ∀ r ∈ rules, applies r = false :=
  fun r hr => Bool.eq_false_iff.mpr fun happ => h ⟨r, hr, happ⟩

theorem exists_first (h : ∃ r ∈ rules, applies r = true) :
    ∃ before r after, rules = before ++ r :: after ∧
      (∀ q ∈ before, applies q = false) ∧ applies r = true := by
  obtain ⟨r, hr⟩ := Option.isSome_iff_exists.mp (List.find?_isSome.mpr h)
  obtain ⟨happ, before, after, hsplit, hbefore⟩ := List.find?_eq_some_iff_append.mp hr
  refine ⟨before, r, after, hsplit, fun q hq => ?_, happ⟩
  simpa using hbefore q hq

theorem verdict_of_first {before after : List R} {r : R}
    (hbefore : ∀ q ∈ before, applies q = false) (hr : applies r = true) :
    verdict applies action default (before ++ r :: after) = action r := by
  rw [verdict_append, verdict_default hbefore, verdict_cons_pos hr]

/-- **The search finds the first rule that applies.** -/
theorem verdict_eq_iff {a : A} :
    verdict applies action default rules = a ↔
      ComesTo (applies · = true) action default rules a := by
  induction rules with
  | nil => rw [comesTo_nil]; rfl
  | cons r rules ih =>
    rw [comesTo_cons]
    cases hr : applies r with
    | true =>
      rw [verdict_cons_pos hr]
      exact ⟨fun h => Or.inl ⟨rfl, h⟩, fun h => h.elim (·.2) fun h => absurd rfl h.1⟩
    | false =>
      rw [verdict_cons_neg hr, ih]
      exact ⟨fun h => Or.inr ⟨Bool.false_ne_true, h⟩,
        fun h => h.elim (fun h => (by cases h.1)) (·.2)⟩

/-- **When one rule makes no difference**: a rule before it decides, or it does
not apply, or what follows comes to its action as well. -/
theorem verdict_insert_iff {before after : List R} {r : R} :
    verdict applies action default (before ++ r :: after) =
        verdict applies action default (before ++ after) ↔
      (∃ q ∈ before, applies q = true) ∨ applies r = false ∨
        ComesTo (applies · = true) action default after (action r) := by
  rw [← verdict_eq_iff]
  by_cases hany : ∃ q ∈ before, applies q = true
  · refine iff_of_true ?_ (Or.inl hany)
    obtain ⟨first, q, rest, rfl, hfirst, hq⟩ := exists_first hany
    rw [List.append_assoc, List.append_assoc, List.cons_append, List.cons_append,
      verdict_of_first hfirst hq, verdict_of_first hfirst hq]
  · have hnone := forall_false hany
    rw [verdict_append, verdict_append, verdict_default hnone, verdict_default hnone]
    cases hr : applies r with
    | false =>
      rw [verdict_cons_neg hr]
      exact iff_of_true rfl (Or.inr (Or.inl rfl))
    | true =>
      rw [verdict_cons_pos hr]
      refine ⟨fun h => Or.inr (Or.inr h.symm), ?_⟩
      rintro (h | h | h)
      · exact absurd h hany
      · cases h
      · exact h.symm

end

/-- The first rule that `p` and `q` judge differently, where `p` accepts it, has
the action that the rules after it come to under `q`. -/
def Reconciled (p q : R → Prop) (action : R → A) (default : A) (rules : List R) : Prop :=
  ∀ before r after, rules = before ++ r :: after → (∀ x ∈ before, ¬ p x ∧ ¬ q x) →
    p r → ¬ q r → ComesTo q action default after (action r)

/-- **When two ways of judging the rules come to the same action.** -/
theorem verdict_eq_verdict_iff {p q : R → Bool} {action : R → A} {default : A} {rules : List R} :
    verdict p action default rules = verdict q action default rules ↔
      Reconciled (p · = true) (q · = true) action default rules ∧
      Reconciled (q · = true) (p · = true) action default rules := by
  have hone : ∀ {p q : R → Bool} {before after : List R} {r : R},
      verdict p action default (before ++ r :: after) =
        verdict q action default (before ++ r :: after) →
      (∀ x ∈ before, ¬ p x = true ∧ ¬ q x = true) → p r = true → ¬ q r = true →
        ComesTo (q · = true) action default after (action r) := by
    intro p q before after r h hbefore hp hq
    rw [verdict_of_first (fun x hx => Bool.eq_false_iff.mpr (hbefore x hx).1) hp, verdict_append,
      verdict_default fun x hx => Bool.eq_false_iff.mpr (hbefore x hx).2,
      verdict_cons_neg (Bool.eq_false_iff.mpr hq)] at h
    exact verdict_eq_iff.mp h.symm
  constructor
  · intro h
    constructor
    · rintro before r after rfl hbefore hp hq
      exact hone h hbefore hp hq
    · rintro before r after rfl hbefore hq hp
      exact hone h.symm hbefore hq hp
  · rintro ⟨hpq, hqp⟩
    by_cases hany : ∃ r ∈ rules, (p r || q r) = true
    · -- The first rule that either of the two accepts.
      obtain ⟨before, r, after, rfl, hbefore, hr⟩ := exists_first hany
      have hno : ∀ x ∈ before, p x = false ∧ q x = false := fun x hx =>
        Bool.or_eq_false_iff.mp (hbefore x hx)
      have hno' : ∀ x ∈ before, ¬ p x = true ∧ ¬ q x = true := fun x hx =>
        ⟨Bool.eq_false_iff.mp (hno x hx).1, Bool.eq_false_iff.mp (hno x hx).2⟩
      rw [verdict_append, verdict_default fun x hx => (hno x hx).1, verdict_append,
        verdict_default fun x hx => (hno x hx).2]
      cases hp : p r with
      | true =>
        rw [verdict_cons_pos hp]
        cases hq : q r with
        | true => rw [verdict_cons_pos hq]
        | false =>
          rw [verdict_cons_neg hq]
          exact (verdict_eq_iff.mpr (hpq before r after rfl hno' hp (Bool.eq_false_iff.mp hq))).symm
      | false =>
        have hq : q r = true := by rwa [hp, Bool.false_or] at hr
        rw [verdict_cons_neg hp, verdict_cons_pos hq]
        exact verdict_eq_iff.mpr (hqp before r after rfl (fun x hx => (hno' x hx).symm) hq
          (Bool.eq_false_iff.mp hp))
    · have hnone := forall_false hany
      rw [verdict_default fun r hr => (Bool.or_eq_false_iff.mp (hnone r hr)).1,
        verdict_default fun r hr => (Bool.or_eq_false_iff.mp (hnone r hr)).2]

/-- **When part of the conditions can be forgotten**: the first rule that meets
the rest of them meets all of them, or has the action that the rules after it
come to. -/
theorem verdict_weaken_iff {full part : R → Bool} (himp : ∀ r, full r = true → part r = true)
    {action : R → A} {default : A} {rules : List R} :
    verdict part action default rules = verdict full action default rules ↔
      ∀ before r after, rules = before ++ r :: after → (∀ q ∈ before, part q = false) →
        part r = true → full r = false →
          ComesTo (full · = true) action default after (action r) := by
  have hweak : ∀ r, part r = false → ¬ full r = true := fun r h hf => by
    rw [himp r hf] at h
    cases h
  rw [verdict_eq_verdict_iff]
  constructor
  · rintro ⟨h, -⟩ before r after hsplit hbefore hr hf
    exact h before r after hsplit (fun q hq => ⟨Bool.eq_false_iff.mp (hbefore q hq),
      hweak q (hbefore q hq)⟩) hr (Bool.eq_false_iff.mp hf)
  · intro h
    constructor
    · intro before r after hsplit hbefore hr hf
      exact h before r after hsplit (fun q hq => Bool.eq_false_iff.mpr (hbefore q hq).1) hr
        (Bool.eq_false_iff.mpr hf)
    · intro before r after _ _ hf hr
      exact absurd (himp r hf) hr

/-! ### Orders -/

section

variable {applies : R → Bool} {action : R → A} {default : A} {rules : List R}

theorem verdict_of_agree {r : R} (hr : r ∈ rules) (happ : applies r = true)
    (hagree : ∀ q ∈ rules, applies q = true → action q = action r) :
    verdict applies action default rules = action r := by
  obtain ⟨before, q, after, rfl, hbefore, hq⟩ := exists_first ⟨r, hr, happ⟩
  rw [verdict_of_first hbefore hq]
  exact hagree q (List.mem_append_right _ List.mem_cons_self) hq

/-- **When the order of the rules makes no difference**: those that apply have
one action. -/
theorem verdict_perm_iff :
    (∀ rules', rules.Perm rules' →
      verdict applies action default rules' = verdict applies action default rules) ↔
      ∀ r ∈ rules, ∀ q ∈ rules, applies r = true → applies q = true → action r = action q := by
  constructor
  · intro h
    -- each of the rules can be the first
    have hfirst : ∀ r ∈ rules, applies r = true →
        action r = verdict applies action default rules := by
      intro r hr happ
      obtain ⟨before, after, rfl⟩ := List.append_of_mem hr
      rw [← h _ List.perm_middle, verdict_cons_pos happ]
    intro r hr q hq happr happq
    rw [hfirst r hr happr, hfirst q hq happq]
  · intro h rules' hperm
    by_cases hany : ∃ r ∈ rules, applies r = true
    · obtain ⟨r, hr, happ⟩ := hany
      have hr' := hperm.mem_iff.mp hr
      rw [verdict_of_agree hr happ fun q hq hqa => h q hq r hr hqa happ,
        verdict_of_agree hr' happ fun q hq hqa => h q (hperm.mem_iff.mpr hq) r hr hqa happ]
    · have hnone := forall_false hany
      rw [verdict_default hnone, verdict_default fun r hr => hnone r (hperm.mem_iff.mpr hr)]

end

/-! ### Compiled rules -/

section

variable {ε : Type*} {compile : R → Except ε S} {rules : List R}

theorem mapM_ok {compiled : List S} (h : rules.mapM compile = .ok compiled) :
    List.Forall₂ (fun r s => compile r = .ok s) rules compiled := by
  induction rules generalizing compiled with
  | nil =>
    cases h
    exact List.Forall₂.nil
  | cons r rules ih =>
    rw [List.mapM_cons] at h
    cases hr : compile r with
    | error e => rw [hr] at h; cases h
    | ok s =>
      cases hrest : rules.mapM compile with
      | error e => rw [hr, hrest] at h; cases h
      | ok ss =>
        rw [hr, hrest] at h
        cases h
        exact List.Forall₂.cons hr (ih hrest)

theorem mapM_error_iff :
    (∃ e, rules.mapM compile = .error e) ↔ ∃ r ∈ rules, ∃ e, compile r = .error e := by
  induction rules with
  | nil => exact ⟨fun ⟨_, h⟩ => (by cases h), fun ⟨_, h, _⟩ => (by cases h)⟩
  | cons r rules ih =>
    rw [List.mapM_cons]
    cases hr : compile r with
    | error e => exact iff_of_true ⟨e, rfl⟩ ⟨r, List.mem_cons_self, e, hr⟩
    | ok s =>
      rw [List.exists_mem_cons_iff, hr, or_iff_right fun ⟨_, h⟩ => (by cases h), ← ih]
      cases rules.mapM compile with
      | error e => exact iff_of_true ⟨e, rfl⟩ ⟨e, rfl⟩
      | ok ss => exact iff_of_false (fun ⟨_, h⟩ => (by cases h)) fun ⟨_, h⟩ => (by cases h)

end

/-- **Compiled rules come to the same** as the rules they were compiled from, if
each of them applies and acts as its rule does. -/
theorem comesTo_forall₂ {rel : R → S → Prop} {p : R → Prop} {q : S → Prop} {f : R → A}
    {g : S → A} {default a : A} (hpq : ∀ r s, rel r s → (p r ↔ q s))
    (hfg : ∀ r s, rel r s → f r = g s) {rules : List R} {compiled : List S}
    (h : List.Forall₂ rel rules compiled) :
    ComesTo p f default rules a ↔ ComesTo q g default compiled a := by
  induction h with
  | nil => rw [comesTo_nil, comesTo_nil]
  | cons hrs _ ih => rw [comesTo_cons, comesTo_cons, hpq _ _ hrs, hfg _ _ hrs, ih]

theorem verdict_forall₂ {rel : R → S → Prop} {p : R → Bool} {q : S → Bool} {f : R → A}
    {g : S → A} {default : A} (hpq : ∀ r s, rel r s → p r = q s)
    (hfg : ∀ r s, rel r s → f r = g s) {rules : List R} {compiled : List S}
    (h : List.Forall₂ rel rules compiled) :
    verdict q g default compiled = verdict p f default rules := by
  have hpq' : ∀ r s, rel r s → (p r = true ↔ q s = true) := fun r s hrs => by rw [hpq r s hrs]
  exact verdict_eq_iff.mpr ((comesTo_forall₂ hpq' hfg h).mp (verdict_eq_iff.mp rfl))

end FirstMatch
