import Peregrine.Acl.Conditions

/-!
# The order of the rules, and what is known of a request

The first rule that applies decides, so the order of the rules is part of what a
configuration says.  `rule_order_irrelevant_iff` tells for which requests it is
not.

`check_ip` and `check_access` ask before all of the request is known, and a rule
with a condition on the rest does not apply to them.  `early_check_final_iff`
says when their answer is the one that `check_request` gives in the end.
-/

namespace Peregrine

open FirstMatch (ComesTo verdict)

variable {E : AclEngines}

/-! ### Orders -/

theorem fromConfig_eq_ok {config : AccessControlConfig} {ctl : AccessController E} :
    AccessController.fromConfig E config = .ok ctl ↔
      ∃ compiled, AccessController.compile E config.rules = .ok compiled ∧
        ctl = ⟨.ofConfig config.defaultAction, compiled⟩ := by
  rw [AccessController.fromConfig]
  cases AccessController.compile E config.rules with
  | error e =>
    refine iff_of_false (fun h => ?_) fun h => ?_
    · cases h
    · obtain ⟨_, h, -⟩ := h
      cases h
  | ok compiled =>
    constructor
    · intro h
      cases h
      exact ⟨compiled, rfl, rfl⟩
    · rintro ⟨_, h, rfl⟩
      cases h
      rfl

theorem check_of_fromConfig {config : AccessControlConfig} {ctl : AccessController E}
    (h : AccessController.fromConfig E config = .ok ctl) (req : AccessRequest) :
    req.check ctl = verdict (req.meets E) (AclAction.ofConfig ·.action)
      (.ofConfig config.defaultAction) config.rules := by
  obtain ⟨compiled, hcompile, rfl⟩ := fromConfig_eq_ok.mp h
  exact check_eq_verdict hcompile _ req

theorem fromConfig_perm {config : AccessControlConfig} {ctl : AccessController E}
    (h : AccessController.fromConfig E config = .ok ctl) {rules' : List AclRuleConfig}
    (hperm : config.rules.Perm rules') :
    ∃ ctl', AccessController.fromConfig E { config with rules := rules' } = .ok ctl' := by
  obtain ⟨compiled, hcompile, -⟩ := fromConfig_eq_ok.mp h
  cases hrules' : AccessController.compile E rules' with
  | ok compiled' => exact ⟨_, fromConfig_eq_ok.mpr ⟨compiled', hrules', rfl⟩⟩
  | error e =>
    rw [AccessController.compile_eq] at hcompile hrules'
    obtain ⟨bad, hbad, herror⟩ := FirstMatch.mapM_error_iff.mp ⟨e, hrules'⟩
    obtain ⟨e', he'⟩ := FirstMatch.mapM_error_iff.mpr ⟨bad, hperm.mem_iff.mpr hbad, herror⟩
    rw [hcompile] at he'
    cases he'

theorem ofConfig_inj {a b : AclActionConfig} :
    AclAction.ofConfig a = AclAction.ofConfig b ↔ a = b := by
  cases a <;> cases b <;> simp [AclAction.ofConfig]

/-- **When the order of the rules is irrelevant.**  An accepted configuration is
accepted with its rules in any order, and a request is decided the same in every
order exactly if the rules that it meets have one action. -/
theorem rule_order_irrelevant_iff {config : AccessControlConfig} {ctl : AccessController E}
    (h : AccessController.fromConfig E config = .ok ctl) (req : AccessRequest) :
    (∀ rules', config.rules.Perm rules' → ∃ ctl',
      AccessController.fromConfig E { config with rules := rules' } = .ok ctl') ∧
    ((∀ rules', config.rules.Perm rules' → ∃ ctl',
      AccessController.fromConfig E { config with rules := rules' } = .ok ctl' ∧
        req.check ctl' = req.check ctl) ↔
      ∀ r ∈ config.rules, ∀ q ∈ config.rules, req.meets E r = true → req.meets E q = true →
        r.action = q.action) := by
  refine ⟨fun rules' hperm => fromConfig_perm h hperm, ?_⟩
  have hverdict := @FirstMatch.verdict_perm_iff _ _ (req.meets E) (AclAction.ofConfig ·.action)
    (.ofConfig config.defaultAction) config.rules
  simp only [ofConfig_inj] at hverdict
  rw [← hverdict]
  refine forall_congr' fun rules' => imp_congr_right fun hperm => ?_
  obtain ⟨ctl', hctl'⟩ := fromConfig_perm h hperm
  rw [← check_of_fromConfig h, ← check_of_fromConfig hctl']
  constructor
  · rintro ⟨ctl'', hctl'', heq⟩
    rw [hctl'] at hctl''
    cases hctl''
    exact heq
  · intro heq
    exact ⟨ctl', hctl', heq⟩

theorem rule_order_irrelevant_iff_two_ports :
    let req : AccessRequest := ⟨.v4 ⟨[192, 0, 2, 1], rfl⟩, none, 443, none⟩
    ¬ ∀ rules', denyTwoPorts.rules.Perm rules' → ∃ ctl',
      AccessController.fromConfig .plain { denyTwoPorts with rules := rules' } = .ok ctl' ∧
        req.check ctl' = req.check denyTwoPortsCtl := by
  intro req h
  have hsame := (@rule_order_irrelevant_iff .plain denyTwoPorts denyTwoPortsCtl rfl req).2.mp h _
    List.mem_cons_self _ (List.mem_cons_of_mem _ List.mem_cons_self) rfl rfl
  cases hsame

/-! ### Before all is known -/

namespace AccessController

variable (ctl : AccessController E)

/-- `AccessController::check_access`. -/
def checkAccess (srcIp : IpAddr) (dstDomain : Option String) : AclAction :=
  ctl.checkRequest srcIp dstDomain none

/-- `AccessController::check_ip`. -/
def checkIp (srcIp : IpAddr) : AclAction := ctl.checkAccess srcIp none

end AccessController

namespace AclRule

variable {rule : AclRule E} {ip : IpAddr} {domain method : Option String}

theorem matchesMethod_none : rule.matchesMethod none = true ↔ rule.httpMethods = none := by
  unfold matchesMethod
  cases rule.httpMethods <;> simp

theorem matchesDomain_none : rule.matchesDomain none = true ↔ rule.dstDomain = none := by
  unfold matchesDomain
  cases rule.dstDomain <;> simp

theorem matchesMethod_of_none (h : rule.httpMethods = none) : rule.matchesMethod method = true := by
  unfold matchesMethod
  rw [h]

theorem matchesDomain_of_none (h : rule.dstDomain = none) : rule.matchesDomain domain = true := by
  unfold matchesDomain
  rw [h]

theorem matchesFull_no_method : rule.matchesFull ip domain none = true ↔
    rule.matchesFull ip domain method = true ∧ rule.httpMethods = none := by
  simp only [matchesFull, Bool.and_eq_true, matchesMethod_none]
  constructor
  · rintro ⟨hrest, hnone⟩
    exact ⟨⟨hrest, matchesMethod_of_none hnone⟩, hnone⟩
  · rintro ⟨⟨hrest, -⟩, hnone⟩
    exact ⟨hrest, hnone⟩

theorem matchesFull_no_domain : rule.matchesFull ip none none = true ↔
    rule.matchesFull ip domain method = true ∧ rule.dstDomain = none ∧ rule.httpMethods = none := by
  simp only [matchesFull, Bool.and_eq_true, matchesMethod_none, matchesDomain_none]
  constructor
  · rintro ⟨⟨hip, hdomain⟩, hmethod⟩
    exact ⟨⟨⟨hip, matchesDomain_of_none hdomain⟩, matchesMethod_of_none hmethod⟩, hdomain, hmethod⟩
  · rintro ⟨⟨⟨hip, -⟩, -⟩, hdomain, hmethod⟩
    exact ⟨⟨hip, hdomain⟩, hmethod⟩

end AclRule

/-- The rules that `early` leaves out when they apply are made up for: the first
rule that applies is not left out, or has the action that the rules after it come
to without those left out. -/
def MadeUpFor (ctl : AccessController E) (applies : AclRule E → Bool)
    (early : AclRule E → Prop) : Prop :=
  ∀ before r after, ctl.rules = before ++ r :: after → (∀ q ∈ before, applies q = false) →
    applies r = true → ¬ early r →
      ComesTo (fun q => applies q = true ∧ early q) (·.action) ctl.defaultAction after r.action

theorem check_eq_early_iff {ctl : AccessController E} {ip : IpAddr}
    {domain method domain' method' : Option String} {early : AclRule E → Prop}
    (hearly : ∀ r : AclRule E, r.matchesFull ip domain' method' = true ↔
      r.matchesFull ip domain method = true ∧ early r) :
    ctl.checkRequest ip domain method = ctl.checkRequest ip domain' method' ↔
      MadeUpFor ctl (·.matchesFull ip domain method) early := by
  have hfull : (fun q : AclRule E => q.matchesFull ip domain method = true ∧ early q) =
      fun q => q.matchesFull ip domain' method' = true := funext fun q => propext (hearly q).symm
  rw [AccessController.checkRequest_eq_verdict, AccessController.checkRequest_eq_verdict,
    FirstMatch.verdict_weaken_iff fun r hr => ((hearly r).mp hr).1, MadeUpFor, hfull]
  refine forall_congr' fun before => forall_congr' fun r => forall_congr' fun after =>
    imp_congr_right fun _ => imp_congr_right fun _ => imp_congr_right fun happ => ?_
  have hleft : r.matchesFull ip domain' method' = false ↔ ¬ early r := by
    rw [← Bool.not_eq_true, hearly]
    exact not_congr (and_iff_right happ)
  rw [hleft]

/-- **When an early check is final.**  What `check_access` and `check_ip` answer is
the answer to the whole request exactly if the rules with a condition on what is
not known yet are made up for. -/
theorem early_check_final_iff (ctl : AccessController E) (ip : IpAddr)
    (domain method : Option String) :
    (ctl.checkRequest ip domain method = ctl.checkAccess ip domain ↔
      MadeUpFor ctl (·.matchesFull ip domain method) fun r => r.httpMethods = none) ∧
    (ctl.checkRequest ip domain method = ctl.checkIp ip ↔
      MadeUpFor ctl (·.matchesFull ip domain method) fun r =>
        r.dstDomain = none ∧ r.httpMethods = none) :=
  ⟨check_eq_early_iff fun _ => AclRule.matchesFull_no_method,
    check_eq_early_iff fun _ => AclRule.matchesFull_no_domain⟩

end Peregrine
