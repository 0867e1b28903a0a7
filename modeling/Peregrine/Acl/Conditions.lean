import Peregrine.Acl.Meaning

/-!
# Conditions that are left out

A rule has four conditions, and two places leave one of them out.

* `from_config` does not look at `dst_port`, so a rule for some ports is compiled
  to one for all of them.  `port_condition_iff` says for which requests this makes
  no difference.
* `get_auth_users_for_rule` searches by address and domain alone, and
  `check_request` by the method as well.  `auth_lookup_agrees_iff` says when they
  mean the same rule.

Both compare two searches for the first rule that applies, and rest on
`FirstMatch.verdict_insert_iff` and `FirstMatch.verdict_weaken_iff`.
-/

namespace Peregrine

open FirstMatch (ComesTo verdict)

variable {E : AclEngines}

/-! ### Ports -/

/-- A request, with all that the conditions of a rule are about. -/
structure AccessRequest where
  srcIp : IpAddr
  dstDomain : Option String
  dstPort : UInt16
  method : Option String

namespace AccessRequest

variable (req : AccessRequest)

/-- The answer of `check_request`, which is not told the port. -/
def check (ctl : AccessController E) : AclAction :=
  ctl.checkRequest req.srcIp req.dstDomain req.method

variable (E) in
/-- The rule, as it is compiled, applies to the request. -/
def meets (rule : AclRuleConfig) : Bool :=
  match AclRule.ofConfig E rule with
  | .ok compiled => compiled.matchesFull req.srcIp req.dstDomain req.method
  | .error _ => false

/-- One of the texts covers the port of the request, in a reading `covers` of
such texts. -/
def portCovered (covers : String → UInt16 → Bool) (ports : List String) : Bool :=
  ports.any (covers · req.dstPort)

/-- A rule for `ports` does not decide the request unless its port is one of
them: `ctl` with the rule answers as `ctl'` without it. -/
def UndecidedByOtherPorts (covers : String → UInt16 → Bool) (ports : List String)
    (ctl ctl' : AccessController E) : Prop :=
  req.portCovered covers ports = false → req.check ctl = req.check ctl'

end AccessRequest

theorem check_eq_verdict {rules : List AclRuleConfig} {compiled : List (AclRule E)}
    (h : AccessController.compile E rules = .ok compiled) (d : AclAction) (req : AccessRequest) :
    req.check ⟨d, compiled⟩ = verdict (req.meets E) (AclAction.ofConfig ·.action) d rules := by
  rw [AccessController.compile_eq] at h
  rw [AccessRequest.check, AccessController.checkRequest_eq_verdict]
  refine FirstMatch.verdict_forall₂ ?_ ?_ (FirstMatch.mapM_ok h)
  · intro rule compiled hc
    rw [AccessRequest.meets, hc]
  · intro rule compiled hc
    exact (AclRule.compiledFrom hc).action.symm

theorem compile_without {before after : List AclRuleConfig} {rule : AclRuleConfig}
    {compiled : List (AclRule E)}
    (h : AccessController.compile E (before ++ rule :: after) = .ok compiled) :
    ∃ rest, AccessController.compile E (before ++ after) = .ok rest := by
  cases hrest : AccessController.compile E (before ++ after) with
  | ok rest => exact ⟨rest, rfl⟩
  | error e =>
    rw [AccessController.compile_eq] at h hrest
    obtain ⟨bad, hbad, e', he'⟩ := FirstMatch.mapM_error_iff.mp ⟨e, hrest⟩
    have hmem : bad ∈ before ++ rule :: after := by
      rcases List.mem_append.mp hbad with hb | hb
      · exact List.mem_append_left _ hb
      · exact List.mem_append_right _ (List.mem_cons_of_mem _ hb)
    obtain ⟨e'', he''⟩ := FirstMatch.mapM_error_iff.mpr ⟨bad, hmem, e', he'⟩
    rw [h] at he''
    cases he''

/-- **When a port condition restricts a rule.**  Take any accepted configuration
and any rule in it for certain ports: the configuration without the rule is
accepted as well, and the rule leaves a request to be decided as without it,
should its port not be covered, exactly if the port is covered, or an earlier rule
applies, or the rule's other conditions are not met, or the rules behind it come to
its action anyway. -/
theorem port_condition_iff (E : AclEngines) (covers : String → UInt16 → Bool)
    (config : AccessControlConfig) (before after : List AclRuleConfig) (rule : AclRuleConfig)
    (ports : List String) (hrules : config.rules = before ++ rule :: after)
    (_hports : rule.dstPort = some ports) (ctl : AccessController E)
    (hctl : AccessController.fromConfig E config = .ok ctl) :
    ∃ ctl', AccessController.fromConfig E { config with rules := before ++ after } = .ok ctl' ∧
      ∀ req : AccessRequest, req.UndecidedByOtherPorts covers ports ctl ctl' ↔
        req.portCovered covers ports = true ∨
        (∃ q ∈ before, req.meets E q = true) ∨ req.meets E rule = false ∨
        ComesTo (req.meets E · = true) (AclAction.ofConfig ·.action)
          (.ofConfig config.defaultAction) after (.ofConfig rule.action) := by
  rw [AccessController.fromConfig, hrules] at hctl
  cases hcompile : AccessController.compile E (before ++ rule :: after) with
  | error e => rw [hcompile] at hctl; cases hctl
  | ok compiled =>
    rw [hcompile] at hctl
    injection hctl with hctl
    obtain ⟨rest, hrest⟩ := compile_without hcompile
    refine ⟨⟨.ofConfig config.defaultAction, rest⟩, ?_, fun req => ?_⟩
    · rw [AccessController.fromConfig, hrest]
      rfl
    · rw [AccessRequest.UndecidedByOtherPorts, ← hctl, check_eq_verdict hcompile,
        check_eq_verdict hrest, FirstMatch.verdict_insert_iff]
      cases req.portCovered covers ports with
      | true => exact iff_of_true (fun h => (by cases h)) (Or.inl rfl)
      | false => exact ⟨fun h => Or.inr (h rfl), fun h _ => h.resolve_left Bool.false_ne_true⟩

/-- Ports 22 and 3389 are denied, and everything from anywhere is allowed. -/
def denyTwoPorts : AccessControlConfig where
  defaultAction := .deny
  rules :=
    [{ action := .deny
       srcIp := none
       dstDomain := none
       dstPort := some ["22", "3389"]
       httpMethod := none
       auth := none },
     { action := .allow
       srcIp := some ["0.0.0.0/0"]
       dstDomain := none
       dstPort := none
       httpMethod := none
       auth := none }]

/-- A text is the port that it spells. -/
def spells (text : String) (port : UInt16) : Bool := Text.parseU16 text.toList == some port

/-- `denyTwoPorts`, compiled: the first rule has no condition left. -/
def denyTwoPortsCtl : AccessController .plain where
  defaultAction := .deny
  rules :=
    [{ action := .deny
       srcIp := none
       dstDomain := none
       httpMethods := none
       authUsers := none },
     { action := .allow
       srcIp := some [(.v4 ⟨[0, 0, 0, 0], rfl⟩, 0)]
       dstDomain := none
       httpMethods := none
       authUsers := none }]

theorem port_condition_iff_two_ports :
    ∃ ctl', AccessController.fromConfig .plain
        { denyTwoPorts with rules := [] ++ denyTwoPorts.rules.drop 1 } = .ok ctl' ∧
      ∀ req : AccessRequest,
        req.UndecidedByOtherPorts spells ["22", "3389"] denyTwoPortsCtl ctl' ↔
          req.portCovered spells ["22", "3389"] = true ∨
          (∃ q ∈ [], req.meets .plain q = true) ∨
          req.meets .plain
            { action := .deny
              srcIp := none
              dstDomain := none
              dstPort := some ["22", "3389"]
              httpMethod := none
              auth := none } = false ∨
          ComesTo (req.meets .plain · = true) (AclAction.ofConfig ·.action)
            (.ofConfig denyTwoPorts.defaultAction) (denyTwoPorts.rules.drop 1)
            (.ofConfig .deny) :=
  port_condition_iff .plain spells denyTwoPorts [] (denyTwoPorts.rules.drop 1) _ ["22", "3389"]
    rfl rfl denyTwoPortsCtl rfl

/-- **A rule for two ports decides for all of them**: a request from 192.0.2.1 to
port 443 is denied, and allowed without the rule. -/
theorem port_rule_decides_other_ports :
    ∃ ctl', AccessController.fromConfig .plain denyTwoPorts = .ok denyTwoPortsCtl ∧
      AccessController.fromConfig .plain
        { denyTwoPorts with rules := denyTwoPorts.rules.drop 1 } = .ok ctl' ∧
      ¬ AccessRequest.UndecidedByOtherPorts ⟨.v4 ⟨[192, 0, 2, 1], rfl⟩, none, 443, none⟩ spells
        ["22", "3389"] denyTwoPortsCtl ctl' := by
  refine ⟨⟨.deny, denyTwoPortsCtl.rules.drop 1⟩, rfl, rfl, fun h => ?_⟩
  have hcheck := h rfl
  cases hcheck

/-! ### The credentials to ask for -/

section AuthLookup

/-- The credentials that a rule asks for, if it asks for any. -/
def AclRule.asks (rule : AclRule E) : Option (List UserCredential) :=
  if rule.action = .authenticate then rule.authUsers else none

namespace AccessController

variable (ctl : AccessController E) (ip : IpAddr) (domain method : Option String)

/-- What the default asks for: authentication, without anybody to authenticate as. -/
def defaultAsks : Option (List UserCredential) :=
  if ctl.defaultAction = .authenticate then some [] else none

/-- The lookup gives the credentials of the rule that decides the request. -/
structure LookupAgrees : Prop where
  by_rule : ∀ rule, ctl.decidingRule ip domain method = some rule → rule.action = .authenticate →
    ctl.getAuthUsersForRule ip domain = rule.authUsers
  by_default : ctl.decidingRule ip domain method = none → ctl.defaultAction = .authenticate →
    ctl.getAuthUsersForRule ip domain = some []
  otherwise : ctl.checkRequest ip domain method ≠ .authenticate →
    ctl.getAuthUsersForRule ip domain = none

theorem getAuthUsersForRule_eq_verdict : ctl.getAuthUsersForRule ip domain =
    verdict (·.matches ip domain) AclRule.asks ctl.defaultAsks ctl.rules := by
  rw [getAuthUsersForRule, verdict]
  cases ctl.rules.find? (·.matches ip domain) <;> rfl

theorem lookupAgrees_iff : ctl.LookupAgrees ip domain method ↔
    ctl.getAuthUsersForRule ip domain =
      verdict (·.matchesFull ip domain method) AclRule.asks ctl.defaultAsks ctl.rules := by
  have hdecides : verdict (·.matchesFull ip domain method) AclRule.asks ctl.defaultAsks ctl.rules =
      ((ctl.decidingRule ip domain method).map AclRule.asks).getD ctl.defaultAsks := rfl
  rw [hdecides]
  cases hrule : ctl.decidingRule ip domain method with
  | none =>
    have hcheck : ctl.checkRequest ip domain method = ctl.defaultAction := by
      rw [checkRequest, hrule]
    show _ ↔ _ = ctl.defaultAsks
    rw [defaultAsks]
    constructor
    · intro h
      split
      · rename_i hauth
        exact h.by_default hrule hauth
      · rename_i hauth
        exact h.otherwise (by rw [hcheck]; exact hauth)
    · intro h
      refine ⟨fun _ hr => (by rw [hrule] at hr; cases hr), fun _ hauth => ?_, fun hauth => ?_⟩
      · rw [h, if_pos hauth]
      · rw [hcheck] at hauth
        rw [h, if_neg hauth]
  | some rule =>
    have hcheck : ctl.checkRequest ip domain method = rule.action := by
      rw [checkRequest, hrule]
    show _ ↔ _ = rule.asks
    rw [AclRule.asks]
    constructor
    · intro h
      split
      · rename_i hauth
        exact h.by_rule rule hrule hauth
      · rename_i hauth
        exact h.otherwise (by rw [hcheck]; exact hauth)
    · intro h
      refine ⟨fun r hr hauth => ?_, fun hr => (by rw [hrule] at hr; cases hr), fun hauth => ?_⟩
      · rw [hrule] at hr
        cases hr
        rw [h, if_pos hauth]
      · rw [hcheck] at hauth
        rw [h, if_neg hauth]

end AccessController

/-- **When the lookup means the deciding rule**: the first rule whose address and
domain fit also fits the method, or it asks for what the rules behind it come to
ask for. -/
theorem auth_lookup_agrees_iff (ctl : AccessController E) (ip : IpAddr)
    (domain method : Option String) :
    ctl.LookupAgrees ip domain method ↔
      ∀ before rule after, ctl.rules = before ++ rule :: after →
        (∀ q ∈ before, q.matches ip domain = false) → rule.matches ip domain = true →
        rule.matchesMethod method = false →
          ComesTo (·.matchesFull ip domain method = true) AclRule.asks ctl.defaultAsks after
            rule.asks := by
  have himp : ∀ rule : AclRule E, rule.matchesFull ip domain method = true →
      rule.matches ip domain = true := fun rule h => (Bool.and_eq_true _ _ ▸ h).1
  rw [AccessController.lookupAgrees_iff, AccessController.getAuthUsersForRule_eq_verdict,
    FirstMatch.verdict_weaken_iff himp]
  constructor
  · intro h before rule after hsplit hbefore hr hmethod
    refine h before rule after hsplit hbefore hr ?_
    rw [AclRule.matchesFull, hmethod, Bool.and_false]
  · intro h before rule after hsplit hbefore hr hfull
    refine h before rule after hsplit hbefore hr ?_
    cases hmethod : rule.matchesMethod method with
    | false => rfl
    | true =>
      rw [AclRule.matches] at hr
      rw [AclRule.matchesFull, hr, hmethod] at hfull
      cases hfull

/-- DELETE is denied, and everything else has to be authenticated. -/
def denyDelete : AccessController .plain where
  defaultAction := .deny
  rules :=
    [{ action := .deny
       srcIp := none
       dstDomain := none
       httpMethods := some ["DELETE"]
       authUsers := none },
     { action := .authenticate
       srcIp := none
       dstDomain := none
       httpMethods := none
       authUsers := some [⟨"admin", "secret123"⟩] }]

/-- **A rule for another method hides the credentials**: a GET has to be
authenticated, and the lookup says that nothing is asked for. -/
theorem auth_lookup_stops_at_other_method :
    denyDelete.checkRequest (.v4 ⟨[192, 0, 2, 1], rfl⟩) none (some "GET") = .authenticate ∧
    denyDelete.getAuthUsersForRule (.v4 ⟨[192, 0, 2, 1], rfl⟩) none = none ∧
    ¬ denyDelete.LookupAgrees (.v4 ⟨[192, 0, 2, 1], rfl⟩) none (some "GET") := by
  refine ⟨rfl, rfl, fun h => ?_⟩
  cases h.by_rule _ rfl rfl

end AuthLookup

end Peregrine
