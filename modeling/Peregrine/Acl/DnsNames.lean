import Peregrine.Acl.Meaning

/-!
# Rules and the spelling of names

DNS compares names without regard to the case of ASCII letters, and a dot at the
end changes nothing.  The patterns of a rule are compared with a name as it is
spelled.  `dns_names_respected_iff` says when two spellings of one name are
nevertheless treated alike: the first rule that tells them apart must have the
action that the other spelling comes to behind it.  A configuration whose patterns
match every spelling of a name or none has no such rule
(`checkRequest_of_ignoresSpelling`).

Methods are compared in upper case on both sides, so no spelling of a method
gets past a rule; `dns_spelling_evades_rule` is a spelling of a name that does.
-/

namespace Peregrine

open FirstMatch (ComesTo Reconciled verdict)
open Text (foldCase)

/-! ### Spellings -/

/-- The names differ in the case of ASCII letters, or in one dot at the end. -/
def SameDnsName (a b : String) : Prop :=
  foldCase a = foldCase b ∨ foldCase a = foldCase b ++ ['.'] ∨ foldCase b = foldCase a ++ ['.']

theorem SameDnsName.symm {a b : String} (h : SameDnsName a b) : SameDnsName b a := by
  rcases h with h | h | h
  · exact Or.inl h.symm
  · exact Or.inr (Or.inr h)
  · exact Or.inr (Or.inl h)

/-! ### Rules that tell two names apart -/

section

variable {E : AclEngines} (M : AclMembers E)

/-- The rule applies to a request for `a`, and none of its patterns matches `b`. -/
structure AclRuleConfig.TellsApart (rule : AclRuleConfig) (ip : IpAddr) (method : Option String)
    (a b : String) : Prop where
  applies : rule.Applies M ip (some a) method
  patterns : ∃ ps, rule.dstDomain = some ps ∧ ∀ p ∈ ps, ¬ PatternMatches M b p

/-- **Only the patterns tell names apart**: for another name the other
conditions of a rule are met as before. -/
theorem AclRuleConfig.tellsApart_iff {rule : AclRuleConfig} {ip : IpAddr}
    {method : Option String} {a b : String} : rule.TellsApart M ip method a b ↔
      rule.Applies M ip (some a) method ∧ ¬ rule.Applies M ip (some b) method := by
  constructor
  · rintro ⟨happ, ps, hps, hno⟩
    refine ⟨happ, fun hb => ?_⟩
    obtain ⟨d, hd, p, hp, hmatch⟩ := hb.dstDomain ps hps
    cases hd
    exact hno p hp hmatch
  · rintro ⟨happ, hno⟩
    refine ⟨happ, ?_⟩
    by_contra hall
    refine hno ⟨happ.srcIp, fun ps hps => ⟨b, rfl, ?_⟩, happ.httpMethod⟩
    by_contra hnone
    exact hall ⟨ps, hps, fun p hp hmatch => hnone ⟨p, hp, hmatch⟩⟩

/-- Before any rule applies to either name, no rule tells `a` from `b`, or the
first that does has the action that the rules behind it come to for `b`. -/
def AccessControlConfig.ReconcilesNames (config : AccessControlConfig) (ip : IpAddr)
    (method : Option String) (a b : String) : Prop :=
  ∀ before rule after, config.rules = before ++ rule :: after →
    (∀ q ∈ before, ¬ q.Applies M ip (some a) method ∧ ¬ q.Applies M ip (some b) method) →
    rule.TellsApart M ip method a b →
      ComesTo (·.Applies M ip (some b) method) (AclAction.ofConfig ·.action)
        (.ofConfig config.defaultAction) after (.ofConfig rule.action)

theorem AccessControlConfig.reconcilesNames_iff {config : AccessControlConfig} {ip : IpAddr}
    {method : Option String} {a b : String} : config.ReconcilesNames M ip method a b ↔
      Reconciled (·.Applies M ip (some a) method) (·.Applies M ip (some b) method)
        (AclAction.ofConfig ·.action) (.ofConfig config.defaultAction) config.rules := by
  constructor
  · intro h before rule after hsplit hbefore ha hb
    exact h before rule after hsplit hbefore ((AclRuleConfig.tellsApart_iff M).mpr ⟨ha, hb⟩)
  · intro h before rule after hsplit hbefore htell
    obtain ⟨ha, hb⟩ := (AclRuleConfig.tellsApart_iff M).mp htell
    exact h before rule after hsplit hbefore ha hb

end

/-! ### When spellings are treated alike -/

section

variable {E : AclEngines} {M : AclMembers E}

open Classical in
theorem checkRequest_eq_search (hM : M.Lawful) {config : AccessControlConfig}
    {ctl : AccessController E} (h : AccessController.fromConfig E config = .ok ctl) (ip : IpAddr)
    (domain method : Option String) : ctl.checkRequest ip domain method =
      verdict (fun rule => decide (rule.Applies M ip domain method)) (AclAction.ofConfig ·.action)
        (.ofConfig config.defaultAction) config.rules := by
  refine (AccessController.checkRequest_eq_iff hM h ip domain method _).mpr ?_
  have hsearch := FirstMatch.verdict_eq_iff.mp
    (rfl : verdict (fun rule => decide (rule.Applies M ip domain method))
      (AclAction.ofConfig ·.action) (.ofConfig config.defaultAction) config.rules = _)
  simp only [decide_eq_true_eq] at hsearch
  exact hsearch

theorem checkRequest_names_iff (hM : M.Lawful) {config : AccessControlConfig}
    {ctl : AccessController E} (h : AccessController.fromConfig E config = .ok ctl) (ip : IpAddr)
    (method : Option String) (a b : String) :
    ctl.checkRequest ip (some a) method = ctl.checkRequest ip (some b) method ↔
      config.ReconcilesNames M ip method a b ∧ config.ReconcilesNames M ip method b a := by
  rw [checkRequest_eq_search hM h, checkRequest_eq_search hM h, FirstMatch.verdict_eq_verdict_iff]
  simp only [decide_eq_true_eq, AccessControlConfig.reconcilesNames_iff]

/-- **When an access controller respects DNS names**: for two spellings of one
name the answers agree exactly if, each way round, the first rule to tell them
apart has the action that the rules behind it come to for the other one.  They agree
for all names and requests exactly if this holds for all of them. -/
theorem dns_names_respected_iff (E : AclEngines) (M : AclMembers E) (hM : M.Lawful)
    (config : AccessControlConfig) (ctl : AccessController E)
    (hctl : AccessController.fromConfig E config = .ok ctl) :
    (∀ ip method a b, SameDnsName a b →
      (ctl.checkRequest ip (some a) method = ctl.checkRequest ip (some b) method ↔
        config.ReconcilesNames M ip method a b ∧ config.ReconcilesNames M ip method b a)) ∧
    ((∀ ip method a b, SameDnsName a b →
      ctl.checkRequest ip (some a) method = ctl.checkRequest ip (some b) method) ↔
        ∀ ip method a b, SameDnsName a b → config.ReconcilesNames M ip method a b) := by
  refine ⟨fun ip method a b _ => checkRequest_names_iff hM hctl ip method a b, ?_, ?_⟩
  · exact fun h ip method a b hab => ((checkRequest_names_iff hM hctl ip method a b).mp
      (h ip method a b hab)).1
  · exact fun h ip method a b hab => (checkRequest_names_iff hM hctl ip method a b).mpr
      ⟨h ip method a b hab, h ip method b a hab.symm⟩

/-- What the patterns of a rule match, they match in every spelling. -/
def AccessControlConfig.IgnoresSpelling (config : AccessControlConfig) (M : AclMembers E) : Prop :=
  ∀ rule ∈ config.rules, ∀ ps, rule.dstDomain = some ps → ∀ a b, SameDnsName a b →
    (∃ p ∈ ps, PatternMatches M a p) → ∃ p ∈ ps, PatternMatches M b p

/-- **Patterns that ignore the spelling respect DNS names.** -/
theorem checkRequest_of_ignoresSpelling (hM : M.Lawful) {config : AccessControlConfig}
    {ctl : AccessController E} (h : AccessController.fromConfig E config = .ok ctl)
    (hconfig : config.IgnoresSpelling M) (ip : IpAddr) (method : Option String) {a b : String}
    (hab : SameDnsName a b) :
    ctl.checkRequest ip (some a) method = ctl.checkRequest ip (some b) method := by
  -- no rule tells the names apart
  have hnone : ∀ a b, SameDnsName a b → config.ReconcilesNames M ip method a b := by
    rintro a b hab before rule after hsplit - ⟨happ, ps, hps, hno⟩
    have hrule : rule ∈ config.rules := by
      rw [hsplit]
      exact List.mem_append_right _ List.mem_cons_self
    obtain ⟨d, hd, p, hp, hmatch⟩ := happ.dstDomain ps hps
    cases hd
    obtain ⟨q, hq, hq'⟩ := hconfig rule hrule ps hps a b hab ⟨p, hp, hmatch⟩
    exact absurd hq' (hno q hq)
  exact (checkRequest_names_iff hM h ip method a b).mpr ⟨hnone a b hab, hnone b a hab.symm⟩

end

/-! ### A spelling that gets past a rule -/

/-- One name is denied, and everything else is allowed. -/
def denyBlocked : AccessControlConfig where
  defaultAction := .allow
  rules :=
    [{ action := .deny
       srcIp := none
       dstDomain := some ["blocked.com"]
       dstPort := none
       httpMethod := none
       auth := none }]

def denyBlockedCtl : AccessController .plain where
  defaultAction := .allow
  rules :=
    [{ action := .deny
       srcIp := none
       dstDomain := some ⟨none, none, ["blocked.com"]⟩
       httpMethods := none
       authUsers := none }]

theorem dns_names_respected_iff_blocked :
    denyBlockedCtl.checkRequest (.v4 (.new 192 0 2 1)) (some "blocked.com") none =
        denyBlockedCtl.checkRequest (.v4 (.new 192 0 2 1)) (some "blocked.com.") none ↔
      denyBlocked.ReconcilesNames .plain (.v4 (.new 192 0 2 1)) none "blocked.com" "blocked.com." ∧
      denyBlocked.ReconcilesNames .plain (.v4 (.new 192 0 2 1)) none "blocked.com." "blocked.com" :=
  (dns_names_respected_iff .plain .plain AclMembers.plain_lawful denyBlocked denyBlockedCtl rfl).1
    _ _ _ _ (Or.inr (Or.inr (by decide)))

/-- **A denied name is allowed in capitals.** -/
theorem dns_spelling_evades_rule :
    AccessController.fromConfig .plain denyBlocked = .ok denyBlockedCtl ∧
    SameDnsName "blocked.com" "BLOCKED.com" ∧
    denyBlockedCtl.checkRequest (.v4 (.new 192 0 2 1)) (some "blocked.com") none = .deny ∧
    denyBlockedCtl.checkRequest (.v4 (.new 192 0 2 1)) (some "BLOCKED.com") none = .allow :=
  ⟨rfl, Or.inl (by decide), rfl, rfl⟩

end Peregrine
