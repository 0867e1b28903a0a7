import Peregrine.Acl.Meaning
import Mathlib.Data.List.Find

/-!
# Rules and the two families of source addresses

A client that connects over IPv4 to a listener for both families is reported
with the IPv4-mapped IPv6 address `::ffff:a`.  Networks are compared with the
address as it is reported, and a network contains addresses of its own family
only, so the rules for the network of `a` are passed over for `::ffff:a`.

`mapped_sources_agree_iff` says when the two are treated alike all the same: the
first rule whose networks tell them apart must have the action that the other
address comes to behind it.  Where all networks are of IPv4 this means that they
make no difference (`mapped_source_agrees_iff_without`), and where each stands
beside one for the mapped addresses all is well (`mapped_source_agrees_of_both`).
-/

namespace Peregrine

open FirstMatch (ComesTo Reconciled verdict)

/-- `Ipv4Addr::to_ipv6_mapped`: `::ffff:a`. -/
def Ipv4Addr.mapped (a : Ipv4Addr) : Ipv6Addr :=
  ⟨List.replicate 10 0 ++ [0xFF, 0xFF] ++ a.bytes, by
    rw [List.length_append, a.length_eq]
    rfl⟩

section

variable {E : AclEngines}

/-- The rule applies to a request from `ip`, and its networks do not contain `other`. -/
structure AclRule.TellsSourcesApart (rule : AclRule E) (domain method : Option String)
    (ip other : IpAddr) : Prop where
  domain : rule.matchesDomain domain = true
  method : rule.matchesMethod method = true
  networks : ∃ nets, rule.srcIp = some nets ∧ (∃ net ∈ nets, E.contains net ip = true) ∧
    ∀ net ∈ nets, E.contains net other = false

theorem AclRule.tellsSourcesApart_iff {rule : AclRule E} {domain method : Option String}
    {ip other : IpAddr} : rule.TellsSourcesApart domain method ip other ↔
      rule.matchesFull ip domain method = true ∧ ¬ rule.matchesFull other domain method = true := by
  simp only [AclRule.matchesFull, Bool.and_eq_true]
  constructor
  · rintro ⟨hdomain, hmethod, nets, hnets, hip, hother⟩
    have hmatches : ∀ addr, rule.matchesIp addr = nets.any fun net => E.contains net addr := by
      intro addr
      rw [AclRule.matchesIp, hnets]
      rfl
    refine ⟨⟨⟨?_, hdomain⟩, hmethod⟩, fun h => ?_⟩
    · rw [hmatches]
      exact List.any_eq_true.mpr hip
    · obtain ⟨net, hnet, hcontains⟩ := List.any_eq_true.mp ((hmatches other).symm.trans h.1.1)
      rw [hother net hnet] at hcontains
      cases hcontains
  · rintro ⟨⟨⟨hip, hdomain⟩, hmethod⟩, hother⟩
    have hno : ¬ rule.matchesIp other = true := fun h => hother ⟨⟨h, hdomain⟩, hmethod⟩
    refine ⟨hdomain, hmethod, ?_⟩
    cases hnets : rule.srcIp with
    | none =>
      rw [AclRule.matchesIp, hnets] at hno
      exact absurd rfl hno
    | some nets =>
      rw [AclRule.matchesIp, hnets] at hip hno
      refine ⟨nets, rfl, List.any_eq_true.mp hip, fun net hnet => ?_⟩
      rw [Bool.eq_false_iff]
      exact fun h => hno (List.any_eq_true.mpr ⟨net, hnet, h⟩)

/-- Before any rule applies to either source, no rule tells `ip` from `other`, or
the first that does has the action that the rules behind it come to for `other`. -/
def AccessController.ReconcilesSources (ctl : AccessController E) (domain method : Option String)
    (ip other : IpAddr) : Prop :=
  ∀ before rule after, ctl.rules = before ++ rule :: after →
    (∀ q ∈ before, ¬ q.matchesFull ip domain method = true ∧
      ¬ q.matchesFull other domain method = true) →
    rule.TellsSourcesApart domain method ip other →
      ComesTo (·.matchesFull other domain method = true) (·.action) ctl.defaultAction after
        rule.action

theorem AccessController.reconcilesSources_iff {ctl : AccessController E}
    {domain method : Option String} {ip other : IpAddr} :
    ctl.ReconcilesSources domain method ip other ↔
      Reconciled (·.matchesFull ip domain method = true) (·.matchesFull other domain method = true)
        (·.action) ctl.defaultAction ctl.rules := by
  constructor
  · intro h before rule after hsplit hbefore ha hb
    exact h before rule after hsplit hbefore (AclRule.tellsSourcesApart_iff.mpr ⟨ha, hb⟩)
  · intro h before rule after hsplit hbefore htell
    obtain ⟨ha, hb⟩ := AclRule.tellsSourcesApart_iff.mp htell
    exact h before rule after hsplit hbefore ha hb

/-- **When an access controller treats an IPv4 client alike** however it is
reported: exactly if, each way round, the first rule whose networks tell the
addresses apart has the action that the rules behind it come to for the other. -/
theorem mapped_sources_agree_iff (ctl : AccessController E) (a : Ipv4Addr)
    (domain method : Option String) :
    ctl.checkRequest (.v4 a) domain method = ctl.checkRequest (.v6 a.mapped) domain method ↔
      ctl.ReconcilesSources domain method (.v4 a) (.v6 a.mapped) ∧
      ctl.ReconcilesSources domain method (.v6 a.mapped) (.v4 a) := by
  rw [AccessController.checkRequest_eq_verdict, AccessController.checkRequest_eq_verdict,
    FirstMatch.verdict_eq_verdict_iff, AccessController.reconcilesSources_iff,
    AccessController.reconcilesSources_iff]

end

/-! ### Networks of the other family -/

def IpAddr.isV4 : IpAddr → Bool
  | .v4 _ => true
  | .v6 _ => false

/-- `ipnet` as documented: a network is of one family, and contains no address of
the other. -/
structure NetFamily (E : AclEngines) where
  isV4 : E.IpNet → Bool
  of_v4 : ∀ net ip, E.contains net (.v4 ip) = true → isV4 net = true
  of_v6 : ∀ net ip, E.contains net (.v6 ip) = true → isV4 net = false

/-- The same rules without those that ask for a network. -/
def AccessController.withoutNetworks {E : AclEngines} (ctl : AccessController E) :
    AccessController E :=
  { ctl with rules := ctl.rules.filter (·.srcIp.isNone) }

theorem checkRequest_other_family {E : AclEngines} (F : NetFamily E) {ctl : AccessController E}
    (hv4 : ∀ rule ∈ ctl.rules, ∀ nets, rule.srcIp = some nets → ∀ net ∈ nets, F.isV4 net = true)
    (ip : Ipv6Addr) (domain method : Option String) : ctl.checkRequest (.v6 ip) domain method =
      ctl.withoutNetworks.checkRequest (.v6 ip) domain method := by
  have hnone : ∀ rule ∈ ctl.rules, rule.matchesFull (.v6 ip) domain method = true →
      rule.srcIp.isNone = true := by
    intro rule hrule hfull
    simp only [AclRule.matchesFull, Bool.and_eq_true] at hfull
    cases hnets : rule.srcIp with
    | none => rfl
    | some nets =>
      have hip := hfull.1.1
      rw [AclRule.matchesIp, hnets] at hip
      obtain ⟨net, hnet, hcontains⟩ := List.any_eq_true.mp hip
      cases (hv4 rule hrule nets hnets net hnet).symm.trans (F.of_v6 net ip hcontains)
  have hfind : ctl.rules.find? (·.matchesFull (.v6 ip) domain method) =
      (ctl.rules.filter (·.srcIp.isNone)).find? (·.matchesFull (.v6 ip) domain method) := by
    rw [List.find?_filter]
    refine List.find?_congr fun rule hrule => ?_
    rw [Bool.eq_iff_iff, decide_eq_true_iff]
    exact ⟨fun h => ⟨hnone rule hrule h, h⟩, fun h => h.2⟩
  rw [AccessController.checkRequest, AccessController.checkRequest,
    AccessController.decidingRule, AccessController.decidingRule, hfind]
  rfl

theorem checkRequest_withoutNetworks {E : AclEngines} (ctl : AccessController E)
    (ip other : IpAddr) (domain method : Option String) :
    ctl.withoutNetworks.checkRequest ip domain method =
      ctl.withoutNetworks.checkRequest other domain method := by
  have hfind : ctl.withoutNetworks.rules.find? (·.matchesFull ip domain method) =
      ctl.withoutNetworks.rules.find? (·.matchesFull other domain method) := by
    refine List.find?_congr fun rule hrule => ?_
    have hnets := Option.isNone_iff_eq_none.mp (List.mem_filter.mp hrule).2
    rw [AclRule.matchesFull, AclRule.matchesFull, AclRule.matchesIp, AclRule.matchesIp, hnets]
  rw [AccessController.checkRequest, AccessController.checkRequest,
    AccessController.decidingRule, AccessController.decidingRule, hfind]

theorem mapped_source_agrees_iff_without {E : AclEngines} (F : NetFamily E)
    {ctl : AccessController E}
    (hv4 : ∀ rule ∈ ctl.rules, ∀ nets, rule.srcIp = some nets → ∀ net ∈ nets, F.isV4 net = true)
    (a : Ipv4Addr) (domain method : Option String) :
    ctl.checkRequest (.v4 a) domain method = ctl.checkRequest (.v6 a.mapped) domain method ↔
      ctl.checkRequest (.v4 a) domain method =
        ctl.withoutNetworks.checkRequest (.v4 a) domain method := by
  rw [checkRequest_other_family F hv4, checkRequest_withoutNetworks ctl (.v6 a.mapped) (.v4 a)]

/-- The IPv4 networks of the list contain an address exactly if its IPv6 networks contain
the mapped one. -/
def NetFamily.Both {E : AclEngines} (F : NetFamily E) (nets : List E.IpNet) : Prop :=
  ∀ a : Ipv4Addr, (∃ net ∈ nets, F.isV4 net = true ∧ E.contains net (.v4 a) = true) ↔
    ∃ net ∈ nets, F.isV4 net = false ∧ E.contains net (.v6 a.mapped) = true

theorem mapped_source_agrees_of_both {E : AclEngines} (F : NetFamily E) {ctl : AccessController E}
    (hboth : ∀ rule ∈ ctl.rules, ∀ nets, rule.srcIp = some nets → F.Both nets) (a : Ipv4Addr)
    (domain method : Option String) :
    ctl.checkRequest (.v4 a) domain method = ctl.checkRequest (.v6 a.mapped) domain method := by
  have hip : ∀ rule ∈ ctl.rules, rule.matchesIp (.v4 a) = rule.matchesIp (.v6 a.mapped) := by
    intro rule hrule
    cases hnets : rule.srcIp with
    | none => rw [AclRule.matchesIp, AclRule.matchesIp, hnets]
    | some nets =>
      rw [AclRule.matchesIp, AclRule.matchesIp, hnets, Bool.eq_iff_iff]
      -- a network that contains an address is of its family
      have hv4 : (∃ net ∈ nets, E.contains net (.v4 a) = true) ↔
          ∃ net ∈ nets, F.isV4 net = true ∧ E.contains net (.v4 a) = true :=
        exists_congr fun net => and_congr_right fun _ =>
          ⟨fun h => ⟨F.of_v4 net a h, h⟩, And.right⟩
      have hv6 : (∃ net ∈ nets, E.contains net (.v6 a.mapped) = true) ↔
          ∃ net ∈ nets, F.isV4 net = false ∧ E.contains net (.v6 a.mapped) = true :=
        exists_congr fun net => and_congr_right fun _ =>
          ⟨fun h => ⟨F.of_v6 net a.mapped h, h⟩, And.right⟩
      exact List.any_eq_true.trans (hv4.trans ((hboth rule hrule nets hnets a).trans
        (hv6.symm.trans List.any_eq_true.symm)))
  have hfind : ctl.rules.find? (·.matchesFull (.v4 a) domain method) =
      ctl.rules.find? (·.matchesFull (.v6 a.mapped) domain method) := by
    refine List.find?_congr fun rule hrule => ?_
    rw [AclRule.matchesFull, AclRule.matchesFull, hip rule hrule]
  rw [AccessController.checkRequest, AccessController.checkRequest,
    AccessController.decidingRule, AccessController.decidingRule, hfind]

/-! ### A network that is not consulted -/

/-- One network is denied, and everybody else is allowed. -/
def denyNetwork : AccessControlConfig where
  defaultAction := .allow
  rules :=
    [{ action := .deny
       srcIp := some ["192.0.2.0/24"]
       dstDomain := none
       dstPort := none
       httpMethod := none
       auth := none }]

def denyNetworkCtl : AccessController .plain where
  defaultAction := .allow
  rules :=
    [{ action := .deny
       srcIp := some [(.v4 (.new 192 0 2 0), 24)]
       dstDomain := none
       httpMethods := none
       authUsers := none }]

def NetFamily.plain : NetFamily .plain where
  isV4 net := net.1.isV4
  of_v4 net ip h := by
    obtain ⟨addr, len⟩ := net
    cases addr with
    | v4 => rfl
    | v6 => cases h
  of_v6 net ip h := by
    obtain ⟨addr, len⟩ := net
    cases addr with
    | v4 => cases h
    | v6 => rfl

/-- The clients outside the network are treated alike, and no others. -/
example (a : Ipv4Addr) : denyNetworkCtl.checkRequest (.v4 a) none none =
      denyNetworkCtl.checkRequest (.v6 a.mapped) none none ↔
    denyNetworkCtl.checkRequest (.v4 a) none none = .allow := by
  refine mapped_source_agrees_iff_without NetFamily.plain ?_ a none none
  intro rule hrule nets hnets net hnet
  obtain rfl := List.mem_singleton.mp hrule
  cases hnets
  obtain rfl := List.mem_singleton.mp hnet
  rfl

/-- **A denied client is allowed through a listener for both families.** -/
theorem mapped_source_evades_rule :
    AccessController.fromConfig .plain denyNetwork = .ok denyNetworkCtl ∧
    denyNetworkCtl.checkRequest (.v4 (.new 192 0 2 1)) none none = .deny ∧
    denyNetworkCtl.checkRequest (.v6 (Ipv4Addr.new 192 0 2 1).mapped) none none = .allow :=
  ⟨rfl, by decide +kernel, by decide +kernel⟩

end Peregrine
