import Peregrine.Config
import Peregrine.Net

/-!
# Access control

`acl/mod.rs` with `acl/rule.rs`, `acl/domain_filter.rs` and `acl/ip_filter.rs`:
the rules of the configuration are compiled once (`AccessController.fromConfig`)
and consulted first match first (`checkRequest`).

Networks, globs and regular expressions are compiled and matched by libraries,
which `AclEngines` stands for, together with the upper case of a string.
-/

namespace Peregrine

/-- The libraries that compile and match the conditions of a rule. -/
structure AclEngines where
  /-- `ipnet::IpNet`. -/
  IpNet : Type
  /-- `str::parse::<IpNet>`. -/
  parseNet : String → Except String IpNet
  /-- `IpNet::contains`. -/
  contains : IpNet → IpAddr → Bool
  /-- `globset::Glob`. -/
  Glob : Type
  /-- `Glob::new`. -/
  newGlob : String → Except String Glob
  /-- `GlobSetBuilder::build`, as the `is_match` of its result. -/
  buildGlobs : List Glob → Except String (String → Bool)
  /-- `RegexSet::new`, as the `is_match` of its result. -/
  newRegexes : List String → Except String (String → Bool)
  /-- `str::to_uppercase`. -/
  toUppercase : String → String

inductive AclAction
  | allow
  | deny
  | authenticate
  deriving DecidableEq

def AclAction.ofConfig : AclActionConfig → AclAction
  | .allow => .allow
  | .deny => .deny
  | .authenticate => .authenticate

variable (E : AclEngines)

/-! ### Domain filters -/

/-- The patterns of a rule, compiled; the two sets are given by their `is_match`. -/
structure DomainFilter where
  globSet : Option (String → Bool)
  regexSet : Option (String → Bool)
  exactMatches : List String

namespace DomainFilter

/-- Patterns sorted by their form. -/
structure Sorted where
  globs : List E.Glob
  regexPatterns : List String
  exactMatches : List String

/-- The loop of `new`: sort one pattern after the other. -/
def sort : List String → Sorted E → Except String (Sorted E)
  | [], acc => .ok acc
  | pattern :: patterns, acc =>
    if pattern.toList.head? = some '~' then
      sort patterns { acc with
        regexPatterns := acc.regexPatterns ++ [String.ofList (pattern.toList.drop 1)] }
    else if pattern.toList.contains '*' || pattern.toList.contains '?' then
      match E.newGlob pattern with
      | .ok glob => sort patterns { acc with globs := acc.globs ++ [glob] }
      | .error e => .error ("Invalid glob pattern '" ++ pattern ++ "': " ++ e)
    else sort patterns { acc with exactMatches := pattern :: acc.exactMatches }

/-- `DomainFilter::new`. -/
def new (patterns : List String) : Except String DomainFilter := do
  let sorted ← sort E patterns ⟨[], [], []⟩
  let globSet ←
    if sorted.globs.isEmpty then pure none
    else ((E.buildGlobs sorted.globs).mapError ("Failed to build glob set: " ++ ·)).map some
  let regexSet ←
    if sorted.regexPatterns.isEmpty then pure none
    else
      ((E.newRegexes sorted.regexPatterns).mapError ("Failed to build regex set: " ++ ·)).map some
  return { globSet, regexSet, exactMatches := sorted.exactMatches }

/-- Does one of the patterns match? -/
def «matches» (f : DomainFilter) (domain : String) : Bool :=
  f.exactMatches.contains domain || f.globSet.any (· domain) || f.regexSet.any (· domain)

end DomainFilter

/-! ### Rules -/

structure AclRule where
  action : AclAction
  srcIp : Option (List E.IpNet)
  dstDomain : Option DomainFilter
  httpMethods : Option (List String)
  authUsers : Option (List UserCredential)

structure AccessController where
  defaultAction : AclAction
  rules : List (AclRule E)

/-- `ip_filter::ip_matches`. -/
def ipMatches (addr : IpAddr) (networks : List E.IpNet) : Bool :=
  networks.any fun net => E.contains net addr

namespace AclRule

/-- The networks of a rule, parsed in order. -/
def parseNets : List String → Except String (List E.IpNet)
  | [] => .ok []
  | ip :: ips => do
    let net ← (E.parseNet ip).mapError ("Invalid CIDR '" ++ ip ++ "': " ++ ·)
    let nets ← parseNets ips
    return net :: nets

/-- The body of the loop of `from_config`; `dst_port` is not looked at. -/
def ofConfig (cfg : AclRuleConfig) : Except String (AclRule E) := do
  let srcIp ← match cfg.srcIp with
    | some ips => (parseNets E ips).map some
    | none => pure none
  let dstDomain ← match cfg.dstDomain with
    | some domains => (DomainFilter.new E domains).map some
    | none => pure none
  return {
    action := .ofConfig cfg.action
    srcIp
    dstDomain
    httpMethods := cfg.httpMethod.map (·.map E.toUppercase)
    authUsers := cfg.auth.bind fun auth => if auth.authType = "basic" then auth.users else none }

variable {E}

def matchesIp (rule : AclRule E) (srcIp : IpAddr) : Bool :=
  match rule.srcIp with
  | some networks => ipMatches E srcIp networks
  | none => true

def matchesDomain (rule : AclRule E) (dstDomain : Option String) : Bool :=
  match rule.dstDomain, dstDomain with
  | some filter, some domain => filter.matches domain
  | some _, none => false
  | none, _ => true

def matchesMethod (rule : AclRule E) (method : Option String) : Bool :=
  match rule.httpMethods, method with
  | some methods, some m => methods.contains (E.toUppercase m)
  | some _, none => false
  | none, _ => true

/-- `rule_matches_full`. -/
def matchesFull (rule : AclRule E) (srcIp : IpAddr) (dstDomain method : Option String) : Bool :=
  rule.matchesIp srcIp && rule.matchesDomain dstDomain && rule.matchesMethod method

/-- `rule_matches`, which leaves the method out. -/
def «matches» (rule : AclRule E) (srcIp : IpAddr) (dstDomain : Option String) : Bool :=
  rule.matchesIp srcIp && rule.matchesDomain dstDomain

end AclRule

namespace AccessController

/-- The rules, compiled in order. -/
def compile : List AclRuleConfig → Except String (List (AclRule E))
  | [] => .ok []
  | cfg :: cfgs => do
    let rule ← AclRule.ofConfig E cfg
    let rules ← compile cfgs
    return rule :: rules

/-- `AccessController::from_config`. -/
def fromConfig (config : AccessControlConfig) : Except String (AccessController E) := do
  let rules ← compile E config.rules
  return { defaultAction := .ofConfig config.defaultAction, rules }

variable {E} (ctl : AccessController E)

def decidingRule (srcIp : IpAddr) (dstDomain method : Option String) : Option (AclRule E) :=
  ctl.rules.find? (·.matchesFull srcIp dstDomain method)

/-- `AccessController::check_request`: the action of the first rule that
applies, or the default. -/
def checkRequest (srcIp : IpAddr) (dstDomain method : Option String) : AclAction :=
  match ctl.decidingRule srcIp dstDomain method with
  | some rule => rule.action
  | none => ctl.defaultAction

def listedUsers (srcIp : IpAddr) (dstDomain method : Option String) : List UserCredential :=
  ((ctl.decidingRule srcIp dstDomain method).bind (·.authUsers)).getD []

/-- `get_auth_users_for_rule`. -/
def getAuthUsersForRule (srcIp : IpAddr) (dstDomain : Option String) :
    Option (List UserCredential) :=
  match ctl.rules.find? (·.matches srcIp dstDomain) with
  | some rule => if rule.action = .authenticate then rule.authUsers else none
  | none => if ctl.defaultAction = .authenticate then some [] else none

end AccessController

end Peregrine
