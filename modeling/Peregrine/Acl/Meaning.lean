import Peregrine.Acl.PlainEngines

/-!
# What the rules of a configuration mean

A rule of the configuration is a list of conditions on texts: networks, domain
patterns, methods.  `AclRuleConfig.Applies` says of each text by itself when it
is met, and `AclRuleConfig.Faulty` which texts are not well formed.

`compiled_acl_means_rule_list` is the main result: compilation fails exactly on
a faulty rule, and the compiled controller comes to what the list comes to, first
match first.  A set of globs or of regular expressions is compiled as a whole;
`AclMembers` adds what the libraries do with one member alone, and
`AclMembers.Lawful` that a set matches what one of its members matches.
-/

namespace Peregrine

open FirstMatch (ComesTo verdict)

/-! ### One condition -/

section Conditions

variable {E : AclEngines} (M : AclMembers E)

/-- How a pattern is written. -/
inductive PatternForm
  | regex (pattern : String)
  | glob
  | exact

def patternForm (pattern : String) : PatternForm :=
  if pattern.toList.head? = some '~' then .regex (String.ofList (pattern.toList.drop 1))
  else if pattern.toList.contains '*' || pattern.toList.contains '?' then .glob
  else .exact

def PatternMatches (domain pattern : String) : Prop :=
  match patternForm pattern with
  | .regex p => M.RegexMatches p domain
  | .glob => ∃ glob, E.newGlob pattern = .ok glob ∧ M.globMatches glob domain = true
  | .exact => pattern = domain

def BadPattern (pattern : String) : Prop :=
  match patternForm pattern with
  | .regex p => M.BadRegex p
  | .glob => ∃ e, E.newGlob pattern = .error e
  | .exact => False

variable (E) in
/-- The text is a network that contains the address. -/
def NetContains (ip : IpAddr) (text : String) : Prop :=
  ∃ net, E.parseNet text = .ok net ∧ E.contains net ip = true

namespace AclRuleConfig

/-- The rule applies to a request: each of the conditions it has is met. -/
structure Applies (rule : AclRuleConfig) (ip : IpAddr) (domain method : Option String) : Prop where
  srcIp : ∀ ips, rule.srcIp = some ips → ∃ text ∈ ips, NetContains E ip text
  dstDomain : ∀ patterns, rule.dstDomain = some patterns →
    ∃ d, domain = some d ∧ ∃ p ∈ patterns, PatternMatches M d p
  httpMethod : ∀ methods, rule.httpMethod = some methods →
    ∃ m, method = some m ∧ ∃ text ∈ methods, E.toUppercase text = E.toUppercase m

/-- The rule has a text that is not well formed. -/
def Faulty (rule : AclRuleConfig) : Prop :=
  (∃ ips, rule.srcIp = some ips ∧ ∃ text ∈ ips, ∃ e, E.parseNet text = .error e) ∨
  (∃ patterns, rule.dstDomain = some patterns ∧ ∃ p ∈ patterns, BadPattern M p)

end AclRuleConfig

end Conditions

/-! ### Patterns, sorted and compiled -/

section Compiled

variable {E : AclEngines} {M : AclMembers E}

namespace DomainFilter

theorem sort_cons (pattern : String) (patterns : List String) (acc : Sorted E) :
    sort E (pattern :: patterns) acc = match patternForm pattern with
      | .regex p => sort E patterns { acc with regexPatterns := acc.regexPatterns ++ [p] }
      | .glob => match E.newGlob pattern with
        | .ok glob => sort E patterns { acc with globs := acc.globs ++ [glob] }
        | .error e => .error ("Invalid glob pattern '" ++ pattern ++ "': " ++ e)
      | .exact => sort E patterns { acc with exactMatches := pattern :: acc.exactMatches } := by
  rw [sort, patternForm]
  split
  · rfl
  · split <;> rfl

theorem sort_error_iff (patterns : List String) (acc : Sorted E) :
    (∃ e, sort E patterns acc = .error e) ↔
      ∃ p ∈ patterns, patternForm p = .glob ∧ ∃ e, E.newGlob p = .error e := by
  induction patterns generalizing acc with
  | nil => exact iff_of_false (fun ⟨_, h⟩ => (by cases h)) fun ⟨_, h, _⟩ => (by cases h)
  | cons p patterns ih =>
    rw [sort_cons, List.exists_mem_cons_iff]
    cases hform : patternForm p with
    | regex r => exact (ih _).trans (or_iff_right fun h => (by cases h.1)).symm
    | exact => exact (ih _).trans (or_iff_right fun h => (by cases h.1)).symm
    | glob =>
      cases hglob : E.newGlob p with
      | error e => exact iff_of_true ⟨_, rfl⟩ (Or.inl ⟨rfl, e, rfl⟩)
      | ok glob => exact (ih _).trans (or_iff_right fun ⟨_, _, h⟩ => (by cases h)).symm

/-- The parts hold what they held before and the patterns of their form. -/
structure SortsTo (patterns : List String) (acc sorted : Sorted E) : Prop where
  globs : ∀ glob, glob ∈ sorted.globs ↔
    glob ∈ acc.globs ∨ ∃ p ∈ patterns, patternForm p = .glob ∧ E.newGlob p = .ok glob
  regexPatterns : ∀ r, r ∈ sorted.regexPatterns ↔
    r ∈ acc.regexPatterns ∨ ∃ p ∈ patterns, patternForm p = .regex r
  exactMatches : ∀ d, d ∈ sorted.exactMatches ↔
    d ∈ acc.exactMatches ∨ d ∈ patterns ∧ patternForm d = .exact

theorem SortsTo.cons {p : String} {patterns : List String} {acc mid sorted : Sorted E}
    (h : SortsTo [p] acc mid) (hrest : SortsTo patterns mid sorted) :
    SortsTo (p :: patterns) acc sorted where
  globs glob := by
    rw [hrest.globs, h.globs, or_assoc, List.exists_mem_cons_iff, List.exists_mem_cons_iff]
    simp
  regexPatterns r := by
    rw [hrest.regexPatterns, h.regexPatterns, or_assoc, List.exists_mem_cons_iff,
      List.exists_mem_cons_iff]
    simp
  exactMatches d := by
    rw [hrest.exactMatches, h.exactMatches, or_assoc, List.mem_singleton, List.mem_cons,
      or_and_right]

theorem sortsTo_regex {p r : String} (hform : patternForm p = .regex r) (acc : Sorted E) :
    SortsTo [p] acc { acc with regexPatterns := acc.regexPatterns ++ [r] } where
  globs glob := by simp [hform]
  regexPatterns r' := by simp [hform, eq_comm]
  exactMatches d := by
    have hne : d = p → patternForm d ≠ .exact := by
      rintro rfl
      rw [hform]
      exact nofun
    rw [List.mem_singleton, or_iff_left fun h => hne h.1 h.2]

theorem sortsTo_exact {p : String} (hform : patternForm p = .exact) (acc : Sorted E) :
    SortsTo [p] acc { acc with exactMatches := p :: acc.exactMatches } where
  globs glob := by simp [hform]
  regexPatterns r := by simp [hform]
  exactMatches d := by
    have hp : d = p → patternForm d = .exact := by
      rintro rfl
      exact hform
    rw [List.mem_singleton, and_iff_left_of_imp hp, List.mem_cons, or_comm]

theorem sortsTo_glob {p : String} {g : E.Glob} (hform : patternForm p = .glob)
    (hglob : E.newGlob p = .ok g) (acc : Sorted E) :
    SortsTo [p] acc { acc with globs := acc.globs ++ [g] } where
  globs glob := by simp [hform, hglob, eq_comm]
  regexPatterns r := by simp [hform]
  exactMatches d := by
    have hne : d = p → patternForm d ≠ .exact := by
      rintro rfl
      rw [hform]
      exact nofun
    rw [List.mem_singleton, or_iff_left fun h => hne h.1 h.2]

theorem sort_ok {patterns : List String} {acc sorted : Sorted E}
    (h : sort E patterns acc = .ok sorted) : SortsTo patterns acc sorted := by
  induction patterns generalizing acc with
  | nil =>
    cases h
    exact ⟨by simp, by simp, by simp⟩
  | cons p patterns ih =>
    rw [sort_cons] at h
    cases hform : patternForm p with
    | regex r =>
      rw [hform] at h
      exact (sortsTo_regex hform acc).cons (ih h)
    | exact =>
      rw [hform] at h
      exact (sortsTo_exact hform acc).cons (ih h)
    | glob =>
      rw [hform] at h
      cases hglob : E.newGlob p with
      | error e =>
        rw [hglob] at h
        cases h
      | ok g =>
        rw [hglob] at h
        exact (sortsTo_glob hform hglob acc).cons (ih h)

def buildGlobSet (E : AclEngines) (globs : List E.Glob) :
    Except String (Option (String → Bool)) :=
  if globs.isEmpty then pure none
  else ((E.buildGlobs globs).mapError ("Failed to build glob set: " ++ ·)).map some

theorem buildGlobSet_spec (hM : M.Lawful) (globs : List E.Glob) :
    ∃ set, buildGlobSet E globs = .ok set ∧
      ∀ domain, set.any (· domain) = true ↔ ∃ glob ∈ globs, M.globMatches glob domain = true := by
  obtain ⟨isMatch, hbuild, hspec⟩ := hM.globs globs
  cases globs with
  | nil => exact ⟨none, rfl, fun domain => by simp⟩
  | cons glob globs =>
    refine ⟨some isMatch, ?_, hspec⟩
    show ((E.buildGlobs (glob :: globs)).mapError _).map some = _
    rw [hbuild]
    rfl

def buildRegexes (E : AclEngines) (patterns : List String) :
    Except String (Option (String → Bool)) :=
  if patterns.isEmpty then pure none
  else ((E.newRegexes patterns).mapError ("Failed to build regex set: " ++ ·)).map some

theorem buildRegexes_error_iff (hM : M.Lawful) (patterns : List String) :
    (∃ e, buildRegexes E patterns = .error e) ↔ ∃ p ∈ patterns, M.BadRegex p := by
  rw [← hM.regexes_error]
  cases patterns with
  | nil =>
    refine iff_of_false (fun ⟨_, h⟩ => (by cases h)) fun h => ?_
    obtain ⟨p, hp, -⟩ := (hM.regexes_error []).mp h
    cases hp
  | cons p patterns =>
    show (∃ e, ((E.newRegexes (p :: patterns)).mapError _).map some = .error e) ↔ _
    cases E.newRegexes (p :: patterns) with
    | error e => exact iff_of_true ⟨_, rfl⟩ ⟨e, rfl⟩
    | ok isMatch => exact iff_of_false (fun ⟨_, h⟩ => (by cases h)) fun ⟨_, h⟩ => (by cases h)

theorem buildRegexes_ok (hM : M.Lawful) {patterns : List String}
    {set : Option (String → Bool)} (h : buildRegexes E patterns = .ok set) (domain : String) :
    set.any (· domain) = true ↔ ∃ p ∈ patterns, M.RegexMatches p domain := by
  cases patterns with
  | nil =>
    cases h
    simp
  | cons p patterns =>
    change ((E.newRegexes (p :: patterns)).mapError _).map some = .ok set at h
    cases hbuild : E.newRegexes (p :: patterns) with
    | error e => rw [hbuild] at h; cases h
    | ok isMatch =>
      rw [hbuild] at h
      cases h
      exact hM.regexes_ok _ _ hbuild domain

theorem new_eq (patterns : List String) :
    new E patterns = (sort E patterns ⟨[], [], []⟩).bind fun sorted =>
      (buildGlobSet E sorted.globs).bind fun globSet =>
        (buildRegexes E sorted.regexPatterns).map (⟨globSet, ·, sorted.exactMatches⟩) := by
  rw [new]
  cases sort E patterns ⟨[], [], []⟩ with
  | error e => rfl
  | ok sorted =>
    rcases sorted with ⟨globs, regexPatterns, exactMatches⟩
    cases globs <;> cases regexPatterns <;> rfl

theorem new_of_sort (hM : M.Lawful) {patterns : List String} {sorted : Sorted E}
    (h : sort E patterns ⟨[], [], []⟩ = .ok sorted) : ∃ globSet : Option (String → Bool),
      new E patterns =
        (buildRegexes E sorted.regexPatterns).map (⟨globSet, ·, sorted.exactMatches⟩) ∧
      ∀ domain, globSet.any (· domain) = true ↔
        ∃ glob ∈ sorted.globs, M.globMatches glob domain = true := by
  obtain ⟨globSet, hglobs, hspec⟩ := buildGlobSet_spec hM sorted.globs
  refine ⟨globSet, ?_, hspec⟩
  rw [new_eq, h, Except.bind, hglobs]
  rfl

variable {patterns : List String}

theorem new_error_iff (hM : M.Lawful) :
    (∃ e, new E patterns = .error e) ↔ ∃ p ∈ patterns, BadPattern M p := by
  have hbad : ∀ p, BadPattern M p ↔ (patternForm p = .glob ∧ ∃ e, E.newGlob p = .error e) ∨
      ∃ r, patternForm p = .regex r ∧ M.BadRegex r := by
    intro p
    rw [BadPattern]
    cases patternForm p <;> simp
  simp only [hbad, and_or_left, exists_or]
  rw [← sort_error_iff patterns (⟨[], [], []⟩ : Sorted E)]
  cases hsort : sort E patterns ⟨[], [], []⟩ with
  | error e =>
    refine iff_of_true ⟨e, ?_⟩ (Or.inl ⟨e, rfl⟩)
    rw [new, hsort]
    rfl
  | ok sorted =>
    obtain ⟨globSet, hnew, -⟩ := new_of_sort hM hsort
    have hregex : (∃ e, new E patterns = .error e) ↔ ∃ r ∈ sorted.regexPatterns, M.BadRegex r := by
      rw [hnew, ← buildRegexes_error_iff hM]
      cases buildRegexes E sorted.regexPatterns with
      | error e => exact iff_of_true ⟨e, rfl⟩ ⟨e, rfl⟩
      | ok set => exact iff_of_false (fun ⟨_, h⟩ => (by cases h)) fun ⟨_, h⟩ => (by cases h)
    rw [hregex, or_iff_right fun ⟨_, h⟩ => (by cases h)]
    constructor
    · rintro ⟨r, hr, hb⟩
      rcases ((sort_ok hsort).regexPatterns r).mp hr with h | ⟨p, hp, hform⟩
      · cases h
      · exact ⟨p, hp, r, hform, hb⟩
    · rintro ⟨p, hp, r, hform, hb⟩
      exact ⟨r, ((sort_ok hsort).regexPatterns r).mpr (Or.inr ⟨p, hp, hform⟩), hb⟩

/-- **A compiled filter matches what one of its patterns matches.** -/
theorem new_matches (hM : M.Lawful) {f : DomainFilter} (h : new E patterns = .ok f)
    (domain : String) : f.matches domain = true ↔ ∃ p ∈ patterns, PatternMatches M domain p := by
  cases hsort : sort E patterns ⟨[], [], []⟩ with
  | error e =>
    rw [new, hsort] at h
    cases h
  | ok sorted =>
    obtain ⟨globSet, hnew, hglobs⟩ := new_of_sort hM hsort
    have hparts := sort_ok hsort
    rw [hnew] at h
    cases hset : buildRegexes E sorted.regexPatterns with
    | error e => rw [hset] at h; cases h
    | ok set =>
      rw [hset] at h
      cases h
      simp only [«matches», Bool.or_eq_true, hglobs, buildRegexes_ok hM hset,
        List.contains_iff_mem, hparts.globs, hparts.regexPatterns, hparts.exactMatches]
      constructor
      · rintro (((h | ⟨hd, hform⟩) | ⟨glob, h | ⟨p, hp, hform, hg⟩, hm⟩) |
          ⟨r, h | ⟨p, hp, hform⟩, hm⟩)
        · cases h
        · exact ⟨domain, hd, by rw [PatternMatches, hform]⟩
        · cases h
        · exact ⟨p, hp, by rw [PatternMatches, hform]; exact ⟨glob, hg, hm⟩⟩
        · cases h
        · exact ⟨p, hp, by rw [PatternMatches, hform]; exact hm⟩
      · rintro ⟨p, hp, hm⟩
        rw [PatternMatches] at hm
        cases hform : patternForm p with
        | regex r =>
          rw [hform] at hm
          exact Or.inr ⟨r, Or.inr ⟨p, hp, hform⟩, hm⟩
        | exact =>
          rw [hform] at hm
          cases hm
          exact Or.inl (Or.inl (Or.inr ⟨hp, hform⟩))
        | glob =>
          rw [hform] at hm
          obtain ⟨glob, hg, hm⟩ := hm
          exact Or.inl (Or.inr ⟨glob, Or.inr ⟨p, hp, hform, hg⟩, hm⟩)

end DomainFilter

/-! ### Rules, compiled -/

namespace AclRule

theorem parseNets_eq (ips : List String) : parseNets E ips = ips.mapM fun ip =>
    (E.parseNet ip).mapError ("Invalid CIDR '" ++ ip ++ "': " ++ ·) := by
  induction ips with
  | nil => rfl
  | cons ip ips ih => rw [parseNets, List.mapM_cons, ih]

theorem parseNets_error_iff (ips : List String) :
    (∃ e, parseNets E ips = .error e) ↔ ∃ ip ∈ ips, ∃ e, E.parseNet ip = .error e := by
  rw [parseNets_eq, FirstMatch.mapM_error_iff]
  refine exists_congr fun ip => and_congr_right fun _ => ?_
  cases E.parseNet ip with
  | error e => exact iff_of_true ⟨_, rfl⟩ ⟨e, rfl⟩
  | ok net => exact iff_of_false (fun ⟨_, h⟩ => (by cases h)) fun ⟨_, h⟩ => (by cases h)

theorem ipMatches_parseNets {ips : List String} {nets : List E.IpNet}
    (h : parseNets E ips = .ok nets) (ip : IpAddr) :
    ipMatches E ip nets = true ↔ ∃ text ∈ ips, NetContains E ip text := by
  rw [parseNets_eq] at h
  have hall := FirstMatch.mapM_ok h
  clear h
  induction hall with
  | nil => exact iff_of_false Bool.false_ne_true fun ⟨_, h, _⟩ => (by cases h)
  | @cons text net ips nets hhead _ ih =>
    have hnet : E.parseNet text = .ok net := by
      cases hp : E.parseNet text with
      | error e => rw [hp] at hhead; cases hhead
      | ok n => rw [hp] at hhead; cases hhead; rfl
    have hcontains : NetContains E ip text ↔ E.contains net ip = true := by
      constructor
      · rintro ⟨n, hn, hc⟩
        rw [hnet] at hn
        cases hn
        exact hc
      · intro hc
        exact ⟨net, hnet, hc⟩
    rw [List.exists_mem_cons_iff, hcontains, ipMatches, List.any_cons, Bool.or_eq_true]
    exact or_congr_right ih

variable {rule : AclRuleConfig}

def compileSrcIp (E : AclEngines) (rule : AclRuleConfig) : Except String (Option (List E.IpNet)) :=
  match rule.srcIp with
  | some ips => (parseNets E ips).map some
  | none => pure none

def compileDstDomain (E : AclEngines) (rule : AclRuleConfig) :
    Except String (Option DomainFilter) :=
  match rule.dstDomain with
  | some domains => (DomainFilter.new E domains).map some
  | none => pure none

theorem ofConfig_eq : ofConfig E rule = (compileSrcIp E rule).bind fun srcIp =>
    (compileDstDomain E rule).map fun dstDomain =>
      { action := .ofConfig rule.action
        srcIp
        dstDomain
        httpMethods := rule.httpMethod.map (·.map E.toUppercase)
        authUsers := rule.auth.bind fun auth =>
          if auth.authType = "basic" then auth.users else none } := by
  rw [ofConfig, compileSrcIp, compileDstDomain]
  cases rule.srcIp with
  | none =>
    cases rule.dstDomain with
    | none => rfl
    | some domains =>
      dsimp only
      cases DomainFilter.new E domains <;> rfl
  | some ips =>
    dsimp only
    cases parseNets E ips with
    | error e => rfl
    | ok nets =>
      cases rule.dstDomain with
      | none => rfl
      | some domains =>
        dsimp only
        cases DomainFilter.new E domains <;> rfl

theorem compileSrcIp_error_iff : (∃ e, compileSrcIp E rule = .error e) ↔
    ∃ ips, rule.srcIp = some ips ∧ ∃ text ∈ ips, ∃ e, E.parseNet text = .error e := by
  rw [compileSrcIp]
  cases rule.srcIp with
  | none => exact iff_of_false (fun ⟨_, h⟩ => (by cases h)) fun ⟨_, h, _⟩ => (by cases h)
  | some ips =>
    have hsome : (∃ e, (parseNets E ips).map some = .error e) ↔
        ∃ e, parseNets E ips = .error e := by
      cases parseNets E ips <;> simp [Except.map]
    rw [hsome, parseNets_error_iff]
    simp

theorem compileDstDomain_error_iff (hM : M.Lawful) : (∃ e, compileDstDomain E rule = .error e) ↔
    ∃ patterns, rule.dstDomain = some patterns ∧ ∃ p ∈ patterns, BadPattern M p := by
  rw [compileDstDomain]
  cases rule.dstDomain with
  | none => exact iff_of_false (fun ⟨_, h⟩ => (by cases h)) fun ⟨_, h, _⟩ => (by cases h)
  | some patterns =>
    have hsome : (∃ e, (DomainFilter.new E patterns).map some = .error e) ↔
        ∃ e, DomainFilter.new E patterns = .error e := by
      cases DomainFilter.new E patterns <;> simp [Except.map]
    rw [hsome, DomainFilter.new_error_iff hM]
    simp

theorem ofConfig_error_iff (hM : M.Lawful) :
    (∃ e, ofConfig E rule = .error e) ↔ rule.Faulty M := by
  rw [AclRuleConfig.Faulty, ← compileSrcIp_error_iff, ← compileDstDomain_error_iff hM,
    ofConfig_eq]
  cases compileSrcIp E rule with
  | error e => exact iff_of_true ⟨e, rfl⟩ (Or.inl ⟨e, rfl⟩)
  | ok srcIp =>
    rw [or_iff_right fun ⟨_, h⟩ => (by cases h)]
    cases compileDstDomain E rule with
    | error e => exact iff_of_true ⟨e, rfl⟩ ⟨e, rfl⟩
    | ok filter => exact iff_of_false (fun ⟨_, h⟩ => (by cases h)) fun ⟨_, h⟩ => (by cases h)

section Compile

variable {compiled : AclRule E}

theorem matchesIp_iff (h : compileSrcIp E rule = .ok compiled.srcIp) (ip : IpAddr) :
    compiled.matchesIp ip = true ↔
      ∀ ips, rule.srcIp = some ips → ∃ text ∈ ips, NetContains E ip text := by
  rw [compileSrcIp] at h
  cases hips : rule.srcIp with
  | none =>
    rw [hips] at h
    injection h with h
    rw [matchesIp, ← h]
    exact iff_of_true rfl fun _ h => (by cases h)
  | some ips =>
    rw [hips] at h
    change (parseNets E ips).map some = _ at h
    cases hnets : parseNets E ips with
    | error e => rw [hnets] at h; cases h
    | ok nets =>
      rw [hnets] at h
      injection h with h
      rw [matchesIp, ← h]
      show ipMatches E ip nets = true ↔ _
      rw [ipMatches_parseNets hnets]
      exact ⟨fun h _ hips => (by cases hips; exact h), fun h => h ips rfl⟩

theorem matchesDomain_iff (hM : M.Lawful)
    (h : compileDstDomain E rule = .ok compiled.dstDomain) (domain : Option String) :
    compiled.matchesDomain domain = true ↔ ∀ patterns, rule.dstDomain = some patterns →
      ∃ d, domain = some d ∧ ∃ p ∈ patterns, PatternMatches M d p := by
  rw [compileDstDomain] at h
  cases hdom : rule.dstDomain with
  | none =>
    rw [hdom] at h
    injection h with h
    unfold matchesDomain
    rw [← h]
    exact iff_of_true (by cases domain <;> rfl) fun _ h => (by cases h)
  | some patterns =>
    rw [hdom] at h
    change (DomainFilter.new E patterns).map some = _ at h
    cases hnew : DomainFilter.new E patterns with
    | error e => rw [hnew] at h; cases h
    | ok f =>
      rw [hnew] at h
      injection h with h
      unfold matchesDomain
      rw [← h]
      cases domain with
      | none =>
        refine iff_of_false Bool.false_ne_true fun h => ?_
        obtain ⟨d, hd, -⟩ := h patterns rfl
        cases hd
      | some d =>
        show f.matches d = true ↔ _
        rw [DomainFilter.new_matches hM hnew]
        refine ⟨fun h _ hp => (by cases hp; exact ⟨d, rfl, h⟩), fun h => ?_⟩
        obtain ⟨d', hd, hp⟩ := h patterns rfl
        cases hd
        exact hp

theorem matchesMethod_iff (h : compiled.httpMethods = rule.httpMethod.map (·.map E.toUppercase))
    (method : Option String) :
    compiled.matchesMethod method = true ↔ ∀ methods, rule.httpMethod = some methods →
      ∃ m, method = some m ∧ ∃ text ∈ methods, E.toUppercase text = E.toUppercase m := by
  unfold matchesMethod
  rw [h]
  cases rule.httpMethod with
  | none => exact iff_of_true (by cases method <;> rfl) fun _ h => (by cases h)
  | some methods =>
    cases method with
    | none =>
      refine iff_of_false Bool.false_ne_true fun h => ?_
      obtain ⟨m, hm, -⟩ := h methods rfl
      cases hm
    | some m =>
      show (methods.map E.toUppercase).contains (E.toUppercase m) = true ↔ _
      rw [List.contains_iff_mem, List.mem_map]
      refine ⟨fun h _ hm => (by cases hm; exact ⟨m, rfl, h⟩), fun h => ?_⟩
      obtain ⟨m', hm, hp⟩ := h methods rfl
      cases hm
      exact hp

end Compile

/-- What a compiled rule has from its configuration. -/
structure CompiledFrom (rule : AclRuleConfig) (compiled : AclRule E) : Prop where
  action : compiled.action = .ofConfig rule.action
  srcIp : compileSrcIp E rule = .ok compiled.srcIp
  dstDomain : compileDstDomain E rule = .ok compiled.dstDomain
  httpMethods : compiled.httpMethods = rule.httpMethod.map (·.map E.toUppercase)

theorem compiledFrom {compiled : AclRule E} (h : ofConfig E rule = .ok compiled) :
    CompiledFrom rule compiled := by
  rw [ofConfig_eq] at h
  cases hips : compileSrcIp E rule with
  | error e => rw [hips] at h; cases h
  | ok srcIp =>
    cases hdom : compileDstDomain E rule with
    | error e => rw [hips, hdom] at h; cases h
    | ok dstDomain =>
      rw [hips, hdom] at h
      injection h with h
      rw [← h]
      exact ⟨rfl, hips, hdom, rfl⟩

/-- **A compiled rule applies where the rule does.** -/
theorem matchesFull_iff (hM : M.Lawful) {compiled : AclRule E} (h : CompiledFrom rule compiled)
    (ip : IpAddr) (domain method : Option String) :
    compiled.matchesFull ip domain method = true ↔ rule.Applies M ip domain method := by
  rw [matchesFull, Bool.and_eq_true, Bool.and_eq_true, matchesIp_iff h.srcIp,
    matchesDomain_iff hM h.dstDomain, matchesMethod_iff h.httpMethods]
  exact ⟨fun ⟨⟨h₁, h₂⟩, h₃⟩ => ⟨h₁, h₂, h₃⟩, fun h => ⟨⟨h.srcIp, h.dstDomain⟩, h.httpMethod⟩⟩

end AclRule

namespace AccessController

theorem compile_eq (rules : List AclRuleConfig) :
    compile E rules = rules.mapM (AclRule.ofConfig E) := by
  induction rules with
  | nil => rfl
  | cons rule rules ih => rw [compile, List.mapM_cons, ih]

variable {config : AccessControlConfig}

theorem fromConfig_error_iff (hM : M.Lawful) :
    (∃ e, fromConfig E config = .error e) ↔ ∃ rule ∈ config.rules, rule.Faulty M := by
  have hcompile := @FirstMatch.mapM_error_iff _ _ _ (AclRule.ofConfig E) config.rules
  rw [← compile_eq] at hcompile
  simp only [AclRule.ofConfig_error_iff hM] at hcompile
  rw [← hcompile, fromConfig]
  cases compile E config.rules with
  | error e => exact iff_of_true ⟨e, rfl⟩ ⟨e, rfl⟩
  | ok rules => exact iff_of_false (fun ⟨_, h⟩ => (by cases h)) fun ⟨_, h⟩ => (by cases h)

theorem checkRequest_eq_verdict (ctl : AccessController E) (ip : IpAddr)
    (domain method : Option String) : ctl.checkRequest ip domain method =
      verdict (·.matchesFull ip domain method) (·.action) ctl.defaultAction ctl.rules := by
  rw [checkRequest, decidingRule, verdict]
  cases ctl.rules.find? (·.matchesFull ip domain method) <;> rfl

/-- The compiled controller decides as the list of rules does. -/
theorem checkRequest_eq_iff (hM : M.Lawful) {ctl : AccessController E}
    (h : fromConfig E config = .ok ctl) (ip : IpAddr) (domain method : Option String)
    (action : AclAction) :
    ctl.checkRequest ip domain method = action ↔
      ComesTo (·.Applies M ip domain method) (AclAction.ofConfig ·.action)
        (.ofConfig config.defaultAction) config.rules action := by
  rw [fromConfig] at h
  cases hrules : compile E config.rules with
  | error e => rw [hrules] at h; cases h
  | ok rules =>
    rw [hrules] at h
    injection h with h
    subst h
    rw [checkRequest_eq_verdict, FirstMatch.verdict_eq_iff]
    rw [compile_eq] at hrules
    refine (FirstMatch.comesTo_forall₂ ?_ ?_ (FirstMatch.mapM_ok hrules)).symm
    · intro rule compiled hc
      exact (AclRule.matchesFull_iff hM (AclRule.compiledFrom hc) ip domain method).symm
    · intro rule compiled hc
      exact (AclRule.compiledFrom hc).action.symm

end AccessController

end Compiled

/-! ### The compiled rules mean what the list says -/

/-- **The compiled controller is the configured rule list.**  Compilation fails
exactly if some network, glob or regular expression of some rule is invalid; and
a controller that was compiled answers every request with the action of the first
rule in the list that applies, and with the default action if none does. -/
theorem compiled_acl_means_rule_list (E : AclEngines) (M : AclMembers E) (hM : M.Lawful)
    (config : AccessControlConfig) :
    ((∃ e, AccessController.fromConfig E config = .error e) ↔
      ∃ rule ∈ config.rules, rule.Faulty M) ∧
    ∀ ctl, AccessController.fromConfig E config = .ok ctl →
      ∀ (ip : IpAddr) (domain method : Option String) (action : AclAction),
        ctl.checkRequest ip domain method = action ↔
          ComesTo (·.Applies M ip domain method) (AclAction.ofConfig ·.action)
            (.ofConfig config.defaultAction) config.rules action :=
  ⟨AccessController.fromConfig_error_iff hM,
    fun _ h => AccessController.checkRequest_eq_iff hM h⟩

/-- Three rules: the local network, some domains, and one method. -/
def threeRules : AccessControlConfig where
  defaultAction := .allow
  rules :=
    [{ action := .allow
       srcIp := some ["10.0.0.0/8"]
       dstDomain := none
       dstPort := none
       httpMethod := none
       auth := none },
     { action := .deny
       srcIp := none
       dstDomain := some ["*.blocked.com", "malware.example.org", "~tracker"]
       dstPort := none
       httpMethod := none
       auth := none },
     { action := .authenticate
       srcIp := none
       dstDomain := none
       dstPort := none
       httpMethod := some ["post"]
       auth := none }]

theorem compiled_acl_means_rule_list_plain :
    ((∃ e, AccessController.fromConfig .plain threeRules = .error e) ↔
      ∃ rule ∈ threeRules.rules, rule.Faulty .plain) ∧
    ∀ ctl, AccessController.fromConfig .plain threeRules = .ok ctl →
      ∀ (ip : IpAddr) (domain method : Option String) (action : AclAction),
        ctl.checkRequest ip domain method = action ↔
          ComesTo (·.Applies .plain ip domain method) (AclAction.ofConfig ·.action)
            (.ofConfig threeRules.defaultAction) threeRules.rules action :=
  compiled_acl_means_rule_list .plain .plain AclMembers.plain_lawful threeRules

example : (AccessController.fromConfig .plain threeRules).map (fun ctl =>
    (ctl.checkRequest (.v4 ⟨[10, 1, 2, 3], rfl⟩) (some "ads.blocked.com") none,
      ctl.checkRequest (.v4 ⟨[192, 0, 2, 1], rfl⟩) (some "ads.blocked.com") none,
      ctl.checkRequest (.v4 ⟨[192, 0, 2, 1], rfl⟩) (some "a.tracker.net") (some "POST"),
      ctl.checkRequest (.v4 ⟨[192, 0, 2, 1], rfl⟩) none (some "Post"))) =
    .ok (.allow, .deny, .deny, .authenticate) := by rfl

end Peregrine
