import Peregrine.Acl.Meaning
import Peregrine.Lib.Glob

/-!
# Patterns that are not read as globs

`DomainFilter::new` documents every pattern without a leading `~` as a glob, and
looks up those without `*` and `?` by equality.  The syntax of globs has other
metacharacters too: `agreesWithGlob_iff` says that the lookup agrees with the
glob exactly when there is none of them.  A pattern with a class, a group or an
escape in it matches itself in the filter, which as a glob it never does
(`Glob.length_lt_of_parse`), and one that is no glob at all is accepted.

The globs are `globset`'s with its defaults, as `Glob.parse` reads them
(`AclMembers.Globset`).
-/

namespace Peregrine

section

variable {E : AclEngines} (M : AclMembers E)

/-- A glob is read by `Glob.parse`, and matches the bytes its expression matches. -/
structure AclMembers.Globset : Prop where
  newGlob : ∀ p, (∃ e, E.newGlob p = .error e) ↔ Glob.parse p.toList = none
  globMatches : ∀ p g re, E.newGlob p = .ok g → Glob.parse p.toList = some re →
    ∀ domain, M.globMatches g domain = true ↔ utf8 domain ∈ re.matches'

/-- The pattern, taken as a glob, matches the domain. -/
def GlobMatches (domain p : String) : Prop :=
  ∃ g, E.newGlob p = .ok g ∧ M.globMatches g domain = true

/-- The filter for the pattern is what the glob is: it can be built for a glob
only, and matches the same domains. -/
structure AgreesWithGlob (p : String) : Prop where
  new : (∃ e, DomainFilter.new E [p] = .error e) ↔ ∃ e, E.newGlob p = .error e
  isMatch : ∀ f, DomainFilter.new E [p] = .ok f →
    ∀ domain, f.matches domain = true ↔ GlobMatches M domain p

/-- The pattern has one of the characters that `new` looks for. -/
def HasWildcard (p : String) : Prop := '*' ∈ p.toList ∨ '?' ∈ p.toList

end

section

variable {E : AclEngines} {M : AclMembers E} {p : String}

theorem patternForm_of_wildcard (hp : p.toList.head? ≠ some '~') (h : HasWildcard p) :
    patternForm p = .glob := by
  rw [patternForm, if_neg hp, if_pos]
  rw [Bool.or_eq_true, List.contains_iff_mem, List.contains_iff_mem]
  exact h

theorem patternForm_of_no_wildcard (hp : p.toList.head? ≠ some '~') (h : ¬ HasWildcard p) :
    patternForm p = .exact := by
  rw [patternForm, if_neg hp, if_neg]
  rw [Bool.or_eq_true, List.contains_iff_mem, List.contains_iff_mem]
  exact h

theorem utf8_eq_encode (p : String) : utf8 p = Glob.encode p.toList := by
  rw [← String.ofList_toList (s := p), utf8_ofList, String.toList_ofList]
  rfl

theorem agreesWithGlob_exact_iff (hM : M.Lawful) (hform : patternForm p = .exact) :
    AgreesWithGlob M p ↔
      (¬ ∃ e, E.newGlob p = .error e) ∧ ∀ domain, domain = p ↔ GlobMatches M domain p := by
  have herror : ¬ ∃ e, DomainFilter.new E [p] = .error e := by
    rw [DomainFilter.new_error_iff hM]
    rintro ⟨q, hq, hbad⟩
    rw [List.mem_singleton.mp hq, BadPattern, hform] at hbad
    exact hbad
  have hmatches : ∀ f, DomainFilter.new E [p] = .ok f →
      ∀ domain, f.matches domain = true ↔ domain = p := by
    intro f hf domain
    rw [DomainFilter.new_matches hM hf]
    constructor
    · rintro ⟨q, hq, hm⟩
      rw [List.mem_singleton.mp hq, PatternMatches, hform] at hm
      exact hm.symm
    · rintro rfl
      exact ⟨domain, List.mem_singleton.mpr rfl, by rw [PatternMatches, hform]⟩
  constructor
  · intro h
    refine ⟨fun hglob => herror (h.new.mpr hglob), fun domain => ?_⟩
    cases hf : DomainFilter.new E [p] with
    | error e => exact absurd ⟨e, hf⟩ herror
    | ok f => rw [← hmatches f hf, h.isMatch f hf]
  · rintro ⟨hglob, hsame⟩
    exact ⟨iff_of_false herror hglob, fun f hf domain =>
      (hmatches f hf domain).trans (hsame domain)⟩

theorem agreesWithGlob_glob (hM : M.Lawful) (hform : patternForm p = .glob) :
    AgreesWithGlob M p where
  new := by
    rw [DomainFilter.new_error_iff hM]
    simp only [List.mem_singleton, exists_eq_left, BadPattern, hform]
  isMatch f hf domain := by
    rw [DomainFilter.new_matches hM hf]
    simp only [List.mem_singleton, exists_eq_left, PatternMatches, hform]
    rfl

/-- **Lookup by equality agrees with the glob exactly on plain text.** -/
theorem agreesWithGlob_iff (hM : M.Lawful) (hG : M.Globset) (hp : p.toList.head? ≠ some '~') :
    AgreesWithGlob M p ↔ HasWildcard p ∨ ∀ c ∈ p.toList, c ∉ Glob.metachars := by
  by_cases hwild : HasWildcard p
  · exact iff_of_true (agreesWithGlob_glob hM (patternForm_of_wildcard hp hwild)) (Or.inl hwild)
  rw [agreesWithGlob_exact_iff hM (patternForm_of_no_wildcard hp hwild), or_iff_right hwild]
  constructor
  · rintro ⟨hglob, hsame⟩ c hc hmeta
    -- the pattern is a domain that the filter matches and the glob does not
    obtain ⟨g, hg, hself⟩ := (hsame p).mp rfl
    cases hre : Glob.parse p.toList with
    | none => exact hglob ((hG.newGlob p).mpr hre)
    | some re =>
      rw [hG.globMatches p g re hg hre] at hself
      have hlt := Glob.length_lt_of_parse (fun h => hwild (Or.inr h)) (fun h => hwild (Or.inl h))
        ⟨c, hc, hmeta⟩ hre hself
      rw [utf8_eq_encode] at hlt
      exact Nat.lt_irrefl _ hlt
  · intro hplain
    obtain ⟨re, hre, hword⟩ := Glob.parse_plain hplain
    have hglob : ¬ ∃ e, E.newGlob p = .error e := by
      rw [hG.newGlob, hre]
      exact Option.some_ne_none re
    refine ⟨hglob, fun domain => ?_⟩
    cases hg : E.newGlob p with
    | error e => exact absurd ⟨e, hg⟩ hglob
    | ok g =>
      have hmatch : M.globMatches g domain = true ↔ domain = p := by
        rw [hG.globMatches p g re hg hre, hword, ← utf8_eq_encode]
        exact ⟨utf8_inj, congrArg utf8⟩
      constructor
      · intro h
        exact ⟨g, hg, hmatch.mpr h⟩
      · rintro ⟨g', hg', h⟩
        cases hg.symm.trans hg'
        exact hmatch.mp h

end

/-! ### Globs that are read -/

def AclEngines.globset : AclEngines where
  IpNet := AclEngines.plain.IpNet
  parseNet := AclEngines.plain.parseNet
  contains := AclEngines.plain.contains
  Glob := RegularExpression UInt8
  newGlob p := (Glob.parse p.toList).elim (.error "error parsing glob") .ok
  buildGlobs globs :=
    .ok fun domain => List.any globs fun re : RegularExpression UInt8 => re.rmatch (utf8 domain)
  newRegexes := AclEngines.plain.newRegexes
  toUppercase := AclEngines.plain.toUppercase

def AclMembers.globset : AclMembers .globset where
  globMatches re domain := RegularExpression.rmatch re (utf8 domain)
  newRegex := AclMembers.plain.newRegex

theorem AclMembers.globset_lawful : AclMembers.globset.Lawful where
  globs _ := ⟨_, rfl, fun _ => List.any_eq_true⟩
  regexes_error := AclMembers.plain_lawful.regexes_error
  regexes_ok := AclMembers.plain_lawful.regexes_ok

theorem newGlob_globset (p : String) : AclEngines.globset.newGlob p =
    (Glob.parse p.toList).elim (Except.error "error parsing glob") Except.ok := rfl

theorem AclMembers.globset_globset : AclMembers.globset.Globset where
  newGlob p := by
    rw [newGlob_globset]
    cases Glob.parse p.toList with
    | none => exact iff_of_true ⟨_, rfl⟩ rfl
    | some re => exact iff_of_false (fun ⟨_, h⟩ => (by cases h)) (Option.some_ne_none re)
  globMatches p g re hg hre domain := by
    rw [newGlob_globset, hre] at hg
    cases hg
    exact RegularExpression.rmatch_iff_matches' _ _

theorem globMatches_globset {domain p : String}
    (h : (Glob.parse p.toList).any (·.rmatch (utf8 domain)) = true) :
    GlobMatches AclMembers.globset domain p := by
  obtain ⟨re, hre, hm⟩ := (Option.any_eq_true _ _).mp h
  refine ⟨re, ?_, hm⟩
  rw [newGlob_globset, hre]
  rfl

theorem agreesWithGlob_plain_text : AgreesWithGlob AclMembers.globset "example.com" := by
  have hplain : ∀ c ∈ "example.com".toList, c ∉ Glob.metachars :=
    forall_mem_of_all (by decide +kernel)
  exact (agreesWithGlob_iff AclMembers.globset_lawful AclMembers.globset_globset
    (by decide +kernel)).mpr (Or.inr hplain)

/-- **A class is looked up as it is written.**  The glob matches `a.com`, and the
filter does not. -/
theorem class_pattern_not_matched :
    (∃ f, DomainFilter.new .globset ["[ab].com"] = .ok f ∧ f.matches "a.com" = false) ∧
      GlobMatches AclMembers.globset "a.com" "[ab].com" ∧
      ¬ AgreesWithGlob AclMembers.globset "[ab].com" := by
  have hnew : DomainFilter.new .globset ["[ab].com"] = .ok ⟨none, none, ["[ab].com"]⟩ := by
    rfl
  have hmiss : DomainFilter.matches ⟨none, none, ["[ab].com"]⟩ "a.com" = false := by
    decide +kernel
  have hglob : GlobMatches AclMembers.globset "a.com" "[ab].com" :=
    globMatches_globset (by decide +kernel)
  refine ⟨⟨_, hnew, hmiss⟩, hglob, fun h => ?_⟩
  have := (h.isMatch _ hnew "a.com").mpr hglob
  rw [hmiss] at this
  cases this

/-- A class that is not closed is no glob, and the filter takes it. -/
example : (∃ f, DomainFilter.new .globset ["[ab.com"] = .ok f) ∧
    (Glob.parse "[ab.com".toList).isNone = true := ⟨⟨_, rfl⟩, by decide +kernel⟩

end Peregrine
