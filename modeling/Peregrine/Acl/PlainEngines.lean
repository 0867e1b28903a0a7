import Peregrine.Acl.Controller
import Peregrine.Lib.FirstMatch
import Peregrine.PlainText

/-!
# Globs and regular expressions one by one

`AclEngines` compiles globs and regular expressions in sets.  `AclMembers` adds
what the same libraries do with one member alone, and `AclMembers.Lawful` says
how the two are related: a set matches what some member matches, and building it
fails only on an invalid member.

`AclEngines.plain` is a choice that meets this (`plain_lawful`): networks with
their prefix length, globs of `*`, `?` and ordinary characters, and regular
expressions that are plain words.
-/

namespace Peregrine

/-- The libraries again, for a single glob or regular expression. -/
structure AclMembers (E : AclEngines) where
  /-- `GlobMatcher::is_match`. -/
  globMatches : E.Glob → String → Bool
  /-- `Regex::new`, as the `is_match` of its result. -/
  newRegex : String → Except String (String → Bool)

namespace AclMembers

variable {E : AclEngines} (M : AclMembers E)

def BadRegex (pattern : String) : Prop := ∃ e, M.newRegex pattern = .error e

def RegexMatches (pattern domain : String) : Prop :=
  ∃ isMatch, M.newRegex pattern = .ok isMatch ∧ isMatch domain = true

/-- A set matches iff some member matches, and its builder fails only on an
invalid member. -/
structure Lawful : Prop where
  globs : ∀ globs, ∃ isMatch, E.buildGlobs globs = .ok isMatch ∧
    ∀ domain, isMatch domain = true ↔ ∃ glob ∈ globs, M.globMatches glob domain = true
  regexes_error : ∀ patterns,
    (∃ e, E.newRegexes patterns = .error e) ↔ ∃ p ∈ patterns, M.BadRegex p
  regexes_ok : ∀ patterns isMatch, E.newRegexes patterns = .ok isMatch →
    ∀ domain, isMatch domain = true ↔ ∃ p ∈ patterns, M.RegexMatches p domain

end AclMembers

namespace PlainEngines

def toNumber (bytes : List UInt8) : ℕ := bytes.foldl (fun n b => n * 256 + b.toNat) 0

/-- An address and the number of its leading bits that count. -/
def parseNet (s : String) : Option (IpAddr × ℕ) :=
  match s.toList.splitOn '/' with
  | [ip, len] => (Text.parseNat 10 len).bind fun len =>
    match IpText.plain.parseV4 (String.ofList ip), IpText.plain.parseV6 (String.ofList ip) with
    | some ip, _ => if len ≤ 32 then some (.v4 ip, len) else none
    | none, some ip => if len ≤ 128 then some (.v6 ip, len) else none
    | none, none => none
  | _ => none

def contains : IpAddr × ℕ → IpAddr → Bool
  | (.v4 net, len), .v4 ip =>
    toNumber net.bytes / 2 ^ (32 - len) == toNumber ip.bytes / 2 ^ (32 - len)
  | (.v6 net, len), .v6 ip =>
    toNumber net.bytes / 2 ^ (128 - len) == toNumber ip.bytes / 2 ^ (128 - len)
  | _, _ => false

/-- `*` stands for any characters and `?` for one. -/
def globMatches : List Char → List Char → Bool
  | [], cs => cs.isEmpty
  | '*' :: ps, cs => cs.tails.any (globMatches ps)
  | '?' :: ps, cs => match cs with
    | [] => false
    | _ :: cs => globMatches ps cs
  | p :: ps, cs => match cs with
    | [] => false
    | c :: cs => p == c && globMatches ps cs

def newGlob (pattern : String) : Except String String :=
  if pattern.toList.any "[]\x7b\x7d!\\".toList.contains then .error "unsupported" else .ok pattern

/-- A word matches where it occurs. -/
def newRegex (pattern : String) : Except String (String → Bool) :=
  if pattern.toList.all Char.isAlphanum then
    .ok fun s => s.toList.tails.any pattern.toList.isPrefixOf
  else .error "unsupported"

end PlainEngines

/-- Prefix lengths, simple globs and words. -/
def AclEngines.plain : AclEngines where
  IpNet := IpAddr × ℕ
  parseNet s := (PlainEngines.parseNet s).elim (.error "invalid IP address syntax") .ok
  contains := PlainEngines.contains
  Glob := String
  newGlob := PlainEngines.newGlob
  buildGlobs globs :=
    .ok fun domain => List.any globs fun glob : String =>
      PlainEngines.globMatches glob.toList domain.toList
  newRegexes patterns :=
    (patterns.mapM PlainEngines.newRegex).map fun members domain => members.any (· domain)
  toUppercase s := String.ofList (s.toList.map Char.toUpper)

def AclMembers.plain : AclMembers .plain where
  globMatches glob domain := PlainEngines.globMatches glob.toList domain.toList
  newRegex := PlainEngines.newRegex

theorem AclMembers.plain_lawful : AclMembers.plain.Lawful where
  globs globs := ⟨_, rfl, fun domain => List.any_eq_true⟩
  regexes_error patterns := by
    refine Iff.trans ?_ FirstMatch.mapM_error_iff
    show (∃ e, (patterns.mapM PlainEngines.newRegex).map _ = .error e) ↔
      ∃ e, patterns.mapM PlainEngines.newRegex = .error e
    cases patterns.mapM PlainEngines.newRegex with
    | error e => exact iff_of_true ⟨e, rfl⟩ ⟨e, rfl⟩
    | ok ms => exact iff_of_false (fun ⟨_, h⟩ => (by cases h)) fun ⟨_, h⟩ => (by cases h)
  regexes_ok patterns isMatch h domain := by
    change (patterns.mapM PlainEngines.newRegex).map _ = .ok isMatch at h
    cases hms : patterns.mapM PlainEngines.newRegex with
    | error e => rw [hms] at h; cases h
    | ok ms =>
      rw [hms] at h
      cases h
      have hall := FirstMatch.mapM_ok hms
      clear hms
      induction hall with
      | nil => exact iff_of_false Bool.false_ne_true fun ⟨_, h, _⟩ => (by cases h)
      | @cons p m patterns ms hp _ ih =>
        have hm : AclMembers.plain.RegexMatches p domain ↔ m domain = true := by
          constructor
          · rintro ⟨m', hm', h⟩
            cases hp.symm.trans hm'
            exact h
          · exact fun h => ⟨m, hp, h⟩
        show (m domain || ms.any (· domain)) = true ↔ _
        rw [Bool.or_eq_true, List.exists_mem_cons_iff, hm]
        exact or_congr_right ih

end Peregrine
