import Peregrine.Config
import Peregrine.Lib.Base64
import Peregrine.Lib.Bytes
import Mathlib.Data.List.TakeDrop
import Mathlib.Data.List.TakeWhile

/-!
# Credentials

`acl/auth.rs`: a credential is checked against the configured list, and read
out of a `Proxy-Authorization: Basic` header value.  Each stage of the reading is
the inverse of a way of writing, so `parseBasicAuth_eq_some` says which values are
read as a credential: those of the grammar, and no others.
-/

namespace Peregrine

/-- Is some configured credential exactly this one? -/
def verifyCredentials (username password : String) (users : List UserCredential) : Bool :=
  users.any fun u => u.username == username && u.password == password

theorem verifyCredentials_eq_true {u p : String} {users : List UserCredential} :
    verifyCredentials u p users = true ↔ ⟨u, p⟩ ∈ users := by
  rw [verifyCredentials, List.any_eq_true]
  constructor
  · rintro ⟨c, hc, he⟩
    rw [Bool.and_eq_true, beq_iff_eq, beq_iff_eq] at he
    obtain ⟨rfl, rfl⟩ := he
    exact hc
  · intro h
    exact ⟨⟨u, p⟩, h, by simp⟩

/-- Unicode `White_Space`, which `str::trim` strips. -/
def isWhitespace (c : Char) : Bool :=
  let n := c.toNat
  (0x9 ≤ n && n ≤ 0xD) || n == 0x20 || n == 0x85 || n == 0xA0 || n == 0x1680 ||
    (0x2000 ≤ n && n ≤ 0x200A) || n == 0x2028 || n == 0x2029 || n == 0x202F || n == 0x205F ||
    n == 0x3000

/-- `str::trim`. -/
def trim (cs : List Char) : List Char :=
  ((cs.dropWhile isWhitespace).reverse.dropWhile isWhitespace).reverse

/-- Split at the first `:`, if there is one. -/
def splitColon (cs : List Char) : Option (List Char × List Char) :=
  match cs.span (· ≠ ':') with
  | (before, _ :: after) => some (before, after)
  | (_, []) => none

/-- `"Basic <base64>"` with `username:password` inside. -/
def parseBasicAuth (headerValue : String) : Option (String × String) := do
  let value := trim headerValue.toList
  guard ("Basic ".toList.isPrefixOf value)
  let decoded ← Base64.decode (value.drop 6)
  let decodedStr ← fromUtf8 decoded
  let (username, password) ← splitColon decodedStr.toList
  return (String.ofList username, String.ofList password)

/-! ### What is accepted -/

/-- **A text is cut where its first colon is.** -/
theorem splitColon_eq_some {cs before after : List Char} :
    splitColon cs = some (before, after) ↔ ':' ∉ before ∧ cs = before ++ ':' :: after := by
  have hcut := List.takeWhile_append_dropWhile (p := fun c : Char => decide (c ≠ ':')) (l := cs)
  rw [splitColon, List.span_eq_takeWhile_dropWhile]
  constructor
  · intro h
    have hbefore : ':' ∉ cs.takeWhile fun c => decide (c ≠ ':') := by
      intro hm
      exact absurd (List.mem_takeWhile_imp hm) (by decide)
    cases hd : cs.dropWhile fun c => decide (c ≠ ':') with
    | nil =>
      rw [hd] at h
      cases h
    | cons c rest =>
      have hc : c = ':' := by
        have hhead := List.head?_dropWhile_not (fun c : Char => decide (c ≠ ':')) cs
        rw [hd] at hhead
        simpa using hhead
      rw [hd] at h hcut
      cases h
      rw [hc] at hcut
      exact ⟨hbefore, hcut.symm⟩
  · rintro ⟨hbefore, rfl⟩
    have hall : ∀ c ∈ before, decide (c ≠ ':') = true := by
      intro c hc
      exact decide_eq_true fun he => hbefore (he ▸ hc)
    rw [List.takeWhile_append_of_pos hall, List.dropWhile_append_of_pos hall,
      List.takeWhile_cons_of_neg (by decide), List.dropWhile_cons_of_neg (by decide),
      List.append_nil]

/-- A text is `username:password` for one username without a colon at most. -/
theorem splitColon_toList_eq_some {s u p : String} :
    splitColon s.toList = some (u.toList, p.toList) ↔ ':' ∉ u.toList ∧ s = u ++ ":" ++ p := by
  rw [splitColon_eq_some, ← String.toList_inj, String.toList_append, String.toList_append,
    List.append_assoc]
  rfl

/-- What an encoded text after `Basic ` is read as. -/
theorem parseBasicAuth_encoded {h s : String}
    (hvalue : trim h.toList = "Basic ".toList ++ Base64.encode (utf8 s)) :
    parseBasicAuth h =
      (splitColon s.toList).map fun cut => (String.ofList cut.1, String.ofList cut.2) := by
  have hpre : "Basic ".toList.isPrefixOf (trim h.toList) = true := by
    rw [hvalue]
    exact List.isPrefixOf_iff_prefix.mpr (List.prefix_append _ _)
  have hdrop : (trim h.toList).drop 6 = Base64.encode (utf8 s) := by
    rw [hvalue]
    rfl
  have hdecode := Base64.decode_eq_some.mpr hdrop.symm
  simp only [parseBasicAuth, hpre, hdecode, fromUtf8_utf8, guard_true, Option.bind_eq_bind,
    Option.pure_def, Option.bind_some, Option.map_eq_bind, Function.comp_def]

/-- **The grammar of Basic credentials.**  A header value is read as a username and a
password exactly if the username has no colon and the value, without the white
space around it, is `Basic ` and the encoding of the two with a colon between. -/
theorem parseBasicAuth_eq_some {h u p : String} :
    parseBasicAuth h = some (u, p) ↔ ':' ∉ u.toList ∧
      trim h.toList = "Basic ".toList ++ Base64.encode (utf8 (u ++ ":" ++ p)) := by
  constructor
  · intro hparse
    simp only [parseBasicAuth, Option.bind_eq_bind, Option.bind_eq_some_iff, Option.guard_eq_some',
      Option.pure_def, Option.some.injEq, Prod.mk.injEq] at hparse
    obtain ⟨-, hpre, decoded, hdecode, s, hutf8, ⟨before, after⟩, hsplit, rfl, rfl⟩ := hparse
    obtain ⟨rest, hrest⟩ := List.isPrefixOf_iff_prefix.mp hpre
    have hdrop : (trim h.toList).drop 6 = rest := by
      rw [← hrest]
      rfl
    have hdecoded := fromUtf8_eq_some.mp hutf8
    rw [hdrop, Base64.decode_eq_some, hdecoded] at hdecode
    have hcut := splitColon_toList_eq_some (s := s) (u := String.ofList before)
      (p := String.ofList after)
    rw [String.toList_ofList, String.toList_ofList] at hcut
    obtain ⟨hcolon, hs⟩ := hcut.mp hsplit
    rw [String.toList_ofList, ← hs, hdecode]
    exact ⟨hcolon, hrest.symm⟩
  · rintro ⟨hcolon, hvalue⟩
    have hsplit := splitColon_toList_eq_some.mpr ⟨hcolon, Eq.refl (u ++ ":" ++ p)⟩
    rw [parseBasicAuth_encoded hvalue, hsplit, Option.map_some, String.ofList_toList,
      String.ofList_toList]

end Peregrine
