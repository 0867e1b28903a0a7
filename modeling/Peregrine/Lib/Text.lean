import Mathlib.Data.List.Basic
import Mathlib.Data.Nat.Notation

/-!
# Numbers and separators in text

`parseNat b` reads the digits of a number in base `b ≤ 16` and is the inverse of
`Nat.toDigits b` (`parseNat_toDigits`); `parseU16` reads a port the way
`str::parse::<u16>` does.  `rsplit` cuts a text at the last occurrence of a
separator, which undoes writing a part without the separator behind it
(`rsplit_append`).  `foldCase` forgets the case of ASCII letters.
-/

namespace Text

/-! ### Case -/

/-- The characters of a text, with ASCII letters in lower case. -/
def foldCase (s : String) : List Char := s.toList.map Char.toLower

theorem toLower_eq_iff {s t : String} : s.toLower = t ↔ foldCase s = t.toList := by
  have hmap : s.toLower = s.map Char.toLower := rfl
  rw [← String.toList_inj, hmap, String.toList_map, foldCase]

/-! ### Digits -/

/-- The value of a digit; 16 for any other character. -/
def digitVal (c : Char) : ℕ := ((List.range 16).map Nat.digitChar).idxOf c

theorem digitVal_digitChar : ∀ d < 16, digitVal d.digitChar = d := by decide

/-- Read on from a number already read. -/
def parseDigits (b : ℕ) : ℕ → List Char → Option ℕ
  | acc, [] => some acc
  | acc, c :: cs => if digitVal c < b then parseDigits b (acc * b + digitVal c) cs else none

/-- Read a number: at least one digit, and nothing else. -/
def parseNat (b : ℕ) : List Char → Option ℕ
  | [] => none
  | cs => parseDigits b 0 cs

theorem parseDigits_append (b acc : ℕ) (xs ys : List Char) :
    parseDigits b acc (xs ++ ys) = (parseDigits b acc xs).bind fun n => parseDigits b n ys := by
  induction xs generalizing acc with
  | nil => rfl
  | cons c cs ih =>
    rw [List.cons_append, parseDigits, parseDigits]
    split
    · exact ih _
    · rfl

theorem parseDigits_toDigits {b : ℕ} (hb : 1 < b) (hb' : b ≤ 16) (n : ℕ) :
    parseDigits b 0 (Nat.toDigits b n) = some n := by
  induction n using Nat.strongRecOn with
  | ind n ih =>
    by_cases hn : n < b
    · rw [Nat.toDigits_of_lt_base hn, parseDigits, digitVal_digitChar n (by omega), if_pos hn,
        Nat.zero_mul, Nat.zero_add]
      rfl
    · have hmod := Nat.mod_lt n (by omega : b > 0)
      rw [Nat.toDigits_of_base_le hb (by omega), parseDigits_append,
        ih (n / b) (Nat.div_lt_self (by omega) hb), Option.bind_some, parseDigits,
        digitVal_digitChar _ (by omega), if_pos hmod, Nat.mul_comm, Nat.div_add_mod]
      rfl

/-- **Reading what was printed.** -/
theorem parseNat_toDigits {b : ℕ} (hb : 1 < b) (hb' : b ≤ 16) (n : ℕ) :
    parseNat b (Nat.toDigits b n) = some n := by
  have h := parseDigits_toDigits hb hb' n
  cases hd : Nat.toDigits b n with
  | nil => exact absurd hd Nat.toDigits_ne_nil
  | cons c cs =>
    rw [hd] at h
    exact h

theorem digitVal_lt_of_parseDigits {b acc n : ℕ} {cs : List Char}
    (h : parseDigits b acc cs = some n) : ∀ c ∈ cs, digitVal c < b := by
  induction cs generalizing acc with
  | nil => exact nofun
  | cons c cs ih =>
    rw [parseDigits] at h
    split at h
    · rename_i hc
      intro d hd
      rcases List.mem_cons.mp hd with rfl | hd
      · exact hc
      · exact ih h d hd
    · cases h

theorem digitVal_lt_of_parseNat {b n : ℕ} {cs : List Char} (h : parseNat b cs = some n) :
    ∀ c ∈ cs, digitVal c < b := by
  unfold parseNat at h
  split at h
  · cases h
  · exact digitVal_lt_of_parseDigits h

theorem not_mem_toDigits {b : ℕ} {c : Char} (hb : 1 < b) (hb' : b ≤ 16) (hc : b ≤ digitVal c)
    (n : ℕ) : c ∉ Nat.toDigits b n := by
  intro hm
  have := digitVal_lt_of_parseDigits (parseDigits_toDigits hb hb' n) c hm
  omega

/-- Text before which a `+` is allowed. -/
def dropPlus : List Char → List Char
  | '+' :: cs => cs
  | cs => cs

/-- `str::parse::<u16>`: digits, a `+` before them if one likes, and a value that fits. -/
def parseU16 (cs : List Char) : Option UInt16 :=
  (parseNat 10 (dropPlus cs)).bind fun n => if n < 65536 then some (UInt16.ofNat n) else none

theorem dropPlus_toDigits (n : ℕ) : dropPlus (Nat.toDigits 10 n) = Nat.toDigits 10 n := by
  unfold dropPlus
  split
  · rename_i cs h
    refine absurd ?_ (@not_mem_toDigits 10 '+' (by decide) (by decide) (by decide) n)
    rw [h]
    exact List.mem_cons_self
  · rfl

theorem toList_toString (n : ℕ) : (toString n).toList = Nat.toDigits 10 n := Nat.toList_repr

theorem parseNat_toString (n : ℕ) : parseNat 10 (toString n).toList = some n := by
  rw [toList_toString]
  exact parseNat_toDigits (by decide) (by decide) n

theorem parseU16_toString (p : UInt16) : parseU16 (toString p.toNat).toList = some p := by
  rw [parseU16, toList_toString, dropPlus_toDigits, parseNat_toDigits (by decide) (by decide),
    Option.bind_some, if_pos p.toNat_lt, UInt16.ofNat_toNat]

theorem chars_of_parseU16 {cs : List Char} {p : UInt16} (h : parseU16 cs = some p) :
    ∀ c ∈ cs, c = '+' ∨ digitVal c < 10 := by
  obtain ⟨n, hn, -⟩ := Option.bind_eq_some_iff.mp h
  have hdigits := digitVal_lt_of_parseNat hn
  unfold dropPlus at hdigits
  split at hdigits
  · intro c hc
    rcases List.mem_cons.mp hc with rfl | hc
    · exact Or.inl rfl
    · exact Or.inr (hdigits c hc)
  · exact fun c hc => Or.inr (hdigits c hc)

/-! ### The last separator -/

/-- Cut at the last `sep`, if there is one. -/
def rsplit (sep : Char) (cs : List Char) : Option (List Char × List Char) :=
  match cs.reverse.dropWhile (· ≠ sep) with
  | _ :: before => some (before.reverse, (cs.reverse.takeWhile (· ≠ sep)).reverse)
  | [] => none

/-- **A part without the separator comes off as it was put on.** -/
theorem rsplit_append {sep : Char} {xs ys : List Char} (h : sep ∉ ys) :
    rsplit sep (xs ++ sep :: ys) = some (xs, ys) := by
  have hr : (xs ++ sep :: ys).reverse = ys.reverse ++ sep :: xs.reverse := by simp
  have hall : ∀ c ∈ ys.reverse, decide (c ≠ sep) = true := by
    intro c hc
    rw [decide_eq_true_eq]
    rintro rfl
    exact h (List.mem_reverse.mp hc)
  rw [rsplit, hr, List.dropWhile_append_of_pos hall, List.takeWhile_append_of_pos hall]
  simp

theorem rsplit_eq_some {sep : Char} {cs xs ys : List Char} (h : rsplit sep cs = some (xs, ys)) :
    cs = xs ++ sep :: ys := by
  have hcut := @List.takeWhile_append_dropWhile _ (fun c => decide (c ≠ sep)) cs.reverse
  unfold rsplit at h
  split at h
  · rename_i c before hdrop
    obtain ⟨hxs, hys⟩ := Prod.mk.inj (Option.some.inj h)
    have hc : c = sep := by
      have hhead := List.head?_dropWhile_not (fun c => decide (c ≠ sep)) cs.reverse
      rw [hdrop] at hhead
      simpa using hhead
    rw [hdrop, hc, ← List.reverse_reverse (List.takeWhile _ _), hys] at hcut
    rw [← List.reverse_reverse cs, ← hcut, ← hxs]
    simp
  · cases h

theorem rsplit_eq_none {sep : Char} {cs : List Char} (h : sep ∉ cs) : rsplit sep cs = none := by
  refine Option.eq_none_iff_forall_ne_some.mpr fun parts hparts => h ?_
  rw [rsplit_eq_some hparts]
  exact List.mem_append_right _ List.mem_cons_self

end Text
