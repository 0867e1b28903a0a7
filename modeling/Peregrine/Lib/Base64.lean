import Mathlib.Data.List.Basic
import Mathlib.Tactic.IntervalCases

/-!
# Base64

The standard alphabet with padding.  `encode` takes three bytes to four
characters; `decode` accepts the canonical encodings and nothing else: it reads
the groups back and compares the encoding of what it read with its input.  Reading
the groups of an encoding gives back the bytes (`groups_encode`), so `decode` is
the inverse of `encode` (`decode_eq_some`).
-/

namespace Base64

def alphabet : List Char :=
  "ABCDEFGHIJKLMNOPQRSTUVWXYZabcdefghijklmnopqrstuvwxyz0123456789+/".toList

/-- The character of a 6-bit digit. -/
def digit (n : ℕ) : Char := alphabet.getD n '='

/-- The 6-bit digit of a character; anything else counts as `0`. -/
def value (c : Char) : ℕ := if c ∈ alphabet then alphabet.idxOf c else 0

def encode : List UInt8 → List Char
  | [] => []
  | [a] => [digit (a.toNat / 4), digit (a.toNat % 4 * 16), '=', '=']
  | [a, b] =>
    [digit (a.toNat / 4), digit (a.toNat % 4 * 16 + b.toNat / 16), digit (b.toNat % 16 * 4), '=']
  | a :: b :: c :: rest =>
    digit (a.toNat / 4) :: digit (a.toNat % 4 * 16 + b.toNat / 16) ::
      digit (b.toNat % 16 * 4 + c.toNat / 64) :: digit (c.toNat % 64) :: encode rest

theorem digit_mem (n : ℕ) : digit n ∈ '=' :: alphabet := by
  rw [digit, List.getD_eq_getElem?_getD]
  cases hn : alphabet[n]? with
  | none => exact List.mem_cons_self
  | some c => exact List.mem_cons_of_mem _ (List.mem_of_getElem? hn)

theorem mem_encode (bs : List UInt8) : ∀ c ∈ encode bs, c ∈ '=' :: alphabet := by
  fun_induction encode bs with
  | case1 => exact nofun
  | case2 a =>
    intro c hc
    simp only [List.mem_cons, List.not_mem_nil, or_false] at hc
    rcases hc with rfl | rfl | rfl | rfl
    · exact digit_mem _
    · exact digit_mem _
    · exact List.mem_cons_self
    · exact List.mem_cons_self
  | case3 a b =>
    intro c hc
    simp only [List.mem_cons, List.not_mem_nil, or_false] at hc
    rcases hc with rfl | rfl | rfl | rfl
    · exact digit_mem _
    · exact digit_mem _
    · exact digit_mem _
    · exact List.mem_cons_self
  | case4 a b c rest ih =>
    intro x hx
    simp only [List.mem_cons] at hx
    rcases hx with rfl | rfl | rfl | rfl | hx
    · exact digit_mem _
    · exact digit_mem _
    · exact digit_mem _
    · exact digit_mem _
    · exact ih x hx

theorem encode_ne_nil {bs : List UInt8} (h : bs ≠ []) : encode bs ≠ [] := by
  unfold encode
  split
  · exact absurd rfl h
  · exact List.cons_ne_nil _ _
  · exact List.cons_ne_nil _ _
  · exact List.cons_ne_nil _ _

/-- Read the groups of four back, whatever they are. -/
def groups : List Char → List UInt8
  | [p, q, '=', '='] => [UInt8.ofNat (value p * 4 + value q / 16)]
  | [p, q, r, '='] =>
    [UInt8.ofNat (value p * 4 + value q / 16), UInt8.ofNat (value q % 16 * 16 + value r / 4)]
  | p :: q :: r :: s :: rest =>
    UInt8.ofNat (value p * 4 + value q / 16) :: UInt8.ofNat (value q % 16 * 16 + value r / 4) ::
      UInt8.ofNat (value r % 4 * 64 + value s) :: groups rest
  | _ => []

/-- Decode a canonical encoding. -/
def decode (cs : List Char) : Option (List UInt8) :=
  if encode (groups cs) = cs then some (groups cs) else none

/-! ### Reading an encoding -/

theorem value_digit : ∀ n < 64, value (digit n) = n ∧ digit n ≠ '=' := by decide +kernel

theorem ofNat_eq_of_toNat {n : ℕ} {b : UInt8} (h : n = b.toNat) : UInt8.ofNat n = b := by
  rw [h, UInt8.ofNat_toNat]

/-- **The groups of an encoding are the bytes.** -/
theorem groups_encode (bs : List UInt8) : groups (encode bs) = bs := by
  fun_induction encode bs with
  | case1 => rfl
  | case2 a =>
    have ha := a.toNat_lt
    obtain ⟨hp, -⟩ := value_digit (a.toNat / 4) (by omega)
    obtain ⟨hq, -⟩ := value_digit (a.toNat % 4 * 16) (by omega)
    rw [groups, hp, hq]
    exact List.cons_eq_cons.mpr ⟨ofNat_eq_of_toNat (by omega), rfl⟩
  | case3 a b =>
    have ha := a.toNat_lt
    have hb := b.toNat_lt
    obtain ⟨hp, -⟩ := value_digit (a.toNat / 4) (by omega)
    obtain ⟨hq, -⟩ := value_digit (a.toNat % 4 * 16 + b.toNat / 16) (by omega)
    obtain ⟨hr, hne⟩ := value_digit (b.toNat % 16 * 4) (by omega)
    rw [groups, hp, hq, hr]
    · refine List.cons_eq_cons.mpr ⟨ofNat_eq_of_toNat (by omega), ?_⟩
      exact List.cons_eq_cons.mpr ⟨ofNat_eq_of_toNat (by omega), rfl⟩
    · exact hne
  | case4 a b c rest ih =>
    have ha := a.toNat_lt
    have hb := b.toNat_lt
    have hc := c.toNat_lt
    obtain ⟨hp, -⟩ := value_digit (a.toNat / 4) (by omega)
    obtain ⟨hq, -⟩ := value_digit (a.toNat % 4 * 16 + b.toNat / 16) (by omega)
    obtain ⟨hr, -⟩ := value_digit (b.toNat % 16 * 4 + c.toNat / 64) (by omega)
    obtain ⟨hs, hne⟩ := value_digit (c.toNat % 64) (by omega)
    rw [groups, hp, hq, hr, hs, ih]
    · refine List.cons_eq_cons.mpr ⟨ofNat_eq_of_toNat (by omega), ?_⟩
      refine List.cons_eq_cons.mpr ⟨ofNat_eq_of_toNat (by omega), ?_⟩
      exact List.cons_eq_cons.mpr ⟨ofNat_eq_of_toNat (by omega), rfl⟩
    · exact fun _ h _ => hne h
    · exact fun h _ => hne h

/-- **Decoding is the inverse of encoding.** -/
theorem decode_eq_some {cs : List Char} {bs : List UInt8} :
    decode cs = some bs ↔ encode bs = cs := by
  unfold decode
  constructor
  · intro h
    split_ifs at h with hc
    cases h
    exact hc
  · rintro rfl
    rw [groups_encode, if_pos rfl]

end Base64
