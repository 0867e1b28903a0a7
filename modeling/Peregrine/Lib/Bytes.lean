import Mathlib.Data.List.Basic
import Mathlib.Tactic.NormNum

/-!
# Byte strings

The bytes that travel over a connection are lists of `UInt8`.  Three things are
read out of them here:

* `Bytes n`, what a read of exactly `n` bytes delivers, with its length as a
  field, so that a fixed-size header can be indexed without a bounds check;
* 16-bit numbers in network order, `be16` and `ofBe16`, inverse to each other;
* text: `utf8` encodes, `fromUtf8` decodes strictly (`fromUtf8_eq_some`: it
  succeeds on the encodings and nothing else), and `lossy` decodes anything,
  with a replacement character for each maximal ill-formed subsequence.

`prefix_lossy` says lossy decoding is harmless to an ASCII prefix: the decoded
text starts with it exactly when the bytes do.
-/

/-- Exactly `n` bytes. -/
structure Bytes (n : ℕ) where
  bytes : List UInt8
  length_eq : bytes.length = n
  deriving DecidableEq

namespace Bytes

variable {n : ℕ}

/-! Numerals as indices of short byte strings. -/

instance neZero_one : NeZero 1 := ⟨by decide⟩
instance neZero_two : NeZero 2 := ⟨by decide⟩
instance neZero_four : NeZero 4 := ⟨by decide⟩

def get (b : Bytes n) (i : Fin n) : UInt8 := b.bytes.get (i.cast b.length_eq.symm)

@[ext] theorem ext {a b : Bytes n} (h : a.bytes = b.bytes) : a = b := by
  obtain ⟨as, ha⟩ := a
  obtain ⟨bs, hb⟩ := b
  cases h
  rfl

def ofList (bs : List UInt8) : Bytes bs.length := ⟨bs, rfl⟩

theorem eq_pair (b : Bytes 2) : b.bytes = [b.get 0, b.get 1] := by
  obtain ⟨bs, h⟩ := b
  match bs, h with
  | [_, _], _ => rfl

theorem eq_single (b : Bytes 1) : b.bytes = [b.get 0] := by
  obtain ⟨bs, h⟩ := b
  match bs, h with
  | [_], _ => rfl

theorem eq_quad (b : Bytes 4) : b.bytes = [b.get 0, b.get 1, b.get 2, b.get 3] := by
  obtain ⟨bs, h⟩ := b
  match bs, h with
  | [_, _, _, _], _ => rfl

end Bytes

theorem forall_byte {P : UInt8 → Prop} (h : ∀ n < 256, P (UInt8.ofNat n)) (b : UInt8) : P b := by
  have hb := h b.toNat b.toNat_lt
  rwa [UInt8.ofNat_toNat] at hb

theorem forall_mem_of_all {α : Type*} {p : α → Prop} [DecidablePred p] {l : List α}
    (h : (l.all fun a => decide (p a)) = true) : ∀ a ∈ l, p a :=
  fun a ha => of_decide_eq_true (List.all_eq_true.mp h a ha)

/-! ### Sixteen bits in network order -/

/-- A 16-bit number as two bytes, the high one first. -/
def be16 (p : UInt16) : List UInt8 := [UInt8.ofNat (p.toNat / 256), UInt8.ofNat (p.toNat % 256)]

/-- The number two bytes denote, the high one first. -/
def ofBe16 (hi lo : UInt8) : UInt16 := UInt16.ofNat (hi.toNat * 256 + lo.toNat)

@[simp] theorem length_be16 (p : UInt16) : (be16 p).length = 2 := rfl

theorem be16_ofBe16 (hi lo : UInt8) : be16 (ofBe16 hi lo) = [hi, lo] := by
  have h1 := hi.toNat_lt
  have h2 := lo.toNat_lt
  have hn : (ofBe16 hi lo).toNat = hi.toNat * 256 + lo.toNat :=
    UInt16.toNat_ofNat_of_lt' (by simp only [UInt16.size]; omega)
  have hd : (hi.toNat * 256 + lo.toNat) / 256 = hi.toNat := by omega
  have hm : (hi.toNat * 256 + lo.toNat) % 256 = lo.toNat := by omega
  rw [be16, hn, hd, hm, UInt8.ofNat_toNat, UInt8.ofNat_toNat]

theorem ofBe16_be16 (p : UInt16) :
    ofBe16 (UInt8.ofNat (p.toNat / 256)) (UInt8.ofNat (p.toNat % 256)) = p := by
  have hp := p.toNat_lt
  have h1 : (UInt8.ofNat (p.toNat / 256)).toNat = p.toNat / 256 :=
    UInt8.toNat_ofNat_of_lt' (by simp only [UInt8.size]; omega)
  have h2 : (UInt8.ofNat (p.toNat % 256)).toNat = p.toNat % 256 :=
    UInt8.toNat_ofNat_of_lt' (by simp only [UInt8.size]; omega)
  have hs : p.toNat / 256 * 256 + p.toNat % 256 = p.toNat := by omega
  rw [ofBe16, h1, h2, hs, UInt16.ofNat_toNat]

theorem be16_inj {p q : UInt16} (h : be16 p = be16 q) : p = q := by
  simp only [be16, List.cons.injEq, and_true] at h
  rw [← ofBe16_be16 p, ← ofBe16_be16 q, h.1, h.2]

/-! ### Length-prefixed strings -/

/-- A byte string with its length in one byte in front. -/
def prefixed (bs : List UInt8) : List UInt8 := UInt8.ofNat bs.length :: bs

theorem toNat_ofNat_length {bs : List UInt8} (h : bs.length < 256) :
    (UInt8.ofNat bs.length).toNat = bs.length :=
  UInt8.toNat_ofNat_of_lt' h

/-- **A length-prefixed string ends where its length says**, whatever follows. -/
theorem prefixed_append_inj {as bs r r' : List UInt8} (ha : as.length < 256)
    (hb : bs.length < 256) (h : prefixed as ++ r = prefixed bs ++ r') : as = bs ∧ r = r' := by
  obtain ⟨hl, ht⟩ := List.cons.inj h
  have hlen : as.length = bs.length := by
    rw [← toNat_ofNat_length ha, ← toNat_ofNat_length hb, hl]
  exact List.append_inj ht hlen

theorem prefixed_eq (l : UInt8) (b : Bytes l.toNat) : prefixed b.bytes = l :: b.bytes := by
  rw [prefixed, b.length_eq, UInt8.ofNat_toNat]

/-! ### Text -/

/-- The UTF-8 bytes of a string. -/
def utf8 (s : String) : List UInt8 := s.toByteArray.data.toList

/-- Strict UTF-8 decoding. -/
def fromUtf8 (bs : List UInt8) : Option String := String.fromUTF8? ⟨bs.toArray⟩

theorem utf8_ofList (cs : List Char) :
    utf8 (String.ofList cs) = cs.flatMap String.utf8EncodeChar := by
  rw [utf8, String.toByteArray_ofList, List.utf8Encode, List.data_toByteArray]

theorem utf8_append (s t : String) : utf8 (s ++ t) = utf8 s ++ utf8 t := by
  simp [utf8]

theorem utf8_inj {s t : String} (h : utf8 s = utf8 t) : s = t := by
  apply String.toByteArray_inj.mp
  apply ByteArray.ext
  exact Array.toList_inj.mp h

theorem utf8EncodeChar_ascii {c : Char} (h : c.toNat < 0x80) :
    String.utf8EncodeChar c = [UInt8.ofNat c.toNat] := by
  have hsize : c.utf8Size = 1 :=
    Char.utf8Size_eq_one_iff.mpr (UInt32.le_iff_toNat_le.mpr (Nat.le_of_lt_succ h))
  rw [String.utf8EncodeChar_eq_singleton hsize]
  rfl

theorem utf8_ascii {cs : List Char} (h : ∀ c ∈ cs, c.toNat < 0x80) :
    utf8 (String.ofList cs) = cs.map fun c => UInt8.ofNat c.toNat := by
  rw [utf8_ofList]
  induction cs with
  | nil => rfl
  | cons c cs ih =>
    rw [List.flatMap_cons, List.map_cons, utf8EncodeChar_ascii (h c List.mem_cons_self),
      ih fun x hx => h x (List.mem_cons_of_mem c hx)]
    rfl

theorem mem_utf8 {s : String} {c : Char} (h : c.toNat < 0x80) (hc : c ∈ s.toList) :
    UInt8.ofNat c.toNat ∈ utf8 s := by
  rw [← String.ofList_toList (s := s), utf8_ofList]
  refine List.mem_flatMap.mpr ⟨c, hc, ?_⟩
  rw [utf8EncodeChar_ascii h]
  exact List.mem_singleton.mpr rfl

/-- **Strict decoding accepts exactly the encodings.** -/
theorem fromUtf8_eq_some {bs : List UInt8} {s : String} : fromUtf8 bs = some s ↔ bs = utf8 s := by
  constructor
  · intro h
    rw [fromUtf8, String.fromUTF8?] at h
    split at h
    · cases h
      rfl
    · cases h
  · rintro rfl
    have hv : ByteArray.IsValidUTF8 ⟨(utf8 s).toArray⟩ := s.isValidUTF8
    rw [fromUtf8, String.fromUTF8?, dif_pos hv]
    rfl

@[simp] theorem fromUtf8_utf8 (s : String) : fromUtf8 (utf8 s) = some s :=
  fromUtf8_eq_some.mpr rfl

/-! ### Lossy decoding -/

def replacement : Char := Char.ofNat 0xFFFD

/-- Between two characters, or inside one: `more needed lo hi cp` waits for
`needed` further bytes, the next of them between `lo` and `hi`, and `cp` is what
the bytes seen so far contribute. -/
inductive LossyState
  | start
  | more (needed : ℕ) (lo hi : UInt8) (cp : ℕ)

/-- What a byte at the start of a character emits, and the state after it. -/
def lossyStart (b : UInt8) : List Char × LossyState :=
  if b < 0x80 then ([Char.ofNat b.toNat], .start)
  else if 0xC2 ≤ b ∧ b ≤ 0xDF then ([], .more 1 0x80 0xBF (b.toNat - 0xC0))
  else if b = 0xE0 then ([], .more 2 0xA0 0xBF 0)
  else if b = 0xED then ([], .more 2 0x80 0x9F 0xD)
  else if 0xE1 ≤ b ∧ b ≤ 0xEF then ([], .more 2 0x80 0xBF (b.toNat - 0xE0))
  else if b = 0xF0 then ([], .more 3 0x90 0xBF 0)
  else if b = 0xF4 then ([], .more 3 0x80 0x8F 4)
  else if 0xF1 ≤ b ∧ b ≤ 0xF3 then ([], .more 3 0x80 0xBF (b.toNat - 0xF0))
  else ([replacement], .start)

/-- Decode from a state.  A byte that cannot continue a character ends it with
a replacement and is read again as a start. -/
def lossyFrom : LossyState → List UInt8 → List Char
  | .start, [] => []
  | .more .., [] => [replacement]
  | .start, b :: bs => (lossyStart b).1 ++ lossyFrom (lossyStart b).2 bs
  | .more needed lo hi cp, b :: bs =>
    if lo ≤ b ∧ b ≤ hi then
      let cp' := cp * 64 + (b.toNat - 0x80)
      if needed ≤ 1 then Char.ofNat cp' :: lossyFrom .start bs
      else lossyFrom (.more (needed - 1) 0x80 0xBF cp') bs
    else replacement :: ((lossyStart b).1 ++ lossyFrom (lossyStart b).2 bs)

/-- Decode anything, with replacements for what is not UTF-8. -/
def lossy (bs : List UInt8) : List Char := lossyFrom .start bs

/-- The code points a pending character can end in are scalar values past
ASCII: `cp` counts in units of the 64 values its last byte ranges over. -/
def PendingOk : ℕ → UInt8 → UInt8 → ℕ → Prop
  | 0, _, _, _ => False
  | 1, lo, hi, cp => lo = 0x80 ∧ hi = 0xBF ∧ 2 ≤ cp ∧ (cp < 0x360 ∨ 0x380 ≤ cp) ∧ cp < 0x4400
  | n + 2, lo, hi, cp => ∀ b : UInt8, lo ≤ b → b ≤ hi →
      PendingOk (n + 1) 0x80 0xBF (cp * 64 + (b.toNat - 0x80))

def LossyState.Ok : LossyState → Prop
  | .start => True
  | .more n lo hi cp => PendingOk n lo hi cp

theorem ok_more_two {lo hi : UInt8} {cp : ℕ}
    (h : ∀ x, lo.toNat - 0x80 ≤ x → x ≤ hi.toNat - 0x80 →
      2 ≤ cp * 64 + x ∧ (cp * 64 + x < 0x360 ∨ 0x380 ≤ cp * 64 + x) ∧ cp * 64 + x < 0x4400) :
    PendingOk 2 lo hi cp := by
  intro b hb hb'
  have h1 := UInt8.le_iff_toNat_le.mp hb
  have h2 := UInt8.le_iff_toNat_le.mp hb'
  exact ⟨rfl, rfl, h (b.toNat - 0x80) (by omega) (by omega)⟩

theorem ok_more_three {lo hi : UInt8} {cp : ℕ}
    (h : ∀ x, lo.toNat - 0x80 ≤ x → x ≤ hi.toNat - 0x80 → 16 ≤ cp * 64 + x ∧ cp * 64 + x < 0x110) :
    PendingOk 3 lo hi cp := by
  intro b hb hb'
  have h1 := UInt8.le_iff_toNat_le.mp hb
  have h2 := UInt8.le_iff_toNat_le.mp hb'
  obtain ⟨hl, hu⟩ := h (b.toNat - 0x80) (by omega) (by omega)
  refine ok_more_two fun x _ hx => ?_
  have hx' : x ≤ 63 := hx
  exact ⟨by omega, by omega, by omega⟩

theorem ok_lossyStart (b : UInt8) : (lossyStart b).2.Ok := by
  have hcode : ∀ c : UInt8, b ≤ c ↔ b.toNat ≤ c.toNat := fun c => UInt8.le_iff_toNat_le
  have hcode' : ∀ c : UInt8, c ≤ b ↔ c.toNat ≤ b.toNat := fun c => UInt8.le_iff_toNat_le
  have hcases : ∀ {c : Prop} [Decidable c] {r r' : List Char × LossyState},
      (c → r.2.Ok) → (¬ c → r'.2.Ok) → (ite c r r').2.Ok :=
    iteInduction (motive := fun r : List Char × LossyState => r.2.Ok)
  unfold lossyStart
  refine hcases (fun _ => trivial) fun _ => ?_
  refine hcases (fun h => ?_) fun _ => ?_
  · have h1 : 0xC2 ≤ b.toNat := (hcode' _).mp h.1
    have h2 : b.toNat ≤ 0xDF := (hcode _).mp h.2
    exact ⟨rfl, rfl, by omega, by omega, by omega⟩
  refine hcases (fun _ => ?_) fun _ => ?_
  · refine ok_more_two fun x hx hx' => ?_
    have h1 : 0x20 ≤ x := hx
    have h2 : x ≤ 0x3F := hx'
    omega
  refine hcases (fun _ => ?_) fun hne => ?_
  · refine ok_more_two fun x hx hx' => ?_
    have h2 : x ≤ 0x1F := hx'
    omega
  refine hcases (fun h => ?_) fun _ => ?_
  · have h1 : 0xE1 ≤ b.toNat := (hcode' _).mp h.1
    have h2 : b.toNat ≤ 0xEF := (hcode _).mp h.2
    have h3 : b.toNat ≠ 0xED := fun he => hne (UInt8.toNat_inj.mp he)
    refine ok_more_two fun x hx hx' => ?_
    have h4 : x ≤ 0x3F := hx'
    omega
  refine hcases (fun _ => ?_) fun _ => ?_
  · refine ok_more_three fun x hx hx' => ?_
    have h1 : 0x10 ≤ x := hx
    have h2 : x ≤ 0x3F := hx'
    omega
  refine hcases (fun _ => ?_) fun _ => ?_
  · refine ok_more_three fun x hx hx' => ?_
    have h2 : x ≤ 0xF := hx'
    omega
  refine hcases (fun h => ?_) fun _ => trivial
  · have h1 : 0xF1 ≤ b.toNat := (hcode' _).mp h.1
    have h2 : b.toNat ≤ 0xF3 := (hcode _).mp h.2
    refine ok_more_three fun x hx hx' => ?_
    have h4 : x ≤ 0x3F := hx'
    omega

theorem toNat_ofNat_of_scalar {n : ℕ} (h : n < 0xD800 ∨ (0xE000 ≤ n ∧ n < 0x110000)) :
    (Char.ofNat n).toNat = n := by
  have hv : n.isValidChar := by
    rcases h with h | h
    · exact Or.inl h
    · exact Or.inr ⟨by omega, h.2⟩
  rw [Char.ofNat, dif_pos hv]
  rfl

theorem head_lossyFrom_more {n : ℕ} {lo hi : UInt8} {cp : ℕ} {bs : List UInt8} {c : Char}
    (hok : PendingOk n lo hi cp)
    (hc : (lossyFrom (.more n lo hi cp) bs).head? = some c) : 0x80 ≤ c.toNat := by
  induction bs generalizing n lo hi cp with
  | nil =>
    rw [lossyFrom, List.head?_cons, Option.some.injEq] at hc
    subst hc
    decide
  | cons b bs ih =>
    rw [lossyFrom] at hc
    split at hc
    · rename_i hb
      have h2 := UInt8.le_iff_toNat_le.mp hb.2
      match n, hok with
      | 1, hok =>
        obtain ⟨-, rfl, h3, h4, h5⟩ := hok
        have h6 : b.toNat ≤ 0xBF := h2
        rw [if_pos le_rfl, List.head?_cons, Option.some.injEq] at hc
        subst hc
        rw [toNat_ofNat_of_scalar (by omega)]
        omega
      | n + 2, hok =>
        rw [if_neg (by omega)] at hc
        exact ih (hok b hb.1 hb.2) hc
    · rw [List.head?_cons, Option.some.injEq] at hc
      subst hc
      decide

/-- A byte outside ASCII gives a replacement character at once, or begins a
character of several bytes. -/
theorem lossyStart_of_ge {b : UInt8} (hb : ¬ b < 0x80) :
    lossyStart b = ([replacement], .start) ∨
    ∃ n lo hi cp, lossyStart b = ([], .more n lo hi cp) := by
  rw [lossyStart, if_neg hb]
  -- One round for each kind of leading byte.
  iterate 7
    refine iteInduction (motive := fun r : List Char × LossyState =>
      r = ([replacement], .start) ∨ ∃ n lo hi cp, r = ([], .more n lo hi cp))
      (fun _ => Or.inr ⟨_, _, _, _, rfl⟩) fun _ => ?_
  exact Or.inl rfl

theorem head_lossy_of_ge {b : UInt8} (hb : ¬ b < 0x80) {bs : List UInt8} {c : Char}
    (hc : (lossy (b :: bs)).head? = some c) : 0x80 ≤ c.toNat := by
  have hok := ok_lossyStart b
  rw [lossy, lossyFrom] at hc
  rcases lossyStart_of_ge hb with hs | ⟨n, lo, hi, cp, hs⟩
  · rw [hs, List.cons_append, List.head?_cons, Option.some.injEq] at hc
    subst hc
    decide
  · rw [hs] at hok
    rw [hs, List.nil_append] at hc
    exact head_lossyFrom_more hok hc

theorem lossy_cons_of_lt {b : UInt8} (hb : b < 0x80) (bs : List UInt8) :
    lossy (b :: bs) = Char.ofNat b.toNat :: lossy bs := by
  rw [lossy, lossyFrom, lossyStart, if_pos hb]
  rfl

/-- **Lossy decoding keeps ASCII prefixes**: the text starts with one exactly
when the bytes do. -/
theorem prefix_lossy {as : List UInt8} (ha : ∀ a ∈ as, a < 0x80) (bs : List UInt8) :
    as.map (fun a => Char.ofNat a.toNat) <+: lossy bs ↔ as <+: bs := by
  induction as generalizing bs with
  | nil => simp
  | cons a as ih =>
    have ha1 : a.toNat < 0x80 := UInt8.lt_iff_toNat_lt.mp (ha a List.mem_cons_self)
    cases bs with
    | nil => simp [lossy, lossyFrom]
    | cons b bs =>
      by_cases hb : b < 0x80
      · have hb1 : b.toNat < 0x80 := UInt8.lt_iff_toNat_lt.mp hb
        have hab : Char.ofNat a.toNat = Char.ofNat b.toNat ↔ a = b := by
          constructor
          · intro he
            have hn := congrArg Char.toNat he
            rw [toNat_ofNat_of_scalar (by omega), toNat_ofNat_of_scalar (by omega)] at hn
            exact UInt8.toNat_inj.mp hn
          · rintro rfl
            rfl
        rw [lossy_cons_of_lt hb, List.map_cons, List.cons_prefix_cons, List.cons_prefix_cons, hab,
          ih (fun x hx => ha x (List.mem_cons_of_mem a hx))]
      · constructor
        · rintro ⟨t, ht⟩
          have hc : (lossy (b :: bs)).head? = some (Char.ofNat a.toNat) := by
            rw [← ht]
            rfl
          have := head_lossy_of_ge hb hc
          rw [toNat_ofNat_of_scalar (by omega)] at this
          omega
        · intro h
          obtain ⟨rfl, -⟩ := List.cons_prefix_cons.mp h
          exact absurd (UInt8.lt_iff_toNat_lt.mpr ha1) hb
