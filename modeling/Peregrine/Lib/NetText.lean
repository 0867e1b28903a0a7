import Mathlib.Data.List.TakeWhile
import Mathlib.Tactic.IntervalCases
import Peregrine.Lib.Text

/-!
# IP addresses as text

The parser that the Rust standard library has for IP addresses and socket
addresses (`core::net`), on lists of characters.  A reader takes what it reads
off the front, and nothing where it fails; `parse` wants all of a text read.

A number, or an IPv4 address, is read the same whatever comes behind it that is
no digit (`readNumber_eq_some`, `readIpv4Addr_eq_some`).  An IPv6 address is made
of hexadecimal digits, colons and dots, with at least one colon
(`readIpv6Addr_spec`).
-/

namespace NetText

/-- A reader takes something off the front of a text. -/
abbrev Reader (α : Type) := List Char → Option (α × List Char)

variable {α : Type}

/-- Nothing may be left. -/
def parse (r : Reader α) (cs : List Char) : Option α :=
  match r cs with
  | some (a, []) => some a
  | _ => none

/-- `read_given_char`. -/
def readGivenChar (target : Char) : Reader Unit
  | c :: cs => if c = target then some ((), cs) else none
  | [] => none

/-- `read_separator`: the separator comes before all but the first. -/
def readSeparator (sep : Char) (index : ℕ) (inner : Reader α) : Reader α := fun cs =>
  if 0 < index then (readGivenChar sep cs).bind fun r => inner r.2 else inner cs

/-! ### Numbers -/

/-- `char::to_digit`. -/
def toDigit (radix : ℕ) (c : Char) : Option ℕ :=
  let d :=
    if '0' ≤ c ∧ c ≤ '9' then c.toNat - 48
    else if 'a' ≤ c ∧ c ≤ 'z' then c.toNat - 87
    else if 'A' ≤ c ∧ c ≤ 'Z' then c.toNat - 55
    else radix
  if d < radix then some d else none

def isDigit (radix : ℕ) (c : Char) : Bool := (toDigit radix c).isSome

/-- The value of digits that follow the number `n`. -/
def valueFrom (radix : ℕ) (n : ℕ) (ds : List Char) : ℕ :=
  ds.foldl (fun n c => n * radix + (toDigit radix c).getD 0) n

/-- Digits that are read as the number `n`: not too many of them, no zero in
front where that is not allowed, and a value below the bound. -/
structure Numeral (radix : ℕ) (maxDigits : Option ℕ) (allowZeroPrefix : Bool) (bound : ℕ)
    (ds : List Char) (n : ℕ) : Prop where
  ne : ds ≠ []
  digits : ∀ c ∈ ds, isDigit radix c = true
  short : ∀ m ∈ maxDigits, ds.length ≤ m
  zero : allowZeroPrefix = false → ds.head? = some '0' → ds.length ≤ 1
  value : valueFrom radix 0 ds = n
  fits : n < bound

/-- `read_number`: the digits as far as they go. -/
def readNumber (radix : ℕ) (maxDigits : Option ℕ) (allowZeroPrefix : Bool) (bound : ℕ) : Reader ℕ :=
  fun cs =>
    let ds := cs.takeWhile (isDigit radix)
    let n := valueFrom radix 0 ds
    if ds = [] then none
    else if maxDigits.any (· < ds.length) then none
    else if !allowZeroPrefix && ds.head? == some '0' && 1 < ds.length then none
    else if n < bound then some (n, cs.dropWhile (isDigit radix))
    else none

/-- The text does not go on with a digit. -/
def NoDigit (radix : ℕ) (cs : List Char) : Prop := ∀ c ∈ cs.head?, isDigit radix c = false

theorem takeWhile_append_stop {p : Char → Bool} {ds rest : List Char} (hd : ∀ c ∈ ds, p c = true)
    (hr : ∀ c ∈ rest.head?, p c = false) :
    (ds ++ rest).takeWhile p = ds ∧ (ds ++ rest).dropWhile p = rest := by
  rw [List.takeWhile_append_of_pos hd, List.dropWhile_append_of_pos hd]
  cases rest with
  | nil => exact ⟨List.append_nil ds, rfl⟩
  | cons c cs =>
    have hc : p c = false := hr c rfl
    rw [List.takeWhile_cons_of_neg (by simp [hc]), List.dropWhile_cons_of_neg (by simp [hc])]
    exact ⟨List.append_nil ds, rfl⟩

/-- **What a number is.** -/
theorem readNumber_eq_some {radix : ℕ} {maxDigits : Option ℕ} {allowZeroPrefix : Bool} {bound : ℕ}
    {cs rest : List Char} {n : ℕ} :
    readNumber radix maxDigits allowZeroPrefix bound cs = some (n, rest) ↔
      ∃ ds, cs = ds ++ rest ∧ Numeral radix maxDigits allowZeroPrefix bound ds n ∧
        NoDigit radix rest := by
  constructor
  · intro h
    unfold readNumber at h
    simp only at h
    split at h
    · cases h
    rename_i hne
    split at h
    · cases h
    rename_i hshort
    split at h
    · cases h
    rename_i hzero
    split at h
    · rename_i hfits
      obtain ⟨rfl, rfl⟩ := Prod.mk.inj (Option.some.inj h)
      refine ⟨cs.takeWhile (isDigit radix), List.takeWhile_append_dropWhile.symm,
        ⟨hne, fun c hc => List.mem_takeWhile_imp hc, fun m hm => ?_, fun hallow hhead => ?_, rfl,
          hfits⟩, fun c hc => ?_⟩
      · rw [hm] at hshort
        simpa using hshort
      · simpa [hallow, hhead] using hzero
      · have hnot := List.head?_dropWhile_not (isDigit radix) cs
        rw [hc] at hnot
        simpa using hnot
    · cases h
  · rintro ⟨ds, rfl, h, hrest⟩
    obtain ⟨htake, hdrop⟩ := takeWhile_append_stop h.digits hrest
    unfold readNumber
    simp only [htake, hdrop]
    rw [if_neg h.ne, if_neg ?_, if_neg ?_, h.value, if_pos h.fits]
    · intro hzero
      simp only [Bool.and_eq_true, Bool.not_eq_true', beq_iff_eq, decide_eq_true_eq] at hzero
      have := h.zero hzero.1.1 hzero.1.2
      omega
    · intro hany
      rw [Option.any_eq_true] at hany
      obtain ⟨m, hm, hlt⟩ := hany
      have := h.short m hm
      rw [decide_eq_true_eq] at hlt
      omega

theorem digitVal_of_isDigit {c : Char} (h : isDigit 10 c = true) :
    toDigit 10 c = some (Text.digitVal c) ∧ Text.digitVal c < 10 := by
  have hle : ∀ a b : Char, a ≤ b ↔ a.toNat ≤ b.toNat := fun a b => UInt32.le_iff_toNat_le
  have hrange : 48 ≤ c.toNat ∧ c.toNat ≤ 57 := by
    unfold isDigit toDigit at h
    simp only [hle] at h
    have h0 : '0'.toNat = 48 := rfl
    have h9 : '9'.toNat = 57 := rfl
    have ha : 'a'.toNat = 97 := rfl
    have hA : 'A'.toNat = 65 := rfl
    split_ifs at h <;> first | omega | cases h
  obtain ⟨n, hn, rfl⟩ : ∃ n, c.toNat = n ∧ c = Char.ofNat n := ⟨_, rfl, (Char.ofNat_toNat c).symm⟩
  rw [hn] at hrange
  obtain ⟨hlow, hhigh⟩ := hrange
  clear h hn
  interval_cases n <;> decide

theorem parseDigits_eq {ds : List Char} (h : ∀ c ∈ ds, isDigit 10 c = true) (acc : ℕ) :
    Text.parseDigits 10 acc ds = some (valueFrom 10 acc ds) := by
  induction ds generalizing acc with
  | nil => rfl
  | cons c cs ih =>
    obtain ⟨hval, hlt⟩ := digitVal_of_isDigit (h c List.mem_cons_self)
    have hstep : valueFrom 10 acc (c :: cs) = valueFrom 10 (acc * 10 + Text.digitVal c) cs := by
      rw [valueFrom, List.foldl_cons, hval]
      rfl
    rw [Text.parseDigits, if_pos hlt, hstep]
    exact ih (fun d hd => h d (List.mem_cons_of_mem c hd)) _

theorem parseU16_of_numeral {ds : List Char} {n : ℕ} (h : Numeral 10 none true 65536 ds n) :
    Text.parseU16 ds = some (UInt16.ofNat n) := by
  have hparse := parseDigits_eq h.digits 0
  have hplus : Text.dropPlus ds = ds := by
    unfold Text.dropPlus
    split
    · rename_i cs
      exact absurd (h.digits '+' List.mem_cons_self) (by decide)
    · rfl
  have hnat : Text.parseNat 10 ds = some n := by
    rw [h.value] at hparse
    cases ds with
    | nil => exact absurd rfl h.ne
    | cons c cs => exact hparse
  rw [Text.parseU16, hplus, hnat, Option.bind_some, if_pos h.fits]
/-! ### Addresses -/

/-- The numbers that follow one another between dots, from the `i`th on. -/
def readOctets : ℕ → ℕ → Reader (List ℕ)
  | 0, _, cs => some ([], cs)
  | n + 1, i, cs =>
    (readSeparator '.' i (readNumber 10 (some 3) false 256) cs).bind fun r =>
      (readOctets n (i + 1) r.2).map fun rs => (r.1 :: rs.1, rs.2)

/-- `read_ipv4_addr`: the octets. -/
def readIpv4Addr : Reader (List ℕ) := readOctets 4 0

def pairs : List ℕ → List ℕ
  | a :: b :: ns => (a * 256 + b) :: pairs ns
  | _ => []

/-- `read_groups`, with `n` places left from the `i`th on: the groups read, whether
the last two are an IPv4 address, and what is left. -/
def readGroups : ℕ → ℕ → List Char → List ℕ × Bool × List Char
  | 0, _, cs => ([], false, cs)
  | n + 1, i, cs =>
    match if 0 < n then readSeparator ':' i readIpv4Addr cs else none with
    | some (octets, rest) => (pairs octets, true, rest)
    | none =>
      match readSeparator ':' i (readNumber 16 (some 4) true 65536) cs with
      | some (g, rest) =>
        let r := readGroups n (i + 1) rest
        (g :: r.1, r.2)
      | none => ([], false, cs)

/-- `read_ipv6_addr`: the eight groups. -/
def readIpv6Addr : Reader (List ℕ) := fun cs =>
  let head := readGroups 8 0 cs
  if head.1.length = 8 then some (head.1, head.2.2)
  -- no IPv4 address before `::`
  else if head.2.1 then none
  else
    (readGivenChar ':' head.2.2).bind fun r =>
      (readGivenChar ':' r.2).map fun r' =>
        let tail := readGroups (8 - (head.1.length + 1)) 0 r'.2
        (head.1 ++ List.replicate (8 - head.1.length - tail.1.length) 0 ++ tail.1, tail.2.2)

/-- `Ipv4Addr::from_str`. -/
def parseIpv4Addr (cs : List Char) : Option (List ℕ) :=
  -- not even tried if it is too long
  if 15 < cs.length then none else parse readIpv4Addr cs

/-- `Ipv6Addr::from_str`. -/
def parseIpv6Addr (cs : List Char) : Option (List ℕ) := parse readIpv6Addr cs

/-! ### Socket addresses -/

/-- `read_port`. -/
def readPort : Reader ℕ := fun cs =>
  (readGivenChar ':' cs).bind fun r => readNumber 10 none true 65536 r.2

/-- `read_scope_id`. -/
def readScopeId : Reader ℕ := fun cs =>
  (readGivenChar '%' cs).bind fun r => readNumber 10 none true (2 ^ 32) r.2

inductive SocketParts
  | v4 (octets : List ℕ) (port : ℕ)
  | v6 (groups : List ℕ) (scopeId : ℕ) (port : ℕ)
  deriving DecidableEq

/-- `read_socket_addr_v4`. -/
def readSocketAddrV4 : Reader SocketParts := fun cs =>
  (readIpv4Addr cs).bind fun ip =>
    (readPort ip.2).map fun port => (.v4 ip.1 port.1, port.2)

/-- `read_socket_addr_v6`. -/
def readSocketAddrV6 : Reader SocketParts := fun cs =>
  (readGivenChar '[' cs).bind fun r =>
    (readIpv6Addr r.2).bind fun ip =>
      let scope := (readScopeId ip.2).getD (0, ip.2)
      (readGivenChar ']' scope.2).bind fun r' =>
        (readPort r'.2).map fun port => (.v6 ip.1 scope.1 port.1, port.2)

/-- `SocketAddr::from_str`. -/
def parseSocketAddr (cs : List Char) : Option SocketParts :=
  parse (fun cs => (readSocketAddrV4 cs).or (readSocketAddrV6 cs)) cs

theorem parse_eq_some {r : Reader α} {cs : List Char} {a : α} :
    parse r cs = some a ↔ r cs = some (a, []) := by
  unfold parse
  split
  · rename_i b heq
    rw [heq]
    simp
  · rename_i hne
    refine iff_of_false nofun fun h => ?_
    exact hne a h

theorem readGivenChar_eq_some {target : Char} {cs rest : List Char} {u : Unit} :
    readGivenChar target cs = some (u, rest) ↔ cs = target :: rest := by
  cases cs with
  | nil => exact iff_of_false nofun nofun
  | cons c cs =>
    rw [readGivenChar]
    split
    · rename_i hc
      subst hc
      simp
    · rename_i hc
      refine iff_of_false nofun fun h => ?_
      exact hc (List.cons.inj h).1

theorem readSeparator_eq_some {sep : Char} {i : ℕ} {inner : Reader α} {cs rest : List Char}
    {a : α} :
    readSeparator sep i inner cs = some (a, rest) ↔
      ∃ ds, cs = (if 0 < i then [sep] else []) ++ ds ∧ inner ds = some (a, rest) := by
  unfold readSeparator
  by_cases hi : 0 < i
  · simp only [if_pos hi, Option.bind_eq_some_iff, Prod.exists, readGivenChar_eq_some]
    constructor
    · rintro ⟨-, ds, rfl, h⟩
      exact ⟨ds, rfl, h⟩
    · rintro ⟨ds, rfl, h⟩
      exact ⟨(), ds, rfl, h⟩
  · simp only [if_neg hi, List.nil_append]
    exact ⟨fun h => ⟨cs, rfl, h⟩, fun ⟨_, hcs, h⟩ => hcs ▸ h⟩

/-! ### IPv4 addresses -/

/-- Decimal numbers below 256 with a dot before each, from the second number on. -/
inductive Dotted : ℕ → List Char → List ℕ → Prop
  | nil (i : ℕ) : Dotted i [] []
  | cons {i n : ℕ} {ds cs : List Char} {ns : List ℕ} (hn : Numeral 10 (some 3) false 256 ds n)
    (hs : Dotted (i + 1) cs ns) : Dotted i ((if 0 < i then ['.'] else []) ++ ds ++ cs) (n :: ns)

theorem Dotted.lt {i : ℕ} {cs : List Char} {ns : List ℕ} (h : Dotted i cs ns) :
    ∀ n ∈ ns, n < 256 := by
  induction h with
  | nil i => exact nofun
  | cons hn hs ih =>
    intro k hk
    rcases List.mem_cons.mp hk with rfl | hk
    · exact hn.fits
    · exact ih k hk

theorem Dotted.chars {i : ℕ} {cs : List Char} {ns : List ℕ} (h : Dotted i cs ns) :
    ∀ c ∈ cs, isDigit 10 c = true ∨ c = '.' := by
  induction h with
  | nil i => exact nofun
  | @cons i n ds cs ns hn hs ih =>
    intro c hc
    rcases List.mem_append.mp hc with hc | hc
    · rcases List.mem_append.mp hc with hc | hc
      · split at hc
        · exact Or.inr (List.mem_singleton.mp hc)
        · cases hc
      · exact Or.inl (hn.digits c hc)
    · exact ih c hc

theorem Dotted.length_le {i : ℕ} {cs : List Char} {ns : List ℕ} (h : Dotted i cs ns) :
    cs.length + (if i = 0 ∧ ns ≠ [] then 1 else 0) ≤ 4 * ns.length := by
  induction h with
  | nil i => simp
  | @cons i n ds cs ns hn hs ih =>
    have hds := hn.short 3 rfl
    rw [if_neg (by omega)] at ih
    simp only [List.length_append, List.length_cons, ne_eq, reduceCtorEq, not_false_eq_true,
      and_true]
    by_cases hi : i = 0
    · rw [if_neg (by omega), if_pos hi]
      simp only [List.length_nil]
      omega
    · rw [if_pos (by omega), if_neg hi]
      simp only [List.length_cons, List.length_nil]
      omega

theorem isDigit_dot (radix : ℕ) : isDigit radix '.' = false := by
  unfold isDigit toDigit
  simp

theorem Dotted.noDigit {i : ℕ} {cs rest : List Char} {ns : List ℕ} (h : Dotted (i + 1) cs ns)
    (hr : ns = [] → NoDigit 10 rest) : NoDigit 10 (cs ++ rest) := by
  cases h with
  | nil => exact hr rfl
  | cons hn hs =>
    rw [if_pos (Nat.succ_pos i)]
    intro c hc
    cases hc
    exact isDigit_dot 10

/-- **Numbers between dots are read as such**, before anything but a digit. -/
theorem readOctets_eq_some {n i : ℕ} {cs rest : List Char} {ns : List ℕ} :
    readOctets n i cs = some (ns, rest) ↔ ∃ ds, cs = ds ++ rest ∧ Dotted i ds ns ∧ ns.length = n ∧
      (ns ≠ [] → NoDigit 10 rest) := by
  induction n generalizing i cs ns with
  | zero =>
    constructor
    · intro h
      cases h
      exact ⟨[], rfl, .nil i, rfl, fun h => absurd rfl h⟩
    · rintro ⟨ds, rfl, h, hlen, -⟩
      obtain rfl := List.length_eq_zero_iff.mp hlen
      cases h
      rfl
  | succ n ih =>
    simp only [readOctets, Option.bind_eq_some_iff, Option.map_eq_some_iff, Prod.exists,
      readSeparator_eq_some, readNumber_eq_some, Prod.mk.injEq]
    constructor
    · rintro ⟨k, mid, ⟨ds, rfl, ds', rfl, hk, hmid⟩, ks, last, hrest, rfl, rfl⟩
      obtain ⟨es, rfl, hdot, hlen, hno⟩ := ih.mp hrest
      refine ⟨_, ?_, .cons hk hdot, by rw [List.length_cons, hlen], fun _ => ?_⟩
      · simp only [List.append_assoc]
      · cases ks with
        | nil =>
          cases hdot
          exact hmid
        | cons k ks => exact hno (List.cons_ne_nil _ _)
    · rintro ⟨ds, rfl, hdot, hlen, hno⟩
      cases hdot with
      | nil => cases hlen
      | @cons _ k ds' es ks hk hdot =>
        have hrest := hno (List.cons_ne_nil _ _)
        refine ⟨k, es ++ rest, ⟨ds' ++ (es ++ rest), ?_, ds', rfl, hk, hdot.noDigit fun _ => hrest⟩,
          ks, rest, ih.mpr ⟨es, rfl, hdot, Nat.succ.inj hlen, fun _ => hrest⟩, rfl, rfl⟩
        simp only [List.append_assoc]

theorem readIpv4Addr_eq_some {cs rest : List Char} {ns : List ℕ} :
    readIpv4Addr cs = some (ns, rest) ↔ ∃ ds, cs = ds ++ rest ∧ Dotted 0 ds ns ∧ ns.length = 4 ∧
      NoDigit 10 rest := by
  rw [readIpv4Addr, readOctets_eq_some]
  refine exists_congr fun ds => and_congr_right fun _ => and_congr_right fun _ =>
    and_congr_right fun hlen => ⟨fun h => h ?_, fun h _ => h⟩
  rintro rfl
  cases hlen

/-- **An IPv4 address is four numbers between dots.** -/
theorem parseIpv4Addr_eq_some {cs : List Char} {ns : List ℕ} :
    parseIpv4Addr cs = some ns ↔ Dotted 0 cs ns ∧ ns.length = 4 := by
  unfold parseIpv4Addr
  constructor
  · intro h
    split at h
    · cases h
    · obtain ⟨ds, rfl, hdot, hlen, -⟩ := readIpv4Addr_eq_some.mp (parse_eq_some.mp h)
      rw [List.append_nil]
      exact ⟨hdot, hlen⟩
  · rintro ⟨hdot, hlen⟩
    have hle := hdot.length_le
    have hne : ns ≠ [] := by
      rintro rfl
      cases hlen
    rw [if_pos ⟨rfl, hne⟩] at hle
    rw [if_neg (by omega)]
    exact parse_eq_some.mpr (readIpv4Addr_eq_some.mpr ⟨cs, (List.append_nil cs).symm, hdot, hlen,
      nofun⟩)

/-! ### IPv6 addresses -/

theorem isDigit_mono {r r' : ℕ} (hr : r ≤ r') {c : Char} (h : isDigit r c = true) :
    isDigit r' c = true := by
  unfold isDigit toDigit at h ⊢
  simp only at h ⊢
  split_ifs at h ⊢ <;> first | rfl | omega

/-- What IPv6 addresses are written with. -/
def Ipv6Char (c : Char) : Prop := isDigit 16 c = true ∨ c = ':' ∨ c = '.'

theorem Ipv6Char.ascii {c : Char} (h : Ipv6Char c) : c.toNat < 0x80 := by
  have hle : ∀ a b : Char, a ≤ b ↔ a.toNat ≤ b.toNat := fun a b => UInt32.le_iff_toNat_le
  rcases h with h | rfl | rfl
  · unfold isDigit toDigit at h
    simp only [hle] at h
    have h9 : '9'.toNat = 57 := rfl
    have hz : 'z'.toNat = 122 := rfl
    have hZ : 'Z'.toNat = 90 := rfl
    split_ifs at h <;> first | omega | cases h
  · decide
  · decide

theorem pairs_spec : ∀ ns : List ℕ, (∀ n ∈ ns, n < 256) →
    (pairs ns).length = ns.length / 2 ∧ ∀ g ∈ pairs ns, g < 65536
  | [], _ => ⟨rfl, nofun⟩
  | [_], _ => ⟨by simp [pairs], nofun⟩
  | a :: b :: ns, h => by
    obtain ⟨hlen, hlt⟩ := pairs_spec ns fun n hn =>
      h n (List.mem_cons_of_mem a (List.mem_cons_of_mem b hn))
    have ha := h a List.mem_cons_self
    have hb := h b (List.mem_cons_of_mem a List.mem_cons_self)
    refine ⟨by simp only [pairs, List.length_cons, hlen]; omega, fun g hg => ?_⟩
    rcases List.mem_cons.mp hg with rfl | hg
    · omega
    · exact hlt g hg

/-- `ds` is what the groups `gs` were read from, at most `n` of them from the `i`-th
on: two of them have a colon between them, unless they are an IPv4 address. -/
structure GroupText (n i : ℕ) (ds : List Char) (gs : List ℕ) (ipv4 : Bool) : Prop where
  chars : ∀ c ∈ ds, Ipv6Char c
  short : gs.length ≤ n
  lt : ∀ g ∈ gs, g < 65536
  first : 0 < i → gs ≠ [] → ':' ∈ ds
  colon : ipv4 = false ∨ 2 < gs.length → 1 < gs.length → ':' ∈ ds

/-- What a separator before the `i`-th group adds. -/
def groupSep (i : ℕ) : List Char := if 0 < i then [':'] else []

theorem chars_groupSep {i : ℕ} {ds : List Char} (h : ∀ c ∈ ds, Ipv6Char c) :
    ∀ c ∈ groupSep i ++ ds, Ipv6Char c := by
  intro c hc
  rcases List.mem_append.mp hc with hc | hc
  · unfold groupSep at hc
    split at hc
    · exact Or.inr (Or.inl (List.mem_singleton.mp hc))
    · cases hc
  · exact h c hc

theorem colon_groupSep {i : ℕ} {ds : List Char} (hi : 0 < i) : ':' ∈ groupSep i ++ ds := by
  rw [groupSep, if_pos hi]
  exact List.mem_cons_self

theorem GroupText.nil {n i : ℕ} : GroupText n i [] [] false where
  chars _ hc := absurd hc List.not_mem_nil
  short := Nat.zero_le n
  lt _ hg := absurd hg List.not_mem_nil
  first _ h := absurd rfl h
  colon _ h := absurd h (Nat.not_lt_zero 1)

theorem GroupText.ipv4 {n i : ℕ} {ds : List Char} {octets : List ℕ} (hn : 0 < n)
    (hdot : Dotted 0 ds octets) (hlen : octets.length = 4) :
    GroupText (n + 1) i (groupSep i ++ ds) (pairs octets) true := by
  obtain ⟨hplen, hplt⟩ := pairs_spec octets hdot.lt
  rw [hlen] at hplen
  refine ⟨chars_groupSep fun c hc => ?_, by omega, hplt, fun hi _ => colon_groupSep hi,
    fun h _ => ?_⟩
  · exact (hdot.chars c hc).imp (isDigit_mono (by omega)) Or.inr
  · rcases h with h | h
    · cases h
    · omega

theorem GroupText.cons {n i g : ℕ} {ds fs : List Char} {gs : List ℕ} {ipv4 : Bool}
    (hnum : Numeral 16 (some 4) true 65536 ds g) (h : GroupText n (i + 1) fs gs ipv4) :
    GroupText (n + 1) i (groupSep i ++ ds ++ fs) (g :: gs) ipv4 where
  chars c hc := by
    rcases List.mem_append.mp hc with hc | hc
    · exact chars_groupSep (fun c hc => Or.inl (hnum.digits c hc)) c hc
    · exact h.chars c hc
  short := Nat.succ_le_succ h.short
  lt k hk := by
    rcases List.mem_cons.mp hk with rfl | hk
    · exact hnum.fits
    · exact h.lt k hk
  first hi _ := List.mem_append_left _ (colon_groupSep hi)
  colon _ h1 := by
    refine List.mem_append_right _ (h.first (Nat.succ_pos i) ?_)
    rintro rfl
    exact absurd h1 (Nat.lt_irrefl 1)

/-- **What groups are made of.** -/
theorem readGroups_spec (n i : ℕ) (cs : List Char) : ∃ ds, cs = ds ++ (readGroups n i cs).2.2 ∧
    GroupText n i ds (readGroups n i cs).1 (readGroups n i cs).2.1 := by
  induction n generalizing i cs with
  | zero => exact ⟨[], rfl, .nil⟩
  | succ n ih =>
    rw [readGroups]
    cases hv4 : (if 0 < n then readSeparator ':' i readIpv4Addr cs else none) with
    | some r =>
      obtain ⟨octets, rest⟩ := r
      obtain ⟨hn, hread⟩ : 0 < n ∧ readSeparator ':' i readIpv4Addr cs = some (octets, rest) := by
        split at hv4
        · exact ⟨‹_›, hv4⟩
        · cases hv4
      obtain ⟨es, rfl, hip⟩ := readSeparator_eq_some.mp hread
      obtain ⟨ds, rfl, hdot, hlen, -⟩ := readIpv4Addr_eq_some.mp hip
      exact ⟨groupSep i ++ ds, (List.append_assoc _ _ _).symm, .ipv4 hn hdot hlen⟩
    | none =>
      cases hg : readSeparator ':' i (readNumber 16 (some 4) true 65536) cs with
      | none => exact ⟨[], rfl, .nil⟩
      | some r =>
        obtain ⟨g, rest⟩ := r
        obtain ⟨es, rfl, hread⟩ := readSeparator_eq_some.mp hg
        obtain ⟨ds, rfl, hnum, -⟩ := readNumber_eq_some.mp hread
        obtain ⟨fs, hfs, hmore⟩ := ih (i + 1) rest
        refine ⟨groupSep i ++ ds ++ fs, ?_, .cons hnum hmore⟩
        rw [List.append_assoc, List.append_assoc, ← hfs]
        rfl

/-- **An IPv6 address is eight groups, written with a colon.** -/
theorem readIpv6Addr_spec {cs rest : List Char} {gs : List ℕ}
    (h : readIpv6Addr cs = some (gs, rest)) : ∃ ds, cs = ds ++ rest ∧ (∀ c ∈ ds, Ipv6Char c) ∧
      ':' ∈ ds ∧ gs.length = 8 ∧ ∀ g ∈ gs, g < 65536 := by
  unfold readIpv6Addr at h
  obtain ⟨ds, hds, hhead⟩ := readGroups_spec 8 0 cs
  simp only at h
  split at h
  · rename_i h8
    obtain ⟨rfl, rfl⟩ := Prod.mk.inj (Option.some.inj h)
    exact ⟨ds, hds, hhead.chars, hhead.colon (Or.inr (by omega)) (by omega), h8, hhead.lt⟩
  · rename_i h8
    split at h
    · cases h
    · simp only [Option.bind_eq_some_iff, Option.map_eq_some_iff, Prod.exists,
        readGivenChar_eq_some, Prod.mk.injEq] at h
      obtain ⟨-, mid, hmid, -, last, rfl, rfl, rfl⟩ := h
      obtain ⟨es, hes, htail⟩ :=
        readGroups_spec (8 - ((readGroups 8 0 cs).1.length + 1)) 0 last
      have hshort := hhead.short
      have hshort' := htail.short
      refine ⟨ds ++ (':' :: ':' :: es), ?_, fun c hc => ?_, ?_, ?_, fun g hg => ?_⟩
      · rw [List.append_assoc, List.cons_append, List.cons_append, ← hes, ← hmid]
        exact hds
      · rcases List.mem_append.mp hc with hc | hc
        · exact hhead.chars c hc
        · rcases List.mem_cons.mp hc with rfl | hc
          · exact Or.inr (Or.inl rfl)
          · rcases List.mem_cons.mp hc with rfl | hc
            · exact Or.inr (Or.inl rfl)
            · exact htail.chars c hc
      · exact List.mem_append_right _ List.mem_cons_self
      · simp only [List.length_append, List.length_replicate]
        omega
      · rcases List.mem_append.mp hg with hg | hg
        · rcases List.mem_append.mp hg with hg | hg
          · exact hhead.lt g hg
          · rw [List.eq_of_mem_replicate hg]
            decide
        · exact htail.lt g hg

theorem parseIpv6Addr_spec {cs : List Char} {gs : List ℕ} (h : parseIpv6Addr cs = some gs) :
    (∀ c ∈ cs, Ipv6Char c) ∧ ':' ∈ cs ∧ gs.length = 8 ∧ ∀ g ∈ gs, g < 65536 := by
  obtain ⟨ds, rfl, hchars, hcolon, hlen, hlt⟩ := readIpv6Addr_spec (parse_eq_some.mp h)
  rw [List.append_nil]
  exact ⟨hchars, hcolon, hlen, hlt⟩

/-! ### Socket addresses -/

/-- **A socket address without brackets is an IPv4 address and a port.** -/
theorem parseSocketAddr_v4 {cs : List Char} {octets : List ℕ} {port : ℕ}
    (h : parseSocketAddr cs = some (.v4 octets port)) : ∃ ds ps, cs = ds ++ ':' :: ps ∧
      parseIpv4Addr ds = some octets ∧ Numeral 10 none true 65536 ps port := by
  rcases Option.or_eq_some_iff.mp (parse_eq_some.mp h) with hv4 | ⟨-, hv6⟩
  · simp only [readSocketAddrV4, Option.bind_eq_some_iff, Option.map_eq_some_iff, Prod.exists,
      Prod.mk.injEq, SocketParts.v4.injEq] at hv4
    obtain ⟨ns, mid, hip, n, last, hport, ⟨rfl, rfl⟩, rfl⟩ := hv4
    obtain ⟨ds, rfl, hdot, hlen, -⟩ := readIpv4Addr_eq_some.mp hip
    simp only [readPort, Option.bind_eq_some_iff, Prod.exists, readGivenChar_eq_some,
      readNumber_eq_some] at hport
    obtain ⟨-, -, rfl, ps, rfl, hnum, -⟩ := hport
    exact ⟨ds, ps, by rw [List.append_nil], parseIpv4Addr_eq_some.mpr ⟨hdot, hlen⟩, hnum⟩
  · simp only [readSocketAddrV6, Option.bind_eq_some_iff, Option.map_eq_some_iff, Prod.mk.injEq,
      reduceCtorEq, false_and, and_false, exists_false] at hv6

/-- **With an IPv6 address, a socket address starts with a bracket.** -/
theorem parseSocketAddr_v6 {cs : List Char} {gs : List ℕ} {scopeId port : ℕ}
    (h : parseSocketAddr cs = some (.v6 gs scopeId port)) : cs.head? = some '[' := by
  rcases Option.or_eq_some_iff.mp (parse_eq_some.mp h) with hv4 | ⟨-, hv6⟩
  · simp only [readSocketAddrV4, Option.bind_eq_some_iff, Option.map_eq_some_iff, Prod.mk.injEq,
      reduceCtorEq, false_and, and_false, exists_false] at hv4
  · simp only [readSocketAddrV6, Option.bind_eq_some_iff, Prod.exists, readGivenChar_eq_some] at hv6
    obtain ⟨-, rest, rfl, -⟩ := hv6
    rfl

end NetText
