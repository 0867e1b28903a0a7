import Peregrine.Lib.Bytes
import Peregrine.Lib.HttpHead
import Peregrine.Lib.NetText

/-!
# Authorities

The target of a CONNECT request is an authority, a host and a port with a colon
between them.  A host is an IP literal in brackets or a registered name, in which
a percent sign and two hexadecimal digits stand for a byte; an IPv4 address is
written as a name.

A name that is written as the bytes it stands for has no percent signs
(`decode_eq_self_iff`).
-/

namespace Authority

open HttpHead (isVisible)

inductive Host
  | ipv6 (groups : List ℕ)
  | future (text : List UInt8)
  | name (bytes : List UInt8)
  deriving DecidableEq

/-! ### Names -/

/-- `unreserved` and `sub-delims`. -/
def isNameByte (b : UInt8) : Bool :=
  0x61 ≤ b && b ≤ 0x7A || 0x41 ≤ b && b ≤ 0x5A || 0x30 ≤ b && b ≤ 0x39 ||
    ([0x2D, 0x2E, 0x5F, 0x7E, 0x21, 0x24, 0x26, 0x27, 0x28, 0x29, 0x2A, 0x2B, 0x2C, 0x3B,
      0x3D] : List UInt8).contains b

/-- The character of an ASCII byte. -/
def toChar (b : UInt8) : Char := Char.ofNat b.toNat

theorem toChar_ofNat {c : Char} (h : c.toNat < 0x80) : toChar (UInt8.ofNat c.toNat) = c := by
  have hn : (UInt8.ofNat c.toNat).toNat = c.toNat :=
    UInt8.toNat_ofNat_of_lt' (Nat.lt_trans h (by decide))
  rw [toChar, hn, Char.ofNat_toNat]

theorem map_toChar_utf8 {s : String} (h : ∀ c ∈ s.toList, c.toNat < 0x80) :
    (utf8 s).map toChar = s.toList := by
  rw [← String.ofList_toList (s := s), utf8_ascii h, String.toList_ofList, List.map_map]
  conv_rhs => rw [← List.map_id s.toList]
  exact List.map_congr_left fun c hc => toChar_ofNat (h c hc)

def hexByte (x y : UInt8) : Option UInt8 :=
  (NetText.toDigit 16 (toChar x)).bind fun m =>
    (NetText.toDigit 16 (toChar y)).map fun n => UInt8.ofNat (m * 16 + n)

def decode : List UInt8 → Option (List UInt8)
  | [] => some []
  | b :: bs =>
    if isNameByte b then (decode bs).map (b :: ·)
    else if b = 0x25 then
      match bs with
      | x :: y :: rest => (hexByte x y).bind fun n => (decode rest).map (n :: ·)
      | _ => none
    else none

/-- A name is the bytes it stands for, or is longer than they are. -/
theorem decode_spec (bs : List UInt8) : ∀ ns, decode bs = some ns →
    (ns = bs ∧ ∀ b ∈ bs, isNameByte b = true) ∨ ns.length < bs.length := by
  fun_induction decode bs with
  | case1 =>
    rintro ns h
    cases h
    exact Or.inl ⟨rfl, nofun⟩
  | case2 b bs hb ih =>
    intro ns h
    obtain ⟨ms, hms, rfl⟩ := Option.map_eq_some_iff.mp h
    rcases ih ms hms with ⟨rfl, hall⟩ | hlt
    · refine Or.inl ⟨rfl, fun x hx => ?_⟩
      rcases List.mem_cons.mp hx with rfl | hx
      · exact hb
      · exact hall x hx
    · exact Or.inr (Nat.succ_lt_succ hlt)
  | case3 x y rest hb ih =>
    intro ns h
    obtain ⟨n, -, h⟩ := Option.bind_eq_some_iff.mp h
    obtain ⟨ms, hms, rfl⟩ := Option.map_eq_some_iff.mp h
    have hle : ms.length ≤ rest.length := by
      rcases ih ms hms with ⟨rfl, -⟩ | hlt
      · exact le_rfl
      · exact hlt.le
    right
    simp only [List.length_cons]
    omega
  | case4 => exact nofun
  | case5 => exact nofun

/-- **A name without percent signs stands for itself**, and no other does. -/
theorem decode_eq_self_iff {bs : List UInt8} :
    decode bs = some bs ↔ ∀ b ∈ bs, isNameByte b = true := by
  constructor
  · intro h
    rcases decode_spec bs bs h with ⟨-, hall⟩ | hlt
    · exact hall
    · exact absurd hlt (lt_irrefl _)
  · intro h
    induction bs with
    | nil => rfl
    | cons b bs ih =>
      unfold decode
      rw [if_pos (h b List.mem_cons_self), ih fun x hx => h x (List.mem_cons_of_mem b hx)]
      rfl

theorem isVisible_of_isNameByte : ∀ {b : UInt8}, isNameByte b = true → isVisible b = true :=
  @(forall_byte (by decide +kernel))

/-! ### IP literals -/

/-- `IPvFuture`. -/
def isFuture : List UInt8 → Bool
  | [] => false
  | v :: rest =>
    let isHex := fun b => NetText.isDigit 16 (toChar b)
    let text := (rest.dropWhile isHex).drop 1
    (v == 0x76 || v == 0x56) && rest.takeWhile isHex != [] &&
      (rest.dropWhile isHex).head? == some 0x2E && text != [] &&
      text.all fun b => isNameByte b || b == 0x3A

def readLiteral : List UInt8 → Option Host
  | [] => none
  | b :: rest =>
    let text := rest.dropLast
    if b = 0x5B ∧ rest.getLast? = some 0x5D then
      ((NetText.parseIpv6Addr (text.map toChar)).map .ipv6).or
        (if isFuture text then some (.future text) else none)
    else none

theorem isVisible_of_ipv6Char {b : UInt8} (h : NetText.Ipv6Char (toChar b)) :
    isVisible b = true := by
  have hall : ∀ b : UInt8, (NetText.isDigit 16 (toChar b) = true ∨ toChar b = ':' ∨
      toChar b = '.') → isVisible b = true := forall_byte (by decide +kernel)
  exact hall b h

theorem isVisible_of_isFuture {bs : List UInt8} (h : isFuture bs = true) :
    ∀ b ∈ bs, isVisible b = true := by
  cases bs with
  | nil => exact nofun
  | cons v rest =>
    simp only [isFuture, Bool.and_eq_true, Bool.or_eq_true, beq_iff_eq, List.all_eq_true] at h
    obtain ⟨⟨⟨⟨hv, -⟩, hdot⟩, -⟩, htext⟩ := h
    have hcut := @List.takeWhile_append_dropWhile _ (fun b => NetText.isDigit 16 (toChar b)) rest
    intro b hb
    rcases List.mem_cons.mp hb with rfl | hb
    · rcases hv with rfl | rfl <;> decide
    rw [← hcut] at hb
    rcases List.mem_append.mp hb with hb | hb
    · have hhex := List.mem_takeWhile_imp hb
      exact isVisible_of_ipv6Char (Or.inl hhex)
    · obtain ⟨text, hrest⟩ := List.head?_eq_some_iff.mp hdot
      rw [hrest] at hb htext
      rcases List.mem_cons.mp hb with rfl | hb
      · decide
      · rcases htext b hb with hname | rfl
        · exact isVisible_of_isNameByte hname
        · decide

theorem readLiteral_spec {bs : List UInt8} {host : Host} (h : readLiteral bs = some host) :
    bs.head? = some 0x5B ∧ (∀ b ∈ bs, isVisible b = true) ∧ ∀ ns, host ≠ .name ns := by
  cases bs with
  | nil => cases h
  | cons b rest =>
    simp only [readLiteral] at h
    split at h
    · rename_i hbracket
      obtain ⟨rfl, hlast⟩ := hbracket
      have hrest : rest = rest.dropLast ++ [0x5D] := by
        obtain ⟨init, hinit⟩ := List.getLast?_eq_some_iff.mp hlast
        rw [hinit, List.dropLast_concat]
      have htext : (∀ b ∈ rest.dropLast, isVisible b = true) ∧ ∀ ns, host ≠ .name ns := by
        rcases Option.or_eq_some_iff.mp h with h | ⟨-, h⟩
        · obtain ⟨gs, hgs, rfl⟩ := Option.map_eq_some_iff.mp h
          refine ⟨fun b hb => ?_, fun _ => nofun⟩
          exact isVisible_of_ipv6Char
            ((NetText.parseIpv6Addr_spec hgs).1 _ (List.mem_map_of_mem hb))
        · split at h
          · rename_i hfuture
            cases h
            exact ⟨isVisible_of_isFuture hfuture, fun _ => nofun⟩
          · cases h
      refine ⟨rfl, fun b hb => ?_, htext.2⟩
      rcases List.mem_cons.mp hb with rfl | hb
      · decide
      rw [hrest] at hb
      rcases List.mem_append.mp hb with hb | hb
      · exact htext.1 b hb
      · obtain rfl := List.mem_singleton.mp hb
        decide
    · cases h

/-! ### Hosts and ports -/

def readHost (bs : List UInt8) : Option Host := (readLiteral bs).or ((decode bs).map .name)

def readPort (ds : List UInt8) : Option ℕ := Text.parseNat 10 (ds.map toChar)

/-- The authority `bs` is that of `host` and `port`. -/
def Reads (bs : List UInt8) (host : Host) (port : ℕ) : Prop :=
  ∃ h ds, bs = h ++ 0x3A :: ds ∧ readHost h = some host ∧ readPort ds = some port

theorem readPort_spec {ds : List UInt8} {port : ℕ} (h : readPort ds = some port) :
    ∀ b ∈ ds, 0x30 ≤ b ∧ b ≤ 0x39 := by
  have hall : ∀ b : UInt8, Text.digitVal (toChar b) < 10 → 0x30 ≤ b ∧ b ≤ 0x39 :=
    forall_byte (by decide +kernel)
  intro b hb
  exact hall b (Text.digitVal_lt_of_parseNat h (toChar b) (List.mem_map_of_mem hb))

theorem behind_append_inj {sep : UInt8} {as bs r r' : List UInt8} (hr : sep ∉ r) (hr' : sep ∉ r')
    (h : as ++ sep :: r = bs ++ sep :: r') : as = bs ∧ r = r' := by
  have hrev := congrArg List.reverse h
  simp only [List.reverse_append, List.reverse_cons, List.append_assoc, List.cons_append,
    List.nil_append] at hrev
  obtain ⟨htail, hhead⟩ := HttpHead.before_append_inj (mt List.mem_reverse.mp hr)
    (mt List.mem_reverse.mp hr') hrev
  exact ⟨List.reverse_injective hhead, List.reverse_injective htail⟩

theorem reads_append_iff {h ds : List UInt8} {host : Host} {port : ℕ}
    (hds : ∀ b ∈ ds, 0x30 ≤ b ∧ b ≤ 0x39) :
    Reads (h ++ 0x3A :: ds) host port ↔ readHost h = some host ∧ readPort ds = some port := by
  have hcolon : ∀ ds : List UInt8, (∀ b ∈ ds, 0x30 ≤ b ∧ b ≤ 0x39) → 0x3A ∉ ds := by
    intro ds hds hm
    exact absurd (hds _ hm).2 (by decide)
  constructor
  · rintro ⟨h', ds', heq, hhost, hport⟩
    obtain ⟨rfl, rfl⟩ := behind_append_inj (hcolon ds hds) (hcolon ds' (readPort_spec hport)) heq
    exact ⟨hhost, hport⟩
  · rintro ⟨hhost, hport⟩
    exact ⟨h, ds, rfl, hhost, hport⟩

end Authority
