import Peregrine.Lib.Text
import Peregrine.Net

/-!
# A text form of IP addresses

`IpText` leaves open how the standard library prints and parses addresses, and
`IpText.Lawful` is what the rest of the development asks of it.  Here is one
that meets it (`plain_lawful`): four decimal numbers between dots, and eight
hexadecimal numbers between colons.
-/

namespace Peregrine

/-- Parsing the text form of an address gives the address back. -/
structure IpText.Lawful (std : IpText) : Prop where
  v4 : ∀ a, std.parseV4 (std.showV4 a) = some a
  v6 : ∀ a, std.parseV6 (std.showV6 a) = some a

namespace PlainText

/-- The numbers of a text in base `b` between separators. -/
def parseParts (b : ℕ) (sep : Char) (s : String) : Option (List ℕ) :=
  (s.toList.splitOn sep).mapM (Text.parseNat b)

def showParts (b : ℕ) (sep : Char) (ns : List ℕ) : String :=
  String.ofList ([sep].intercalate (ns.map (Nat.toDigits b)))

theorem parseParts_showParts {b : ℕ} {sep : Char} (hb : 1 < b) (hb' : b ≤ 16)
    (hsep : ∀ n, sep ∉ Nat.toDigits b n) {ns : List ℕ} (hns : ns ≠ []) :
    parseParts b sep (showParts b sep ns) = some ns := by
  have hsplit : ([sep].intercalate (ns.map (Nat.toDigits b))).splitOn sep =
      ns.map (Nat.toDigits b) := by
    refine List.splitOn_intercalate sep ?_ (by simpa using hns)
    intro l hl
    obtain ⟨n, -, rfl⟩ := List.mem_map.mp hl
    exact hsep n
  rw [parseParts, showParts, String.toList_ofList, hsplit]
  clear hsplit hns
  induction ns with
  | nil => rfl
  | cons n ns ih =>
    rw [List.map_cons, List.mapM_cons, ih, Text.parseNat_toDigits hb hb']
    rfl

theorem parseParts_of_head {b : ℕ} {sep c : Char} {cs : List Char} (hsep : c ≠ sep)
    (hc : b ≤ Text.digitVal c) : parseParts b sep (String.ofList (c :: cs)) = none := by
  rw [parseParts, String.toList_ofList, List.splitOn, List.splitOnP_cons_eq_if_modifyHead,
    if_neg (by simpa using hsep)]
  cases hrest : cs.splitOnP (· == sep) with
  | nil => exact absurd hrest (List.splitOnP_ne_nil _ _)
  | cons part parts =>
    have hhead : Text.parseNat b (c :: part) = none := by
      show Text.parseDigits b 0 (c :: part) = none
      rw [Text.parseDigits, if_neg (by omega)]
    rw [List.modifyHead_cons, List.mapM_cons, hhead]
    rfl

/-- The numbers as bytes, if they are `n` and each of them is one. -/
def toBytes (n : ℕ) (ns : List ℕ) : Option (Bytes n) :=
  if h : ns.length = n then
    if ∀ k ∈ ns, k < 256 then some ⟨ns.map UInt8.ofNat, by rw [List.length_map, h]⟩ else none
  else none

theorem map_toNat_lt (bs : List UInt8) : ∀ n ∈ bs.map UInt8.toNat, n < 256 := by
  intro n hn
  obtain ⟨x, -, rfl⟩ := List.mem_map.mp hn
  exact x.toNat_lt

theorem toBytes_toNat {n : ℕ} (a : Bytes n) : toBytes n (a.bytes.map UInt8.toNat) = some a := by
  have hlen : (a.bytes.map UInt8.toNat).length = n := by rw [List.length_map, a.length_eq]
  rw [toBytes, dif_pos hlen, if_pos (map_toNat_lt a.bytes)]
  refine congrArg some (Bytes.ext ?_)
  show (a.bytes.map UInt8.toNat).map UInt8.ofNat = a.bytes
  rw [List.map_map]
  exact (List.map_congr_left fun x _ => UInt8.ofNat_toNat).trans (List.map_id _)

def groups : List ℕ → List ℕ
  | a :: b :: ns => (a * 256 + b) :: groups ns
  | _ => []

def ungroup (ns : List ℕ) : List ℕ := ns.flatMap fun n => [n / 256, n % 256]

theorem ungroup_groups (k : ℕ) : ∀ ns : List ℕ, ns.length = 2 * k → (∀ n ∈ ns, n < 256) →
    ungroup (groups ns) = ns := by
  induction k with
  | zero =>
    intro ns hlen _
    rw [List.length_eq_zero_iff.mp hlen]
    rfl
  | succ k ih =>
    intro ns hlen hall
    match ns, hlen with
    | a :: b :: ns, hlen =>
      have hb : b < 256 := hall b (by simp)
      have hrest := ih ns (by simp only [List.length_cons] at hlen; omega)
        fun n hn => hall n (by simp [hn])
      show [(a * 256 + b) / 256, (a * 256 + b) % 256] ++ ungroup (groups ns) = _
      rw [hrest, show (a * 256 + b) / 256 = a by omega, show (a * 256 + b) % 256 = b by omega]
      rfl

end PlainText

open PlainText in
/-- Dotted decimal numbers, and hexadecimal groups between colons. -/
def IpText.plain : IpText where
  parseV4 s := (parseParts 10 '.' s).bind (toBytes 4)
  parseV6 s := (parseParts 16 ':' s).bind fun ns => toBytes 16 (ungroup ns)
  showV4 a := showParts 10 '.' (a.bytes.map UInt8.toNat)
  showV6 a := showParts 16 ':' (groups (a.bytes.map UInt8.toNat))

open PlainText in
theorem IpText.plain_lawful : IpText.plain.Lawful where
  v4 a := by
    have hne : a.bytes.map UInt8.toNat ≠ [] := by
      intro h
      have := congrArg List.length h
      rw [List.length_map, a.length_eq] at this
      cases this
    simp only [IpText.plain]
    rw [parseParts_showParts (by decide) (by decide)
      (Text.not_mem_toDigits (by decide) (by decide) (by decide)) hne]
    exact toBytes_toNat a
  v6 a := by
    have hlen : (a.bytes.map UInt8.toNat).length = 2 * 8 := by rw [List.length_map, a.length_eq]
    have hun := ungroup_groups 8 _ hlen (map_toNat_lt _)
    have hne : groups (a.bytes.map UInt8.toNat) ≠ [] := by
      intro h
      rw [h] at hun
      rw [← hun] at hlen
      cases hlen
    simp only [IpText.plain]
    rw [parseParts_showParts (by decide) (by decide)
      (Text.not_mem_toDigits (by decide) (by decide) (by decide)) hne, Option.bind_some, hun]
    exact toBytes_toNat a

end Peregrine
