import Peregrine.Lib.NetFormat
import Peregrine.PlainText

/-!
# The text forms of the standard library

`IpText.core` is how `Ipv4Addr` and `Ipv6Addr` of the Rust standard library are
printed and parsed, and `parseSocketAddr` what `TcpStream::connect` takes for a
socket address before it asks a resolver.  What is printed is parsed
(`core_lawful`), so all that the development says of `IpText.Lawful` holds of it.
-/

namespace Peregrine

open PlainText (toBytes groups ungroup)

/-- The text forms of `core::net`. -/
def IpText.core : IpText where
  parseV4 s := (NetText.parseIpv4Addr s.toList).bind (toBytes 4)
  parseV6 s := (NetText.parseIpv6Addr s.toList).bind fun gs => toBytes 16 (ungroup gs)
  showV4 a := String.ofList (NetText.showIpv4Addr (a.bytes.map UInt8.toNat))
  showV6 a := String.ofList (NetText.showIpv6Addr (groups (a.bytes.map UInt8.toNat)))

/-- `IpAddr::from_str`. -/
def parseIpAddr (s : String) : Option IpAddr :=
  ((IpText.core.parseV4 s).map .v4).or ((IpText.core.parseV6 s).map .v6)

/-- `SocketAddr::from_str`. -/
def parseSocketAddr (s : String) : Option SocketAddr :=
  (NetText.parseSocketAddr s.toList).bind fun parts =>
    match parts with
    | .v4 octets port => (toBytes 4 octets).map fun ip => .v4 ip (UInt16.ofNat port)
    | .v6 gs scopeId port =>
      (toBytes 16 (ungroup gs)).map fun ip => .v6 ip (UInt16.ofNat port) 0 (UInt32.ofNat scopeId)

theorem PlainText.groups_spec (k : ℕ) : ∀ ns : List ℕ, ns.length = 2 * k → (∀ n ∈ ns, n < 256) →
    (groups ns).length = k ∧ ∀ g ∈ groups ns, g < 65536 := by
  induction k with
  | zero =>
    intro ns hlen _
    rw [List.length_eq_zero_iff.mp hlen]
    exact ⟨rfl, nofun⟩
  | succ k ih =>
    intro ns hlen hall
    match ns, hlen with
    | a :: b :: ns, hlen =>
      have ha : a < 256 := hall a (by simp)
      have hb : b < 256 := hall b (by simp)
      obtain ⟨hk, hlt⟩ := ih ns (by simp only [List.length_cons] at hlen; omega)
        fun n hn => hall n (by simp [hn])
      refine ⟨by rw [groups, List.length_cons, hk], fun g hg => ?_⟩
      rcases List.mem_cons.mp hg with rfl | hg
      · omega
      · exact hlt g hg

/-- **What the standard library prints, it parses.** -/
theorem IpText.core_lawful : IpText.core.Lawful where
  v4 a := by
    have hlen : (a.bytes.map UInt8.toNat).length = 4 := by rw [List.length_map, a.length_eq]
    simp only [IpText.core, String.toList_ofList]
    rw [NetText.parseIpv4Addr_showIpv4Addr hlen (PlainText.map_toNat_lt _), Option.bind_some]
    exact PlainText.toBytes_toNat a
  v6 a := by
    have hlen : (a.bytes.map UInt8.toNat).length = 2 * 8 := by rw [List.length_map, a.length_eq]
    obtain ⟨h8, hlt⟩ := PlainText.groups_spec 8 _ hlen (PlainText.map_toNat_lt _)
    simp only [IpText.core, String.toList_ofList]
    rw [NetText.parseIpv6Addr_showIpv6Addr h8 hlt, Option.bind_some,
      PlainText.ungroup_groups 8 _ hlen (PlainText.map_toNat_lt _)]
    exact PlainText.toBytes_toNat a

end Peregrine
