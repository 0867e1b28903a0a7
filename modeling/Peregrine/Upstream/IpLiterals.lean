import Peregrine.CoreText
import Peregrine.Upstream.Chain

/-!
# The same endpoint on every path

The address of a proxy is dialled as it stands, sent to the proxy before it in a
chain as a target, and taken apart for the name that TLS is spoken to.  Dialling
reads it as `TcpStream::connect` does; the other two cut it at the last colon and
take what is before for the host, brackets included.

`same_endpoint_iff` says that the three agree on an IP literal exactly if it has
no brackets: `[v6]:port` is sent on as a domain name that nobody has, and is no
name for TLS.
-/

namespace Peregrine

/-! ### What a socket address is written as -/

/-- The address type, octets and port of a socket address in a SOCKS5 request. -/
def SocketAddr.wire : SocketAddr → List UInt8
  | .v4 ip port => 0x01 :: ip.bytes ++ be16 port
  | .v6 ip port _ _ => 0x04 :: ip.bytes ++ be16 port

/-- **The endpoint that is dialled at `addr` is the one asked for, and the one
that TLS is spoken to.** -/
structure SameEndpoint (addr : String) (endpoint : SocketAddr) : Prop where
  target : ∃ target, parseAddrToTarget addr = .ok target ∧
    connectRequest .core target = [0x05, 0x01, 0x00] ++ endpoint.wire
  host : parseIpAddr (extractHost addr) = some endpoint.ip

section

variable {addr : String} {endpoint : SocketAddr}

/-! ### Without brackets -/

/-- **An IPv4 address and a port** are cut apart at the colon and read again. -/
theorem same_of_v4 {octets : List ℕ} {ip : Ipv4Addr} {port : ℕ}
    (h : NetText.parseSocketAddr addr.toList = some (.v4 octets port))
    (hip : PlainText.toBytes 4 octets = some ip) :
    SameEndpoint addr (.v4 ip (UInt16.ofNat port)) ∧ addr.toList.head? ≠ some '[' := by
  obtain ⟨host, digits, haddr, hhost, hnum⟩ := NetText.parseSocketAddr_v4 h
  have hcolon : ':' ∉ digits := by
    intro hmem
    exact absurd (hnum.digits ':' hmem) (by decide)
  have hv4 : IpText.core.parseV4 (String.ofList host) = some ip := by
    simp only [IpText.core, String.toList_ofList]
    rw [hhost, Option.bind_some, hip]
  have hsplit : Text.rsplit ':' addr.toList = some (host, digits) := by
    rw [haddr]
    exact Text.rsplit_append hcolon
  refine ⟨⟨⟨⟨String.ofList host, UInt16.ofNat port⟩, ?_, ?_⟩, ?_⟩, fun hhead => ?_⟩
  · rw [parseAddrToTarget, hsplit]
    simp only [NetText.parseU16_of_numeral hnum]
  · simp only [connectRequest, addressBytes, hv4]
    rfl
  · rw [extractHost, hsplit]
    simp only [parseIpAddr, hv4, Option.map_some]
    rfl
  · -- the first character is a digit
    obtain ⟨hdot, hlen⟩ := NetText.parseIpv4Addr_eq_some.mp hhost
    rw [haddr] at hhead
    cases hdot with
    | nil => cases hlen
    | @cons _ n ds cs ns hn hs =>
      rw [if_neg (Nat.lt_irrefl 0), List.nil_append, List.append_assoc,
        List.head?_append_of_ne_nil _ hn.ne] at hhead
      exact absurd (hn.digits '[' (List.mem_of_mem_head? hhead)) (by decide)

/-! ### With brackets -/

theorem core_parseV4_bracket {cs : List Char} :
    IpText.core.parseV4 (String.ofList ('[' :: cs)) = none := by
  have hv4 : NetText.parseIpv4Addr ('[' :: cs) = none := by
    refine Option.eq_none_iff_forall_ne_some.mpr fun ns h => ?_
    have hchars := (NetText.parseIpv4Addr_eq_some.mp h).1.chars '[' List.mem_cons_self
    exact absurd hchars (by decide)
  simp only [IpText.core, String.toList_ofList, hv4, Option.bind_none]

theorem core_parseV6_bracket {cs : List Char} :
    IpText.core.parseV6 (String.ofList ('[' :: cs)) = none := by
  have hv6 : NetText.parseIpv6Addr ('[' :: cs) = none := by
    refine Option.eq_none_iff_forall_ne_some.mpr fun gs h => ?_
    have hchars := (NetText.parseIpv6Addr_spec h).1 '[' List.mem_cons_self
    unfold NetText.Ipv6Char at hchars
    exact absurd hchars (by decide)
  simp only [IpText.core, String.toList_ofList, hv6, Option.bind_none]

theorem rsplit_bracket {rest host digits : List Char}
    (h : Text.rsplit ':' ('[' :: rest) = some (host, digits)) : ∃ cs, host = '[' :: cs := by
  have hcs := Text.rsplit_eq_some h
  cases host with
  | nil => exact absurd (List.cons.inj hcs).1 (by decide)
  | cons c cs =>
    rw [← (List.cons.inj hcs).1]
    exact ⟨cs, rfl⟩

/-- **What begins with a bracket is sent on as a domain name**, whatever the address. -/
theorem target_of_bracket (h : addr.toList.head? = some '[') {target : ConnectTarget}
    (ht : parseAddrToTarget addr = .ok target) :
    connectRequest .core target =
      [0x05, 0x01, 0x00] ++ 0x03 :: prefixed (utf8 target.host) ++ be16 target.port := by
  obtain ⟨rest, hrest⟩ := List.head?_eq_some_iff.mp h
  rw [parseAddrToTarget, hrest] at ht
  split at ht
  · rename_i host digits hsplit
    obtain ⟨cs, rfl⟩ := rsplit_bracket hsplit
    split at ht
    · cases ht
      simp only [connectRequest, addressBytes, core_parseV4_bracket, core_parseV6_bracket]
    · cases ht
  · cases ht

/-- **What begins with a bracket is no IP address to TLS**: the bracket stays on the host. -/
theorem host_of_bracket (h : addr.toList.head? = some '[') :
    parseIpAddr (extractHost addr) = none := by
  obtain ⟨rest, hrest⟩ := List.head?_eq_some_iff.mp h
  have hhost : ∃ cs, extractHost addr = String.ofList ('[' :: cs) := by
    rw [extractHost, hrest]
    split
    · rename_i host digits hsplit
      obtain ⟨cs, rfl⟩ := rsplit_bracket hsplit
      exact ⟨cs, rfl⟩
    · exact ⟨rest, by rw [← hrest, String.ofList_toList]⟩
  obtain ⟨cs, hcs⟩ := hhost
  rw [hcs, parseIpAddr, core_parseV4_bracket, core_parseV6_bracket]
  rfl

end

/-- **When an IP literal is the same endpoint on every path**: exactly if it is
written without brackets. -/
theorem same_endpoint_iff {addr : String} {endpoint : SocketAddr}
    (h : parseSocketAddr addr = some endpoint) :
    SameEndpoint addr endpoint ↔ addr.toList.head? ≠ some '[' := by
  constructor
  · intro hsame hhead
    have hhost := hsame.host
    rw [host_of_bracket hhead] at hhost
    cases hhost
  · intro hhead
    unfold parseSocketAddr at h
    obtain ⟨parts, hparts, h⟩ := Option.bind_eq_some_iff.mp h
    cases parts with
    | v4 octets port =>
      obtain ⟨ip, hip, rfl⟩ := Option.map_eq_some_iff.mp h
      exact (same_of_v4 hparts hip).1
    | v6 gs scopeId port => exact absurd (NetText.parseSocketAddr_v6 hparts) hhead

theorem same_endpoint_loopback :
    SameEndpoint "127.0.0.1:1080" (.v4 (Ipv4Addr.new 127 0 0 1) 1080) :=
  (@same_endpoint_iff "127.0.0.1:1080" _ (by decide +kernel)).mpr (by decide)

/-- **`[2001:db8::1]:1080` is dialled as an IPv6 address, and asked for as the
domain name `[2001:db8::1]`.** -/
theorem bracketed_literal_differs :
    let ip : Ipv6Addr := ⟨[0x20, 0x01, 0x0d, 0xb8, 0, 0, 0, 0, 0, 0, 0, 0, 0, 0, 0, 1], rfl⟩
    parseSocketAddr "[2001:db8::1]:1080" = some (.v6 ip 1080 0 0) ∧
      (¬ ∃ target, parseAddrToTarget "[2001:db8::1]:1080" = .ok target ∧
        connectRequest .core target =
          [0x05, 0x01, 0x00] ++ (SocketAddr.v6 ip 1080 0 0).wire) ∧
      parseIpAddr (extractHost "[2001:db8::1]:1080") ≠ some (.v6 ip) := by
  intro ip
  refine ⟨by decide +kernel, ?_, ?_⟩
  · rintro ⟨target, ht, hwire⟩
    rw [target_of_bracket (by decide) ht] at hwire
    -- the address types differ
    have hatyp : (0x03 : UInt8) = 0x04 := Option.some.inj (congrArg (fun bs => bs[3]?) hwire)
    exact absurd hatyp (by decide)
  · rw [host_of_bracket (by decide)]
    exact Option.some_ne_none _ ∘ Eq.symm

end Peregrine
