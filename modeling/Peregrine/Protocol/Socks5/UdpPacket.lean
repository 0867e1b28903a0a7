import Peregrine.Protocol.Socks5.Grammar

/-!
# SOCKS5 UDP packets

The header of a relayed datagram, as `protocol/socks5/udp_associate.rs` reads
and writes it.  The two fit together: `parse_build` reads back what was built,
and `build_parse` says that nothing else is accepted.
-/

namespace Peregrine

/-- The address and the payload behind the four fixed bytes of the header. -/
def parseUdpAddress (atyp : UInt8) (data : List UInt8) :
    Except ProxyError (TargetAddr × List UInt8) :=
  match atyp with
  | 0x01 =>
    match Wire.cut 4 data with
    | some (ip, hi :: lo :: payload) => .ok (.ipv4 ip (ofBe16 hi lo), payload)
    | _ => .error (.socks5 "IPv4 address incomplete")
  | 0x03 =>
    match data with
    | [] => .error (.socks5 "Domain length missing")
    | len :: data =>
      match Wire.cut len.toNat data with
      | some (domain, hi :: lo :: payload) =>
        match fromUtf8 domain.bytes with
        | some name => .ok (.domain name (ofBe16 hi lo), payload)
        | none => .error (.socks5 "Invalid domain encoding")
      | _ => .error (.socks5 "Domain name incomplete")
  | 0x04 =>
    match Wire.cut 16 data with
    | some (ip, hi :: lo :: payload) => .ok (.ipv6 ip (ofBe16 hi lo), payload)
    | _ => .error (.socks5 "IPv6 address incomplete")
  | atyp => .error (.socks5 ("Unknown address type: " ++ toString atyp.toNat))

/-- `parse_socks5_udp_packet`. -/
def parseSocks5UdpPacket (data : List UInt8) : Except ProxyError (TargetAddr × List UInt8) :=
  if data.length < 7 then .error (.socks5 "UDP packet too short")
  else
    match data with
    | rsv :: rsv' :: frag :: atyp :: rest =>
      if rsv ≠ 0x00 ∨ rsv' ≠ 0x00 then .error (.socks5 "Invalid RSV field")
      else if frag ≠ 0x00 then .error (.socks5 "Fragmentation not supported")
      else parseUdpAddress atyp rest
    | _ => .error (.socks5 "UDP packet too short")

/-- `build_socks5_udp_response`. -/
def buildSocks5UdpResponse (source : TargetAddr) (payload : List UInt8) :
    Except ProxyError (List UInt8) :=
  .ok ([0x00, 0x00, 0x00, source.atyp] ++ source.bytes ++ payload)

/-- `resolve_target_addr`, with the answer of the DNS resolver. -/
def resolveTargetAddr (lookupHost : String → Except IoError (List SocketAddr)) :
    TargetAddr → Except ProxyError SocketAddr
  | .ipv4 ip port => .ok (.v4 ip port)
  | .ipv6 ip port => .ok (.v6 ip port 0 0)
  | .domain domain port =>
    match lookupHost (domain ++ ":" ++ toString port.toNat) with
    | .error e => .error (.io e)
    | .ok (addr :: _) => .ok addr
    | .ok [] => .error (.socks5 ("Failed to resolve domain: " ++ domain))

/-! ### Reading what was written -/

theorem parseUdpAddress_bytes {t : TargetAddr} (h : t.Fits) (payload : List UInt8) :
    parseUdpAddress t.atyp (t.bytes ++ payload) = .ok (t, payload) := by
  cases t with
  | ipv4 addr port =>
    rw [TargetAddr.bytes, List.append_assoc]
    simp only [TargetAddr.atyp, parseUdpAddress, Wire.cut_append, be16, List.cons_append,
      List.nil_append, ofBe16_be16]
  | domain name port =>
    have hlen := toNat_ofNat_length h
    have hcut : Wire.cut (UInt8.ofNat (utf8 name).length).toNat
        (utf8 name ++ (be16 port ++ payload)) =
          some (⟨utf8 name, hlen.symm⟩, be16 port ++ payload) :=
      Wire.cut_append ⟨utf8 name, hlen.symm⟩ _
    rw [TargetAddr.bytes, List.append_assoc]
    simp only [TargetAddr.atyp, parseUdpAddress, prefixed, List.cons_append, hcut]
    simp only [be16, List.cons_append, List.nil_append, fromUtf8_utf8, ofBe16_be16]
  | ipv6 addr port =>
    rw [TargetAddr.bytes, List.append_assoc]
    simp only [TargetAddr.atyp, parseUdpAddress, Wire.cut_append, be16, List.cons_append,
      List.nil_append, ofBe16_be16]

theorem three_le_length_bytes (t : TargetAddr) : 3 ≤ t.bytes.length := by
  cases t with
  | ipv4 addr port => simp [TargetAddr.bytes, addr.length_eq]
  | domain name port => simp [TargetAddr.bytes, prefixed]
  | ipv6 addr port => simp [TargetAddr.bytes, addr.length_eq]

/-- **A packet that was built is read back.** -/
theorem parse_build {t : TargetAddr} (h : t.Fits) (payload : List UInt8) :
    parseSocks5UdpPacket ([0x00, 0x00, 0x00, t.atyp] ++ t.bytes ++ payload) = .ok (t, payload) := by
  have hlen := three_le_length_bytes t
  have hshort : ¬ ([0x00, 0x00, 0x00, t.atyp] ++ t.bytes ++ payload).length < 7 := by
    simp only [List.length_append, List.length_cons, List.length_nil]
    omega
  have hcons : [0x00, 0x00, 0x00, t.atyp] ++ t.bytes ++ payload =
      0x00 :: 0x00 :: 0x00 :: t.atyp :: (t.bytes ++ payload) := rfl
  unfold parseSocks5UdpPacket
  rw [if_neg hshort, hcons]
  simp only [ne_eq, not_true_eq_false, or_self, if_false]
  exact parseUdpAddress_bytes h payload

theorem parseUdpAddress_eq_ok {atyp : UInt8} {data payload : List UInt8} {t : TargetAddr}
    (h : parseUdpAddress atyp data = .ok (t, payload)) :
    atyp = t.atyp ∧ t.Fits ∧ data = t.bytes ++ payload := by
  unfold parseUdpAddress at h
  split at h
  · split at h
    · rename_i ip hi lo rest hcut
      cases h
      refine ⟨rfl, trivial, ?_⟩
      rw [Wire.cut_eq_some.mp hcut, TargetAddr.bytes, be16_ofBe16, List.append_assoc]
      rfl
    · cases h
  · split at h
    · cases h
    · rename_i len data
      split at h
      · rename_i domain hi lo rest hcut
        split at h
        · rename_i name hname
          cases h
          have hb := fromUtf8_eq_some.mp hname
          refine ⟨rfl, ?_, ?_⟩
          · rw [TargetAddr.Fits, ← hb, domain.length_eq]
            exact len.toNat_lt
          · rw [Wire.cut_eq_some.mp hcut, TargetAddr.bytes, be16_ofBe16, ← hb, prefixed_eq]
            simp only [List.cons_append, List.nil_append, List.append_assoc]
        · cases h
      · cases h
  · split at h
    · rename_i ip hi lo rest hcut
      cases h
      refine ⟨rfl, trivial, ?_⟩
      rw [Wire.cut_eq_some.mp hcut, TargetAddr.bytes, be16_ofBe16, List.append_assoc]
      rfl
    · cases h
  · cases h

/-- **Nothing else is accepted**: what parses is what building it gives. -/
theorem build_parse {data payload : List UInt8} {t : TargetAddr}
    (h : parseSocks5UdpPacket data = .ok (t, payload)) :
    t.Fits ∧ data = [0x00, 0x00, 0x00, t.atyp] ++ t.bytes ++ payload := by
  unfold parseSocks5UdpPacket at h
  split at h
  · cases h
  · split at h
    · rename_i rsv rsv' frag atyp rest _
      split at h
      · cases h
      · rename_i hrsv
        split at h
        · cases h
        · rename_i hfrag
          simp only [ne_eq, not_or, not_not] at hrsv hfrag
          obtain ⟨rfl, hfit, rfl⟩ := parseUdpAddress_eq_ok h
          obtain ⟨rfl, rfl⟩ := hrsv
          subst hfrag
          exact ⟨hfit, by simp only [List.cons_append, List.nil_append]⟩
    · cases h

end Peregrine
