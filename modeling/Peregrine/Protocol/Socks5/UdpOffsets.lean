import Peregrine.Protocol.Socks5.Accept
import Peregrine.Protocol.Socks5.UdpPacket

/-!
# The UDP packet parser and its offsets

`parse_socks5_udp_packet` walks its datagram with an absolute offset, and every
index and every slice of it is bounds-checked: one that is out of range stops
the process.  `parseSocks5UdpPacketAt` keeps those accesses; it is `none` where
one of them fails.

None fails (`parseSocks5UdpPacketAt_eq`): the offsets deliver what
`parseSocks5UdpPacket` takes apart by pattern matching.  With `parse_build` and
`build_parse` the parser and the builder are inverse to each other on exactly
the datagrams the builder makes (`udp_packet_codec_bijective`).

The request of a TCP client carries the same address, read field by field off
its stream.  `address_decoders_agree` says the two decoders accept the same
bytes and leave the same rest.
-/

namespace Peregrine

/-! ### Checked accesses -/

/-- `&data[offset..offset + n]`; `none` where it is out of range. -/
def sliceAt (data : List UInt8) (offset n : ℕ) : Option (Bytes n) :=
  if h : offset + n ≤ data.length then
    some ⟨(data.drop offset).take n, by rw [List.length_take, List.length_drop]; omega⟩
  else none

/-- `&data[offset..]`; `none` where it is out of range. -/
def tailAt (data : List UInt8) (offset : ℕ) : Option (List UInt8) :=
  if offset ≤ data.length then some (data.drop offset) else none

/-- `u16::from_be_bytes([data[offset], data[offset + 1]])`. -/
def be16At (data : List UInt8) (offset : ℕ) : Option UInt16 := do
  let hi ← data[offset]?
  let lo ← data[offset + 1]?
  return ofBe16 hi lo

theorem sliceAt_eq {data rest : List UInt8} {offset n : ℕ} {b : Bytes n}
    (h : data.drop offset = b.bytes ++ rest) (hoff : offset ≤ data.length) :
    sliceAt data offset n = some b := by
  have hlen : data.length - offset = n + rest.length := by
    rw [← List.length_drop, h, List.length_append, b.length_eq]
  rw [sliceAt, dif_pos (by omega)]
  congr 1
  apply Bytes.ext
  show (data.drop offset).take n = b.bytes
  rw [h]
  exact List.take_left' b.length_eq

theorem tailAt_eq {data : List UInt8} {offset : ℕ} (h : offset ≤ data.length) :
    tailAt data offset = some (data.drop offset) := if_pos h

theorem be16At_eq {data rest : List UInt8} {offset : ℕ} {hi lo : UInt8}
    (h : data.drop offset = hi :: lo :: rest) : be16At data offset = some (ofBe16 hi lo) := by
  have h0 : data[offset]? = some hi := by
    rw [← List.head?_drop, h]
    rfl
  have h1 : data[offset + 1]? = some lo := by
    rw [← List.head?_drop, ← List.drop_drop, h]
    rfl
  rw [be16At, h0, h1]
  rfl

/-! ### The parser -/

/-- The `0x01` arm from `offset` on, with the offset it leaves behind. -/
def ipv4At (data : List UInt8) (offset : ℕ) :
    Option (Except ProxyError (TargetAddr × ℕ)) :=
  if data.length < offset + 6 then some (.error (.socks5 "IPv4 address incomplete"))
  else do
    let ip₀ ← data[offset]?
    let ip₁ ← data[offset + 1]?
    let ip₂ ← data[offset + 2]?
    let ip₃ ← data[offset + 3]?
    let port ← be16At data (offset + 4)
    return .ok (.ipv4 (.new ip₀ ip₁ ip₂ ip₃) port, offset + 6)

/-- The `0x03` arm behind the length byte. -/
def domainAt (data : List UInt8) (offset len : ℕ) :
    Option (Except ProxyError (TargetAddr × ℕ)) :=
  if data.length < offset + len + 2 then some (.error (.socks5 "Domain name incomplete"))
  else do
    let domainBytes ← sliceAt data offset len
    match fromUtf8 domainBytes.bytes with
    | none => return .error (.socks5 "Invalid domain encoding")
    | some domain => do
      let port ← be16At data (offset + len)
      return .ok (.domain domain port, offset + len + 2)

/-- The `0x04` arm. -/
def ipv6At (data : List UInt8) (offset : ℕ) :
    Option (Except ProxyError (TargetAddr × ℕ)) :=
  if data.length < offset + 18 then some (.error (.socks5 "IPv6 address incomplete"))
  else do
    let ip ← sliceAt data offset 16
    let port ← be16At data (offset + 16)
    return .ok (.ipv6 ip port, offset + 18)

/-- The address behind the type byte. -/
def targetAddrAt (data : List UInt8) (atyp : UInt8) (offset : ℕ) :
    Option (Except ProxyError (TargetAddr × ℕ)) :=
  match atyp with
  | 0x01 => ipv4At data offset
  | 0x03 =>
    if data.length < offset + 1 then some (.error (.socks5 "Domain length missing"))
    else do
      let len ← data[offset]?
      domainAt data (offset + 1) len.toNat
  | 0x04 => ipv6At data offset
  | atyp => some (.error (.socks5 ("Unknown address type: " ++ toString atyp.toNat)))

/-- `parse_socks5_udp_packet`, access by access. -/
def parseSocks5UdpPacketAt (data : List UInt8) :
    Option (Except ProxyError (TargetAddr × List UInt8)) :=
  if data.length < 7 then some (.error (.socks5 "UDP packet too short"))
  else do
    let rsv ← data[0]?
    let rsv' ← data[1]?
    if rsv ≠ 0x00 ∨ rsv' ≠ 0x00 then return .error (.socks5 "Invalid RSV field")
    let frag ← data[2]?
    if frag ≠ 0x00 then return .error (.socks5 "Fragmentation not supported")
    let atyp ← data[3]?
    match ← targetAddrAt data atyp 4 with
    | .error e => return .error e
    | .ok (targetAddr, offset) => do
      let payload ← tailAt data offset
      return .ok (targetAddr, payload)

/-! ### Every access is in range -/

/-- The offset version found what `spec` finds: the same error, or the same
address with the payload at the offset it left behind. -/
def ReadsAs (data : List UInt8) (spec : Except ProxyError (TargetAddr × List UInt8)) :
    Option (Except ProxyError (TargetAddr × ℕ)) → Prop
  | none => False
  | some (.error e) => spec = .error e
  | some (.ok (t, offset)) => offset ≤ data.length ∧ spec = .ok (t, data.drop offset)

theorem cut_and_two (n : ℕ) (bs : List UInt8) :
    (∃ (b : Bytes n) (hi lo : UInt8) (rest : List UInt8), bs = b.bytes ++ hi :: lo :: rest) ∨
    (bs.length < n + 2 ∧
      ∀ (b : Bytes n) (hi lo : UInt8) (rest : List UInt8),
        Wire.cut n bs ≠ some (b, hi :: lo :: rest)) := by
  by_cases h : bs.length < n + 2
  · refine Or.inr ⟨h, ?_⟩
    intro b hi lo rest hcut
    rw [Wire.cut_eq_some.mp hcut, List.length_append, b.length_eq, List.length_cons,
      List.length_cons] at h
    omega
  · cases hcut : Wire.cut n bs with
    | none =>
      have := Wire.cut_eq_none.mp hcut
      omega
    | some r =>
      obtain ⟨b, tail⟩ := r
      have hbs := Wire.cut_eq_some.mp hcut
      have hlen : n + tail.length = bs.length := by
        rw [hbs, List.length_append, b.length_eq]
      match tail, hbs, hlen with
      | hi :: lo :: rest, hbs, _ => exact Or.inl ⟨b, hi, lo, rest, hbs⟩
      | [_], _, hlen =>
        rw [List.length_singleton] at hlen
        omega
      | [], _, hlen =>
        rw [List.length_nil] at hlen
        omega

theorem readsAs_ipv4At {data : List UInt8} {offset : ℕ} (hoff : offset ≤ data.length) :
    ReadsAs data (parseUdpAddress 0x01 (data.drop offset)) (ipv4At data offset) := by
  have hlen : (data.drop offset).length = data.length - offset := List.length_drop
  rcases cut_and_two 4 (data.drop offset) with ⟨ip, hi, lo, payload, hd⟩ | ⟨hshort, hcut⟩
  · have hb := ip.eq_quad
    have hip : Ipv4Addr.new (ip.get 0) (ip.get 1) (ip.get 2) (ip.get 3) = ip :=
      Bytes.ext hb.symm
    have hpay : data.drop (offset + 6) = payload := by
      rw [← List.drop_drop, hd, hb]
      rfl
    have hbyte : ∀ k, data[offset + k]? = (ip.bytes ++ hi :: lo :: payload)[k]? := by
      intro k
      rw [← hd, List.getElem?_drop]
    have hport : be16At data (offset + 4) = some (ofBe16 hi lo) := by
      refine @be16At_eq data payload (offset + 4) hi lo ?_
      rw [← List.drop_drop, hd, hb]
      rfl
    rw [hd, List.length_append, ip.length_eq, List.length_cons, List.length_cons] at hlen
    rw [ipv4At, if_neg (by omega), hport]
    have h0 := hbyte 0
    have h1 := hbyte 1
    have h2 := hbyte 2
    have h3 := hbyte 3
    rw [hb] at h0 h1 h2 h3
    rw [Nat.add_zero] at h0
    rw [h0, h1, h2, h3]
    refine ⟨by omega, ?_⟩
    rw [hd, hpay, hip]
    simp only [parseUdpAddress, Wire.cut_append]
  · rw [ipv4At, if_pos (by omega)]
    show parseUdpAddress 0x01 (data.drop offset) = _
    simp only [parseUdpAddress]

theorem readsAs_ipv6At {data : List UInt8} {offset : ℕ} (hoff : offset ≤ data.length) :
    ReadsAs data (parseUdpAddress 0x04 (data.drop offset)) (ipv6At data offset) := by
  have hlen : (data.drop offset).length = data.length - offset := List.length_drop
  rcases cut_and_two 16 (data.drop offset) with ⟨ip, hi, lo, payload, hd⟩ | ⟨hshort, hcut⟩
  · have hport : data.drop (offset + 16) = hi :: lo :: payload := by
      rw [← List.drop_drop, hd]
      exact List.drop_left' ip.length_eq
    have hpay : data.drop (offset + 18) = payload := by
      rw [show offset + 18 = offset + 16 + 2 from rfl, ← List.drop_drop, hport]
      rfl
    rw [hd, List.length_append, ip.length_eq, List.length_cons, List.length_cons] at hlen
    rw [ipv6At, if_neg (by omega), sliceAt_eq hd hoff, be16At_eq hport]
    refine ⟨by omega, ?_⟩
    rw [hd, hpay]
    simp only [parseUdpAddress, Wire.cut_append]
  · rw [ipv6At, if_pos (by omega)]
    show parseUdpAddress 0x04 (data.drop offset) = _
    simp only [parseUdpAddress]

theorem readsAs_domainAt {data rest : List UInt8} {offset : ℕ} {len : UInt8}
    (hd : data.drop offset = len :: rest) :
    ReadsAs data (parseUdpAddress 0x03 (data.drop offset))
      (domainAt data (offset + 1) len.toNat) := by
  have hlen : (data.drop offset).length = data.length - offset := List.length_drop
  rw [hd, List.length_cons] at hlen
  have hrest : data.drop (offset + 1) = rest := by
    rw [← List.drop_drop, hd]
    rfl
  rcases cut_and_two len.toNat rest with ⟨domain, hi, lo, payload, rfl⟩ | ⟨hshort, hcut⟩
  · have hport : data.drop (offset + 1 + len.toNat) = hi :: lo :: payload := by
      rw [← List.drop_drop, hrest]
      exact List.drop_left' domain.length_eq
    have hpay : data.drop (offset + 1 + len.toNat + 2) = payload := by
      rw [← List.drop_drop, hport]
      rfl
    rw [List.length_append, domain.length_eq, List.length_cons, List.length_cons] at hlen
    rw [domainAt, if_neg (by omega), sliceAt_eq hrest (by omega), be16At_eq hport, hd]
    cases hname : fromUtf8 domain.bytes with
    | none =>
      simp only [Option.bind_eq_bind, Option.bind_some, hname]
      show parseUdpAddress 0x03 _ = _
      simp only [parseUdpAddress, Wire.cut_append, hname]
    | some name =>
      simp only [Option.bind_eq_bind, Option.bind_some, hname]
      refine ⟨by omega, ?_⟩
      simp only [parseUdpAddress, Wire.cut_append, hname, hpay]
  · rw [domainAt, if_pos (by omega), hd]
    show parseUdpAddress 0x03 (len :: rest) = _
    simp only [parseUdpAddress]

/-- **The address is read in range**, whatever its type. -/
theorem readsAs_targetAddrAt {data : List UInt8} {offset : ℕ} (hoff : offset ≤ data.length)
    (atyp : UInt8) :
    ReadsAs data (parseUdpAddress atyp (data.drop offset)) (targetAddrAt data atyp offset) := by
  unfold targetAddrAt
  split
  · exact readsAs_ipv4At hoff
  · cases hd : data.drop offset with
    | nil =>
      have hend := List.drop_eq_nil_iff.mp hd
      rw [if_pos (by omega)]
      rfl
    | cons len rest =>
      have hlen : (data.drop offset).length = data.length - offset := List.length_drop
      rw [hd, List.length_cons] at hlen
      have hbyte : data[offset]? = some len := by
        rw [← List.head?_drop, hd]
        rfl
      rw [if_neg (by omega), hbyte, ← hd]
      exact readsAs_domainAt hd
  · exact readsAs_ipv6At hoff
  · rename_i h1 h3 h4
    show parseUdpAddress atyp (data.drop offset) = _
    unfold parseUdpAddress
    split
    · exact absurd rfl h1
    · exact absurd rfl h3
    · exact absurd rfl h4
    · rfl

/-- **The parser never leaves its datagram**, and it reads there what pattern
matching reads. -/
theorem parseSocks5UdpPacketAt_eq (data : List UInt8) :
    parseSocks5UdpPacketAt data = some (parseSocks5UdpPacket data) := by
  unfold parseSocks5UdpPacketAt parseSocks5UdpPacket
  by_cases hshort : data.length < 7
  · rw [if_pos hshort, if_pos hshort]
  · rw [if_neg hshort, if_neg hshort]
    match data, hshort with
    | rsv :: rsv' :: frag :: atyp :: rest, hshort =>
      by_cases hrsv : rsv ≠ 0x00 ∨ rsv' ≠ 0x00
      · simp only [List.getElem?_cons_zero, List.getElem?_cons_succ, Option.bind_eq_bind,
          Option.bind_some, if_pos hrsv]
        rfl
      · by_cases hfrag : frag ≠ 0x00
        · simp only [List.getElem?_cons_zero, List.getElem?_cons_succ, Option.bind_eq_bind,
            Option.bind_some, if_neg hrsv, if_pos hfrag]
          rfl
        · have hread := @readsAs_targetAddrAt (rsv :: rsv' :: frag :: atyp :: rest) 4
            (by simp) atyp
          have hdrop : (rsv :: rsv' :: frag :: atyp :: rest).drop 4 = rest := rfl
          rw [hdrop] at hread
          simp only [List.getElem?_cons_zero, List.getElem?_cons_succ, Option.bind_eq_bind,
            Option.bind_some, if_neg hrsv, if_neg hfrag]
          cases hat : targetAddrAt (rsv :: rsv' :: frag :: atyp :: rest) atyp 4 with
          | none =>
            rw [hat] at hread
            exact hread.elim
          | some r =>
            rw [hat] at hread
            cases r with
            | error e =>
              rw [show parseUdpAddress atyp rest = .error e from hread]
              rfl
            | ok r =>
              obtain ⟨t, offset⟩ := r
              rw [hread.2]
              simp only [Option.bind_some, tailAt_eq hread.1]
              rfl
    | [_, _, _], hshort => simp at hshort
    | [_, _], hshort => simp at hshort
    | [_], hshort => simp at hshort
    | [], hshort => simp at hshort

/-! ### The codec -/

/-- **The packet codec is a bijection that reads in range.**  Every target that
fits its encoding, with any payload, is read back from the packet built of it;
what is read back builds the datagram it was read from, so the datagrams that
are accepted are the packets that are built; and no datagram makes the parser
index or slice outside it. -/
theorem udp_packet_codec_bijective :
    (∀ (t : TargetAddr) (payload : List UInt8), t.Fits → ∃ packet,
      buildSocks5UdpResponse t payload = .ok packet ∧
      parseSocks5UdpPacketAt packet = some (.ok (t, payload))) ∧
    (∀ (data : List UInt8) (t : TargetAddr) (payload : List UInt8),
      parseSocks5UdpPacketAt data = some (.ok (t, payload)) →
      t.Fits ∧ buildSocks5UdpResponse t payload = .ok data) ∧
    (∀ data : List UInt8,
      (∃ t payload, parseSocks5UdpPacketAt data = some (.ok (t, payload))) ↔
      ∃ (t : TargetAddr) (payload : List UInt8), t.Fits ∧
        buildSocks5UdpResponse t payload = .ok data) ∧
    ∀ data : List UInt8, parseSocks5UdpPacketAt data ≠ none := by
  have hback : ∀ (t : TargetAddr) (payload : List UInt8), t.Fits → ∃ packet,
      buildSocks5UdpResponse t payload = .ok packet ∧
      parseSocks5UdpPacketAt packet = some (.ok (t, payload)) := by
    intro t payload hfit
    refine ⟨_, rfl, ?_⟩
    rw [parseSocks5UdpPacketAt_eq, parse_build hfit]
  have hbuilt : ∀ (data : List UInt8) (t : TargetAddr) (payload : List UInt8),
      parseSocks5UdpPacketAt data = some (.ok (t, payload)) →
      t.Fits ∧ buildSocks5UdpResponse t payload = .ok data := by
    intro data t payload h
    rw [parseSocks5UdpPacketAt_eq, Option.some.injEq] at h
    obtain ⟨hfit, rfl⟩ := build_parse h
    exact ⟨hfit, rfl⟩
  refine ⟨hback, hbuilt, ?_, ?_⟩
  · intro data
    constructor
    · rintro ⟨t, payload, h⟩
      exact ⟨t, payload, hbuilt data t payload h⟩
    · rintro ⟨t, payload, hfit, hbuild⟩
      obtain ⟨packet, hpacket, h⟩ := hback t payload hfit
      rw [hbuild] at hpacket
      cases hpacket
      exact ⟨t, payload, h⟩
  · intro data
    rw [parseSocks5UdpPacketAt_eq]
    exact Option.some_ne_none _

/-! ### One address format -/

theorem parseSocks5UdpPacketAt_eq_ok {x payload : List UInt8} {t : TargetAddr} :
    parseSocks5UdpPacketAt ([0x00, 0x00, 0x00] ++ x) = some (.ok (t, payload)) ↔
      t.Fits ∧ x = t.atyp :: (t.bytes ++ payload) := by
  rw [parseSocks5UdpPacketAt_eq, Option.some.injEq]
  constructor
  · intro h
    obtain ⟨hfit, hx⟩ := build_parse h
    exact ⟨hfit, List.append_cancel_left hx⟩
  · rintro ⟨hfit, rfl⟩
    exact parse_build hfit payload

theorem returns_readRequest {segs : List (List UInt8)} {closed : Bool} {x rest : List UInt8}
    {v : UInt8} {t : TargetAddr} (hx : segs.flatten = [0x05, 0x01, v] ++ x) :
    Wire.Returns readRequest segs closed ⟨.connect, t⟩ rest ↔
      t.Fits ∧ x = t.atyp :: (t.bytes ++ rest) := by
  rw [Wire.returns_iff_flat, hx]
  constructor
  · rintro ⟨w, hw, rfl⟩
    obtain ⟨r, rest, hin, hreq, rfl, -⟩ := run_readRequest.mp hw
    obtain ⟨c, rsv, t', hfit⟩ := r
    obtain ⟨-, rfl⟩ := SocksRequest.mk.inj hreq
    have hbytes : [0x05, 0x01, v] ++ x = [0x05, c.byte, rsv] ++ (t.atyp :: (t.bytes ++ rest)) :=
      hin
    exact ⟨hfit, (List.append_inj hbytes rfl).2⟩
  · rintro ⟨hfit, rfl⟩
    exact ⟨_, run_readRequest.mpr ⟨⟨.connect, v, t, hfit⟩, rest, rfl, rfl, rfl, rfl⟩, rfl⟩

/-- **TCP and UDP clients name their targets in the same bytes.**  A datagram
with an empty header and the bytes `x` behind it is accepted, for `t` with a
payload, exactly when a stream of the same bytes behind the header of a CONNECT
request is, for `t` with that payload unread; whatever the reserved byte of the
request, and however its stream is cut into segments. -/
theorem address_decoders_agree (x rest : List UInt8) (v : UInt8) (t : TargetAddr)
    (segs : List (List UInt8)) (closed : Bool) (hsegs : segs.flatten = [0x05, 0x01, v] ++ x) :
    parseSocks5UdpPacketAt ([0x00, 0x00, 0x00] ++ x) = some (.ok (t, rest)) ↔
      Wire.Returns readRequest segs closed ⟨.connect, t⟩ rest :=
  parseSocks5UdpPacketAt_eq_ok.trans (returns_readRequest hsegs).symm

theorem address_decoders_agree_segments :
    parseSocks5UdpPacketAt ([0x00, 0x00, 0x00] ++ [0x01, 127, 0, 0, 1, 0, 80, 0x68]) =
        some (.ok (.ipv4 (.new 127 0 0 1) 80, [0x68])) ↔
      Wire.Returns readRequest [[0x05], [0x01, 0x00, 0x01, 127], [0, 0, 1, 0, 80, 0x68]] false
        ⟨.connect, .ipv4 (.new 127 0 0 1) 80⟩ [0x68] :=
  address_decoders_agree _ _ 0x00 _ _ false rfl

end Peregrine
