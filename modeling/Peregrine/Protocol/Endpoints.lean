import Peregrine.CoreText
import Peregrine.Lib.NetSocket
import Peregrine.Protocol.HttpHandler
import Peregrine.Protocol.Socks5.Session
import Peregrine.Protocol.Socks5.UdpPacket

/-!
# One target, whichever protocol asks for it

A client names the target of a request as the octets of an address or as a name
in SOCKS5, over TCP or in a datagram, and as the text of an authority in HTTP.
A datagram to an address is sent there; everything else becomes a text of host
and port, which the standard library reads (`lookupHost`): as a socket address if
it is one, and else the host is looked up.

The texts differ.  HTTP keeps the brackets of an IPv6 address, and SOCKS5 prints
one without, which is no socket address and is left to the resolver.
`front_ends_agree` says that the target is the same socket addresses all the
same, as long as the resolver answers an address with itself.
-/

namespace Peregrine

open Prog (call attempt)

/-! ### Looking up a text -/

/-- The system's resolver, for a host and a port. -/
abbrev Resolver := String → UInt16 → Except IoError (List SocketAddr)

/-- What `lookup_host` and `TcpStream::connect` take a text for. -/
def lookupHost (getaddrinfo : Resolver) (addr : String) : Except IoError (List SocketAddr) :=
  match parseSocketAddr addr with
  | some a => .ok [a]
  | none =>
    match Text.rsplit ':' addr.toList with
    | none => .error (.other "invalid socket address")
    | some (host, digits) =>
      match Text.parseU16 digits with
      | none => .error (.other "invalid port value")
      | some port => getaddrinfo (String.ofList host) port

/-- `SocketAddr::new`. -/
def SocketAddr.new : IpAddr → UInt16 → SocketAddr
  | .v4 ip, port => .v4 ip port
  | .v6 ip, port => .v6 ip port 0 0

/-- The resolver answers the text of an IP address with that address. -/
def AnswersLiterals (getaddrinfo : Resolver) : Prop :=
  ∀ host ip port, parseIpAddr host = some ip → getaddrinfo host port = .ok [.new ip port]

section Lookup

variable {g : Resolver}

theorem colon_not_mem_port (port : UInt16) : ':' ∉ Nat.toDigits 10 port.toNat :=
  Text.not_mem_toDigits (by decide) (by decide) (by decide) _

theorem authority_toList (t : ConnectTarget) :
    t.authority.toList = t.host.toList ++ ':' :: Nat.toDigits 10 t.port.toNat := by
  rw [ConnectTarget.authority, String.toList_append, String.toList_append, List.append_assoc,
    Text.toList_toString]
  rfl

/-- **A host and a port**: a socket address, or else the host is looked up. -/
theorem lookupHost_authority (t : ConnectTarget) :
    lookupHost g t.authority =
      match parseSocketAddr t.authority with
      | some a => .ok [a]
      | none => g t.host t.port := by
  have hport := Text.parseU16_toString t.port
  rw [Text.toList_toString] at hport
  rw [lookupHost, authority_toList, Text.rsplit_append (colon_not_mem_port _)]
  simp only [hport, String.ofList_toList]

theorem numeral_port (port : UInt16) :
    NetText.Numeral 10 none true 65536 (Nat.toDigits 10 port.toNat) port.toNat := by
  obtain ⟨hne, hdigits, -, hzero, hvalue, hfits⟩ := NetText.numeral_toDigits (by decide)
    (by decide) (by decide : 0 < 5) true port.toNat_lt (by decide : 65536 ≤ 10 ^ 5)
  exact ⟨hne, hdigits, nofun, hzero, hvalue, hfits⟩

theorem lookupHost_v4 {host : String} {ip : Ipv4Addr} {port : UInt16}
    (h : IpText.core.parseV4 host = some ip) :
    lookupHost g (ConnectTarget.authority ⟨host, port⟩) = .ok [.v4 ip port] := by
  obtain ⟨octets, hoctets, hip⟩ := Option.bind_eq_some_iff.mp h
  have haddr : parseSocketAddr (ConnectTarget.authority ⟨host, port⟩) = some (.v4 ip port) := by
    rw [parseSocketAddr, authority_toList,
      NetText.parseSocketAddr_of_v4 hoctets (numeral_port port), Option.bind_some]
    simp only [hip, Option.map_some, UInt16.ofNat_toNat]
  rw [lookupHost_authority, haddr]

theorem lookupHost_bracketed {text : String} {ip : Ipv6Addr} {port : UInt16}
    (h : IpText.core.parseV6 text = some ip) :
    lookupHost g (ConnectTarget.authority ⟨"[" ++ text ++ "]", port⟩) = .ok [.v6 ip port 0 0] := by
  obtain ⟨gs, hgs, hip⟩ := Option.bind_eq_some_iff.mp h
  have hlist : (ConnectTarget.authority ⟨"[" ++ text ++ "]", port⟩).toList =
      '[' :: text.toList ++ ']' :: ':' :: Nat.toDigits 10 port.toNat := by
    rw [authority_toList, String.toList_append, String.toList_append, List.append_assoc,
      List.append_assoc]
    rfl
  have haddr : parseSocketAddr (ConnectTarget.authority ⟨"[" ++ text ++ "]", port⟩) =
      some (.v6 ip port 0 0) := by
    rw [parseSocketAddr, hlist, NetText.parseSocketAddr_of_v6 hgs (numeral_port port),
      Option.bind_some]
    simp only [hip, Option.map_some, UInt16.ofNat_toNat]
    rfl
  rw [lookupHost_authority, haddr]

theorem lookupHost_v6 (hg : AnswersLiterals g) {host : String} {ip : Ipv6Addr} {port : UInt16}
    (h : IpText.core.parseV6 host = some ip) :
    lookupHost g (ConnectTarget.authority ⟨host, port⟩) = .ok [.v6 ip port 0 0] := by
  obtain ⟨gs, hgs, -⟩ := Option.bind_eq_some_iff.mp h
  obtain ⟨hchars, hcolon, -⟩ := NetText.parseIpv6Addr_spec hgs
  have hv4 : NetText.parseIpv4Addr host.toList = none := by
    refine Option.eq_none_iff_forall_ne_some.mpr fun ns hns => ?_
    exact absurd ((NetText.parseIpv4Addr_eq_some.mp hns).1.chars ':' hcolon) (by decide)
  have haddr : parseSocketAddr (ConnectTarget.authority ⟨host, port⟩) = none := by
    refine Option.eq_none_iff_forall_ne_some.mpr fun a ha => ?_
    obtain ⟨parts, hparts, -⟩ := Option.bind_eq_some_iff.mp ha
    rw [authority_toList] at hparts
    cases parts with
    | v4 octets n =>
      -- the last colon is the one before the port
      obtain ⟨ds, ps, heq, hds, hnum⟩ := NetText.parseSocketAddr_v4 hparts
      have hps : ':' ∉ ps := fun hmem => absurd (hnum.digits ':' hmem) (by decide)
      have hsplit := congrArg (Text.rsplit ':') heq
      rw [Text.rsplit_append (colon_not_mem_port port), Text.rsplit_append hps] at hsplit
      rw [(Prod.mk.inj (Option.some.inj hsplit)).1, hds] at hv4
      cases hv4
    | v6 gs scopeId n =>
      have hhead := NetText.parseSocketAddr_v6 hparts
      rw [List.head?_append_of_ne_nil _ (List.ne_nil_of_mem hcolon)] at hhead
      have hchar := hchars _ (List.mem_of_mem_head? hhead)
      unfold NetText.Ipv6Char at hchar
      exact absurd hchar (by decide)
  have hip : parseIpAddr host = some (.v6 ip) := by
    rw [parseIpAddr, h]
    simp only [IpText.core, hv4, Option.bind_none, Option.map_none, Option.none_or,
      Option.map_some]
  rw [lookupHost_authority, haddr]
  exact hg host (.v6 ip) port hip

end Lookup

/-! ### Writing a target in HTTP -/

/-- The host of a URI is the target's: an address as text, in brackets if it is an
IPv6 address, or the name. -/
inductive WritesHost : TargetAddr → String → Prop
  | ipv4 {ip : Ipv4Addr} {port : UInt16} {host : String} (h : IpText.core.parseV4 host = some ip) :
    WritesHost (.ipv4 ip port) host
  | ipv6 {ip : Ipv6Addr} {port : UInt16} {text : String} (h : IpText.core.parseV6 text = some ip) :
    WritesHost (.ipv6 ip port) ("[" ++ text ++ "]")
  | domain {name : String} {port : UInt16} (h : ':' ∉ name.toList) :
    WritesHost (.domain name port) name

def TargetAddr.port : TargetAddr → UInt16
  | .ipv4 _ port | .domain _ port | .ipv6 _ port => port

/-- The authority of a CONNECT is the target's host and port; without a port it is 443. -/
inductive WritesAuthority (t : TargetAddr) : String → Prop
  | withPort {host digits : String} (hhost : WritesHost t host)
    (hport : Text.parseU16 digits.toList = some t.port) : WritesAuthority t (host ++ ":" ++ digits)
  | bare {host : String} (hhost : WritesHost t host) (hport : t.port = 443) : WritesAuthority t host

section Writes

variable {g : Resolver} {t : TargetAddr} {host : String}

/-- **However the host is written**, it is the same socket addresses. -/
theorem WritesHost.lookupHost_eq (hg : AnswersLiterals g) (h : WritesHost t host) :
    lookupHost g (ConnectTarget.authority ⟨host, t.port⟩) =
      lookupHost g (t.connectTarget .core).authority := by
  cases h with
  | @ipv4 ip port host h =>
    rw [lookupHost_v4 h]
    exact (lookupHost_v4 (IpText.core_lawful.v4 ip)).symm
  | @ipv6 ip port text h =>
    rw [lookupHost_bracketed h]
    exact (lookupHost_v6 hg (IpText.core_lawful.v6 ip)).symm
  | domain h => rfl

theorem WritesHost.parseHostPort_eq_none (h : WritesHost t host) :
    HttpHandler.parseHostPort host = none := by
  unfold HttpHandler.parseHostPort
  cases h with
  | @ipv4 ip port host h =>
    obtain ⟨octets, hoctets, -⟩ := Option.bind_eq_some_iff.mp h
    have hcolon : ':' ∉ host.toList := fun hmem =>
      absurd ((NetText.parseIpv4Addr_eq_some.mp hoctets).1.chars ':' hmem) (by decide)
    rw [Text.rsplit_eq_none hcolon]
  | @ipv6 ip port text h =>
    split
    · rename_i xs digits hsplit
      -- the closing bracket stands where the digits of a port would
      have hlist := Text.rsplit_eq_some hsplit
      rw [String.toList_append] at hlist
      have hlast : (':' :: digits).getLast? = some ']' := by
        have hboth := congrArg List.getLast? hlist
        rw [List.getLast?_append_of_ne_nil _ (List.cons_ne_nil _ _)] at hboth
        rw [← hboth, List.getLast?_append]
        rfl
      have hbracket : ']' ∈ digits := by
        rcases List.mem_cons.mp (List.mem_of_getLast? hlast) with heq | hmem
        · exact absurd heq (by decide)
        · exact hmem
      have hport : Text.parseU16 digits = none := by
        refine Option.eq_none_iff_forall_ne_some.mpr fun p hp => ?_
        exact absurd (Text.chars_of_parseU16 hp ']' hbracket) (by decide)
      rw [hport]
      rfl
    · rfl
  | domain h => rw [Text.rsplit_eq_none h]

/-- **What a CONNECT asks for**: the host as written, and the port. -/
theorem WritesAuthority.connectTarget_eq {authority : String} (h : WritesAuthority t authority)
    {req : HttpRequest} (hreq : req.uri.authority = some authority) :
    ∃ host, WritesHost t host ∧ HttpHandler.connectTarget req = ⟨host, t.port⟩ := by
  have htarget : req.uri.authority.getD "" = authority := by rw [hreq, Option.getD_some]
  cases h with
  | @withPort host digits hhost hport =>
    have hlist : (host ++ ":" ++ digits).toList = host.toList ++ ':' :: digits.toList := by
      rw [String.toList_append, String.toList_append, List.append_assoc]
      rfl
    have hcolon : ':' ∉ digits.toList := fun hmem =>
      absurd (Text.chars_of_parseU16 hport ':' hmem) (by decide)
    refine ⟨host, hhost, ?_⟩
    rw [HttpHandler.connectTarget, htarget, HttpHandler.parseHostPort, hlist,
      Text.rsplit_append hcolon]
    simp only [hport, Option.map_some, String.ofList_toList]
  | bare hhost hport =>
    refine ⟨authority, hhost, ?_⟩
    rw [HttpHandler.connectTarget, htarget, hhost.parseHostPort_eq_none, hport]

end Writes

/-! ### The front ends -/

/-- A program begins with a dial, to what the text is looked up as. -/
def GoesTo {ε α : Type} (g : Resolver) (p : Prog sysSig ε α)
    (addrs : Except IoError (List SocketAddr)) : Prop :=
  ∃ addr k, p = @call sysSig ε α (.inr (.tcpConnect addr)) k ∧ lookupHost g addr = addrs

theorem goesTo_connect {ε α : Type} {g : Resolver} (target : ConnectTarget)
    (rest : Except ProxyError Unit → Prog sysSig ε α) :
    GoesTo g (attempt (DirectConnector.connect target) >>= rest) (lookupHost g target.authority) :=
  ⟨_, _, attempt_connect_bind target rest, rfl⟩

/-- The socket address of a target that is one. -/
def TargetAddr.literal : TargetAddr → Option SocketAddr
  | .ipv4 ip port => some (.v4 ip port)
  | .ipv6 ip port => some (.v6 ip port 0 0)
  | .domain _ _ => none

theorem resolveTargetAddr_domain {look : String → Except IoError (List SocketAddr)}
    {name : String} {port : UInt16} {a : SocketAddr} :
    resolveTargetAddr look (.domain name port) = .ok a ↔
      ∃ rest, look (ConnectTarget.authority ⟨name, port⟩) = .ok (a :: rest) := by
  rw [resolveTargetAddr, ConnectTarget.authority]
  cases look (name ++ ":" ++ toString port.toNat) with
  | error e => simp
  | ok addrs => cases addrs <;> simp

/-- **The front ends agree on what a target is.**  A CONNECT over SOCKS5, a
datagram, a CONNECT over HTTP and a forwarded request, of the same target, go to
the same socket addresses, a datagram to the first of them; and a target that is
an address goes there and nowhere else. -/
theorem front_ends_agree {g : Resolver} (hg : AnswersLiterals g) (t : TargetAddr) :
    ∃ addrs, (∀ a, t.literal = some a → addrs = .ok [a]) ∧
      GoesTo g (handleConnect .core ⟨.connect, t⟩) addrs ∧
      (∀ a, resolveTargetAddr (lookupHost g) t = .ok a ↔ ∃ rest, addrs = .ok (a :: rest)) ∧
      (∀ req authority, req.uri.authority = some authority → WritesAuthority t authority →
        GoesTo g (HttpHandler.tunnel (HttpHandler.connectTarget req)) addrs) ∧
      (∀ req host, req.uri.host = some host → WritesHost t host → req.uri.port.getD 80 = t.port →
        GoesTo g (HttpHandler.proxyRequest req) addrs) := by
  have hliteral : ∀ a, t.literal = some a →
      lookupHost g (t.connectTarget .core).authority = .ok [a] := by
    intro a ha
    cases t with
    | ipv4 ip port =>
      cases ha
      exact lookupHost_v4 (IpText.core_lawful.v4 ip)
    | ipv6 ip port =>
      cases ha
      exact lookupHost_v6 hg (IpText.core_lawful.v6 ip)
    | domain name port => cases ha
  refine ⟨lookupHost g (t.connectTarget .core).authority, hliteral, goesTo_connect _ _, ?_, ?_, ?_⟩
  · intro a
    cases t with
    | ipv4 ip port =>
      rw [hliteral _ rfl, resolveTargetAddr]
      simp [eq_comm]
    | ipv6 ip port =>
      rw [hliteral _ rfl, resolveTargetAddr]
      simp [eq_comm]
    | domain name port =>
      exact resolveTargetAddr_domain
  · intro req authority hreq hwrites
    obtain ⟨host, hhost, htarget⟩ := hwrites.connectTarget_eq hreq
    rw [HttpHandler.tunnel_eq, htarget, ← hhost.lookupHost_eq hg]
    exact goesTo_connect _ _
  · intro req host hreq hhost hport
    have htarget : HttpHandler.forwardTarget req = some ⟨host, t.port⟩ := by
      rw [HttpHandler.forwardTarget, hreq, hport, Option.map_some]
    rw [HttpHandler.proxyRequest, htarget, ← hhost.lookupHost_eq hg]
    exact goesTo_connect _ _

/-- A resolver that knows nothing but addresses. -/
def addressesOnly : Resolver := fun host port =>
  match parseIpAddr host with
  | some ip => .ok [.new ip port]
  | none => .error (.other "failed to lookup address information")

/-- **`CONNECT [::1]:443` goes to the loopback address**, as a SOCKS5 request for
it does. -/
theorem front_ends_agree_loopback :
    let t : TargetAddr := .ipv6 ⟨[0, 0, 0, 0, 0, 0, 0, 0, 0, 0, 0, 0, 0, 0, 0, 1], rfl⟩ 443
    let addrs := .ok [.v6 ⟨[0, 0, 0, 0, 0, 0, 0, 0, 0, 0, 0, 0, 0, 0, 0, 1], rfl⟩ 443 0 0]
    GoesTo addressesOnly (handleConnect .core ⟨.connect, t⟩) addrs ∧
      ∀ req, req.uri.authority = some "[::1]:443" →
        GoesTo addressesOnly (HttpHandler.tunnel (HttpHandler.connectTarget req)) addrs := by
  intro t addrs
  have hanswers : AnswersLiterals addressesOnly := by
    intro host ip port hip
    rw [addressesOnly, hip]
  obtain ⟨addrs', hliteral, hsocks, -, hconnect, -⟩ := front_ends_agree hanswers t
  obtain rfl : addrs' = addrs := hliteral _ rfl
  have hwrites : WritesAuthority t ("[" ++ "::1" ++ "]" ++ ":" ++ "443") :=
    .withPort (.ipv6 (by decide +kernel)) (by decide)
  exact ⟨hsocks, fun req hreq => hconnect req _ hreq hwrites⟩

end Peregrine
