import Peregrine.Upstream.Chain
import Peregrine.Upstream.Socks5Agreement

/-!
# Lengths in one byte

The SOCKS5 client writes the length of a username, a password and a domain name
as `len() as u8`, which keeps the low byte of any length.  What it writes is read
as it is meant exactly if each of the three is at most 255 bytes long
(`readsAsCredential_iff`, `readsAsConnect_iff`), and nothing in the handshake
stops a longer one: `length_bytes_iff` is about both copies of the handshake and
every behaviour of the upstream proxy.
-/

namespace Peregrine

open Prog (Calls silent)

/-! ### How a message is read -/

/-- A connection on which exactly `bs` has arrived. -/
def arrived (bs : List UInt8) : Wire (List UInt8) := ⟨bs, false, []⟩

/-- `authenticate_user` reads the message as this credential and as nothing
else, to its last byte. -/
def ReadsAsCredential (cred : UserCredential) (bs : List UInt8) : Prop :=
  ∃ w, Prog.run (Wire.flat.sum (silent netSig)) (authenticateUser [cred]) (arrived bs, ()) =
    .ret () (w, ()) ∧ w.input = []

/-- The address is what the host is the text of, with the port. -/
def TargetAddr.Names (std : IpText) (target : ConnectTarget) : TargetAddr → Prop
  | .ipv4 ip port => std.parseV4 target.host = some ip ∧ port = target.port
  | .domain name port => name = target.host ∧ port = target.port
  | .ipv6 ip port => std.parseV6 target.host = some ip ∧ port = target.port

/-- `read_request` reads the message as a CONNECT to the target, to its last byte. -/
def ReadsAsConnect (std : IpText) (target : ConnectTarget) (bs : List UInt8) : Prop :=
  ∃ addr w, Prog.run (Wire.flat.sum (silent netSig)) readRequest (arrived bs, ()) =
    .ret ⟨.connect, addr⟩ (w, ()) ∧ w.input = [] ∧ addr.Names std target

/-- A write of the client that says what it is meant to: the greeting, the
credential, or the request. -/
def Meant (std : IpText) (auth : Option UserCredential) (target : ConnectTarget) :
    sysSig.Op → Prop
  | .inl (.writeAll bs) => bs = offeredMethods auth ∨
    (∃ cred, auth = some cred ∧ ReadsAsCredential cred bs) ∨ ReadsAsConnect std target bs
  | _ => True

/-- The host is sent as a domain name that fits its length byte, or as an address. -/
def HostFits (std : IpText) (host : String) : Prop :=
  std.parseV4 host = none → std.parseV6 host = none → (utf8 host).length ≤ 255

variable {std : IpText} {auth : Option UserCredential} {cred : UserCredential}
  {target : ConnectTarget} {bs : List UInt8}

theorem readsAsCredential_message_iff : ReadsAsCredential cred bs ↔
    ∃ m : AuthMessage, ⟨m.username, m.password⟩ = cred ∧ bs = m.bytes := by
  constructor
  · rintro ⟨w, hrun, hw⟩
    obtain ⟨m, rest, hin, hm, rfl, -⟩ := run_authenticateUser.mp hrun
    obtain rfl : rest = [] := hw
    exact ⟨m, List.mem_singleton.mp hm, hin.trans (List.append_nil _)⟩
  · rintro ⟨m, rfl, rfl⟩
    exact ⟨_, run_authenticateUser.mpr ⟨m, [], (List.append_nil _).symm,
      List.mem_singleton.mpr rfl, rfl, rfl⟩, rfl⟩

theorem readsAsConnect_message_iff : ReadsAsConnect std target bs ↔
    ∃ m : RequestMessage, m.command = .connect ∧ m.target.Names std target ∧ bs = m.bytes := by
  constructor
  · rintro ⟨addr, w, hrun, hw, hnames⟩
    obtain ⟨m, rest, hin, hreq, rfl, -⟩ := run_readRequest.mp hrun
    obtain rfl : rest = [] := hw
    obtain ⟨hcmd, rfl⟩ := SocksRequest.mk.inj hreq
    exact ⟨m, hcmd.symm, hnames, hin.trans (List.append_nil _)⟩
  · rintro ⟨m, hcmd, hnames, rfl⟩
    refine ⟨m.target, _, run_readRequest.mpr ⟨m, [], (List.append_nil _).symm, ?_, rfl, rfl⟩, rfl,
      hnames⟩
    rw [RequestMessage.request, hcmd]

/-! ### What the client writes -/

/-- **A credential is read as it is meant exactly if it fits.** -/
theorem readsAsCredential_iff : ReadsAsCredential cred (authRequest cred) ↔ cred.Fits := by
  rw [readsAsCredential_message_iff]
  constructor
  · rintro ⟨m, rfl, -⟩
    exact ⟨Nat.le_of_lt_succ m.username_fits, Nat.le_of_lt_succ m.password_fits⟩
  · rintro ⟨hu, hp⟩
    exact ⟨⟨cred.username, cred.password, Nat.lt_succ_of_le hu, Nat.lt_succ_of_le hp⟩, rfl, rfl⟩

theorem wireTarget_names : (wireTarget std target).Names std target := by
  unfold wireTarget
  cases h4 : std.parseV4 target.host with
  | some ip => exact ⟨h4, rfl⟩
  | none =>
    cases h6 : std.parseV6 target.host with
    | some ip => exact ⟨h6, rfl⟩
    | none => exact ⟨rfl, rfl⟩

theorem wireTarget_fits_iff : (wireTarget std target).Fits ↔ HostFits std target.host := by
  unfold wireTarget HostFits
  cases std.parseV4 target.host with
  | some ip => exact iff_of_true trivial fun h => (by cases h)
  | none =>
    cases std.parseV6 target.host with
    | some ip => exact iff_of_true trivial fun _ h => (by cases h)
    | none => exact ⟨fun h _ _ => Nat.le_of_lt_succ h, fun h => Nat.lt_succ_of_le (h rfl rfl)⟩

/-- **A request is read as it is meant exactly if the host fits.** -/
theorem readsAsConnect_iff :
    ReadsAsConnect std target (connectRequest std target) ↔ HostFits std target.host := by
  rw [← wireTarget_fits_iff, readsAsConnect_message_iff]
  constructor
  · rintro ⟨m, -, hnames, hbytes⟩
    have hatyp : (wireTarget std target).atyp = m.target.atyp := by
      rw [connectRequest, List.append_assoc, addressBytes_eq] at hbytes
      injection hbytes with _ h
      injection h with _ h
      injection h with _ h
      injection h
    have hfits := m.fits
    have hwire : (wireTarget std target).Names std target := wireTarget_names
    cases hw : wireTarget std target with
    | ipv4 ip port => trivial
    | ipv6 ip port => trivial
    | domain name port =>
      rw [hw] at hatyp hwire
      cases hm : m.target with
      | ipv4 ip' port' => rw [hm] at hatyp; simp [TargetAddr.atyp] at hatyp
      | ipv6 ip' port' => rw [hm] at hatyp; simp [TargetAddr.atyp] at hatyp
      | domain name' port' =>
        rw [hm] at hnames hfits
        rw [TargetAddr.Fits, hwire.1, ← hnames.1]
        exact hfits
  · intro h
    exact ⟨⟨.connect, 0x00, wireTarget std target, h⟩, rfl, wireTarget_names, connectRequest_eq h⟩

/-! ### Every message of the handshake -/

theorem meant_of_calls_credential
    (h : Calls (Meant std (some cred) target) (socks5Handshake std (some cred) target)) :
    Meant std (some cred) target (.inl (.writeAll (authRequest cred))) :=
  ((h.2 (.ok ())).2 (.ok ⟨[0x05, 0x02], rfl⟩)).1

theorem meant_of_calls_connect
    (h : Calls (Meant std auth target) (socks5Handshake std auth target)) :
    Meant std auth target (.inl (.writeAll (connectRequest std target))) :=
  ((h.2 (.ok ())).2 (.ok ⟨[0x05, 0x00], rfl⟩)).1

theorem calls_meant_iff : Calls (Meant std auth target) (socks5Handshake std auth target) ↔
    (∀ cred, auth = some cred → cred.Fits) ∧ HostFits std target.host := by
  constructor
  · intro h
    constructor
    · rintro cred rfl
      rcases meant_of_calls_credential h with hg | ⟨cred', hc, hr⟩ | hr
      · cases hg
      · cases hc
        exact readsAsCredential_iff.mp hr
      · obtain ⟨m, -, -, hm⟩ := readsAsConnect_message_iff.mp hr
        cases hm
    · rcases meant_of_calls_connect h with hg | ⟨cred, -, hr⟩ | hr
      · rw [connectRequest, List.append_assoc, addressBytes_eq] at hg
        cases auth <;> cases hg
      · obtain ⟨m, -, hm⟩ := readsAsCredential_message_iff.mp hr
        cases hm
      · exact readsAsConnect_iff.mp hr
  · rintro ⟨hcred, hhost⟩
    refine calls_socks5Handshake (fun _ => trivial) (Or.inl rfl) ?_ ?_
    · intro cred hc
      exact Or.inr (Or.inl ⟨cred, hc, readsAsCredential_iff.mpr (hcred cred hc)⟩)
    · exact Or.inr (Or.inr (readsAsConnect_iff.mpr hhost))

/-- **When no length wraps.**  Either copy of the handshake writes, whatever the
upstream proxy does, only messages that are read as they are meant, exactly if
username and password of the credential, where there is one, are at most 255 bytes
long, and the host is the text of an IP address or at most 255 bytes long. -/
theorem length_bytes_iff (std : IpText) (auth : Option UserCredential) (target : ConnectTarget) :
    (∀ addr useTls, Calls (Meant std auth target)
        (Socks5ProxyConnector.performSocks5Handshake std ⟨addr, auth, useTls⟩ target) ↔
      (∀ cred, auth = some cred → cred.Fits) ∧ HostFits std target.host) ∧
    (∀ tls, Calls (Meant std auth target) (performSocks5Handshake std auth tls target) ↔
      (∀ cred, auth = some cred → cred.Fits) ∧ HostFits std target.host) :=
  ⟨fun _ _ => calls_meant_iff, fun _ => calls_meant_iff⟩

/-- Port 443 of a host whose name is 256 letters long. -/
def longTarget : ConnectTarget := ⟨String.ofList (List.replicate 256 'x'), 443⟩

theorem utf8_longTarget : utf8 longTarget.host = List.replicate 256 0x78 := by
  show utf8 (String.ofList _) = _
  rw [utf8_ofList, List.flatMap_replicate]
  exact List.flatten_replicate_singleton

theorem parse_letters (n : ℕ) :
    IpText.plain.parseV4 (String.ofList ('x' :: List.replicate n 'x')) = none ∧
    IpText.plain.parseV6 (String.ofList ('x' :: List.replicate n 'x')) = none := by
  constructor
  · show (PlainText.parseParts 10 '.' _).bind _ = none
    rw [PlainText.parseParts_of_head (by decide) (by decide), Option.bind_none]
  · show (PlainText.parseParts 16 ':' _).bind _ = none
    rw [PlainText.parseParts_of_head (by decide) (by decide), Option.bind_none]

theorem parse_longTarget :
    IpText.plain.parseV4 longTarget.host = none ∧ IpText.plain.parseV6 longTarget.host = none :=
  parse_letters 255

theorem connectRequest_longTarget : connectRequest .plain longTarget =
    [0x05, 0x01, 0x00, 0x03, 0x00, 0x78, 0x78] ++ (List.replicate 254 0x78 ++ be16 443) := by
  rw [connectRequest, addressBytes, parse_longTarget.1, parse_longTarget.2, utf8_longTarget,
    prefixed, List.length_replicate]
  rfl

/-- **The rest of a long name becomes the port**: a name of 256 letters is sent
with the length 0, and is read as the empty name with the port 0x7878. -/
theorem long_host_reframed :
    ¬ Calls (Meant .plain none longTarget)
      (Socks5ProxyConnector.performSocks5Handshake .plain ⟨"192.0.2.7:1080", none, false⟩
        longTarget) ∧
    Prog.run (Wire.flat.sum (silent netSig)) readRequest
      (arrived (connectRequest .plain longTarget), ()) =
        .ret ⟨.connect, .domain "" 0x7878⟩
          (⟨List.replicate 254 0x78 ++ be16 443, false, []⟩, ()) := by
  constructor
  · rw [Socks5ProxyConnector.performSocks5Handshake, calls_meant_iff]
    rintro ⟨-, hhost⟩
    have hlen := hhost parse_longTarget.1 parse_longTarget.2
    rw [utf8_longTarget, List.length_replicate] at hlen
    omega
  · exact run_readRequest.mpr ⟨⟨.connect, 0x00, .domain "" 0x7878, Nat.zero_lt_succ _⟩, _,
      connectRequest_longTarget, rfl, rfl, rfl⟩

end Peregrine
