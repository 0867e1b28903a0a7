import Peregrine.Config
import Peregrine.Upstream.Direct

/-!
# The SOCKS5 client

`upstream/socks5_proxy.rs`: how the proxy asks another SOCKS5 proxy to connect.
The handshake is written twice in the source, here and in `upstream/chain.rs`,
byte for byte the same; `socks5Handshake` is that text, and each place keeps its
own name for it.
-/

namespace Peregrine

open Prog (ensure ofExcept Calls)

/-- The greeting: no authentication, and username/password with a credential. -/
def offeredMethods (auth : Option UserCredential) : List UInt8 :=
  if auth.isSome then [0x05, 0x02, 0x00, 0x02] else [0x05, 0x01, 0x00]

/-- Phase 1: offer the methods and read the one selected. -/
def offerMethods (auth : Option UserCredential) : Sys UInt8 := do
  writeAll (offeredMethods auth)
  let resp ← readExact 2
  ensure (resp.get 0 = 0x05) (.socks5 "Invalid SOCKS5 version from upstream")
  return resp.get 1

/-- The message of RFC 1929; `len() as u8` keeps the low byte of a length. -/
def authRequest (auth : UserCredential) : List UInt8 :=
  0x01 :: (prefixed (utf8 auth.username) ++ prefixed (utf8 auth.password))

def presentCredential (auth : UserCredential) : Sys Unit := do
  writeAll (authRequest auth)
  let authResp ← readExact 2
  ensure (authResp.get 1 = 0x00) .authFailed

/-- Authenticate as the selected method asks. -/
def authenticateUpstream (auth : Option UserCredential) (method : UInt8) : Sys Unit :=
  if method = 0x00 then .ret ()
  else if method = 0x02 then
    match auth with
    | some auth => presentCredential auth
    | none => .fail (.socks5 "Upstream requires auth but no credentials configured")
  else if method = 0xFF then
    .fail (.socks5 "Upstream SOCKS5 proxy rejected all auth methods")
  else .fail (.socks5 ("Unsupported auth method from upstream: " ++ toString method.toNat))

/-- The meaning of a reply code. -/
def replyMessage : UInt8 → String
  | 0x01 => "general SOCKS server failure"
  | 0x02 => "connection not allowed by ruleset"
  | 0x03 => "network unreachable"
  | 0x04 => "host unreachable"
  | 0x05 => "connection refused"
  | 0x06 => "TTL expired"
  | 0x07 => "command not supported"
  | 0x08 => "address type not supported"
  | _ => "unknown error"

/-- Read the bind address and throw it away. -/
def skipBindAddress (atyp : UInt8) : Sys Unit :=
  match atyp with
  | 0x01 => do
    let _ ← readExact 6
    return ()
  | 0x03 => do
    let len ← readExact 1
    let _ ← readExact ((len.get 0).toNat + 2)
    return ()
  | 0x04 => do
    let _ ← readExact 18
    return ()
  | _ => .ret ()

section

variable (std : IpText)

/-- The address as it is sent: an IP address where the host is the text of one. -/
def addressBytes (host : String) : List UInt8 :=
  match std.parseV4 host with
  | some ipv4 => 0x01 :: ipv4.bytes
  | none =>
    match std.parseV6 host with
    | some ipv6 => 0x04 :: ipv6.bytes
    | none => 0x03 :: prefixed (utf8 host)

def connectRequest (target : ConnectTarget) : List UInt8 :=
  [0x05, 0x01, 0x00] ++ addressBytes std target.host ++ be16 target.port

/-- Phase 2: send the request and read the reply. -/
def requestConnect (target : ConnectTarget) : Sys Unit := do
  writeAll (connectRequest std target)
  let replyHeader ← readExact 4
  ensure (replyHeader.get 1 = 0x00)
    (.upstream ("SOCKS5 upstream CONNECT failed: " ++ replyMessage (replyHeader.get 1)))
  skipBindAddress (replyHeader.get 3)

def socks5Handshake (auth : Option UserCredential) (target : ConnectTarget) : Sys Unit := do
  let method ← offerMethods auth
  authenticateUpstream auth method
  requestConnect std target

/-- `Socks5ProxyConnector`. -/
structure Socks5ProxyConnector where
  proxyAddr : String
  auth : Option UserCredential
  useTls : Bool

/-- `Socks5ProxyConnector::perform_socks5_handshake`. -/
def Socks5ProxyConnector.performSocks5Handshake (c : Socks5ProxyConnector)
    (target : ConnectTarget) : Sys Unit := socks5Handshake std c.auth target

/-- TLS over the stream just opened, where the proxy is to be spoken to in TLS. -/
def secure (useTls : Bool) (proxyAddr : String) : Sys Unit :=
  if useTls then wrapTls (extractHost proxyAddr) else .ret ()

/-- `Socks5ProxyConnector::connect`. -/
def Socks5ProxyConnector.connect (c : Socks5ProxyConnector) (target : ConnectTarget) :
    Sys Unit := do
  let r ← sys (.tcpConnect c.proxyAddr)
  ofExcept (fun e => .upstream
    ("Failed to connect to SOCKS5 proxy " ++ c.proxyAddr ++ ": " ++ e.display)) r
  secure c.useTls c.proxyAddr
  c.performSocks5Handshake std target

end

/-! ### What the handshake asks for -/

section Calls

variable {std : IpText} {auth : Option UserCredential} {target : ConnectTarget}

theorem calls_skipBindAddress {P : sysSig.Op → Prop} (hread : ∀ n, P (.inl (.readExact n)))
    (atyp : UInt8) : Calls P (skipBindAddress atyp) := by
  unfold skipBindAddress
  split
  · exact (Wire.calls_readExact (hread _)).bind fun _ => trivial
  · refine (Wire.calls_readExact (hread _)).bind fun len => ?_
    exact (Wire.calls_readExact (hread _)).bind fun _ => trivial
  · exact (Wire.calls_readExact (hread _)).bind fun _ => trivial
  · trivial

theorem calls_socks5Handshake {P : sysSig.Op → Prop} (hread : ∀ n, P (.inl (.readExact n)))
    (hoffer : P (.inl (.writeAll (offeredMethods auth))))
    (hcred : ∀ cred, auth = some cred → P (.inl (.writeAll (authRequest cred))))
    (hconnect : P (.inl (.writeAll (connectRequest std target)))) :
    Calls P (socks5Handshake std auth target) := by
  have hmethod : Calls P (offerMethods auth) := by
    refine (Wire.calls_writeAll hoffer).bind fun _ => ?_
    refine (Wire.calls_readExact (hread _)).bind fun _ => ?_
    exact (Calls.ensure _ _).bind fun _ => trivial
  refine hmethod.bind fun method => ?_
  have hauth : Calls P (authenticateUpstream auth method) := by
    unfold authenticateUpstream
    split
    · trivial
    · split
      · split
        · rename_i cred
          refine (Wire.calls_writeAll (hcred cred rfl)).bind fun _ => ?_
          refine (Wire.calls_readExact (hread _)).bind fun _ => ?_
          exact Calls.ensure _ _
        · trivial
      · split <;> trivial
  refine hauth.bind fun _ => ?_
  refine (Wire.calls_writeAll hconnect).bind fun _ => ?_
  refine (Wire.calls_readExact (hread _)).bind fun _ => ?_
  refine (Calls.ensure _ _).bind fun _ => ?_
  exact calls_skipBindAddress hread _

end Calls

end Peregrine
