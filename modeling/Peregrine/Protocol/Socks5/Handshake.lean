import Peregrine.Acl.Auth
import Peregrine.Net

/-!
# The SOCKS5 server handshake

`protocol/socks5/handshake.rs`: method negotiation, the RFC 1929
username/password exchange, the request, and the reply.  Every read has a
deadline of 30 seconds; the code reads field by field, and so do the
definitions here, in the same order and with the same errors.
-/

namespace Peregrine

open Prog (ensure)

inductive SocksCommand
  | connect
  | bind
  | udpAssociate
  deriving DecidableEq

inductive TargetAddr
  | ipv4 (addr : Ipv4Addr) (port : UInt16)
  | domain (name : String) (port : UInt16)
  | ipv6 (addr : Ipv6Addr) (port : UInt16)
  deriving DecidableEq

structure SocksRequest where
  command : SocksCommand
  target : TargetAddr
  deriving DecidableEq

/-- `HANDSHAKE_TIMEOUT`, in seconds. -/
def handshakeTimeout : ℕ := 30

/-- `timeout(HANDSHAKE_TIMEOUT, stream.read_exact(..))` with both errors mapped. -/
def readField (n : ℕ) : Sys (Bytes n) := Wire.readExactWithin .ofLate handshakeTimeout n

/-- `u16::from_be_bytes`. -/
def portOf (b : Bytes 2) : UInt16 := ofBe16 (b.get 0) (b.get 1)

/-- The method selected among those offered: username/password when users are
configured, no authentication when not, `0xFF` when it is not offered. -/
def selectMethod (users : Option (List UserCredential)) (methods : List UInt8) : UInt8 :=
  if users.isSome then
    if methods.contains 0x02 then 0x02 else 0xFF
  else
    if methods.contains 0x00 then 0x00 else 0xFF

/-- Phase 1: read the client's methods and select one. -/
def negotiateMethod (users : Option (List UserCredential)) : Sys UInt8 := do
  let header ← readField 2
  ensure (header.get 0 = 0x05) (.socks5 "Invalid SOCKS version")
  let methods ← readField (header.get 1).toNat
  writeAll [0x05, selectMethod users methods.bytes]
  ensure (selectMethod users methods.bytes ≠ 0xFF)
    (.socks5 "No acceptable authentication method")
  return selectMethod users methods.bytes

/-- `String::from_utf8(..)` with the error mapped to `msg`. -/
def utf8Field (msg : String) (bs : List UInt8) : Sys String :=
  match fromUtf8 bs with
  | some s => .ret s
  | none => .fail (.socks5 msg)

/-- Phase 1.5: the username/password exchange of RFC 1929. -/
def authenticateUser (users : List UserCredential) : Sys Unit := do
  let ver ← readField 1
  ensure (ver.get 0 = 0x01) (.socks5 "Invalid auth version")
  let ulen ← readField 1
  let username ← readField (ulen.get 0).toNat
  let plen ← readField 1
  let password ← readField (plen.get 0).toNat
  let usernameStr ← utf8Field "Invalid username encoding" username.bytes
  let passwordStr ← utf8Field "Invalid password encoding" password.bytes
  let authenticated := verifyCredentials usernameStr passwordStr users
  writeAll [0x01, if authenticated then 0x00 else 0x01]
  ensure (authenticated = true) (.socks5 "Authentication failed")

/-- The command byte of a request. -/
def SocksCommand.ofByte : UInt8 → Option SocksCommand
  | 0x01 => some .connect
  | 0x02 => some .bind
  | 0x03 => some .udpAssociate
  | _ => none

/-- The address that follows the header of a request. -/
def readTarget (atyp : UInt8) : Sys TargetAddr :=
  match atyp with
  | 0x01 => do
    let addr ← readField 4
    let port ← readField 2
    return .ipv4 addr (portOf port)
  | 0x03 => do
    let len ← readField 1
    let domain ← readField (len.get 0).toNat
    let port ← readField 2
    let domainStr ← utf8Field "Invalid domain encoding" domain.bytes
    return .domain domainStr (portOf port)
  | 0x04 => do
    let addr ← readField 16
    let port ← readField 2
    return .ipv6 addr (portOf port)
  | atyp => .fail (.socks5 ("Unknown address type: " ++ toString atyp.toNat))

/-- Phase 2: read the request. -/
def readRequest : Sys SocksRequest := do
  let header ← readField 4
  ensure (header.get 0 = 0x05) (.socks5 "Invalid SOCKS version in request")
  match SocksCommand.ofByte (header.get 1) with
  | none => .fail (.socks5 ("Unknown command: " ++ toString (header.get 1).toNat))
  | some command =>
    let target ← readTarget (header.get 3)
    return { command, target }

/-- The reply with `0.0.0.0:0` as bind address. -/
def replyBytes (rep : UInt8) : List UInt8 := [0x05, rep, 0x00, 0x01, 0, 0, 0, 0, 0, 0]

def sendReply (rep : UInt8) (_request : SocksRequest) : Sys Unit := writeAll (replyBytes rep)

end Peregrine
