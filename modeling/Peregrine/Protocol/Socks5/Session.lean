import Peregrine.Protocol.Socks5.Handshake
import Peregrine.Upstream.Direct

/-!
# A SOCKS5 connection

`protocol/socks5/mod.rs` runs the phases one after the other and hands the
request to the command it names; `protocol/socks5/tcp_connect.rs` serves
CONNECT, and `handle_udp_associate` opens the relay for UDP ASSOCIATE.

`acceptRequest` is everything up to the request, `dispatch` the rest, and
`handleSocks5Inner` the two together.
-/

namespace Peregrine

open Prog (ofExcept attempt Calls)

variable (std : IpText)

/-- The host and port a request names, as the connector is given them. -/
def TargetAddr.connectTarget : TargetAddr → ConnectTarget
  | .ipv4 addr port => ⟨std.showV4 addr, port⟩
  | .domain name port => ⟨name, port⟩
  | .ipv6 addr port => ⟨std.showV6 addr, port⟩

/-- What follows the outbound connect: the reply, and the tunnel if there is one. -/
def serveConnect (request : SocksRequest) : Except ProxyError Unit → Sys Unit
  | .ok () => do
    sendReply 0x00 request
    -- how the copy ends is logged and nothing more
    let _ ← sys .copyBidirectional
    return ()
  | .error _ => sendReply 0x05 request

/-- `tcp_connect::handle_connect`: connect, reply, and copy in both directions. -/
def handleConnect (request : SocksRequest) : Sys Unit := do
  let connected ← attempt (DirectConnector.connect (request.target.connectTarget std))
  serveConnect request connected

/-- `send_udp_reply`: the reply that carries the relay's address. -/
def sendUdpReply (rep : UInt8) (addr : SocketAddr) : Sys Unit :=
  match addr with
  | .v4 ip port => writeAll ([0x05, rep, 0x00, 0x01] ++ ip.bytes ++ be16 port)
  | .v6 ip port _ _ => writeAll ([0x05, rep, 0x00, 0x04] ++ ip.bytes ++ be16 port)

/-- `handle_udp_associate`: bind the relay socket, reply, and relay until the
control connection closes. -/
def handleUdpAssociate (_request : SocksRequest) : Sys Unit := do
  let bound ← sys (.udpBind "0.0.0.0:0")
  ofExcept .io bound
  let addr ← sys .localAddr
  let relayAddr ← ofExcept .io addr
  sendUdpReply 0x00 relayAddr
  let r ← sys .relayLoop
  ofExcept id r

/-- Phase 1.5 of `handle_socks5_inner`: authenticate if the method says so. -/
def authenticateIfRequired (users : Option (List UserCredential)) (method : UInt8) : Sys Unit :=
  if method = 0x02 then
    match users with
    | some userList => authenticateUser userList
    | none => .fail (.socks5 "Authentication required but no users configured")
  else .ret ()

/-- Phases 1 to 2: everything before a command is dispatched. -/
def acceptRequest (users : Option (List UserCredential)) : Sys SocksRequest := do
  let method ← negotiateMethod users
  authenticateIfRequired users method
  readRequest

/-- Phase 3: serve the command. -/
def dispatch (request : SocksRequest) : Sys Unit :=
  match request.command with
  | .connect => handleConnect std request
  | .udpAssociate => handleUdpAssociate request
  | .bind => sendReply 0x07 request

/-- `handle_socks5_inner`. -/
def handleSocks5Inner (users : Option (List UserCredential)) : Sys Unit := do
  let request ← acceptRequest users
  dispatch std request

variable {std} in
theorem handleSocks5Inner_eq {users : Option (List UserCredential)} : handleSocks5Inner std users =
    (negotiateMethod users >>= fun m => authenticateIfRequired users m >>= fun _ =>
      readRequest >>= dispatch std) := by
  simp only [handleSocks5Inner, acceptRequest, Prog.bind_assoc]

/-! ### What the commands ask for -/

section Calls

variable {P : sysSig.Op → Prop}

theorem calls_sendReply (hwrite : ∀ bs, P (.inl (.writeAll bs))) (rep : UInt8)
    (request : SocksRequest) : Calls P (sendReply rep request) :=
  Wire.calls_writeAll (hwrite _)

theorem calls_serveConnect (hwrite : ∀ bs, P (.inl (.writeAll bs)))
    (hcopy : P (.inr .copyBidirectional)) (request : SocksRequest) (r : Except ProxyError Unit) :
    Calls P (serveConnect request r) := by
  cases r with
  | error e => exact calls_sendReply hwrite 0x05 request
  | ok u =>
    refine (calls_sendReply hwrite 0x00 request).bind fun _ => ?_
    exact (Calls.perform hcopy).bind fun _ => trivial

theorem calls_handleUdpAssociate (hwrite : ∀ bs, P (.inl (.writeAll bs)))
    (hbind : P (.inr (.udpBind "0.0.0.0:0"))) (haddr : P (.inr .localAddr))
    (hloop : P (.inr .relayLoop)) (request : SocksRequest) :
    Calls P (handleUdpAssociate request) := by
  refine (Calls.perform hbind).bind fun bound => ?_
  refine (Calls.ofExcept _ _).bind fun _ => ?_
  refine (Calls.perform haddr).bind fun addr => ?_
  refine (Calls.ofExcept _ _).bind fun relayAddr => ?_
  refine Calls.bind ?_ fun _ => ?_
  · cases relayAddr <;> exact Wire.calls_writeAll (hwrite _)
  · exact (Calls.perform hloop).bind fun _ => Calls.ofExcept _ _

end Calls

end Peregrine
