import Peregrine.Http
import Peregrine.Lib.Wire

/-!
# Addresses, errors and operations

The vocabulary the modules of the proxy share: socket addresses, the target of
an outbound connection, `ProxyError`, and `sysSig`, the operations the code
performs outside itself.  A function of the source that awaits something is a
`Sys α`: a program over these operations that fails with a `ProxyError`.

The stream operations act on the one stream the function was given.  The others
are the calls into the operating system, TLS and hyper, and `relayLoop`, which
stands for the UDP relay: a whole state machine of its own.
-/

namespace Peregrine

/-! ### Addresses -/

abbrev Ipv4Addr := Bytes 4
abbrev Ipv6Addr := Bytes 16

/-- `Ipv4Addr::new`. -/
def Ipv4Addr.new (a b c d : UInt8) : Ipv4Addr := ⟨[a, b, c, d], rfl⟩

inductive IpAddr
  | v4 (ip : Ipv4Addr)
  | v6 (ip : Ipv6Addr)
  deriving DecidableEq

inductive SocketAddr
  | v4 (ip : Ipv4Addr) (port : UInt16)
  | v6 (ip : Ipv6Addr) (port : UInt16) (flowinfo scopeId : UInt32)
  deriving DecidableEq

def SocketAddr.ip : SocketAddr → IpAddr
  | .v4 ip _ => .v4 ip
  | .v6 ip _ _ _ => .v6 ip

/-- The text forms of IP addresses, as the standard library prints and parses them. -/
structure IpText where
  parseV4 : String → Option Ipv4Addr
  parseV6 : String → Option Ipv6Addr
  showV4 : Ipv4Addr → String
  showV6 : Ipv6Addr → String

/-- `ConnectTarget::Address(host, port)`. -/
structure ConnectTarget where
  host : String
  port : UInt16
  deriving DecidableEq

/-- `format!("{}:{}", host, port)`. -/
def ConnectTarget.authority (t : ConnectTarget) : String := t.host ++ ":" ++ toString t.port.toNat

theorem utf8_authority (t : ConnectTarget) :
    utf8 t.authority = utf8 t.host ++ 0x3A :: utf8 (toString t.port.toNat) := by
  rw [ConnectTarget.authority, utf8_append, utf8_append, List.append_assoc]
  rfl

/-! ### Errors -/

/-- The variants of `error.rs` that the modelled code raises. -/
inductive ProxyError
  | io (e : IoError)
  | authFailed
  | upstream (msg : String)
  | timeout
  | socks5 (msg : String)
  deriving DecidableEq

/-- The error of an operation under `timeout`: elapsed, or the operation's own. -/
def ProxyError.ofLate : Late IoError → ProxyError
  | .elapsed => .timeout
  | .inner e => .io e

def ProxyError.display : ProxyError → String
  | .io e => "IO error: " ++ e.display
  | .authFailed => "Auth failed"
  | .upstream msg => "Upstream error: " ++ msg
  | .timeout => "Timeout"
  | .socks5 msg => "SOCKS5 error: " ++ msg

/-! ### Operations -/

inductive SysOp
  /-- `stream.read(&mut buf)` with a buffer of `cap` bytes. -/
  | read (cap : ℕ)
  /-- `TcpStream::connect(addr)`. -/
  | tcpConnect (addr : String)
  /-- `ServerName::try_from(host)`: is it a usable TLS server name? -/
  | serverName (host : String)
  /-- `connector.connect(server_name, stream)`: the TLS client handshake. -/
  | tlsConnect (host : String)
  /-- `copy_bidirectional` between the stream and the target. -/
  | copyBidirectional
  /-- `UdpSocket::bind(addr)`. -/
  | udpBind (addr : String)
  /-- `udp_socket.local_addr()`. -/
  | localAddr
  /-- `relay_loop(tcp_stream, udp_socket)`. -/
  | relayLoop
  /-- `hyper::client::conn::http1::handshake(io)`. -/
  | clientHandshake
  /-- `sender.send_request(req)`. -/
  | sendRequest (req : ForwardedRequest)
  /-- `BodyExt::collect(body)`. -/
  | collect

abbrev SysOp.Ans : SysOp → Type
  | .read _ => Except IoError (List UInt8)
  | .tcpConnect _ => Except IoError Unit
  | .serverName _ => Bool
  | .tlsConnect _ => Except String Unit
  | .copyBidirectional => Except IoError Unit
  | .udpBind _ => Except IoError Unit
  | .localAddr => Except IoError SocketAddr
  | .relayLoop => Except ProxyError Unit
  | .clientHandshake => Except HyperError Unit
  | .sendRequest _ => Except HyperError ResponseParts
  | .collect => Except HyperError (List UInt8)

abbrev netSig : Sig := ⟨SysOp, SysOp.Ans⟩

/-- Everything the code does outside itself. -/
abbrev sysSig : Sig := streamSig.sum netSig

/-- A function that awaits: it performs operations and may fail. -/
abbrev Sys (α : Type) := Prog sysSig ProxyError α

def sys (o : SysOp) : Sys o.Ans := @Prog.perform sysSig ProxyError (.inr o)

/-- `stream.read_exact(..)` with `map_err(ProxyError::Io)?`. -/
def readExact (n : ℕ) : Sys (Bytes n) := Wire.readExact .io n

/-- `stream.write_all(..)` with `map_err(ProxyError::Io)?`. -/
def writeAll (bs : List UInt8) : Sys Unit := Wire.writeAll .io bs

/-! ### A world in which everything succeeds -/

/-- Bytes that every handshake is content with. -/
def agreeableBytes (n : ℕ) : Bytes n :=
  ⟨(0x05 :: List.replicate n 0x00).take n, by simp⟩

/-- A world in which everything succeeds. -/
def agreeable : Prog.Oracle sysSig := fun _ o =>
  match o with
  | .inl (.readExact n) => .ok (agreeableBytes n)
  | .inl (.readExactWithin _ n) => .ok (agreeableBytes n)
  | .inl (.writeAll _) => .ok ()
  | .inr (.read _) => .ok (utf8 "HTTP/1.1 200 OK\r\n\r\n")
  | .inr (.tcpConnect _) => .ok ()
  | .inr (.serverName _) => true
  | .inr (.tlsConnect _) => .ok ()
  | .inr .copyBidirectional => .ok ()
  | .inr (.udpBind _) => .ok ()
  | .inr .localAddr => .ok (.v4 ⟨[127, 0, 0, 1], rfl⟩ 1080)
  | .inr .relayLoop => .ok ()
  | .inr .clientHandshake => .ok ()
  | .inr (.sendRequest _) => .ok ⟨200, []⟩
  | .inr .collect => .ok []

end Peregrine
