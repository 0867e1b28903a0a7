import Peregrine.Config
import Peregrine.Lib.Base64
import Peregrine.Upstream.Socks5Proxy

/-!
# The HTTP CONNECT client

`upstream/http_proxy.rs`: how the proxy asks an HTTP proxy to connect.  The
source writes the exchange three times, in the TLS and the plain branch of the
connector and in `upstream/chain.rs`, in the same words; `httpHandshake` is that
text.
-/

namespace Peregrine

open Prog (ensure ofExcept Calls)

/-- `STANDARD.encode(format!("{}:{}", username, password))`. -/
def basicCredentials (auth : UserCredential) : String :=
  String.ofList (Base64.encode (utf8 (auth.username ++ ":" ++ auth.password)))

/-- The `Proxy-Authorization` line, where a credential is configured. -/
def authorizationLine : Option UserCredential → String
  | some auth => "Proxy-Authorization: Basic " ++ basicCredentials auth ++ "\r\n"
  | none => ""

/-- The CONNECT request. -/
def connectHead (auth : Option UserCredential) (target : ConnectTarget) : String :=
  "CONNECT " ++ target.authority ++ " HTTP/1.1\r\nHost: " ++ target.authority ++ "\r\n" ++
    authorizationLine auth ++ "\r\n"

/-- A line without its line break: `\n`, or `\r\n`. -/
def stripLineBreak (line : List Char) (broken : Bool) : List Char :=
  if broken && line.getLast? == some '\r' then line.dropLast else line

/-- `response.lines().next().unwrap_or("empty")`. -/
def firstLine (response : List Char) : String :=
  if response.isEmpty then "empty"
  else String.ofList (stripLineBreak (response.takeWhile (· ≠ '\n')) (response.contains '\n'))

/-- The two ways a response may start that count as success. -/
def isConnected (response : List Char) : Bool :=
  "HTTP/1.1 200".toList.isPrefixOf response || "HTTP/1.0 200".toList.isPrefixOf response

/-- One read of at most 4096 bytes, taken for the response. -/
def readConnectResponse : Sys Unit := do
  let r ← sys (.read 4096)
  let buf ← ofExcept .io r
  ensure (isConnected (lossy buf) = true)
    (.upstream ("HTTP proxy CONNECT failed: " ++ firstLine (lossy buf)))

def httpHandshake (auth : Option UserCredential) (target : ConnectTarget) : Sys Unit := do
  writeAll (utf8 (connectHead auth target))
  readConnectResponse

/-- `HttpProxyConnector`. -/
structure HttpProxyConnector where
  proxyAddr : String
  auth : Option UserCredential
  useTls : Bool

/-- `HttpProxyConnector::connect`; TLS, where it is used, comes before the request. -/
def HttpProxyConnector.connect (c : HttpProxyConnector) (target : ConnectTarget) : Sys Unit := do
  let r ← sys (.tcpConnect c.proxyAddr)
  ofExcept (fun e => .upstream
    ("Failed to connect to HTTP proxy " ++ c.proxyAddr ++ ": " ++ e.display)) r
  secure c.useTls c.proxyAddr
  httpHandshake c.auth target

theorem calls_httpHandshake {P : sysSig.Op → Prop} {auth : Option UserCredential}
    {target : ConnectTarget} (hread : P (.inr (.read 4096)))
    (hwrite : P (.inl (.writeAll (utf8 (connectHead auth target))))) :
    Calls P (httpHandshake auth target) := by
  refine (Wire.calls_writeAll hwrite).bind fun _ => ?_
  refine (Calls.perform hread).bind fun r => ?_
  refine (Calls.ofExcept _ r).bind fun buf => ?_
  exact Calls.ensure _ _

end Peregrine
