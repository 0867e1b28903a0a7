import Peregrine.Acl.Auth
import Peregrine.Upstream.Direct

/-!
# The HTTP handler

`protocol/http_handler.rs`: what the service does with a request that hyper has
read.  A request with an absolute URI is forwarded to its host
(`proxyRequest`); a CONNECT is answered at once, and a task of its own connects
and copies when hyper has handed the connection over (`tunnel`).
-/

namespace Peregrine

open Prog (ofExcept attempt Calls)

namespace HttpHandler

/-- `parse_host_port`: host and port at the last colon. -/
def parseHostPort (authority : String) : Option (String × UInt16) :=
  match Text.rsplit ':' authority.toList with
  | some (host, port) => (Text.parseU16 port).map fun p => (String.ofList host, p)
  | none => none

/-- The headers that are not passed on. -/
def isHopByHop (header : String) : Bool :=
  ["proxy-authorization", "proxy-connection", "proxy-authenticate", "te", "trailer",
    "transfer-encoding", "upgrade", "keep-alive", "connection"].contains header.toLower

/-- The host and port of an absolute URI. -/
def forwardTarget (req : HttpRequest) : Option ConnectTarget :=
  req.uri.host.map fun host => ⟨host, req.uri.port.getD 80⟩

/-- The host and port a CONNECT asks for. -/
def connectTarget (req : HttpRequest) : ConnectTarget :=
  let target := req.uri.authority.getD ""
  match parseHostPort target with
  | some (host, port) => ⟨host, port⟩
  | none => ⟨target, 443⟩

/-- The headers of the forwarded request: those of one hop removed, `Host` added
where there was none. -/
def forwardedHeaders (req : HttpRequest) (target : ConnectTarget) : List Header :=
  let kept := (headerMap req.headers).filter fun h => !isHopByHop h.1
  if req.headers.any (·.1 == "host") then kept else kept ++ [("host", utf8 target.authority)]

/-- The request with a relative URI and cleaned headers. -/
def forwardedReq (req : HttpRequest) (target : ConnectTarget) : ForwardedRequest where
  method := req.method
  path := req.uri.pathAndQuery.getD "/"
  version := req.version
  headers := forwardedHeaders req target
  body := req.body

/-- A response of the proxy's own. -/
def textResponse (status : ℕ) (text : String) : HttpResponse := ⟨⟨status, []⟩, utf8 text⟩

/-- A call into hyper that may fail with an error of hyper's. -/
def hyper {α : Type} (o : SysOp) (h : o.Ans = Except HyperError α) : Prog sysSig HyperError α := do
  let r ← @Prog.perform sysSig HyperError (.inr o)
  ofExcept id (h ▸ r)

/-- What follows the outbound connect: the request goes to the target, and its
response comes back. -/
def forward (req : HttpRequest) (target : ConnectTarget) :
    Except ProxyError Unit → Prog sysSig HyperError HttpResponse
  | .ok () => do
    hyper .clientHandshake rfl
    let parts ← hyper (.sendRequest (forwardedReq req target)) rfl
    let body ← hyper .collect rfl
    return ⟨parts, body⟩
  | .error e => .ret (textResponse 502 ("Failed to connect to upstream: " ++ e.display))

/-- `proxy_request`. -/
def proxyRequest (req : HttpRequest) : Prog sysSig HyperError HttpResponse :=
  match forwardTarget req with
  | none => .ret (textResponse 400 "Missing host in request URI")
  | some target => do
    let connected ← attempt (DirectConnector.connect target)
    forward req target connected

/-- The answer to a CONNECT. -/
def connectResponse : HttpResponse := ⟨⟨200, []⟩, []⟩

/-- The task that `handle_connect` spawns, from where the upgrade has completed. -/
def tunnel (target : ConnectTarget) : Sys Unit := do
  let connected ← attempt (DirectConnector.connect target)
  match connected with
  | .ok () => do
    -- how the copy ends is logged and nothing more
    let _ ← sys .copyBidirectional
    return ()
  | .error _ => return ()

/-- `HeaderValue::to_str`: visible ASCII, spaces and tabs. -/
def headerText (value : List UInt8) : Option String :=
  if value.all fun b => (32 ≤ b && b < 127) || b == 9 then
    some (String.ofList (value.map fun b => Char.ofNat b.toNat))
  else none

/-- `check_proxy_auth`: the first `Proxy-Authorization` header is a credential of the list. -/
def checkProxyAuth (headers : List Header) (users : List UserCredential) : Bool :=
  match (headers.find? (·.1 == "proxy-authorization")).bind (headerText ·.2) with
  | none => false
  | some auth =>
    match parseBasicAuth auth with
    | none => false
    | some (username, password) => verifyCredentials username password users

/-! ### What the handlers ask for -/

def copyUpgraded : Except ProxyError Unit → Sys Unit
  | .ok () => do
    let _ ← sys .copyBidirectional
    return ()
  | .error _ => return ()

theorem tunnel_eq (target : ConnectTarget) :
    tunnel target = attempt (DirectConnector.connect target) >>= copyUpgraded := by
  refine congrArg (attempt (DirectConnector.connect target) >>= ·) (funext fun connected => ?_)
  cases connected <;> rfl

section Calls

variable {P : sysSig.Op → Prop}

theorem calls_hyper {α : Type} {o : SysOp} (h : o.Ans = Except HyperError α) (ho : P (.inr o)) :
    Calls P (hyper o h) :=
  Calls.bind (Calls.perform ho) fun _ => Calls.ofExcept _ _

theorem calls_forward (hclient : P (.inr .clientHandshake))
    (hsend : ∀ req, P (.inr (.sendRequest req))) (hcollect : P (.inr .collect))
    (req : HttpRequest) (target : ConnectTarget) (r : Except ProxyError Unit) :
    Calls P (forward req target r) := by
  cases r with
  | error e => trivial
  | ok u =>
    refine (calls_hyper rfl hclient).bind fun _ => ?_
    refine (calls_hyper rfl (hsend _)).bind fun parts => ?_
    exact (calls_hyper rfl hcollect).bind fun body => trivial

theorem calls_copyUpgraded (hcopy : P (.inr .copyBidirectional)) (r : Except ProxyError Unit) :
    Calls P (copyUpgraded r) := by
  cases r with
  | error e => trivial
  | ok u => exact (Calls.perform hcopy).bind fun _ => trivial

end Calls

end HttpHandler

end Peregrine
