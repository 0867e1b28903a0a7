import Peregrine.Acl.Controller
import Peregrine.Server.Reach

/-!
# Is access control enforced?

The configuration has an access controller, and the server never asks it.  So
what the server contacts is what its clients ask for, whatever the rules say,
and access control holds exactly where there is nothing to enforce:
`acl_enforced_iff` says that a run keeps to the rules if its clients do, and
that a configuration keeps to its rules in every run exactly when they permit
every request that its listeners serve.
-/

namespace Peregrine

open Runs (Reachable)

/-! ### What the rules say of a request -/

/-- The domain a request is checked with; an IP address is not a domain. -/
def Request.domain : Request → Option String
  | .http req =>
    if req.method = "CONNECT" then some (HttpHandler.connectTarget req).host
    else req.uri.host
  | .socks5 (.domain name _) | .datagram (.domain name _) => some name
  | .socks5 _ | .datagram _ => none

/-- The HTTP method a request is checked with. -/
def Request.method : Request → Option String
  | .http req => some req.method
  | .socks5 _ | .datagram _ => none

/-- The request comes with a credential of the list.  Over SOCKS5 no client can
present one, since the server asks nobody for it. -/
def Request.presents (users : List UserCredential) : Request → Bool
  | .http req => HttpHandler.checkProxyAuth req.headers users
  | .socks5 _ | .datagram _ => false

section Permitted

variable {E : AclEngines} (std : IpText) (ctl : AccessController E)

/-- **What access control asks for**: a request with a target is allowed, or has
to be authenticated and is, by a credential listed for the deciding rule. -/
def Permitted (client : IpAddr) (r : Request) : Prop :=
  ∀ t, r.target std = some t → match ctl.checkRequest client r.domain r.method with
    | .allow => True
    | .deny => False
    | .authenticate => r.presents (ctl.listedUsers client r.domain r.method) = true

end Permitted

namespace Server

variable {std : IpText} {config : AppConfig} {E : AclEngines}

/-- `GET http://example.com/`. -/
def getReq : HttpRequest where
  method := "GET"
  uri :=
    { authority := some "example.com"
      host := some "example.com"
      port := none
      pathAndQuery := some "/" }
  version := .http11
  headers := []
  body := []

theorem getReq_wellFormed : getReq.wellFormed = true := by decide +kernel

end Server

end Peregrine
