import Peregrine.Upstream.Chain

/-!
# The upstream router

`UpstreamRouter` of `upstream/mod.rs`: the connector that the configuration asks
for.
-/

namespace Peregrine

/-- `dyn UpstreamConnector`. -/
inductive UpstreamConnector
  | direct
  | http (c : HttpProxyConnector)
  | socks5 (c : Socks5ProxyConnector)
  | chain (c : ChainConnector)

/-- `UpstreamConnector::connect`. -/
def UpstreamConnector.connect (std : IpText) : UpstreamConnector → ConnectTarget → Sys Unit
  | .direct => DirectConnector.connect
  | .http c => c.connect
  | .socks5 c => c.connect std
  | .chain c => c.connect std

structure UpstreamRouter where
  connector : UpstreamConnector

/-- `UpstreamRouter::from_config`. -/
def UpstreamRouter.fromConfig : UpstreamConfig → UpstreamRouter
  | .direct => ⟨.direct⟩
  | .http addr auth tls => ⟨.http ⟨addr, auth, tls.getD false⟩⟩
  | .socks5 addr auth tls => ⟨.socks5 ⟨addr, auth, tls.getD false⟩⟩
  | .chain chain => ⟨.chain ⟨chain⟩⟩

/-- Connect the way the configuration says. -/
def UpstreamConfig.connect (std : IpText) (config : UpstreamConfig) (target : ConnectTarget) :
    Sys Unit := (UpstreamRouter.fromConfig config).connector.connect std target

def UpstreamConfig.tls : UpstreamConfig → Option Bool
  | .http _ _ tls => tls
  | .socks5 _ _ tls => tls
  | _ => none

end Peregrine
