import Mathlib.Data.Nat.Notation

/-!
# The configuration file

`config.rs`: what the proxy is told to do.  `AppConfig` is what `serde_yaml`
reads from the file; `server::run` receives one and so does every reload.  The
fields that no code of the request path reads (logging, metrics, the timeouts
and the keep-alive of the `server` section) are left out.
-/

namespace Peregrine

structure UserCredential where
  username : String
  password : String
  deriving DecidableEq

inductive Protocol
  | http
  | socks5
  deriving DecidableEq

structure TlsConfig where
  cert : String
  key : String
  deriving DecidableEq

structure ListenConfig where
  addr : String
  protocol : Protocol
  tls : Option TlsConfig
  deriving DecidableEq

structure ServerConfig where
  listen : List ListenConfig
  maxConnections : Option ℕ
  deriving DecidableEq

inductive AclActionConfig
  | allow
  | deny
  | authenticate
  deriving DecidableEq

structure AuthConfig where
  authType : String
  users : Option (List UserCredential)
  deriving DecidableEq

structure AclRuleConfig where
  action : AclActionConfig
  srcIp : Option (List String)
  dstDomain : Option (List String)
  dstPort : Option (List String)
  httpMethod : Option (List String)
  auth : Option AuthConfig
  deriving DecidableEq

structure AccessControlConfig where
  defaultAction : AclActionConfig
  rules : List AclRuleConfig
  deriving DecidableEq

/-- Where outbound connections go: straight to the target, or through proxies. -/
inductive UpstreamConfig
  | direct
  | http (addr : String) (auth : Option UserCredential) (tls : Option Bool)
  | socks5 (addr : String) (auth : Option UserCredential) (tls : Option Bool)
  | chain (chain : List UpstreamConfig)

structure AppConfig where
  server : ServerConfig
  accessControl : AccessControlConfig
  upstream : UpstreamConfig

end Peregrine
