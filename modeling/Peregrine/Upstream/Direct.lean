import Peregrine.Lib.Text
import Peregrine.Net

/-!
# The direct connector and TLS

`upstream/direct.rs`, and `wrap_tls` and `extract_host` of `upstream/mod.rs`.
-/

namespace Peregrine

open Prog (call ensure ofExcept attempt)

/-- `DirectConnector::connect`. -/
def DirectConnector.connect (target : ConnectTarget) : Sys Unit := do
  let r ← sys (.tcpConnect target.authority)
  ofExcept .io r

theorem attempt_connect_bind {ε α : Type} (target : ConnectTarget)
    (rest : Except ProxyError Unit → Prog sysSig ε α) :
    attempt (DirectConnector.connect target) >>= rest =
      @call sysSig ε α (.inr (.tcpConnect target.authority)) fun r => rest (r.mapError .io) := by
  refine congrArg (@call sysSig ε α (.inr (.tcpConnect target.authority))) (funext fun r => ?_)
  cases r <;> rfl

/-- The host of `host:port`. -/
def extractHost (addr : String) : String :=
  match Text.rsplit ':' addr.toList with
  | some (host, _) => String.ofList host
  | none => addr

/-- `wrap_tls`: a TLS session with `host` over the stream. -/
def wrapTls (host : String) : Sys Unit := do
  let valid ← sys (.serverName host)
  ensure (valid = true) (.upstream ("Invalid TLS server name: " ++ host))
  let r ← sys (.tlsConnect host)
  ofExcept (fun e => .upstream ("TLS handshake failed: " ++ e)) r

end Peregrine
