import Peregrine.Upstream.HttpProxy

/-!
# Proxy chains

`upstream/chain.rs`: reaching a target through several proxies, one after the
other.  The stream is opened to the first entry and handed from handshake to
handshake, each of which asks its proxy for the next entry's address.

`connectHops` is `ChainConnector::connect` down to its two kinds of outside
calls, `TcpStream::connect` and `perform_proxy_handshake`; `ChainConnector.connect`
puts the handshakes in their place.
-/

namespace Peregrine

open Prog (ensure ofExcept attempt)

/-- `perform_http_handshake`; the TLS setting of an entry is not looked at. -/
def performHttpHandshake (auth : Option UserCredential) (_useTls : Option Bool)
    (target : ConnectTarget) : Sys Unit := httpHandshake auth target

/-- `perform_socks5_handshake`; the TLS setting of an entry is not looked at. -/
def performSocks5Handshake (std : IpText) (auth : Option UserCredential)
    (_useTls : Option Bool) (target : ConnectTarget) : Sys Unit := socks5Handshake std auth target

def extractProxyAddress : UpstreamConfig → Except ProxyError String
  | .direct => .error (.upstream "Direct config has no proxy address")
  | .http addr _ _ => .ok addr
  | .socks5 addr _ _ => .ok addr
  | .chain _ => .error (.upstream "Nested chains not supported")

/-- `host:port` as a target. -/
def parseAddrToTarget (addr : String) : Except ProxyError ConnectTarget :=
  match Text.rsplit ':' addr.toList with
  | some (host, portStr) =>
    match Text.parseU16 portStr with
    | some port => .ok ⟨String.ofList host, port⟩
    | none => .error (.upstream ("Invalid port in address: " ++ addr))
  | none => .error (.upstream ("Address missing port: " ++ addr))

def performProxyHandshake (std : IpText) (config : UpstreamConfig) (target : ConnectTarget) :
    Sys Unit :=
  match config with
  | .direct => .ret ()
  | .http _ auth tls => performHttpHandshake auth tls target
  | .socks5 _ auth tls => performSocks5Handshake std auth tls target
  | .chain _ => .fail (.upstream "Nested chains not supported")

/-! ### The hops -/

inductive HopOp
  /-- `TcpStream::connect(addr)`. -/
  | tcpConnect (addr : String)
  /-- `perform_proxy_handshake(stream, config, target)`. -/
  | handshake (config : UpstreamConfig) (target : ConnectTarget)

abbrev HopOp.Ans : HopOp → Type
  | .tcpConnect _ => Except IoError Unit
  | .handshake _ _ => Except ProxyError Unit

abbrev hopSig : Sig := ⟨HopOp, HopOp.Ans⟩

abbrev Hops (α : Type) := Prog hopSig ProxyError α

def hopConnect (failed : String) (addr : String) : Hops Unit := do
  let r ← @Prog.perform hopSig ProxyError (.tcpConnect addr)
  ofExcept (fun e => .upstream (failed ++ e.display)) r

def hopHandshake (config : UpstreamConfig) (target : ConnectTarget) : Hops Unit := do
  let r ← @Prog.perform hopSig ProxyError (.handshake config target)
  ofExcept id r

section

variable {σ : Type} {h : Prog.Handler hopSig σ} {config : UpstreamConfig} {target : ConnectTarget}
  {s s' : σ}

theorem run_hopHandshake_ok (hstep : h (.handshake config target) s = some (.ok (), s')) :
    Prog.run h (hopHandshake config target) s = .ret () s' := by
  have hcall : hopHandshake config target =
      .call (.handshake config target) fun r => Prog.ofExcept id r := rfl
  rw [hcall, Prog.run_call_some hstep]
  rfl

theorem run_hopHandshake_error {e : ProxyError}
    (hstep : h (.handshake config target) s = some (.error e, s')) :
    Prog.run h (hopHandshake config target) s = .fail e s' := by
  have hcall : hopHandshake config target =
      .call (.handshake config target) fun r => Prog.ofExcept id r := rfl
  rw [hcall, Prog.run_call_some hstep]
  rfl

end

/-- What the hop before `next` asks its proxy for. -/
def nextTarget (target : ConnectTarget) : UpstreamConfig → Except ProxyError ConnectTarget
  | .direct => .ok target
  | next => extractProxyAddress next >>= parseAddrToTarget

/-- The loop over the hops, from the entry it has come to. -/
def hopsFrom (target : ConnectTarget) : List UpstreamConfig → Hops Unit
  | [] => .ret ()
  | [last] => hopHandshake last target
  | config :: next :: rest => do
    let asked ← ofExcept id (nextTarget target next)
    hopHandshake config asked
    hopsFrom target (next :: rest)

def singleHop (target : ConnectTarget) : UpstreamConfig → Hops Unit
  | .direct => hopConnect "Direct connection failed: " target.authority
  | config => do
    let proxyAddr ← ofExcept id (extractProxyAddress config)
    hopConnect ("Failed to connect to proxy " ++ proxyAddr ++ ": ") proxyAddr
    hopHandshake config target

def connectHops (chain : List UpstreamConfig) (target : ConnectTarget) : Hops Unit :=
  match chain with
  | [] => .fail (.upstream "Empty chain")
  | [config] => singleHop target config
  | first :: rest => do
    let firstProxyAddr ← ofExcept id (extractProxyAddress first)
    hopConnect ("Failed to connect to first proxy " ++ firstProxyAddr ++ ": ") firstProxyAddr
    hopsFrom target (first :: rest)

theorem connectHops_eq {target : ConnectTarget} {first : UpstreamConfig}
    {rest : List UpstreamConfig} (h : first ≠ .direct ∨ rest ≠ []) : ∃ failed : String → String,
      connectHops (first :: rest) target = (ofExcept id (extractProxyAddress first) >>= fun a =>
        hopConnect (failed a) a >>= fun _ => hopsFrom target (first :: rest)) := by
  cases rest with
  | nil =>
    cases first with
    | direct => simp at h
    | http addr auth tls => exact ⟨fun a => "Failed to connect to proxy " ++ a ++ ": ", rfl⟩
    | socks5 addr auth tls => exact ⟨fun a => "Failed to connect to proxy " ++ a ++ ": ", rfl⟩
    | chain c => exact ⟨fun a => "Failed to connect to proxy " ++ a ++ ": ", rfl⟩
  | cons next rest => exact ⟨fun a => "Failed to connect to first proxy " ++ a ++ ": ", rfl⟩

theorem connectHops_of_address {target : ConnectTarget} {first : UpstreamConfig}
    {rest : List UpstreamConfig} {addr : String} (ha : extractProxyAddress first = .ok addr) :
    ∃ failed : String, connectHops (first :: rest) target =
      hopConnect failed addr >>= fun _ => hopsFrom target (first :: rest) := by
  have hne : first ≠ .direct ∨ rest ≠ [] := by
    refine Or.inl ?_
    rintro rfl
    cases ha
  obtain ⟨failed, heq⟩ := @connectHops_eq target first rest hne
  refine ⟨failed addr, ?_⟩
  rw [heq, ha, Prog.ofExcept_ok, Prog.ret_bind]

/-- **How a chain begins**: a lone direct entry dials the target, a first entry
without an address stops it, and any other first entry is dialled. -/
theorem connectHops_cases (target : ConnectTarget) (first : UpstreamConfig)
    (rest : List UpstreamConfig) :
    (first = .direct ∧ rest = []) ∨
    (∃ e, connectHops (first :: rest) target = .fail e) ∨
    ∃ addr failed, extractProxyAddress first = .ok addr ∧ connectHops (first :: rest) target =
      hopConnect failed addr >>= fun _ => hopsFrom target (first :: rest) := by
  by_cases hlone : first = .direct ∧ rest = []
  · exact Or.inl hlone
  · right
    cases ha : extractProxyAddress first with
    | error e =>
      have hne : first ≠ .direct ∨ rest ≠ [] := by
        by_cases hf : first = .direct
        · exact Or.inr fun hr => hlone ⟨hf, hr⟩
        · exact Or.inl hf
      obtain ⟨failed, heq⟩ := @connectHops_eq target first rest hne
      rw [ha] at heq
      exact Or.inl ⟨e, heq⟩
    | ok addr =>
      obtain ⟨failed, heq⟩ := @connectHops_of_address target first rest addr ha
      exact Or.inr ⟨addr, failed, rfl, heq⟩

/-- What a hop does on the stream. -/
def hopAction (std : IpText) : (o : HopOp) → Sys o.Ans
  | .tcpConnect addr => sys (.tcpConnect addr)
  | .handshake config target => attempt (performProxyHandshake std config target)

/-- `ChainConnector`. -/
structure ChainConnector where
  chain : List UpstreamConfig

/-- `ChainConnector::connect`. -/
def ChainConnector.connect (std : IpText) (c : ChainConnector) (target : ConnectTarget) :
    Sys Unit := (connectHops c.chain target).interp (hopAction std)

/-- **An address written as `host:port` is read back.** -/
theorem parseAddrToTarget_authority (t : ConnectTarget) :
    parseAddrToTarget t.authority = .ok t := by
  have hlist : t.authority.toList = t.host.toList ++ ':' :: (toString t.port.toNat).toList := by
    rw [ConnectTarget.authority, String.toList_append, String.toList_append, List.append_assoc]
    rfl
  have hcolon : ':' ∉ (toString t.port.toNat).toList := by
    rw [Text.toList_toString]
    exact Text.not_mem_toDigits (by decide) (by decide) (by decide) _
  rw [parseAddrToTarget, hlist, Text.rsplit_append hcolon]
  simp only [Text.parseU16_toString, String.ofList_toList]

end Peregrine
