import Peregrine.Protocol.Detect
import Peregrine.Protocol.HttpHandler
import Peregrine.Protocol.Socks5.Session
import Peregrine.Protocol.Socks5.UdpRelay

/-!
# The server

`server.rs` from the point where every listener is bound and its accept loop
spawned: `run` itself, the accept loops, a task for every connection they let
in, a task for every CONNECT tunnel, and the UDP associations.  All of them run
side by side, each at a program point of its own, and share the semaphore, the
`Notify` and the watch channel; an `Action` names who moves and what the world
has answered.

A connection task that talks SOCKS5 or forwards a request runs the program of
the modules before this one, one operation at a time.  `requests` and
`contacts` log what clients have asked for and which connections have been
opened for them; no step looks at them.

A `Notified` is woken by the calls of `notify_waiters` made since it was
created, so it is given by the number of calls before (`epoch`).  A permit that
the semaphore hands to a waiting loop counts as available until the loop goes
on; `run` looks at the number only when no loop is left.
-/

namespace Peregrine

open Prog (call ret fail)

/-! ### State -/

/-- Something a client asks of the proxy that has a target. -/
inductive Request
  /-- A request to forward, or a CONNECT. -/
  | http (req : HttpRequest)
  /-- SOCKS5 CONNECT. -/
  | socks5 (target : TargetAddr)
  /-- A datagram of a UDP association. -/
  | datagram (target : TargetAddr)

/-- A connection opened for the client at `addr` on account of `request`. -/
structure Contact where
  addr : SocketAddr
  request : Request
  authority : String

/-- Where an accept loop stands. -/
inductive LoopPc
  /-- Before `select!`. -/
  | top
  /-- In `select!`, with a `Notified` created after `epoch` calls of `notify_waiters`. -/
  | select (epoch : ℕ)
  /-- In `acquire_owned`, with a connection accepted. -/
  | acquire (addr : SocketAddr)
  | stopped
  deriving DecidableEq

structure AcceptLoop where
  tls : Bool
  pc : LoopPc

/-- Where the task of a connection stands. -/
inductive ConnPc
  /-- In `acceptor.accept(stream)`. -/
  | tlsAccept
  /-- In `stream.peek`. -/
  | peek
  /-- In `serve_connection`, between two requests. -/
  | http
  /-- In `serve_connection`, with `proxy_request` at work on a request. -/
  | exchange (req : HttpRequest) (p : Prog sysSig HyperError HttpResponse)
  /-- In `serve_connection`, with a CONNECT answered for the tunnel task `k`. -/
  | answered (k : ℕ)
  /-- The connection has been handed to the tunnel task `k`. -/
  | handedOver (k : ℕ)
  /-- In `handle_socks5_inner`, before a command is dispatched. -/
  | accepting (p : Sys SocksRequest)
  /-- In `handle_socks5_inner`, with a command. -/
  | serving (request : SocksRequest) (p : Sys Unit)
  /-- In `relay_loop` of the association `a`. -/
  | relaying (request : SocksRequest) (a : ℕ) (k : Except ProxyError Unit → Sys Unit)
  /-- Ended, with the permit dropped. -/
  | closed

def ConnPc.isClosed : ConnPc → Bool
  | .closed => true
  | _ => false

/-- The task of a connection; `permit` is the `OwnedSemaphorePermit` it holds. -/
structure Conn where
  addr : SocketAddr
  permit : Bool
  pc : ConnPc

/-- Where the task spawned for a CONNECT stands. -/
inductive TunnelPc
  /-- In `hyper::upgrade::on`. -/
  | upgrade
  | running (p : Sys Unit)
  | failed

structure Tunnel where
  conn : ℕ
  addr : SocketAddr
  req : HttpRequest
  pc : TunnelPc

structure Association where
  addr : SocketAddr
  relay : Relay

/-- Where `run` stands. -/
inductive RunPc
  /-- In `ctrl_c`. -/
  | serving
  /-- Waiting for the accept loops. -/
  | joining
  /-- In the drain, with the `active_connections` it has computed. -/
  | draining (active : ℕ)
  | ended
  deriving DecidableEq

structure Server where
  runPc : RunPc
  notifyCalls : ℕ
  available : ℕ
  watched : AppConfig
  loops : List AcceptLoop
  conns : List Conn
  tunnels : List Tunnel
  associations : List Association
  requests : List (SocketAddr × Request)
  contacts : List Contact

namespace Server

/-! ### Actions -/

inductive RunEvent
  | ctrlC
  | joined
  | drained
  | timedOut
  /-- SIGHUP, and what the reload returned. -/
  | sighup (r : Except String AppConfig)

inductive LoopEvent
  | go
  | accepted (r : Except IoError SocketAddr)
  | notified

/-- What happens to the task of a connection. -/
inductive ConnEvent
  | go
  | tls (ok : Bool)
  | peeked (r : Except IoError (List UInt8))
  /-- hyper has read a request. -/
  | request (req : HttpRequest) (hreq : req.wellFormed = true)
  /-- The world answers the operation the program waits for. -/
  | answer (f : (o : sysSig.Op) → sysSig.Ans o)
  /-- hyper gives the connection up. -/
  | hangup

inductive TunnelEvent
  | answer (f : (o : sysSig.Op) → sysSig.Ans o)
  | upgradeFailed

inductive Action
  | run (e : RunEvent)
  | loop (i : ℕ) (e : LoopEvent)
  | conn (c : ℕ) (e : ConnEvent)
  | tunnel (k : ℕ) (e : TunnelEvent)
  | udp (a : ℕ) (act : Relay.Action)

/-! ### Changes -/

def setLoop (s : Server) (i : ℕ) (l : AcceptLoop) (pc : LoopPc) : Server :=
  { s with loops := s.loops.set i { l with pc } }

def setConn (s : Server) (c : ℕ) (conn : Conn) (pc : ConnPc) : Server :=
  { s with conns := s.conns.set c { conn with pc } }

def setTunnel (s : Server) (k : ℕ) (t : Tunnel) (pc : TunnelPc) : Server :=
  { s with tunnels := s.tunnels.set k { t with pc } }

def letIn (s : Server) (addr : SocketAddr) (tls : Bool) : Server :=
  { s with
    available := s.available - 1
    conns := s.conns ++ [⟨addr, true, if tls then .tlsAccept else .peek⟩] }

def close (s : Server) (c : ℕ) (conn : Conn) : Server :=
  { s with
    available := s.available + 1
    conns := s.conns.set c { conn with permit := false, pc := .closed } }

def logRequest (s : Server) (addr : SocketAddr) (request : Request) : Server :=
  { s with requests := s.requests ++ [(addr, request)] }

/-- The address of the connection that an operation has opened. -/
def opened : (o : sysSig.Op) → sysSig.Ans o → Option String
  | .inr (.tcpConnect authority), .ok () => some authority
  | _, _ => none

/-- The UDP relay is not one answer but an association of its own. -/
def isRelayLoop : sysSig.Op → Bool
  | .inr .relayLoop => true
  | _ => false

def logContact (s : Server) (addr : SocketAddr) (request : Request) (authority : Option String) :
    Server :=
  { s with contacts := s.contacts ++ (authority.map fun a => ⟨addr, request, a⟩).toList }

def spawnTunnel (s : Server) (c : ℕ) (addr : SocketAddr) (req : HttpRequest) : Server :=
  { s with tunnels := s.tunnels ++ [⟨c, addr, req, .upgrade⟩] }

def associate (s : Server) (addr : SocketAddr) : Server :=
  { s with associations := s.associations ++ [⟨addr, Relay.init⟩] }

/-! ### Steps -/

variable (std : IpText) (config : AppConfig)

/-- `max_conn`. -/
def maxConn : ℕ := config.server.maxConnections.getD 10000

/-- When every accept loop has been spawned. -/
def init : Server where
  runPc := .serving
  notifyCalls := 0
  available := maxConn config
  watched := config
  loops := config.server.listen.map fun l => ⟨l.tls.isSome, .top⟩
  conns := []
  tunnels := []
  associations := []
  requests := []
  contacts := []

/-- `run`, from `ctrl_c` on, and the SIGHUP listener. -/
def stepRun (s : Server) : RunPc → RunEvent → Option Server
  | .serving, .ctrlC => some { s with runPc := .joining, notifyCalls := s.notifyCalls + 1 }
  | .joining, .joined =>
    if s.loops.all (·.pc = .stopped) then
      some { s with runPc := .draining (maxConn config - s.available) }
    else none
  | .draining active, .drained =>
    -- `max_conn as u32` permits have to be there at once
    if active = 0 ∨ maxConn config % 2 ^ 32 ≤ s.available then some { s with runPc := .ended }
    else none
  | .draining active, .timedOut => if 0 < active then some { s with runPc := .ended } else none
  | _, .sighup (.ok new) => some { s with watched := new }
  | _, .sighup (.error _) => some s
  | _, _ => none

/-- One step of `accept_loop`. -/
def stepLoop (s : Server) (i : ℕ) (l : AcceptLoop) : LoopPc → LoopEvent → Option Server
  | .top, .go => some (s.setLoop i l (.select s.notifyCalls))
  | .select _, .accepted (.ok addr) => some (s.setLoop i l (.acquire addr))
  | .select _, .accepted (.error _) => some (s.setLoop i l .top)
  | .select epoch, .notified =>
    if epoch < s.notifyCalls then some (s.setLoop i l .stopped) else none
  | .acquire addr, .go =>
    if 0 < s.available then some ((s.letIn addr l.tls).setLoop i l .top) else none
  | _, _ => none

/-- One step of the task of a connection: `handle_connection` and what it calls. -/
def stepConn (s : Server) (c : ℕ) (conn : Conn) : ConnPc → ConnEvent → Option Server
  | .tlsAccept, .tls ok => if ok then some (s.setConn c conn .http) else some (s.close c conn)
  | .peek, .peeked (.ok []) => some (s.close c conn)
  | .peek, .peeked (.ok bytes) =>
    -- the whole buffer of 8 bytes is looked at
    match detectProtocol ((bytes ++ List.replicate 8 0).take 8) with
    | .http => some (s.setConn c conn .http)
    | .socks5 => some (s.setConn c conn (.accepting (acceptRequest none)))
    | .unknown => some (s.close c conn)
  | .peek, .peeked (.error _) => some (s.close c conn)
  | .http, .request req _ =>
    if req.method = "CONNECT" then
      some (((s.logRequest conn.addr (.http req)).spawnTunnel c conn.addr req).setConn c conn
        (.answered s.tunnels.length))
    else
      some ((s.logRequest conn.addr (.http req)).setConn c conn
        (.exchange req (HttpHandler.proxyRequest req)))
  | .http, .hangup => some (s.close c conn)
  | .exchange req (call o k), .answer f =>
    some ((s.logContact conn.addr (.http req) (opened o (f o))).setConn c conn
      (.exchange req (k (f o))))
  | .exchange _ (ret _), .go => some (s.setConn c conn .http)
  | .exchange _ (fail _), .go => some (s.close c conn)
  | .exchange _ _, .hangup => some (s.close c conn)
  | .answered k, .go =>
    (s.tunnels[k]?).map fun t =>
      (s.setTunnel k t (.running (HttpHandler.tunnel (HttpHandler.connectTarget t.req)))).setConn
        c conn (.handedOver k)
  | .answered _, .hangup => some (s.close c conn)
  | .handedOver _, .go => some (s.close c conn)
  | .accepting (call _ k), .answer f => some (s.setConn c conn (.accepting (k (f _))))
  | .accepting (ret request), .go =>
    match request.command with
    | .connect =>
      some ((s.logRequest conn.addr (.socks5 request.target)).setConn c conn
        (.serving request (dispatch std request)))
    | _ => some (s.setConn c conn (.serving request (dispatch std request)))
  | .accepting (fail _), .go => some (s.close c conn)
  | .serving request (call (.inr .relayLoop) k), .go =>
    some ((s.associate conn.addr).setConn c conn (.relaying request s.associations.length k))
  | .serving request (call o k), .answer f =>
    if isRelayLoop o then none
    else
      some ((s.logContact conn.addr (.socks5 request.target) (opened o (f o))).setConn c conn
        (.serving request (k (f o))))
  | .serving _ (ret ()), .go => some (s.close c conn)
  | .serving _ (fail _), .go => some (s.close c conn)
  | .relaying request a k, .go =>
    match s.associations[a]? with
    | some assoc =>
      if assoc.relay.running then none
      else some (s.setConn c conn (.serving request (k (.ok ()))))
    | none => none
  | _, _ => none

/-- One step of the task that `handle_connect` has spawned. -/
def stepTunnel (s : Server) (k : ℕ) (t : Tunnel) : TunnelPc → TunnelEvent → Option Server
  | .upgrade, .upgradeFailed =>
    if (s.conns[t.conn]?).any (·.pc.isClosed) then some (s.setTunnel k t .failed) else none
  | .running (call o next), .answer f =>
    some ((s.logContact t.addr (.http t.req) (opened o (f o))).setTunnel k t
      (.running (next (f o))))
  | _, _ => none

/-- One step of a relay. -/
def stepUdp (s : Server) (a : ℕ) (assoc : Association) (act : Relay.Action) : Option Server :=
  (assoc.relay.step act).map fun relay =>
    { s with associations := s.associations.set a { assoc with relay } }

/-- One step of the server, which is over when `run` has returned. -/
def step (s : Server) (a : Action) : Option Server :=
  if s.runPc = .ended then none
  else match a with
    | .run e => s.stepRun config s.runPc e
    | .loop i e => (s.loops[i]?).bind fun l => s.stepLoop i l l.pc e
    | .conn c e => (s.conns[c]?).bind fun conn => s.stepConn std c conn conn.pc e
    | .tunnel k e => (s.tunnels[k]?).bind fun t => s.stepTunnel k t t.pc e
    | .udp a act => (s.associations[a]?).bind fun assoc => s.stepUdp a assoc act

/-! ### What a step can do -/

/-- Every step of the server, with what it found and what it changed. -/
inductive Stepped (s : Server) : Action → Server → Prop
  | ctrlC (h : s.runPc = .serving) :
    Stepped s (.run .ctrlC) { s with runPc := .joining, notifyCalls := s.notifyCalls + 1 }
  | joined (h : s.runPc = .joining) (hl : ∀ l ∈ s.loops, l.pc = .stopped) :
    Stepped s (.run .joined) { s with runPc := .draining (maxConn config - s.available) }
  | ended {e : RunEvent} {active : ℕ} (h : s.runPc = .draining active) :
    Stepped s (.run e) { s with runPc := .ended }
  | reloaded (new : AppConfig) : Stepped s (.run (.sighup (.ok new))) { s with watched := new }
  | notReloaded (e : String) : Stepped s (.run (.sighup (.error e))) s
  | entered {i : ℕ} {l : AcceptLoop} (hl : s.loops[i]? = some l) (hpc : l.pc = .top) :
    Stepped s (.loop i .go) (s.setLoop i l (.select s.notifyCalls))
  | accepted {i epoch : ℕ} {l : AcceptLoop} {addr : SocketAddr} (hl : s.loops[i]? = some l)
    (hpc : l.pc = .select epoch) :
    Stepped s (.loop i (.accepted (.ok addr))) (s.setLoop i l (.acquire addr))
  | acceptFailed {i epoch : ℕ} {l : AcceptLoop} {e : IoError} (hl : s.loops[i]? = some l)
    (hpc : l.pc = .select epoch) :
    Stepped s (.loop i (.accepted (.error e))) (s.setLoop i l .top)
  | notified {i epoch : ℕ} {l : AcceptLoop} (hl : s.loops[i]? = some l)
    (hpc : l.pc = .select epoch) (he : epoch < s.notifyCalls) :
    Stepped s (.loop i .notified) (s.setLoop i l .stopped)
  | admitted {i : ℕ} {l : AcceptLoop} {addr : SocketAddr} (hl : s.loops[i]? = some l)
    (hpc : l.pc = .acquire addr) (ha : 0 < s.available) :
    Stepped s (.loop i .go) ((s.letIn addr l.tls).setLoop i l .top)
  | tlsAccepted {c : ℕ} {conn : Conn} (hc : s.conns[c]? = some conn) (hpc : conn.pc = .tlsAccept) :
    Stepped s (.conn c (.tls true)) (s.setConn c conn .http)
  | detectedHttp {c : ℕ} {conn : Conn} {bytes : List UInt8} (hc : s.conns[c]? = some conn)
    (hpc : conn.pc = .peek) : Stepped s (.conn c (.peeked (.ok bytes))) (s.setConn c conn .http)
  | detectedSocks5 {c : ℕ} {conn : Conn} {bytes : List UInt8} (hc : s.conns[c]? = some conn)
    (hpc : conn.pc = .peek) :
    Stepped s (.conn c (.peeked (.ok bytes)))
      (s.setConn c conn (.accepting (acceptRequest none)))
  | forwarded {c : ℕ} {conn : Conn} {req : HttpRequest} {hreq : req.wellFormed = true}
    (hc : s.conns[c]? = some conn) (hpc : conn.pc = .http) (hm : req.method ≠ "CONNECT") :
    Stepped s (.conn c (.request req hreq)) ((s.logRequest conn.addr (.http req)).setConn c conn
      (.exchange req (HttpHandler.proxyRequest req)))
  | connectAnswered {c : ℕ} {conn : Conn} {req : HttpRequest} {hreq : req.wellFormed = true}
    (hc : s.conns[c]? = some conn) (hpc : conn.pc = .http) (hm : req.method = "CONNECT") :
    Stepped s (.conn c (.request req hreq)) (((s.logRequest conn.addr (.http req)).spawnTunnel c
      conn.addr req).setConn c conn (.answered s.tunnels.length))
  | exchanged {c : ℕ} {conn : Conn} {req : HttpRequest} {o : sysSig.Op}
    {k : sysSig.Ans o → Prog sysSig HyperError HttpResponse} {f : (o : sysSig.Op) → sysSig.Ans o}
    (hc : s.conns[c]? = some conn) (hpc : conn.pc = .exchange req (call o k)) :
    Stepped s (.conn c (.answer f)) ((s.logContact conn.addr (.http req)
      (opened o (f o))).setConn c conn (.exchange req (k (f o))))
  | responded {c : ℕ} {conn : Conn} {req : HttpRequest} {resp : HttpResponse}
    (hc : s.conns[c]? = some conn) (hpc : conn.pc = .exchange req (ret resp)) :
    Stepped s (.conn c .go) (s.setConn c conn .http)
  | handedOver {c k : ℕ} {conn : Conn} {t : Tunnel} (hc : s.conns[c]? = some conn)
    (hpc : conn.pc = .answered k) (ht : s.tunnels[k]? = some t) :
    Stepped s (.conn c .go) ((s.setTunnel k t (.running
      (HttpHandler.tunnel (HttpHandler.connectTarget t.req)))).setConn c conn (.handedOver k))
  | accepting {c : ℕ} {conn : Conn} {o : sysSig.Op} {k : sysSig.Ans o → Sys SocksRequest}
    {f : (o : sysSig.Op) → sysSig.Ans o} (hc : s.conns[c]? = some conn)
    (hpc : conn.pc = .accepting (call o k)) :
    Stepped s (.conn c (.answer f)) (s.setConn c conn (.accepting (k (f o))))
  | dispatchedConnect {c : ℕ} {conn : Conn} {request : SocksRequest}
    (hc : s.conns[c]? = some conn) (hpc : conn.pc = .accepting (ret request))
    (hcmd : request.command = .connect) :
    Stepped s (.conn c .go) ((s.logRequest conn.addr (.socks5 request.target)).setConn c conn
      (.serving request (dispatch std request)))
  | dispatched {c : ℕ} {conn : Conn} {request : SocksRequest} (hc : s.conns[c]? = some conn)
    (hpc : conn.pc = .accepting (ret request)) (hcmd : request.command ≠ .connect) :
    Stepped s (.conn c .go) (s.setConn c conn (.serving request (dispatch std request)))
  | associated {c : ℕ} {conn : Conn} {request : SocksRequest}
    {k : Except ProxyError Unit → Sys Unit} (hc : s.conns[c]? = some conn)
    (hpc : conn.pc = .serving request (call (.inr .relayLoop) k)) :
    Stepped s (.conn c .go) ((s.associate conn.addr).setConn c conn
      (.relaying request s.associations.length k))
  | served {c : ℕ} {conn : Conn} {request : SocksRequest} {o : sysSig.Op}
    {k : sysSig.Ans o → Sys Unit} {f : (o : sysSig.Op) → sysSig.Ans o}
    (hc : s.conns[c]? = some conn) (hpc : conn.pc = .serving request (call o k)) :
    Stepped s (.conn c (.answer f)) ((s.logContact conn.addr (.socks5 request.target)
      (opened o (f o))).setConn c conn (.serving request (k (f o))))
  | relayed {c a : ℕ} {conn : Conn} {request : SocksRequest}
    {k : Except ProxyError Unit → Sys Unit} (hc : s.conns[c]? = some conn)
    (hpc : conn.pc = .relaying request a k) :
    Stepped s (.conn c .go) (s.setConn c conn (.serving request (k (.ok ()))))
  | closed {c : ℕ} {conn : Conn} {e : ConnEvent} (hc : s.conns[c]? = some conn)
    (hpc : conn.pc.isClosed = false) (he : ∀ k, conn.pc = .handedOver k → e = .go) :
    Stepped s (.conn c e) (s.close c conn)
  | upgradeFailed {k : ℕ} {t : Tunnel} (ht : s.tunnels[k]? = some t) (hpc : t.pc = .upgrade) :
    Stepped s (.tunnel k .upgradeFailed) (s.setTunnel k t .failed)
  | tunnelled {k : ℕ} {t : Tunnel} {o : sysSig.Op} {next : sysSig.Ans o → Sys Unit}
    {f : (o : sysSig.Op) → sysSig.Ans o} (ht : s.tunnels[k]? = some t)
    (hpc : t.pc = .running (call o next)) :
    Stepped s (.tunnel k (.answer f)) ((s.logContact t.addr (.http t.req)
      (opened o (f o))).setTunnel k t (.running (next (f o))))
  | udp {a : ℕ} {assoc : Association} {act : Relay.Action} {relay : Relay}
    (ha : s.associations[a]? = some assoc) (hr : assoc.relay.step act = some relay) :
    Stepped s (.udp a act)
      { s with associations := s.associations.set a { assoc with relay } }

variable {std config}

theorem stepped_of_stepRun {s s' : Server} {pc : RunPc} {e : RunEvent} (hpc : s.runPc = pc)
    (h : s.stepRun config pc e = some s') : Stepped std config s (.run e) s' := by
  unfold stepRun at h
  split at h
  · cases h
    exact .ctrlC hpc
  · split at h
    · rename_i hl
      cases h
      exact .joined hpc fun l hm => of_decide_eq_true (List.all_eq_true.mp hl l hm)
    · cases h
  · split at h
    · cases h
      exact .ended hpc
    · cases h
  · split at h
    · cases h
      exact .ended hpc
    · cases h
  · cases h
    exact .reloaded _
  · cases h
    exact .notReloaded _
  · cases h

theorem stepped_of_stepLoop {s s' : Server} {i : ℕ} {l : AcceptLoop} {pc : LoopPc} {e : LoopEvent}
    (hl : s.loops[i]? = some l) (hpc : l.pc = pc) (h : s.stepLoop i l pc e = some s') :
    Stepped std config s (.loop i e) s' := by
  unfold stepLoop at h
  split at h
  · cases h
    exact .entered hl hpc
  · cases h
    exact .accepted hl hpc
  · cases h
    exact .acceptFailed hl hpc
  · split at h
    · cases h
      exact .notified hl hpc ‹_›
    · cases h
  · split at h
    · cases h
      exact .admitted hl hpc ‹_›
    · cases h
  · cases h

theorem stepped_of_stepConn {s s' : Server} {c : ℕ} {conn : Conn} {pc : ConnPc} {e : ConnEvent}
    (hc : s.conns[c]? = some conn) (hpc : conn.pc = pc)
    (h : s.stepConn std c conn pc e = some s') : Stepped std config s (.conn c e) s' := by
  have close : ∀ e', pc.isClosed = false → (∀ k, pc = .handedOver k → e' = .go) →
      Stepped std config s (.conn c e') (s.close c conn) := by
    intro e' hcl he
    subst hpc
    exact .closed hc hcl he
  unfold stepConn at h
  split at h
  · split at h
    · cases h
      subst_vars
      exact .tlsAccepted hc hpc
    · cases h
      exact close _ rfl nofun
  · cases h
    exact close _ rfl nofun
  · split at h
    · cases h
      exact .detectedHttp hc hpc
    · cases h
      exact .detectedSocks5 hc hpc
    · cases h
      exact close _ rfl nofun
  · cases h
    exact close _ rfl nofun
  · split at h
    · cases h
      exact .connectAnswered hc hpc ‹_›
    · cases h
      exact .forwarded hc hpc ‹_›
  · cases h
    exact close _ rfl nofun
  · cases h
    exact .exchanged hc hpc
  · cases h
    exact .responded hc hpc
  · cases h
    exact close _ rfl nofun
  · cases h
    exact close _ rfl nofun
  · obtain ⟨t, ht, rfl⟩ := Option.map_eq_some_iff.mp h
    exact .handedOver hc hpc ht
  · cases h
    exact close _ rfl nofun
  · cases h
    exact close _ rfl fun _ _ => rfl
  · cases h
    exact .accepting hc hpc
  · split at h
    · cases h
      exact .dispatchedConnect hc hpc ‹_›
    · cases h
      exact .dispatched hc hpc ‹_›
  · cases h
    exact close _ rfl nofun
  · cases h
    exact .associated hc hpc
  · split at h
    · cases h
    · cases h
      exact .served hc hpc
  · cases h
    exact close _ rfl nofun
  · cases h
    exact close _ rfl nofun
  · split at h
    · split at h
      · cases h
      · cases h
        exact .relayed hc hpc
    · cases h
  · cases h

theorem stepped_of_stepTunnel {s s' : Server} {k : ℕ} {t : Tunnel} {pc : TunnelPc}
    {e : TunnelEvent} (ht : s.tunnels[k]? = some t) (hpc : t.pc = pc)
    (h : s.stepTunnel k t pc e = some s') : Stepped std config s (.tunnel k e) s' := by
  unfold stepTunnel at h
  split at h
  · split at h
    · cases h
      exact .upgradeFailed ht hpc
    · cases h
  · cases h
    exact .tunnelled ht hpc
  · cases h

/-- **Every step is one of these.** -/
theorem stepped {s s' : Server} {a : Action} (h : s.step std config a = some s') :
    Stepped std config s a s' := by
  unfold step at h
  split at h
  · cases h
  · cases a with
    | run e => exact stepped_of_stepRun rfl h
    | loop i e =>
      obtain ⟨l, hl, h⟩ := Option.bind_eq_some_iff.mp h
      exact stepped_of_stepLoop hl rfl h
    | conn c e =>
      obtain ⟨conn, hc, h⟩ := Option.bind_eq_some_iff.mp h
      exact stepped_of_stepConn hc rfl h
    | tunnel k e =>
      obtain ⟨t, ht, h⟩ := Option.bind_eq_some_iff.mp h
      exact stepped_of_stepTunnel ht rfl h
    | udp a act =>
      obtain ⟨assoc, ha, h⟩ := Option.bind_eq_some_iff.mp h
      obtain ⟨relay, hr, rfl⟩ := Option.map_eq_some_iff.mp h
      exact .udp ha hr

theorem step_loops_length {s s' : Server} {a : Action} (h : s.step std config a = some s') :
    s'.loops.length = s.loops.length := by
  cases stepped h with
  | entered | accepted | acceptFailed | notified | admitted => exact List.length_set
  | _ => rfl

end Server

end Peregrine
