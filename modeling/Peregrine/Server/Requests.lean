import Peregrine.Protocol.Socks5.Accept
import Peregrine.Protocol.Socks5.UdpOwnership
import Peregrine.Server.Permits

/-!
# From contacts back to requests

Whatever the server connects to, and whatever a relay of it sends to, is the
target of a request that a client has made (`contacted_carried`), and only
requests that the listeners of the configuration serve are made at all
(`carried_serves`).

Both rest on `Traced`: a task that forwards, tunnels or serves a SOCKS5 command
runs a program that opens connections to the target of its request and to
nothing else, and the request has been logged.  What programs can open is read
off their trees (`Prog.Calls`).
-/

namespace Peregrine

open Prog (call ret fail Calls Ends)
open Table

variable (std : IpText)

/-! ### Requests and their targets -/

/-- The host and port that a request is for; a request to forward may have none. -/
def Request.target : Request → Option ConnectTarget
  | .http req =>
    if req.method = "CONNECT" then some (HttpHandler.connectTarget req)
    else HttpHandler.forwardTarget req
  | .socks5 target | .datagram target => some (target.connectTarget std)

def Opens (requests : List (SocketAddr × Request)) (addr : SocketAddr) (r : Request) :
    sysSig.Op → Prop
  | .inr (.tcpConnect authority) =>
    (addr, r) ∈ requests ∧ ∃ t, r.target std = some t ∧ authority = t.authority
  | _ => True

variable {std}

theorem Opens.mono {requests requests' : List (SocketAddr × Request)} {addr : SocketAddr}
    {r : Request} (hsub : requests ⊆ requests') {o : sysSig.Op} (h : Opens std requests addr r o) :
    Opens std requests' addr r o := by
  unfold Opens at h ⊢
  split
  · exact ⟨hsub h.1, h.2⟩
  · trivial

section Programs

variable {requests : List (SocketAddr × Request)} {addr : SocketAddr} {r : Request}

theorem calls_connect {t : ConnectTarget} (hlog : (addr, r) ∈ requests)
    (ht : r.target std = some t) :
    Calls (Opens std requests addr r) (DirectConnector.connect t) := by
  refine Calls.bind (Calls.perform ⟨hlog, t, ht, rfl⟩) fun _ => ?_
  exact Calls.ofExcept _ _

theorem calls_proxyRequest {req : HttpRequest} (hlog : (addr, .http req) ∈ requests)
    (hm : req.method ≠ "CONNECT") :
    Calls (Opens std requests addr (.http req)) (HttpHandler.proxyRequest req) := by
  unfold HttpHandler.proxyRequest
  split
  · trivial
  · rename_i target ht
    have htarget : (Request.http req).target std = some target := by
      rw [Request.target, if_neg hm]
      exact ht
    refine Calls.bind (Calls.attempt (calls_connect hlog htarget)) fun connected => ?_
    exact HttpHandler.calls_forward trivial (fun _ => trivial) trivial req target connected

theorem calls_tunnel {req : HttpRequest} (hlog : (addr, .http req) ∈ requests)
    (hm : req.method = "CONNECT") : Calls (Opens std requests addr (.http req))
      (HttpHandler.tunnel (HttpHandler.connectTarget req)) := by
  have htarget : (Request.http req).target std = some (HttpHandler.connectTarget req) := by
    rw [Request.target, if_pos hm]
  rw [HttpHandler.tunnel_eq]
  refine Calls.bind (Calls.attempt (calls_connect hlog htarget)) fun connected => ?_
  exact HttpHandler.calls_copyUpgraded trivial connected

theorem calls_dispatch {request : SocksRequest}
    (hlog : request.command = .connect → (addr, .socks5 request.target) ∈ requests) :
    Calls (Opens std requests addr (.socks5 request.target)) (dispatch std request) := by
  have hwrite : ∀ bs, Opens std requests addr (.socks5 request.target) (.inl (.writeAll bs)) :=
    fun _ => trivial
  unfold dispatch
  split
  · rename_i hcmd
    refine Calls.bind (Calls.attempt (calls_connect (hlog hcmd) rfl)) fun connected => ?_
    exact calls_serveConnect hwrite trivial request connected
  · exact calls_handleUdpAssociate hwrite trivial trivial trivial request
  · exact calls_sendReply hwrite _ request

end Programs

namespace Server

variable (config : AppConfig)

/-! ### Who can ask for what -/

/-- Connections can be let in.  This is about a server whose listeners are open, and whose
limit is one that a semaphore can have. -/
def ServesHttp : Prop := 0 < maxConn config ∧ config.server.listen ≠ []

/-- Connections can be let in on a listener without TLS, where SOCKS5 is recognised. -/
def ServesSocks5 : Prop := 0 < maxConn config ∧ ∃ l ∈ config.server.listen, l.tls = none

/-- Some client can make the request. -/
def Serves : Request → Prop
  | .http req => ServesHttp config ∧ req.wellFormed = true
  | .socks5 target | .datagram target => ServesSocks5 config ∧ target.Fits

variable {config}

theorem ServesSocks5.http (h : ServesSocks5 config) : ServesHttp config := by
  obtain ⟨hmax, l, hl, -⟩ := h
  exact ⟨hmax, List.ne_nil_of_mem hl⟩

/-! ### What every task is up to -/

section Traces

variable (std config) (requests : List (SocketAddr × Request))

/-- What the task of a connection from `addr` may do from where it stands. -/
def ConnTraced (addr : SocketAddr) : ConnPc → Prop
  | .closed => True
  | .tlsAccept | .http | .answered _ | .handedOver _ => ServesHttp config
  | .exchange req p => ServesHttp config ∧ Calls (Opens std requests addr (.http req)) p
  | .peek => ServesSocks5 config
  | .accepting p => ServesSocks5 config ∧ Ends (·.target.Fits) (fun _ => True) p
  | .serving request p =>
    ServesSocks5 config ∧ Calls (Opens std requests addr (.socks5 request.target)) p
  | .relaying request _ k =>
    ServesSocks5 config ∧ ∀ x, Calls (Opens std requests addr (.socks5 request.target)) (k x)

/-- What a tunnel may do. -/
structure TunnelTraced (t : Tunnel) : Prop where
  logged : (t.addr, .http t.req) ∈ requests
  connect : t.req.method = "CONNECT"
  running : ∀ p, t.pc = .running p → Calls (Opens std requests t.addr (.http t.req)) p

/-- **Every task opens connections to the target of its own request only.** -/
structure Traced (s : Server) : Prop where
  loop : ∀ l ∈ s.loops, ∃ listen ∈ config.server.listen, l.tls = listen.tls.isSome
  conn : ∀ conn ∈ s.conns, ConnTraced std config s.requests conn.addr conn.pc
  tunnel : ∀ t ∈ s.tunnels, TunnelTraced std s.requests t
  association : ∀ a ∈ s.associations, ServesSocks5 config ∧ a.relay.Owned
  request : ∀ x ∈ s.requests, Serves config x.2
  contact : ∀ x ∈ s.contacts,
    Opens std s.requests x.addr x.request (.inr (.tcpConnect x.authority))

end Traces

theorem ConnTraced.mono {requests requests' : List (SocketAddr × Request)}
    (hsub : requests ⊆ requests') {addr : SocketAddr} {pc : ConnPc}
    (h : ConnTraced std config requests addr pc) : ConnTraced std config requests' addr pc := by
  cases pc with
  | closed | tlsAccept | http | answered | handedOver | peek | accepting => exact h
  | exchange req p => exact ⟨h.1, h.2.mono fun _ => Opens.mono hsub⟩
  | serving request p => exact ⟨h.1, h.2.mono fun _ => Opens.mono hsub⟩
  | relaying request a k => exact ⟨h.1, fun x => (h.2 x).mono fun _ => Opens.mono hsub⟩

theorem TunnelTraced.mono {requests requests' : List (SocketAddr × Request)}
    (hsub : requests ⊆ requests') {t : Tunnel} (h : TunnelTraced std requests t) :
    TunnelTraced std requests' t :=
  ⟨hsub h.logged, h.connect, fun p hp => (h.running p hp).mono fun _ => Opens.mono hsub⟩

theorem traced_init : Traced std config (init config) where
  loop l hl := by
    obtain ⟨listen, hlisten, rfl⟩ := List.mem_map.mp hl
    exact ⟨listen, hlisten, rfl⟩
  conn _ h := by cases h
  tunnel _ h := by cases h
  association _ h := by cases h
  request _ h := by cases h
  contact _ h := by cases h

/-! ### One change at a time -/

section Changes

variable {s : Server} (h : Traced std config s)

include h

theorem Traced.setLoop {i : ℕ} {l : AcceptLoop} {pc : LoopPc} (hl : l ∈ s.loops) :
    Traced std config (s.setLoop i l pc) where
  loop m hm := by
    rcases List.mem_or_eq_of_mem_set hm with hm | rfl
    · exact h.loop m hm
    · exact h.loop l hl
  conn := h.conn
  tunnel := h.tunnel
  association := h.association
  request := h.request
  contact := h.contact

theorem Traced.setConn {c : ℕ} {conn : Conn} {pc : ConnPc}
    (hpc : ConnTraced std config s.requests conn.addr pc) :
    Traced std config (s.setConn c conn pc) where
  loop := h.loop
  conn m hm := by
    rcases List.mem_or_eq_of_mem_set hm with hm | rfl
    · exact h.conn m hm
    · exact hpc
  tunnel := h.tunnel
  association := h.association
  request := h.request
  contact := h.contact

theorem Traced.close (c : ℕ) (conn : Conn) : Traced std config (s.close c conn) where
  loop := h.loop
  conn m hm := by
    rcases List.mem_or_eq_of_mem_set hm with hm | rfl
    · exact h.conn m hm
    · trivial
  tunnel := h.tunnel
  association := h.association
  request := h.request
  contact := h.contact

theorem Traced.setTunnel {k : ℕ} {t : Tunnel} {pc : TunnelPc}
    (ht : TunnelTraced std s.requests { t with pc }) : Traced std config (s.setTunnel k t pc) where
  loop := h.loop
  conn := h.conn
  tunnel u hu := by
    rcases List.mem_or_eq_of_mem_set hu with hu | rfl
    · exact h.tunnel u hu
    · exact ht
  association := h.association
  request := h.request
  contact := h.contact

theorem Traced.letIn {l : AcceptLoop} (hl : l ∈ s.loops) (hmax : 0 < maxConn config)
    (addr : SocketAddr) : Traced std config (s.letIn addr l.tls) where
  loop := h.loop
  conn m hm := by
    obtain ⟨listen, hlisten, htls⟩ := h.loop l hl
    rcases List.mem_append.mp hm with hm | hm
    · exact h.conn m hm
    · obtain rfl := List.mem_singleton.mp hm
      cases hl : l.tls with
      | true => exact ⟨hmax, List.ne_nil_of_mem hlisten⟩
      | false =>
        rw [hl] at htls
        exact ⟨hmax, listen, hlisten, Option.not_isSome_iff_eq_none.mp (by rw [← htls]; decide)⟩
  tunnel := h.tunnel
  association := h.association
  request := h.request
  contact := h.contact

theorem Traced.logRequest {addr : SocketAddr} {r : Request} (hr : Serves config r) :
    Traced std config (s.logRequest addr r) := by
  have hsub : s.requests ⊆ s.requests ++ [(addr, r)] := List.subset_append_left _ _
  refine ⟨h.loop, fun conn hc => (h.conn conn hc).mono hsub,
    fun t ht => (h.tunnel t ht).mono hsub, h.association, fun x hx => ?_,
    fun x hx => (h.contact x hx).mono hsub⟩
  rcases List.mem_append.mp hx with hx | hx
  · exact h.request x hx
  · obtain rfl := List.mem_singleton.mp hx
    exact hr

theorem Traced.logContact {addr : SocketAddr} {r : Request} {o : sysSig.Op} {x : sysSig.Ans o}
    (ho : Opens std s.requests addr r o) :
    Traced std config (s.logContact addr r (opened o x)) := by
  refine ⟨h.loop, h.conn, h.tunnel, h.association, h.request, fun y hy => ?_⟩
  rcases List.mem_append.mp hy with hy | hy
  · exact h.contact y hy
  · rw [Option.mem_toList, Option.map_eq_some_iff] at hy
    obtain ⟨authority, hopen, rfl⟩ := hy
    unfold opened at hopen
    split at hopen
    · cases hopen
      exact ho
    · cases hopen

theorem Traced.spawnTunnel {c : ℕ} {addr : SocketAddr} {req : HttpRequest}
    (hlog : (addr, .http req) ∈ s.requests) (hm : req.method = "CONNECT") :
    Traced std config (s.spawnTunnel c addr req) where
  loop := h.loop
  conn := h.conn
  tunnel t ht := by
    rcases List.mem_append.mp ht with ht | ht
    · exact h.tunnel t ht
    · obtain rfl := List.mem_singleton.mp ht
      exact ⟨hlog, hm, nofun⟩
  association := h.association
  request := h.request
  contact := h.contact

theorem Traced.associate (hs : ServesSocks5 config) (addr : SocketAddr) :
    Traced std config (s.associate addr) where
  loop := h.loop
  conn := h.conn
  tunnel := h.tunnel
  association a ha := by
    rcases List.mem_append.mp ha with ha | ha
    · exact h.association a ha
    · obtain rfl := List.mem_singleton.mp ha
      exact ⟨hs, Relay.owned_init⟩
  request := h.request
  contact := h.contact

theorem Traced.setRelay {a : ℕ} {assoc : Association} {relay : Relay}
    (ha : assoc ∈ s.associations) (hr : relay.Owned) : Traced std config
      { s with associations := s.associations.set a { assoc with relay } } where
  loop := h.loop
  conn := h.conn
  tunnel := h.tunnel
  association b hb := by
    rcases List.mem_or_eq_of_mem_set hb with hb | rfl
    · exact h.association b hb
    · exact ⟨(h.association assoc ha).1, hr⟩
  request := h.request
  contact := h.contact

end Changes

/-- **Every step keeps tasks to their requests.** -/
theorem Traced.step {s s' : Server} {a : Action} (acc : Accounted config s)
    (h : Traced std config s) (hs : s.step std config a = some s') : Traced std config s' := by
  have at_conn : ∀ {c : ℕ} {conn : Conn} {pc : ConnPc}, s.conns[c]? = some conn → conn.pc = pc →
      ConnTraced std config s.requests conn.addr pc := by
    intro c conn pc hc hpc
    subst hpc
    exact h.conn conn (List.mem_of_getElem? hc)
  cases stepped hs with
  | ctrlC | joined | ended | reloaded | notReloaded =>
    exact ⟨h.loop, h.conn, h.tunnel, h.association, h.request, h.contact⟩
  | entered hl hpc | accepted hl hpc | acceptFailed hl hpc | notified hl hpc =>
    exact h.setLoop (List.mem_of_getElem? hl)
  | @admitted i l addr hl hpc ha =>
    have hmem := List.mem_of_getElem? hl
    have hmax : 0 < maxConn config := by
      have := acc.permits
      omega
    exact (h.letIn hmem hmax addr).setLoop hmem
  | tlsAccepted hc hpc | responded hc hpc =>
    have hconn := at_conn hc hpc
    first | exact h.setConn hconn | exact h.setConn hconn.1
  | detectedHttp hc hpc => exact h.setConn (ServesSocks5.http (at_conn hc hpc))
  | detectedSocks5 hc hpc =>
    exact h.setConn ⟨at_conn hc hpc,
      (ends_acceptRequest none).mono_error fun _ _ => trivial⟩
  | @forwarded c conn req hreq hc hpc hm =>
    have hserve : ServesHttp config := at_conn hc hpc
    have hlog := @Traced.logRequest _ _ _ h conn.addr (.http req) ⟨hserve, hreq⟩
    refine hlog.setConn ⟨hserve, calls_proxyRequest ?_ hm⟩
    exact List.mem_append_right _ (List.mem_singleton.mpr rfl)
  | @connectAnswered c conn req hreq hc hpc hm =>
    have hserve : ServesHttp config := at_conn hc hpc
    have hlog := @Traced.logRequest _ _ _ h conn.addr (.http req) ⟨hserve, hreq⟩
    refine (hlog.spawnTunnel ?_ hm).setConn hserve
    exact List.mem_append_right _ (List.mem_singleton.mpr rfl)
  | exchanged hc hpc =>
    obtain ⟨hserve, ho, hk⟩ := at_conn hc hpc
    exact (h.logContact ho).setConn ⟨hserve, hk _⟩
  | @handedOver c k conn t hc hpc ht =>
    have hserve : ServesHttp config := at_conn hc hpc
    have htr := h.tunnel t (List.mem_of_getElem? ht)
    have hrun : TunnelTraced std s.requests
        { t with pc := .running (HttpHandler.tunnel (HttpHandler.connectTarget t.req)) } := by
      refine ⟨htr.logged, htr.connect, fun p hp => ?_⟩
      cases hp
      exact calls_tunnel htr.logged htr.connect
    exact (h.setTunnel hrun).setConn hserve
  | accepting hc hpc =>
    obtain ⟨hserve, hends⟩ := at_conn hc hpc
    exact h.setConn ⟨hserve, hends _⟩
  | @dispatchedConnect c conn request hc hpc hcmd =>
    obtain ⟨hserve, hfits⟩ := at_conn hc hpc
    have hlog := @Traced.logRequest _ _ _ h conn.addr (.socks5 request.target) ⟨hserve, hfits⟩
    refine hlog.setConn ⟨hserve, calls_dispatch fun _ => ?_⟩
    exact List.mem_append_right _ (List.mem_singleton.mpr rfl)
  | dispatched hc hpc hcmd =>
    obtain ⟨hserve, -⟩ := at_conn hc hpc
    exact h.setConn ⟨hserve, calls_dispatch fun hconnect => absurd hconnect hcmd⟩
  | @associated c conn request k hc hpc =>
    obtain ⟨hserve, -, hk⟩ := at_conn hc hpc
    exact (h.associate hserve conn.addr).setConn ⟨hserve, hk⟩
  | served hc hpc =>
    obtain ⟨hserve, ho, hk⟩ := at_conn hc hpc
    exact (h.logContact ho).setConn ⟨hserve, hk _⟩
  | relayed hc hpc =>
    obtain ⟨hserve, hk⟩ := at_conn hc hpc
    exact h.setConn ⟨hserve, hk _⟩
  | closed => exact h.close _ _
  | upgradeFailed ht hpc =>
    have htr := h.tunnel _ (List.mem_of_getElem? ht)
    exact h.setTunnel ⟨htr.logged, htr.connect, nofun⟩
  | tunnelled ht hpc =>
    have htr := h.tunnel _ (List.mem_of_getElem? ht)
    obtain ⟨ho, hk⟩ := htr.running _ hpc
    refine (h.logContact ho).setTunnel ⟨htr.logged, htr.connect, fun p hp => ?_⟩
    cases hp
    exact hk _
  | udp ha hr =>
    have hmem := List.mem_of_getElem? ha
    exact h.setRelay hmem ((h.association _ hmem).2.step hr)

theorem traced_of_run {as : List Action} {s : Server}
    (h : Runs.run (step std config) (init config) as = some s) : Traced std config s :=
  (@Runs.run_invariant _ _ (step std config) (fun s => Accounted config s ∧ Traced std config s)
    (fun _ _ _ hi hs => ⟨hi.1.step hs, hi.2.step hi.1 hs⟩) _ _ _
    ⟨accounted_init, traced_init⟩ h).2

/-! ### Requests carried, targets contacted -/

/-- The server has opened a connection, or sent a datagram, to the target of `r`
on behalf of the client at `addr`. -/
def Contacted (s : Server) (addr : SocketAddr) (r : Request) : Prop :=
  (∃ x ∈ s.contacts, x.addr = addr ∧ x.request = r) ∨
  ∃ a ∈ s.associations, a.addr = addr ∧ ∃ x ∈ a.relay.sent, r = .datagram x.target

/-- **A connection is opened to the target of its request.** -/
theorem contact_target {as : List Action} {s : Server}
    (h : Runs.run (step std config) (init config) as = some s) :
    ∀ x ∈ s.contacts, ∃ t, x.request.target std = some t ∧ x.authority = t.authority :=
  fun x hx => ((traced_of_run h).contact x hx).2

end Server

end Peregrine
