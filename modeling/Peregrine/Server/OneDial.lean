import Mathlib.Data.List.Perm.Subperm
import Peregrine.Lib.Costs
import Peregrine.Server.Requests

/-!
# One connection for one request

Each of the three programs that the server runs for a request dials once at most
(`costs_proxyRequest`, `costs_tunnel`, `costs_dispatch`).  So a request that has
come in is worth one dial, which its task has until it dials; what all tasks
still have, and the connections opened so far, never add up to more than the
requests (`Paid`).  `contacts_matched` is what follows for every run: the
connections that have been opened are matched one to one with requests, each
with one of its own.
-/

namespace Peregrine

open Prog (call ret fail Calls Costs)
open Table

/-- Dials count, and nothing else. -/
def dialPrice : sysSig.Op → ℕ
  | .inr (.tcpConnect _) => 1
  | _ => 0

theorem costs_connect (target : ConnectTarget) :
    Costs dialPrice 1 (DirectConnector.connect target) := by
  refine (Costs.bind (Costs.perform (w := dialPrice) (.inr (.tcpConnect target.authority)))
    fun r => Costs.ofExcept _ r).mono ?_
  exact Nat.le_refl 1

theorem costs_proxyRequest (req : HttpRequest) :
    Costs dialPrice 1 (HttpHandler.proxyRequest req) := by
  unfold HttpHandler.proxyRequest
  split
  · trivial
  · rename_i target ht
    refine (costs_connect target).attempt.bind fun connected => Calls.costs ?_
    exact @HttpHandler.calls_forward (fun o => dialPrice o = 0) rfl (fun _ => rfl) rfl req target
      connected

theorem costs_tunnel (target : ConnectTarget) :
    Costs dialPrice 1 (HttpHandler.tunnel target) := by
  rw [HttpHandler.tunnel_eq]
  refine (costs_connect target).attempt.bind fun connected => Calls.costs ?_
  exact @HttpHandler.calls_copyUpgraded (fun o => dialPrice o = 0) rfl connected

variable {std : IpText} {config : AppConfig}

theorem costs_dispatch_of_ne {request : SocksRequest} (hcmd : request.command ≠ .connect) :
    Costs dialPrice 0 (dispatch std request) := by
  have hwrite : ∀ bs, dialPrice (.inl (.writeAll bs)) = 0 := fun _ => rfl
  unfold dispatch
  split
  · exact absurd ‹_› hcmd
  · exact Calls.costs (@calls_handleUdpAssociate (fun o => dialPrice o = 0) hwrite rfl rfl rfl
      request)
  · exact Calls.costs (@calls_sendReply (fun o => dialPrice o = 0) hwrite _ request)

theorem costs_dispatch (request : SocksRequest) :
    Costs dialPrice 1 (dispatch std request) := by
  by_cases hcmd : request.command = .connect
  · have hwrite : ∀ bs, dialPrice (.inl (.writeAll bs)) = 0 := fun _ => rfl
    simp only [dispatch, hcmd]
    refine (costs_connect _).attempt.bind fun connected => Calls.costs ?_
    exact @calls_serveConnect (fun o => dialPrice o = 0) hwrite rfl request connected
  · exact (costs_dispatch_of_ne hcmd).mono (Nat.zero_le 1)

/-! ### What a task may still dial -/

section Due

variable {ε α : Type}

open Classical in
/-- The dial a program may still make. -/
noncomputable def due (p : Prog sysSig ε α) : ℕ := if Costs dialPrice 0 p then 0 else 1

theorem due_le_one (p : Prog sysSig ε α) : due p ≤ 1 := by
  unfold due
  split <;> omega

theorem due_eq_zero {p : Prog sysSig ε α} (h : Costs dialPrice 0 p) : due p = 0 := if_pos h

/-- **A dial is paid for** by what the program may dial. -/
theorem opened_add_due_le {o : sysSig.Op} {k : sysSig.Ans o → Prog sysSig ε α}
    (h : Costs dialPrice 1 (call o k)) (x : sysSig.Ans o) :
    (Server.opened o x).toList.length + due (k x) ≤ due (call o k) := by
  have hrest := h.2 x
  by_cases ho : dialPrice o = 0
  · have hnone : Server.opened o x = none := by
      unfold Server.opened
      split
      · cases ho
      · rfl
    have hdue : due (k x) ≤ due (call o k) := by
      unfold due
      split_ifs with hk hcall
      · exact Nat.le_refl _
      · omega
      · refine absurd ?_ hk
        have := ‹Costs dialPrice 0 (call o k)›.2 x
        rwa [ho] at this
      · exact Nat.le_refl _
    rw [hnone]
    simpa using hdue
  · have hone : dialPrice o = 1 := by
      have := h.1
      omega
    rw [hone, Nat.sub_self] at hrest
    have hcall : due (call o k) = 1 := by
      refine if_neg fun h0 => ?_
      have := h0.1
      omega
    have hlen : (Server.opened o x).toList.length ≤ 1 := by
      cases Server.opened o x <;> simp
    rw [due_eq_zero hrest, hcall]
    omega

end Due

/-! ### What all tasks may still dial -/

section Tasks

open Classical

variable (x : SocketAddr × Request)

/-- What the task of a connection may still dial on account of `x`. -/
noncomputable def Conn.due (conn : Conn) : ℕ :=
  match conn.pc with
  | .exchange req p => if x = (conn.addr, .http req) then Peregrine.due p else 0
  | .serving request p => if x = (conn.addr, .socks5 request.target) then Peregrine.due p else 0
  | .relaying request _ k =>
    if x = (conn.addr, .socks5 request.target) then
      Peregrine.due (@call sysSig ProxyError Unit (.inr .relayLoop) k)
    else 0
  | _ => 0

/-- What a tunnel may still dial on account of `x`. -/
noncomputable def Tunnel.due (t : Tunnel) : ℕ :=
  match t.pc with
  | .upgrade => if x = (t.addr, .http t.req) then 1 else 0
  | .running p => if x = (t.addr, .http t.req) then Peregrine.due p else 0
  | .failed => 0

end Tasks

/-- The task of a connection has one dial at most. -/
def ConnPc.WithinOne : ConnPc → Prop
  | .exchange _ p => Costs dialPrice 1 p
  | .serving _ p => Costs dialPrice 1 p
  | .relaying _ _ k => Costs dialPrice 1 (@call sysSig ProxyError Unit (.inr .relayLoop) k)
  | _ => True

def TunnelPc.WithinOne (pc : TunnelPc) : Prop := ∀ p, pc = .running p → Costs dialPrice 1 p

def Contact.account (c : Contact) : SocketAddr × Request := (c.addr, c.request)

namespace Server

open Classical

/-- What has been opened on account of `x`, and what may still be. -/
noncomputable def spent (s : Server) (x : SocketAddr × Request) : ℕ :=
  (s.contacts.countP fun c => x = c.account) + (s.conns.map (Conn.due x)).sum +
    (s.tunnels.map (Tunnel.due x)).sum

/-- **Requests pay for dials.** -/
structure Paid (s : Server) : Prop where
  conn : ∀ conn ∈ s.conns, conn.pc.WithinOne
  tunnel : ∀ t ∈ s.tunnels, t.pc.WithinOne
  waiting : ∀ (c k : ℕ) (conn : Conn), s.conns[c]? = some conn → conn.pc = .answered k →
    ∀ t : Tunnel, s.tunnels[k]? = some t → t.pc = .upgrade
  paid : ∀ x, s.spent x ≤ s.requests.countP (x = ·)

theorem paid_init : Paid (init config) :=
  ⟨fun _ h => (by cases h), fun _ h => (by cases h), fun _ _ _ h => (by cases h),
    fun _ => Nat.le_refl 0⟩

section Changes

variable {s : Server} {x : SocketAddr × Request}

theorem spent_setConn {c : ℕ} {conn : Conn} {pc : ConnPc} (hc : s.conns[c]? = some conn) :
    (s.setConn c conn pc).spent x + conn.due x = s.spent x + Conn.due x { conn with pc } := by
  have hset := @sum_map_set_add _ s.conns c { conn with pc } conn (Conn.due x) hc
  simp only [spent, Server.setConn]
  omega

theorem spent_setTunnel {k : ℕ} {t : Tunnel} {pc : TunnelPc} (ht : s.tunnels[k]? = some t) :
    (s.setTunnel k t pc).spent x + t.due x = s.spent x + Tunnel.due x { t with pc } := by
  have hset := @sum_map_set_add _ s.tunnels k { t with pc } t (Tunnel.due x) ht
  simp only [spent, Server.setTunnel]
  omega

theorem spent_close {c : ℕ} {conn : Conn} (hc : s.conns[c]? = some conn) :
    (s.close c conn).spent x ≤ s.spent x := by
  have hset := @sum_map_set_add _ s.conns c { conn with permit := false, pc := .closed } conn
    (Conn.due x) hc
  have hnone : Conn.due x { conn with permit := false, pc := .closed } = 0 := rfl
  simp only [spent, Server.close]
  omega

theorem spent_logContact (addr : SocketAddr) (r : Request) (authority : Option String) :
    (s.logContact addr r authority).spent x =
      s.spent x + if x = (addr, r) then authority.toList.length else 0 := by
  have hone : (((authority.map fun a => (⟨addr, r, a⟩ : Contact)).toList).countP
      fun c => x = c.account) = if x = (addr, r) then authority.toList.length else 0 := by
    cases authority with
    | none => simp
    | some a => by_cases hx : x = (addr, r) <;> simp [Contact.account, hx]
  simp only [spent, Server.logContact, List.countP_append, hone]
  omega

theorem spent_letIn (addr : SocketAddr) (tls : Bool) : (s.letIn addr tls).spent x = s.spent x := by
  have hnew : Conn.due x ⟨addr, true, if tls then .tlsAccept else .peek⟩ = 0 := by
    cases tls <;> rfl
  simp only [spent, Server.letIn, sum_map_concat, hnew]
  omega

theorem spent_spawnTunnel (c : ℕ) (addr : SocketAddr) (req : HttpRequest) :
    (s.spawnTunnel c addr req).spent x =
      s.spent x + if x = (addr, .http req) then 1 else 0 := by
  have hnew : Tunnel.due x ⟨c, addr, req, .upgrade⟩ = if x = (addr, .http req) then 1 else 0 := rfl
  simp only [spent, Server.spawnTunnel, sum_map_concat, hnew]
  omega

theorem requests_logRequest (addr : SocketAddr) (r : Request) :
    (s.logRequest addr r).requests.countP (x = ·) =
      s.requests.countP (x = ·) + if x = (addr, r) then 1 else 0 := by
  simp only [Server.logRequest, List.countP_append, List.countP_singleton, decide_eq_true_eq]

theorem Paid.setConn {u : Server} (h : Paid s) {c : ℕ} {conn : Conn} {pc : ConnPc}
    (hc : s.conns[c]? = some conn) (hconns : u.conns = s.conns) (htunnels : u.tunnels = s.tunnels)
    (hpc : pc.WithinOne) (hans : ∀ k, pc ≠ .answered k)
    (hpaid : ∀ x, u.spent x + Conn.due x { conn with pc } + s.requests.countP (x = ·) ≤
      s.spent x + conn.due x + u.requests.countP (x = ·)) : Paid (u.setConn c conn pc) where
  conn m hm := by
    rcases List.mem_or_eq_of_mem_set hm with hm | rfl
    · exact h.conn m (hconns ▸ hm)
    · exact hpc
  tunnel t ht := h.tunnel t (htunnels ▸ ht)
  waiting c' k m hm hmk t ht := by
    rcases getElem?_set_cases hm with ⟨-, rfl⟩ | ⟨-, hm⟩
    · exact absurd hmk (hans k)
    · exact h.waiting c' k m (hconns ▸ hm) hmk t (htunnels ▸ ht)
  paid x := by
    have hset := @spent_setConn u x c conn pc (hconns ▸ hc)
    have hsum := hpaid x
    have hold := h.paid x
    change (u.setConn c conn pc).spent x ≤ u.requests.countP (x = ·)
    omega

theorem Paid.of_eq {u : Server} (h : Paid s) (hconns : u.conns = s.conns)
    (htunnels : u.tunnels = s.tunnels) (hcontacts : u.contacts = s.contacts)
    (hrequests : u.requests = s.requests) : Paid u := by
  obtain ⟨hconn, htunnel, hwaiting, hpaid⟩ := h
  constructor
  · rw [hconns]
    exact hconn
  · rw [htunnels]
    exact htunnel
  · rw [hconns, htunnels]
    exact hwaiting
  · intro x
    rw [spent, hconns, htunnels, hcontacts, hrequests]
    exact hpaid x

theorem Paid.letIn (h : Paid s) (addr : SocketAddr) (tls : Bool) : Paid (s.letIn addr tls) where
  conn m hm := by
    rcases List.mem_append.mp hm with hm | hm
    · exact h.conn m hm
    · obtain rfl := List.mem_singleton.mp hm
      cases tls <;> trivial
  tunnel := h.tunnel
  waiting c k m hm hmk := by
    rcases getElem?_concat_cases hm with hm | ⟨-, rfl⟩
    · exact h.waiting c k m hm hmk
    · cases tls <;> cases hmk
  paid x := by
    rw [spent_letIn]
    exact h.paid x

theorem Paid.close (h : Paid s) {c : ℕ} {conn : Conn} (hc : s.conns[c]? = some conn) :
    Paid (s.close c conn) where
  conn m hm := by
    rcases List.mem_or_eq_of_mem_set hm with hm | rfl
    · exact h.conn m hm
    · trivial
  tunnel := h.tunnel
  waiting c' k m hm hmk := by
    rcases getElem?_set_cases hm with ⟨-, rfl⟩ | ⟨-, hm⟩
    · cases hmk
    · exact h.waiting c' k m hm hmk
  paid x := (spent_close hc).trans (h.paid x)

/-- **A request comes in** and its task gets a dial. -/
theorem Paid.request (h : Paid s) {c : ℕ} {conn : Conn} {pc : ConnPc} {r : Request}
    (hc : s.conns[c]? = some conn) (hpc : pc.WithinOne) (hans : ∀ k, pc ≠ .answered k)
    (hdue : ∀ x, Conn.due x { conn with pc } ≤ if x = (conn.addr, r) then 1 else 0) :
    Paid ((s.logRequest conn.addr r).setConn c conn pc) := by
  refine h.setConn hc rfl rfl hpc hans fun x => ?_
  have hreq := @requests_logRequest s x conn.addr r
  have hspent : (s.logRequest conn.addr r).spent x = s.spent x := rfl
  have hx := hdue x
  omega

/-- **An operation is answered**: what it opens is paid for. -/
theorem Paid.answer (h : Paid s) {c : ℕ} {conn : Conn} {pc : ConnPc} {r : Request}
    {o : sysSig.Op} {y : sysSig.Ans o} (hc : s.conns[c]? = some conn) (hpc : pc.WithinOne)
    (hans : ∀ k, pc ≠ .answered k)
    (hdue : ∀ x, (if x = (conn.addr, r) then (opened o y).toList.length else 0) +
      Conn.due x { conn with pc } ≤ conn.due x) :
    Paid ((s.logContact conn.addr r (opened o y)).setConn c conn pc) := by
  refine h.setConn hc rfl rfl hpc hans fun x => ?_
  have hlog := @spent_logContact s x conn.addr r (opened o y)
  have hreq : (s.logContact conn.addr r (opened o y)).requests = s.requests := rfl
  have hx := hdue x
  rw [hreq]
  omega

theorem Paid.setTunnel {u : Server} (h : Paid s) {k : ℕ} {t : Tunnel} {pc : TunnelPc}
    (ht : s.tunnels[k]? = some t) (hconns : u.conns = s.conns) (htunnels : u.tunnels = s.tunnels)
    (hpc : pc.WithinOne)
    (hwait : ∀ (c : ℕ) (conn : Conn), s.conns[c]? = some conn → conn.pc ≠ .answered k)
    (hpaid : ∀ x, u.spent x + Tunnel.due x { t with pc } + s.requests.countP (x = ·) ≤
      s.spent x + t.due x + u.requests.countP (x = ·)) : Paid (u.setTunnel k t pc) where
  conn m hm := h.conn m (hconns ▸ hm)
  tunnel v hv := by
    rcases List.mem_or_eq_of_mem_set hv with hv | rfl
    · exact h.tunnel v (htunnels ▸ hv)
    · exact hpc
  waiting c j m hm hmj v hv := by
    rw [show (u.setTunnel k t pc).conns = s.conns from hconns] at hm
    rcases getElem?_set_cases hv with ⟨rfl, -⟩ | ⟨-, hv⟩
    · exact absurd hmj (hwait c m hm)
    · exact h.waiting c j m hm hmj v (htunnels ▸ hv)
  paid x := by
    have hset := @spent_setTunnel u x k t pc (htunnels ▸ ht)
    have hsum := hpaid x
    have hold := h.paid x
    change (u.setTunnel k t pc).spent x ≤ u.requests.countP (x = ·)
    omega

/-- **A CONNECT comes in**, and its tunnel gets the dial. -/
theorem Paid.connect (h : Paid s) {c : ℕ} {conn : Conn} (hc : s.conns[c]? = some conn)
    (req : HttpRequest) :
    Paid (((s.logRequest conn.addr (.http req)).spawnTunnel c conn.addr req).setConn c conn
      (.answered s.tunnels.length)) where
  conn m hm := by
    rcases List.mem_or_eq_of_mem_set hm with hm | rfl
    · exact h.conn m hm
    · trivial
  tunnel t ht := by
    rcases List.mem_append.mp ht with ht | ht
    · exact h.tunnel t ht
    · obtain rfl := List.mem_singleton.mp ht
      exact nofun
  waiting c' k m hm hmk t ht := by
    rcases getElem?_concat_cases ht with ht | ⟨-, rfl⟩
    · rcases getElem?_set_cases hm with ⟨-, rfl⟩ | ⟨-, hm⟩
      · cases hmk
        exact absurd (List.getElem?_eq_some_iff.mp ht).1 (Nat.lt_irrefl _)
      · exact h.waiting c' k m hm hmk t ht
    · rfl
  paid x := by
    have hset := @spent_setConn ((s.logRequest conn.addr (.http req)).spawnTunnel c conn.addr req) x
      c conn (.answered s.tunnels.length) hc
    have hspawn := @spent_spawnTunnel (s.logRequest conn.addr (.http req)) x c conn.addr req
    have hreq := @requests_logRequest s x conn.addr (.http req)
    have hspent : (s.logRequest conn.addr (.http req)).spent x = s.spent x := rfl
    have hnew : Conn.due x { conn with pc := .answered s.tunnels.length } = 0 := rfl
    have hold := h.paid x
    change _ ≤ (s.logRequest conn.addr (.http req)).requests.countP (x = ·)
    omega

/-- **The connection goes to the tunnel**, which has kept its dial till now. -/
theorem Paid.handOver (acc : Accounted config s) (h : Paid s) {c k : ℕ} {conn : Conn} {t : Tunnel}
    (hc : s.conns[c]? = some conn) (hpc : conn.pc = .answered k) (ht : s.tunnels[k]? = some t) :
    Paid ((s.setTunnel k t (.running (HttpHandler.tunnel
      (HttpHandler.connectTarget t.req)))).setConn c conn (.handedOver k)) := by
  have hup : t.pc = .upgrade := h.waiting c k conn hc hpc t ht
  have htc : t.conn = c := by
    obtain ⟨t', ht', htc⟩ := acc.place c k conn hc (Or.inl hpc)
    obtain rfl := Option.some.inj (ht.symm.trans ht')
    exact htc
  have hmoved : Paid (s.setConn c conn (.handedOver k)) :=
    h.setConn hc rfl rfl trivial nofun fun x => by simp only [Conn.due]; omega
  refine @Paid.setTunnel (s.setConn c conn (.handedOver k)) (s.setConn c conn (.handedOver k))
    hmoved k t _ ht rfl rfl (fun p hp => ?_) (fun c' m hm hmk => ?_) fun x => ?_
  · cases hp
    exact costs_tunnel _
  · rcases getElem?_set_cases hm with ⟨-, rfl⟩ | ⟨hne, hm⟩
    · cases hmk
    · obtain ⟨t', ht', htc'⟩ := acc.place c' k m hm (Or.inl hmk)
      obtain rfl := Option.some.inj (ht.symm.trans ht')
      exact hne (htc'.symm.trans htc)
  · have hdue : Tunnel.due x { t with pc := .running (HttpHandler.tunnel
        (HttpHandler.connectTarget t.req)) } ≤ t.due x := by
      simp only [Tunnel.due, hup]
      split
      · exact due_le_one _
      · exact Nat.le_refl 0
    omega

end Changes

/-! ### Every step -/

theorem due_exchange {x : SocketAddr × Request} {conn : Conn} {req : HttpRequest}
    {p : Prog sysSig HyperError HttpResponse} (hpc : conn.pc = .exchange req p) :
    conn.due x = if x = (conn.addr, .http req) then due p else 0 := by
  rw [Conn.due, hpc]

theorem due_serving {x : SocketAddr × Request} {conn : Conn} {request : SocksRequest}
    {p : Sys Unit} (hpc : conn.pc = .serving request p) :
    conn.due x = if x = (conn.addr, .socks5 request.target) then due p else 0 := by
  rw [Conn.due, hpc]

theorem due_relaying {x : SocketAddr × Request} {conn : Conn} {request : SocksRequest} {a : ℕ}
    {k : Except ProxyError Unit → Sys Unit} (hpc : conn.pc = .relaying request a k) :
    conn.due x = if x = (conn.addr, .socks5 request.target) then
      due (@call sysSig ProxyError Unit (.inr .relayLoop) k) else 0 := by
  rw [Conn.due, hpc]

/-- **Every step stays within the requests.** -/
theorem Paid.step {s s' : Server} {a : Action} (acc : Accounted config s) (h : Paid s)
    (hs : s.step std config a = some s') : Paid s' := by
  have at_conn : ∀ {c : ℕ} {conn : Conn} {pc : ConnPc}, s.conns[c]? = some conn → conn.pc = pc →
      pc.WithinOne := fun {c conn pc} hc hpc => hpc ▸ h.conn conn (List.mem_of_getElem? hc)
  cases stepped hs with
  | ctrlC | joined | ended | reloaded | notReloaded | entered | accepted | acceptFailed | notified
  | udp => exact h.of_eq rfl rfl rfl rfl
  | @admitted i l addr hl hpc ha => exact (h.letIn addr l.tls).of_eq rfl rfl rfl rfl
  | tlsAccepted hc hpc | detectedHttp hc hpc | detectedSocks5 hc hpc | responded hc hpc
  | accepting hc hpc =>
    exact h.setConn hc rfl rfl trivial nofun fun x => by simp only [Conn.due]; omega
  | forwarded hc hpc hm =>
    refine h.request hc (costs_proxyRequest _) nofun fun x => ?_
    simp only [Conn.due]
    split
    · exact due_le_one _
    · exact Nat.le_refl 0
  | connectAnswered hc hpc hm => exact h.connect hc _
  | @exchanged c conn req o k f hc hpc =>
    have hcost : Costs dialPrice 1 (call o k) := at_conn hc hpc
    refine h.answer hc ((hcost.2 _).mono (Nat.sub_le _ _)) nofun fun x => ?_
    rw [due_exchange hpc, due_exchange rfl]
    split
    · exact opened_add_due_le hcost _
    · exact Nat.le_refl 0
  | handedOver hc hpc ht => exact h.handOver acc hc hpc ht
  | dispatchedConnect hc hpc hcmd =>
    refine h.request hc (costs_dispatch _) nofun fun x => ?_
    simp only [Conn.due]
    split
    · exact due_le_one _
    · exact Nat.le_refl 0
  | dispatched hc hpc hcmd =>
    refine h.setConn hc rfl rfl (costs_dispatch _) nofun fun x => ?_
    rw [due_serving rfl, due_eq_zero (costs_dispatch_of_ne hcmd), ite_self]
    omega
  | @associated c conn request k hc hpc =>
    have hcost : Costs dialPrice 1 (@call sysSig ProxyError Unit (.inr .relayLoop) k) :=
      at_conn hc hpc
    refine h.setConn hc rfl rfl hcost nofun fun x => ?_
    have hspent : (s.associate conn.addr).spent x = s.spent x := rfl
    have hreq : (s.associate conn.addr).requests = s.requests := rfl
    rw [due_serving hpc, due_relaying rfl, hspent, hreq]
  | @served c conn request o k f hc hpc =>
    have hcost : Costs dialPrice 1 (call o k) := at_conn hc hpc
    refine h.answer hc ((hcost.2 _).mono (Nat.sub_le _ _)) nofun fun x => ?_
    rw [due_serving hpc, due_serving rfl]
    split
    · exact opened_add_due_le hcost _
    · exact Nat.le_refl 0
  | @relayed c a conn request k hc hpc =>
    have hcost : Costs dialPrice 1 (@call sysSig ProxyError Unit (.inr .relayLoop) k) :=
      at_conn hc hpc
    refine h.setConn hc rfl rfl ((hcost.2 _).mono (Nat.sub_le _ _)) nofun fun x => ?_
    have hpay := @opened_add_due_le _ _ (.inr .relayLoop) k hcost (.ok ())
    rw [due_relaying hpc, due_serving rfl]
    split <;> omega
  | closed hc hopen he => exact h.close hc
  | @upgradeFailed k t ht hpc =>
    refine h.setTunnel ht rfl rfl nofun (fun c conn hc hck => ?_) fun x => ?_
    · -- the upgrade fails when the task of the connection has ended
      have hclosed : (s.conns[t.conn]?).any (·.pc.isClosed) = true := by
        unfold Server.step at hs
        split at hs
        · cases hs
        · simp only [ht, Option.bind_some, stepTunnel, hpc] at hs
          split at hs
          · assumption
          · cases hs
      obtain ⟨t', ht', htc⟩ := acc.place c k conn hc (Or.inl hck)
      obtain rfl := Option.some.inj (ht.symm.trans ht')
      rw [htc, hc, Option.any_some, hck] at hclosed
      cases hclosed
    · have hdue : Tunnel.due x { t with pc := .failed } = 0 := rfl
      omega
  | @tunnelled k t o next f ht hpc =>
    have hcost : Costs dialPrice 1 (call o next) := h.tunnel t (List.mem_of_getElem? ht) _ hpc
    refine h.setTunnel ht rfl rfl (fun p hp => ?_) (fun c conn hc hck => ?_) fun x => ?_
    · cases hp
      exact (hcost.2 _).mono (Nat.sub_le _ _)
    · have hup := h.waiting c k conn hc hck t ht
      rw [hpc] at hup
      cases hup
    · have hlog := @spent_logContact s x t.addr (.http t.req) (opened o (f o))
      have hreq : (s.logContact t.addr (.http t.req) (opened o (f o))).requests = s.requests := rfl
      have hpay := opened_add_due_le hcost (f o)
      have hold : t.due x = if x = (t.addr, .http t.req) then due (call o next) else 0 := by
        rw [Tunnel.due, hpc]
      have hnew : Tunnel.due x { t with pc := .running (next (f o)) } =
        if x = (t.addr, .http t.req) then due (next (f o)) else 0 := rfl
      rw [hreq, hold, hnew, hlog]
      split <;> omega

/-- **A connection is opened once for a request.**  In every run, the connections
opened so far are matched one to one with requests that have come in, each with a
request of the client it was opened for. -/
theorem contacts_matched {as : List Action} {s : Server}
    (h : Runs.run (step std config) (init config) as = some s) :
    (s.contacts.map Contact.account).Subperm s.requests := by
  obtain ⟨-, hpaid⟩ := @Runs.run_invariant _ _ (step std config)
    (fun s => Accounted config s ∧ Paid s)
    (fun _ _ _ hi hs => ⟨hi.1.step hs, hi.2.step hi.1 hs⟩) _ _ _
    ⟨accounted_init, paid_init⟩ h
  refine List.subperm_ext_iff.mpr fun x _ => ?_
  have hx := hpaid.paid x
  rw [List.count_eq_countP, List.count_eq_countP, List.countP_map]
  have hcontacts : s.contacts.countP ((· == x) ∘ Contact.account) =
      s.contacts.countP fun c => x = c.account := by
    refine List.countP_congr fun c _ => ?_
    rw [Function.comp_apply, beq_iff_eq, decide_eq_true_iff]
    exact eq_comm
  have hrequests : s.requests.countP (· == x) = s.requests.countP (x = ·) := by
    refine List.countP_congr fun r _ => ?_
    rw [beq_iff_eq, decide_eq_true_iff]
    exact eq_comm
  rw [hcontacts, hrequests]
  unfold spent at hx
  omega

theorem contacts_matched_leak :
    (((Runs.run (step .plain smallConfig) (init smallConfig) leakRun).get
      rfl).contacts.map Contact.authority) = ["example.com:443"] ∧
    (((Runs.run (step .plain smallConfig) (init smallConfig) leakRun).get
      rfl).contacts.map Contact.account).Subperm
      ((Runs.run (step .plain smallConfig) (init smallConfig) leakRun).get rfl).requests :=
  ⟨rfl, contacts_matched (Option.some_get _).symm⟩

end Server

end Peregrine
