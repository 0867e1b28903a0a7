import Peregrine.Server.Requests

/-!
# Every request can be made

The converse of `contacted_carried` and `carried_serves`: for every request that
the listeners of the configuration serve, and every client, some run of the
server contacts its target on behalf of the client (`reaches_every_target`).
The runs go through one connection; they are put together from its steps
(`Alone.move`), from the answers that take the SOCKS5 handshake to its end, and
from a run of the UDP relay.
-/

namespace Peregrine

open Prog (call ret fail)
open Runs (Reachable)
open Table

/-! ### A datagram to any target -/

theorem TargetAddr.length_bytes_le {t : TargetAddr} (h : t.Fits) : t.bytes.length ≤ 258 := by
  cases t with
  | ipv4 addr port => simp [TargetAddr.bytes, addr.length_eq, be16]
  | domain name port =>
    simp only [TargetAddr.bytes, prefixed, List.length_append, List.length_cons]
    have : (utf8 name).length < 256 := h
    simp only [be16, List.length_cons, List.length_nil]
    omega
  | ipv6 addr port => simp [TargetAddr.bytes, addr.length_eq, be16]

theorem Relay.sends_to {t : TargetAddr} (h : t.Fits) (client : SocketAddr) :
    ∃ r, Reachable Relay.step Relay.init r ∧ ∃ x ∈ r.sent, t = x.target := by
  have hlen := TargetAddr.length_bytes_le h
  let d : Datagram := ⟨[0x00, 0x00, 0x00, t.atyp] ++ t.bytes ++ [], by
    simp only [List.length_append, List.length_cons, List.length_nil]
    omega⟩
  obtain ⟨r, hr, addr, hsent⟩ := run_forwardRun client (d := d) (parse_build h [])
  refine ⟨r, ⟨_, hr⟩, ⟨0, client, t, addr, []⟩, ?_, rfl⟩
  rw [hsent]
  exact List.mem_singleton.mpr rfl

namespace Server

variable {std : IpText} {config : AppConfig}

/-! ### One connection -/

theorem step_loop {s : Server} {i : ℕ} {l : AcceptLoop} {e : LoopEvent} (hrun : s.runPc ≠ .ended)
    (hl : s.loops[i]? = some l) :
    s.step std config (.loop i e) = s.stepLoop i l l.pc e := by
  rw [step, if_neg hrun]
  simp only [hl, Option.bind_some]

theorem step_conn {s : Server} {c : ℕ} {conn : Conn} {e : ConnEvent} (hrun : s.runPc ≠ .ended)
    (hc : s.conns[c]? = some conn) :
    s.step std config (.conn c e) = s.stepConn std c conn conn.pc e := by
  rw [step, if_neg hrun]
  simp only [hc, Option.bind_some]

/-- One connection, with its task at `pc`, and no task beside it. -/
structure Alone (s : Server) (addr : SocketAddr) (pc : ConnPc) : Prop where
  running : s.runPc ≠ .ended
  conn : s.conns[0]? = some ⟨addr, true, pc⟩
  tunnels : s.tunnels = []
  associations : s.associations = []

theorem Alone.setConn {s : Server} {addr : SocketAddr} {pc pc' : ConnPc} (h : Alone s addr pc) :
    Alone (s.setConn 0 ⟨addr, true, pc⟩ pc') addr pc' :=
  ⟨h.running, getElem?_set_of_some h.conn, h.tunnels, h.associations⟩

/-- **The connection moves on.** -/
theorem Alone.move {s u : Server} {addr : SocketAddr} {pc pc' : ConnPc} {e : ConnEvent}
    (h : Alone s addr pc) (hu : Alone u addr pc)
    (hs : s.stepConn std 0 ⟨addr, true, pc⟩ pc e = some (u.setConn 0 ⟨addr, true, pc⟩ pc')) :
    ∃ s', Reachable (step std config) s s' ∧ Alone s' addr pc' :=
  ⟨_, .of_step ((step_conn h.running h.conn).trans hs), hu.setConn⟩

theorem alone_admitted (addr : SocketAddr) {listen : ListenConfig}
    (hl : listen ∈ config.server.listen) (hmax : 0 < maxConn config) :
    ∃ s, Reachable (step std config) (init config) s ∧
      Alone s addr (if listen.tls.isSome then .tlsAccept else .peek) := by
  obtain ⟨i, hi⟩ := List.getElem?_of_mem hl
  have h0 : (init config).loops[i]? = some ⟨listen.tls.isSome, .top⟩ := by
    rw [init, List.getElem?_map, hi]
    rfl
  have hrun : (init config).runPc ≠ .ended := by
    intro h
    cases h
  let s₁ := (init config).setLoop i ⟨listen.tls.isSome, .top⟩ (.select 0)
  let s₂ := s₁.setLoop i ⟨listen.tls.isSome, .select 0⟩ (.acquire addr)
  have hl₁ : s₁.loops[i]? = some ⟨listen.tls.isSome, .select 0⟩ := getElem?_set_of_some h0
  have hl₂ : s₂.loops[i]? = some ⟨listen.tls.isSome, .acquire addr⟩ := getElem?_set_of_some hl₁
  have h₁ : (init config).step std config (.loop i .go) = some s₁ := step_loop hrun h0
  have h₂ : s₁.step std config (.loop i (.accepted (.ok addr))) = some s₂ :=
    @step_loop std config s₁ i _ _ hrun hl₁
  have h₃ : s₂.step std config (.loop i .go) = some ((s₂.letIn addr listen.tls.isSome).setLoop i
      ⟨listen.tls.isSome, .acquire addr⟩ .top) :=
    (@step_loop std config s₂ i _ _ hrun hl₂).trans (if_pos hmax)
  exact ⟨_, (Reachable.of_step h₁).trans ((Reachable.of_step h₂).trans (.of_step h₃)),
    hrun, rfl, rfl, rfl⟩

/-- The first request of an HTTP connection, which is answered without a target. -/
def hostlessReq : HttpRequest where
  method := "GET"
  uri := { authority := none, host := none, port := none, pathAndQuery := some "/" }
  version := .http11
  headers := []
  body := []

theorem hostlessReq_wellFormed : hostlessReq.wellFormed = true := by decide +kernel

/-- **HTTP is served on every listener**, to a client whose first request is a GET. -/
theorem alone_http (h : ServesHttp config) (addr : SocketAddr) :
    ∃ s, Reachable (step std config) (init config) s ∧ Alone s addr .http := by
  obtain ⟨hmax, hne⟩ := h
  obtain ⟨listen, hl⟩ := List.exists_mem_of_ne_nil _ hne
  obtain ⟨s, hs, halone⟩ := @alone_admitted std config addr listen hl hmax
  have hhttp : ∃ s', Reachable (step std config) s s' ∧ Alone s' addr .http := by
    cases htls : listen.tls.isSome with
    | true =>
      rw [htls] at halone
      exact halone.move (e := .tls true) halone rfl
    | false =>
      rw [htls] at halone
      exact halone.move (e := .peeked (.ok (utf8 "GET "))) halone rfl
  obtain ⟨s₁, hs₁, h₁⟩ := hhttp
  have hlog : Alone (s₁.logRequest addr (.http hostlessReq)) addr .http :=
    ⟨h₁.running, h₁.conn, h₁.tunnels, h₁.associations⟩
  obtain ⟨s₂, hs₂, h₂⟩ := @Alone.move std config _ _ _ _ _
    (.request hostlessReq hostlessReq_wellFormed) h₁ hlog rfl
  obtain ⟨s₃, hs₃, h₃⟩ := @Alone.move std config _ _ _ _ _ .go h₂ h₂ rfl
  exact ⟨s₃, hs.trans (hs₁.trans (hs₂.trans hs₃)), h₃⟩

theorem contacts_forwarded (h : ServesHttp config) (addr : SocketAddr) {req : HttpRequest}
    (hreq : req.wellFormed = true) (hm : req.method ≠ "CONNECT") {t : ConnectTarget}
    (ht : HttpHandler.forwardTarget req = some t) :
    ∃ s, Reachable (step std config) (init config) s ∧ s.Contacted addr (.http req) := by
  obtain ⟨s, hs, h₁⟩ := @alone_http std config h addr
  obtain ⟨k, hk⟩ : ∃ k, HttpHandler.proxyRequest req =
      @call sysSig _ _ (.inr (.tcpConnect t.authority)) k := by
    rw [HttpHandler.proxyRequest, ht]
    exact ⟨_, rfl⟩
  have hlog : Alone (s.logRequest addr (.http req)) addr .http :=
    ⟨h₁.running, h₁.conn, h₁.tunnels, h₁.associations⟩
  obtain ⟨s₂, hs₂, h₂⟩ := @Alone.move std config _ _ _ _ _ (.request req hreq) h₁ hlog
    (if_neg hm)
  rw [hk] at h₂
  have hstep := (@step_conn std config s₂ 0 _ (.answer (agreeable [])) h₂.running h₂.conn)
  refine ⟨_, hs.trans (hs₂.trans (.of_step hstep)), Or.inl ⟨⟨addr, .http req, t.authority⟩, ?_,
    rfl, rfl⟩⟩
  exact List.mem_append_right _ (List.mem_singleton.mpr rfl)

/-- **A CONNECT is answered, and then handed over** to a tunnel task. -/
theorem connect_handed_over (h : ServesHttp config) (addr : SocketAddr) {req : HttpRequest}
    (hreq : req.wellFormed = true) (hm : req.method = "CONNECT") :
    ∃ s s₁ s₂, Reachable (step std config) (init config) s ∧
      s.step std config (.conn 0 (.request req hreq)) = some s₁ ∧
      s₁.conns[0]? = some ⟨addr, true, .answered 0⟩ ∧
      s₁.step std config (.conn 0 .go) = some s₂ ∧ s₂.runPc ≠ .ended ∧
      s₂.tunnels[0]? =
        some ⟨0, addr, req, .running (HttpHandler.tunnel (HttpHandler.connectTarget req))⟩ := by
  obtain ⟨s, hs, h₁⟩ := @alone_http std config h addr
  let s₁ := ((s.logRequest addr (.http req)).spawnTunnel 0 addr req).setConn 0 ⟨addr, true, .http⟩
    (.answered 0)
  have hc₁ : s₁.conns[0]? = some ⟨addr, true, .answered 0⟩ := getElem?_set_of_some h₁.conn
  have ht₁ : s₁.tunnels = [⟨0, addr, req, .upgrade⟩] := by
    show s.tunnels ++ _ = _
    rw [h₁.tunnels]
    rfl
  have hstep₁ : s.step std config (.conn 0 (.request req hreq)) = some s₁ := by
    rw [step_conn h₁.running h₁.conn]
    refine (if_pos hm).trans ?_
    rw [h₁.tunnels]
    rfl
  let s₂ := (s₁.setTunnel 0 ⟨0, addr, req, .upgrade⟩ (.running (HttpHandler.tunnel
    (HttpHandler.connectTarget req)))).setConn 0 ⟨addr, true, .answered 0⟩ (.handedOver 0)
  have hstep₂ : s₁.step std config (.conn 0 .go) = some s₂ := by
    rw [@step_conn std config s₁ 0 _ _ h₁.running hc₁]
    show (s₁.tunnels[0]?).map _ = _
    rw [ht₁]
    rfl
  refine ⟨s, s₁, s₂, hs, hstep₁, hc₁, hstep₂, h₁.running, ?_⟩
  exact @getElem?_set_of_some _ _ _ _ ⟨0, addr, req, .upgrade⟩ (by rw [ht₁]; rfl)

theorem contacts_connect (h : ServesHttp config) (addr : SocketAddr) {req : HttpRequest}
    (hreq : req.wellFormed = true) (hm : req.method = "CONNECT") :
    ∃ s, Reachable (step std config) (init config) s ∧ s.Contacted addr (.http req) := by
  obtain ⟨s, s₁, s₂, hs, hstep₁, -, hstep₂, hrun, ht₂⟩ :=
    @connect_handed_over std config h addr req hreq hm
  let p := HttpHandler.tunnel (HttpHandler.connectTarget req)
  have hstep₃ : s₂.step std config (.tunnel 0 (.answer (agreeable []))) =
      s₂.stepTunnel 0 ⟨0, addr, req, .running p⟩ (.running p) (.answer (agreeable [])) := by
    rw [step, if_neg hrun]
    simp only [ht₂, Option.bind_some]
    rfl
  refine ⟨_, hs.trans ((Reachable.of_step hstep₁).trans ((Reachable.of_step hstep₂).trans
    (.of_step hstep₃))), Or.inl ⟨⟨addr, .http req, (HttpHandler.connectTarget req).authority⟩,
    ?_, rfl, rfl⟩⟩
  exact List.mem_append_right _ (List.mem_singleton.mpr rfl)

/-! ### SOCKS5 -/

/-- **The answers that a program needs are given to its task.** -/
theorem Alone.accept {s : Server} {addr : SocketAddr} {p p' : Sys SocksRequest}
    (h : Alone s addr (.accepting p)) (hp : Reachable Prog.answer p p') :
    ∃ s', Reachable (step std config) s s' ∧ Alone s' addr (.accepting p') := by
  obtain ⟨fs, hfs⟩ := hp
  induction fs generalizing s p with
  | nil =>
    cases hfs
    exact ⟨s, .refl s, h⟩
  | cons f fs ih =>
    obtain ⟨q, hq, hfs⟩ := Runs.run_cons_some hfs
    have hstep : s.stepConn std 0 ⟨addr, true, .accepting p⟩ (.accepting p) (.answer f) =
        some (s.setConn 0 ⟨addr, true, .accepting p⟩ (.accepting q)) := by
      cases p with
      | ret a => cases hq
      | fail e => cases hq
      | call o k =>
        cases hq
        rfl
    obtain ⟨s₁, hs₁, h₁⟩ := @Alone.move std config _ _ _ _ _ _ h h hstep
    obtain ⟨s₂, hs₂, h₂⟩ := ih h₁ hfs
    exact ⟨s₂, hs₁.trans hs₂, h₂⟩

/-- What a client sends to make the request. -/
def plainOpening (command : SocksCommand) {t : TargetAddr} (h : t.Fits) : Opening none where
  greeting := ⟨[0x00], by decide⟩
  auth := []
  message := ⟨command, 0x00, t, h⟩
  offers := List.mem_singleton.mpr rfl
  authenticates := .noUsers

/-- **Every SOCKS5 request gets as far as its command.** -/
theorem alone_accepted (h : ServesSocks5 config) (addr : SocketAddr) (command : SocksCommand)
    {t : TargetAddr} (ht : t.Fits) : ∃ s, Reachable (step std config) (init config) s ∧
      Alone s addr (.accepting (ret ⟨command, t⟩)) := by
  obtain ⟨hmax, listen, hl, htls⟩ := h
  obtain ⟨s, hs, halone⟩ := @alone_admitted std config addr listen hl hmax
  rw [htls] at halone
  obtain ⟨s₁, hs₁, h₁⟩ :=
    @Alone.move std config _ _ _ _ _ (.peeked (.ok [0x05])) halone halone rfl
  have hrun := (@run_acceptRequest Unit (Prog.silent netSig)
    ⟨(plainOpening command ht).bytes, true, []⟩ _ () () none ⟨command, t⟩).mpr
    ⟨plainOpening command ht, [], (List.append_nil _).symm, rfl, rfl, rfl⟩
  obtain ⟨s₂, hs₂, h₂⟩ :=
    @Alone.accept std config _ _ _ _ h₁ (Prog.reachable_of_run (agreeable []) hrun)
  exact ⟨s₂, hs.trans (hs₁.trans hs₂), h₂⟩

theorem contacts_socks5 (h : ServesSocks5 config) (addr : SocketAddr) {t : TargetAddr}
    (ht : t.Fits) :
    ∃ s, Reachable (step std config) (init config) s ∧ s.Contacted addr (.socks5 t) := by
  obtain ⟨s, hs, h₁⟩ := @alone_accepted std config h addr .connect t ht
  have hlog : Alone (s.logRequest addr (.socks5 t)) addr (.accepting (ret ⟨.connect, t⟩)) :=
    ⟨h₁.running, h₁.conn, h₁.tunnels, h₁.associations⟩
  obtain ⟨s₂, hs₂, h₂⟩ := @Alone.move std config _ _ _ _ _ .go h₁ hlog rfl
  have hstep := (@step_conn std config s₂ 0 _ (.answer (agreeable [])) h₂.running h₂.conn)
  refine ⟨_, hs.trans (hs₂.trans (.of_step hstep)), Or.inl
    ⟨⟨addr, .socks5 t, (t.connectTarget std).authority⟩, ?_, rfl, rfl⟩⟩
  exact List.mem_append_right _ (List.mem_singleton.mpr rfl)

theorem reaches_relay {s : Server} {addr : SocketAddr} {r r' : Relay} (hrun : s.runPc ≠ .ended)
    (ha : s.associations = [⟨addr, r⟩]) (hr : Reachable Relay.step r r') :
    ∃ s', Reachable (step std config) s s' ∧ s'.associations = [⟨addr, r'⟩] := by
  obtain ⟨as, has⟩ := hr
  induction as generalizing s r with
  | nil =>
    cases has
    exact ⟨s, .refl s, ha⟩
  | cons act as ih =>
    obtain ⟨q, hq, has⟩ := Runs.run_cons_some has
    have hstep : s.step std config (.udp 0 act) =
        some { s with associations := [⟨addr, q⟩] } := by
      rw [step, if_neg hrun]
      simp [ha, stepUdp, hq]
    obtain ⟨s', hs', ha'⟩ := @ih { s with associations := [⟨addr, q⟩] } q hrun rfl has
    exact ⟨s', (Reachable.of_step hstep).trans hs', ha'⟩

theorem contacts_datagram (h : ServesSocks5 config) (addr : SocketAddr) {t : TargetAddr}
    (ht : t.Fits) :
    ∃ s, Reachable (step std config) (init config) s ∧ s.Contacted addr (.datagram t) := by
  obtain ⟨s, hs, h₁⟩ := @alone_accepted std config h addr .udpAssociate t ht
  have hquiet : ∀ {u : Server} {pc : ConnPc}, Alone u addr pc →
      Alone (u.logContact addr (.socks5 t) none) addr pc :=
    fun hu => ⟨hu.running, hu.conn, hu.tunnels, hu.associations⟩
  -- dispatch, then the socket, its address and the reply
  obtain ⟨s₂, hs₂, h₂⟩ := @Alone.move std config _ _ _ _ _ .go h₁ h₁ rfl
  obtain ⟨s₃, hs₃, h₃⟩ :=
    @Alone.move std config _ _ _ _ _ (.answer (agreeable [])) h₂ (hquiet h₂) rfl
  obtain ⟨s₄, hs₄, h₄⟩ :=
    @Alone.move std config _ _ _ _ _ (.answer (agreeable [])) h₃ (hquiet h₃) rfl
  obtain ⟨s₅, hs₅, h₅⟩ :=
    @Alone.move std config _ _ _ _ _ (.answer (agreeable [])) h₄ (hquiet h₄) rfl
  have hstep := (@step_conn std config s₅ 0 _ .go h₅.running h₅.conn)
  obtain ⟨r, hr, x, hx, hxt⟩ := Relay.sends_to ht addr
  have hassoc : s₅.associations ++ [⟨addr, Relay.init⟩] = [(⟨addr, Relay.init⟩ : Association)] := by
    rw [h₅.associations]
    rfl
  obtain ⟨s₆, hs₆, ha₆⟩ := @reaches_relay std config
    ((s₅.associate addr).setConn 0 _ (.relaying ⟨.udpAssociate, t⟩ s₅.associations.length _))
    addr _ _ h₅.running hassoc hr
  refine ⟨s₆, hs.trans (hs₂.trans (hs₃.trans (hs₄.trans (hs₅.trans
    ((Reachable.of_step hstep).trans hs₆))))), Or.inr ⟨⟨addr, r⟩, ?_, rfl, x, hx, ?_⟩⟩
  · rw [ha₆]
    exact List.mem_singleton.mpr rfl
  · rw [hxt]

/-- **Every request that is served reaches its target in some run.** -/
theorem reaches_every_target {addr : SocketAddr} {r : Request} (h : Serves config r)
    {t : ConnectTarget} (ht : r.target std = some t) :
    ∃ s, Reachable (step std config) (init config) s ∧ s.Contacted addr r := by
  cases r with
  | http req =>
    by_cases hm : req.method = "CONNECT"
    · exact contacts_connect h.1 addr h.2 hm
    · rw [Request.target, if_neg hm] at ht
      exact contacts_forwarded h.1 addr h.2 hm ht
  | socks5 target => exact contacts_socks5 h.1 addr h.2
  | datagram target => exact contacts_datagram h.1 addr h.2

end Server

end Peregrine
