import Peregrine.Server.Enforcement
import Peregrine.Server.Tasks
import Peregrine.Upstream.Router

/-!
# Is the configured upstream used?

`UpstreamRouter` picks the connector that the configuration asks for, and the
three handlers that connect on behalf of a client (`proxy_request` and
`handle_connect` of the HTTP handler, `handle_connect` of SOCKS5) do not ask it:
each has a `DirectConnector` of its own.

A dial is honoured if it is the one the configured connector makes
(`ByConnector`).  `upstream_honoured_iff` says what is left of the setting: under
any upstream but `direct` a run honours it exactly if it dials nothing, and all
runs do exactly if no client can be let in.
-/

namespace Peregrine

open Prog (call ret fail attempt ofExcept Follows Calls)

/-! ### What it is to go through the connector -/

/-- Whom a connection to `target` is to be opened to: the first proxy, if there is one. -/
def UpstreamConfig.FirstPeer (target : ConnectTarget) (authority : String) : UpstreamConfig → Prop
  | .direct => authority = target.authority
  | .http addr _ _ => authority = addr
  | .socks5 addr _ _ => authority = addr
  | .chain entries => ∃ first ∈ entries.head?, extractProxyAddress first = .ok authority

/-- A handler that has dialled `authority` goes by the configured connector: that
is the first peer, and once it is connected, the handler has left what the
connector has left and then `rest`. -/
structure ByConnector (std : IpText) (upstream : UpstreamConfig) {ε α : Type}
    (target : ConnectTarget) (rest : Except ProxyError Unit → Prog sysSig ε α)
    (authority : String) (connected : Prog sysSig ε α) : Prop where
  peer : upstream.FirstPeer target authority
  connector : ∃ k : Except IoError Unit → Sys Unit,
    (UpstreamRouter.fromConfig upstream).connector.connect std target =
      @call sysSig _ _ (.inr (.tcpConnect authority)) k ∧
    connected = attempt (k (.ok ())) >>= rest

def DialsNext {ε α : Type} : Prog sysSig ε α → Prop
  | call o _ => IsDial o
  | _ => False

def DialsBy (std : IpText) (upstream : UpstreamConfig) {ε α : Type} (target : Option ConnectTarget)
    (rest : ConnectTarget → Except ProxyError Unit → Prog sysSig ε α) : Prog sysSig ε α → Prop
  | call (.inr (.tcpConnect authority)) k =>
    ∃ t, target = some t ∧ ByConnector std upstream t (rest t) authority (k (.ok ()))
  | _ => True

/-- **The upstream is honoured in the step**: the task that moves dials as the
configured connector does. -/
def Server.Honours (std : IpText) (config : AppConfig) (s : Server) : Server.Action → Prop
  | .conn c (.answer _) => match (s.conns[c]?).map Conn.pc with
    | some (.exchange req p) =>
      DialsBy std config.upstream (HttpHandler.forwardTarget req) (HttpHandler.forward req) p
    | some (.serving request p) =>
      DialsBy std config.upstream (some (request.target.connectTarget std))
        (fun _ => serveConnect request) p
    | _ => True
  | .tunnel k (.answer _) => ∀ t p, s.tunnels[k]? = some t → t.pc = .running p →
      DialsBy std config.upstream (some (HttpHandler.connectTarget t.req))
        (fun _ => HttpHandler.copyUpgraded) p
  | _ => True

def Server.Undialled (s : Server) (a : Server.Action) : Prop := s.dials a = []

/-! ### What a proxy connector does first -/

/-- The beginning of a handshake with a proxy: TLS, or bytes that are no reply
with code 0; or the error of a chain that cannot be gone through. -/
inductive BeginsHandshake : Sys Unit → Prop
  | fail (e : ProxyError) : BeginsHandshake (fail e)
  | serverName (host : String) (k : Bool → Sys Unit) :
    BeginsHandshake (call (.inr (.serverName host)) k)
  | write {bs : List UInt8} (h : bs.take 2 ≠ [0x05, 0x00]) (k : Except IoError Unit → Sys Unit) :
    BeginsHandshake (call (.inl (.writeAll bs)) k)

theorem BeginsHandshake.bind {p : Sys Unit} (h : BeginsHandshake p) (f : Unit → Sys Unit) :
    BeginsHandshake (p >>= f) := by
  cases h with
  | fail e => exact .fail e
  | serverName host k => exact .serverName host _
  | write h k => exact .write h _

theorem utf8_connectHead (auth : Option UserCredential) (target : ConnectTarget) :
    ∃ bs, utf8 (connectHead auth target) = 0x43 :: bs := by
  obtain ⟨cs, hcs⟩ : ∃ cs, (connectHead auth target).toList = 'C' :: cs := by
    delta connectHead
    rw [String.append_assoc, String.append_assoc, String.append_assoc, String.append_assoc,
      String.append_assoc, String.toList_append]
    exact ⟨_, rfl⟩
  rw [← String.ofList_toList (s := connectHead auth target), hcs, utf8_ofList]
  exact ⟨_, rfl⟩

theorem begins_httpHandshake (auth : Option UserCredential) (target : ConnectTarget) :
    BeginsHandshake (httpHandshake auth target) := by
  refine .write ?_ _
  obtain ⟨bs, hbs⟩ := utf8_connectHead auth target
  rw [hbs]
  intro h
  cases bs <;> cases h

theorem begins_socks5Handshake (std : IpText) (auth : Option UserCredential)
    (target : ConnectTarget) : BeginsHandshake (socks5Handshake std auth target) := by
  refine .write ?_ _
  unfold offeredMethods
  split <;> decide

variable {std : IpText} {target : ConnectTarget}

theorem begins_handshake {config : UpstreamConfig} {addr : String}
    (ha : extractProxyAddress config = .ok addr) :
    BeginsHandshake (performProxyHandshake std config target) := by
  cases config with
  | direct => cases ha
  | http addr auth tls => exact begins_httpHandshake auth target
  | socks5 addr auth tls => exact begins_socks5Handshake std auth target
  | chain chain => cases ha

theorem begins_hopsFrom {first : UpstreamConfig} {rest : List UpstreamConfig} {addr : String}
    (ha : extractProxyAddress first = .ok addr) :
    BeginsHandshake ((hopsFrom target (first :: rest)).interp (hopAction std)) := by
  have hshake : ∀ (asked : ConnectTarget) (f : Unit → Hops Unit),
      BeginsHandshake ((hopHandshake first asked >>= f).interp (hopAction std)) := by
    intro asked f
    have hopen := @begins_handshake std asked first addr ha
    have heq : (hopHandshake first asked >>= f).interp (hopAction std) =
        Prog.bind (attempt (performProxyHandshake std first asked)) fun x =>
          Prog.interp (hopAction std) (ofExcept id x >>= f) := rfl
    rw [heq]
    cases hp : performProxyHandshake std first asked with
    | ret u =>
      rw [hp] at hopen
      cases hopen
    | fail e => exact .fail e
    | call o k =>
      rw [hp] at hopen
      cases hopen with
      | serverName host k => exact .serverName host _
      | write h k => exact .write h _
  cases rest with
  | nil =>
    have hlast := hshake target ret
    rw [Prog.bind_ret] at hlast
    exact hlast
  | cons next rest =>
    rw [hopsFrom]
    cases nextTarget target next with
    | error e => exact .fail e
    | ok asked => exact hshake asked _

theorem begins_secured {p : Sys Unit} (h : BeginsHandshake p) (useTls : Bool) (addr : String) :
    BeginsHandshake (secure useTls addr >>= fun _ => p) := by
  cases useTls with
  | false => exact h
  | true => exact .serverName _ _

/-- **After its dial a connector begins the handshake with the first proxy.** -/
theorem begins_connector {upstream : UpstreamConfig} {authority : String}
    {k : Except IoError Unit → Sys Unit} (hup : upstream ≠ .direct)
    (hpeer : upstream.FirstPeer target authority)
    (hk : (UpstreamRouter.fromConfig upstream).connector.connect std target =
      @call sysSig _ _ (.inr (.tcpConnect authority)) k) : BeginsHandshake (k (.ok ())) := by
  cases upstream with
  | direct => exact absurd rfl hup
  | http addr auth tls =>
    cases hk
    exact begins_secured (begins_httpHandshake auth target) _ _
  | socks5 addr auth tls =>
    cases hk
    exact begins_secured (begins_socks5Handshake std auth target) _ _
  | chain entries =>
    obtain ⟨first, hfirst, ha⟩ := hpeer
    obtain ⟨rest, rfl⟩ := List.head?_eq_some_iff.mp hfirst
    obtain ⟨failed, heq⟩ := @connectHops_of_address target first rest authority ha
    have hrun : (UpstreamRouter.fromConfig (.chain (first :: rest))).connector.connect std target =
        (connectHops (first :: rest) target).interp (hopAction std) := rfl
    rw [hrun, heq] at hk
    cases hk
    exact begins_hopsFrom ha

/-! ### What the handlers do instead -/

theorem forward_ne (req : HttpRequest) {q : Sys Unit} (h : BeginsHandshake q) :
    HttpHandler.forward req target (.ok ()) ≠ attempt q >>= HttpHandler.forward req target := by
  cases h <;> exact nofun

theorem copyUpgraded_ne {q : Sys Unit} (h : BeginsHandshake q) :
    HttpHandler.copyUpgraded (.ok ()) ≠ attempt q >>= HttpHandler.copyUpgraded := by
  cases h <;> exact nofun

theorem serveConnect_ne (request : SocksRequest) {q : Sys Unit} (h : BeginsHandshake q) :
    serveConnect request (.ok ()) ≠ attempt q >>= serveConnect request := by
  cases h with
  | fail e => exact nofun
  | serverName host k => exact nofun
  | @write bs h k =>
    intro heq
    injection heq with hop
    cases hop
    exact h rfl

/-! ### Where a handler dials -/

section Handlers

variable {ε α : Type} {upstream : UpstreamConfig} {start p : Prog sysSig ε α}
  {l : Prog.History sysSig} {rest : ConnectTarget → Except ProxyError Unit → Prog sysSig ε α}

theorem dialsBy_of_not {asked : Option ConnectTarget} (h : ¬ DialsNext p) :
    DialsBy std upstream asked rest p := by
  unfold DialsBy
  split
  · exact absurd trivial h
  · trivial

theorem dialsBy_iff_of_calls {asked : Option ConnectTarget} (hcalls : Calls (¬ IsDial ·) start)
    (hp : Follows start l p) :
    DialsBy std upstream asked rest p ↔ upstream = .direct ∨ ¬ DialsNext p := by
  have hnot : ¬ DialsNext p := by
    have hleft := hp.calls hcalls
    cases p with
    | ret a => exact id
    | fail e => exact id
    | call o k => exact hleft.1
  exact iff_of_true (dialsBy_of_not hnot) (Or.inr hnot)

/-- **The dial of a handler is the direct connector's**, and so it is never the
configured connector's unless that is direct. -/
theorem dialsBy_iff (hrest : ∀ r, Calls (¬ IsDial ·) (rest target r))
    (hne : ∀ q, BeginsHandshake q → rest target (.ok ()) ≠ attempt q >>= rest target)
    (hp : Follows (attempt (DirectConnector.connect target) >>= rest target) l p) :
    DialsBy std upstream (some target) rest p ↔ upstream = .direct ∨ ¬ DialsNext p := by
  rw [attempt_connect_bind] at hp
  rcases hp.cases_call with ⟨-, rfl⟩ | ⟨x, l', -, hp⟩
  · have hdial : ¬ ¬ DialsNext (@call sysSig ε α (.inr (.tcpConnect target.authority)) fun r =>
        rest target (r.mapError .io)) := fun h => h trivial
    rw [or_iff_left hdial]
    constructor
    · rintro ⟨t, ht, hpeer, k, hk, heq⟩
      cases ht
      by_contra hup
      exact hne _ (begins_connector hup hpeer hk) heq
    · rintro rfl
      exact ⟨target, rfl, rfl, fun r => ofExcept .io r, rfl, rfl⟩
  · exact dialsBy_iff_of_calls (hrest _) hp

end Handlers

/-! ### Every step -/

namespace Server

variable {config : AppConfig} {log : List Dial}

theorem undialled_conn {s : Server} {c : ℕ} {conn : Conn} {f : (o : sysSig.Op) → sysSig.Ans o}
    (hc : s.conns[c]? = some conn) : s.Undialled (.conn c (.answer f)) ↔
      match conn.pc with
      | .exchange _ p => ¬ DialsNext p
      | .serving _ p => ¬ DialsNext p
      | _ => True := by
  rw [Undialled, dials, hc, Option.map_some]
  cases conn.pc with
  | exchange req p =>
    cases p with
    | call o k => exact dialOf_eq_nil
    | ret a => exact iff_of_true rfl id
    | fail e => exact iff_of_true rfl id
  | serving request p =>
    cases p with
    | call o k => exact dialOf_eq_nil
    | ret a => exact iff_of_true rfl id
    | fail e => exact iff_of_true rfl id
  | _ => exact iff_of_true rfl trivial

theorem undialled_tunnel {s : Server} {k : ℕ} {t : Tunnel} {f : (o : sysSig.Op) → sysSig.Ans o}
    (ht : s.tunnels[k]? = some t) : s.Undialled (.tunnel k (.answer f)) ↔
      ∀ p, t.pc = .running p → ¬ DialsNext p := by
  rw [Undialled, dials, ht, Option.map_some]
  cases hpc : t.pc with
  | running p =>
    simp only [TunnelPc.running.injEq, forall_eq']
    cases p with
    | call o k => exact dialOf_eq_nil
    | ret a => exact iff_of_true rfl id
    | fail e => exact iff_of_true rfl id
  | upgrade | failed =>
    refine iff_of_true rfl fun p hp => ?_
    cases hp

theorem Tracked.honours_conn_iff {s : Server} (h : Tracked std log s) {c : ℕ}
    (f : (o : sysSig.Op) → sysSig.Ans o) : s.Honours std config (.conn c (.answer f)) ↔
      config.upstream = .direct ∨ s.Undialled (.conn c (.answer f)) := by
  cases hc : s.conns[c]? with
  | none =>
    refine iff_of_true ?_ (Or.inr ?_)
    · simp only [Honours, hc, Option.map_none]
    · simp only [Undialled, dials, hc, Option.map_none]
  | some conn =>
    have htr := h.conn c conn hc
    rw [undialled_conn hc]
    simp only [Honours, hc, Option.map_some]
    cases hpc : conn.pc with
    | exchange req p =>
      rw [hpc] at htr
      obtain ⟨l, hl, -⟩ := htr
      show DialsBy _ _ _ _ p ↔ _
      unfold HttpHandler.proxyRequest at hl
      cases htarget : HttpHandler.forwardTarget req with
      | none =>
        rw [htarget] at hl
        refine dialsBy_iff_of_calls ?_ hl
        trivial
      | some target =>
        rw [htarget] at hl
        exact dialsBy_iff (HttpHandler.calls_forward id (fun _ => id) id req target)
          (fun q => forward_ne req) hl
    | serving request p =>
      rw [hpc] at htr
      obtain ⟨l, hl, -⟩ := htr
      show DialsBy _ _ _ _ p ↔ _
      have hwrite : ∀ bs, ¬ IsDial (.inl (.writeAll bs)) := fun _ => id
      unfold dispatch at hl
      split at hl
      · exact dialsBy_iff (calls_serveConnect hwrite id request)
          (fun q => serveConnect_ne request) hl
      · exact dialsBy_iff_of_calls (calls_handleUdpAssociate hwrite id id id request) hl
      · exact dialsBy_iff_of_calls (calls_sendReply hwrite _ request) hl
    | _ => exact iff_of_true trivial (Or.inr trivial)

theorem Tracked.honours_tunnel_iff {s : Server} (h : Tracked std log s) {k : ℕ}
    (f : (o : sysSig.Op) → sysSig.Ans o) : s.Honours std config (.tunnel k (.answer f)) ↔
      config.upstream = .direct ∨ s.Undialled (.tunnel k (.answer f)) := by
  cases ht : s.tunnels[k]? with
  | none =>
    refine iff_of_true ?_ (Or.inr ?_)
    · intro t p ht'
      cases ht.symm.trans ht'
    · simp only [Undialled, dials, ht, Option.map_none]
  | some t =>
    rw [undialled_tunnel ht]
    have hdials : ∀ p, t.pc = .running p →
        (DialsBy std config.upstream (some (HttpHandler.connectTarget t.req))
          (fun _ => HttpHandler.copyUpgraded) p ↔ config.upstream = .direct ∨ ¬ DialsNext p) := by
      intro p hp
      obtain ⟨l, hl, -⟩ := h.tunnel k t ht p hp
      rw [HttpHandler.tunnel_eq] at hl
      exact dialsBy_iff (HttpHandler.calls_copyUpgraded id) (fun q => copyUpgraded_ne) hl
    constructor
    · intro hh
      by_cases hup : config.upstream = .direct
      · exact Or.inl hup
      · refine Or.inr fun p hp => ?_
        exact ((hdials p hp).mp (hh t p ht hp)).resolve_left hup
    · intro hor u p hu hp
      obtain rfl := Option.some.inj (ht.symm.trans hu)
      exact (hdials p hp).mpr (hor.imp_right fun hnot => hnot p hp)

/-- **A step honours the upstream exactly if it does not dial**, or there is none. -/
theorem Tracked.honours_iff {s : Server} {a : Action} (h : Tracked std log s) :
    s.Honours std config a ↔ config.upstream = .direct ∨ s.Undialled a := by
  cases a with
  | conn c e =>
    cases e with
    | answer f => exact h.honours_conn_iff f
    | _ => exact iff_of_true trivial (Or.inr rfl)
  | tunnel k e =>
    cases e with
    | answer f => exact h.honours_tunnel_iff f
    | _ => exact iff_of_true trivial (Or.inr rfl)
  | _ => exact iff_of_true trivial (Or.inr rfl)

/-! ### Runs -/

theorem along_honours_iff {as : List Action} {s : Server}
    (h : Runs.run (step std config) (init config) as = some s) :
    Runs.Along (step std config) (Honours std config) (init config) as ↔
      config.upstream = .direct ∨ Runs.Along (step std config) Undialled (init config) as := by
  constructor
  · intro ha
    by_cases hup : config.upstream = .direct
    · exact Or.inl hup
    · refine Or.inr (along_of_tracked (fun log s a hs hh => ?_) h ha)
      exact (hs.honours_iff.mp hh).resolve_left hup
  · rintro (hup | ha)
    · refine along_of_tracked (P := fun _ _ => True) (fun log s a hs _ => ?_) h
        (Runs.along_of_forall (fun _ _ => trivial) _ _)
      exact hs.honours_iff.mpr (Or.inl hup)
    · exact along_of_tracked (fun log s a hs hu => hs.honours_iff.mpr (Or.inr hu)) h ha

theorem opened_eq_none {o : sysSig.Op} {x : sysSig.Ans o} (h : ¬ IsDial o) : opened o x = none := by
  unfold opened
  split
  · exact absurd trivial h
  · rfl

/-- **Who does not dial opens no connection.** -/
theorem contacts_of_undialled {as : List Action} {s : Server}
    (h : Runs.run (step std config) (init config) as = some s)
    (ha : Runs.Along (step std config) Undialled (init config) as) : s.contacts = [] := by
  have hquiet : ∀ {s : Server} {addr : SocketAddr} {r : Request} {task : Task} {o : sysSig.Op}
      {x : sysSig.Ans o}, s.contacts = [] → dialOf task o x = [] →
      (s.logContact addr r (opened o x)).contacts = [] := by
    intro s addr r task o x hs hd
    rw [logContact, opened_eq_none (dialOf_eq_nil.mp hd), hs]
    rfl
  refine @Runs.run_invariant_along _ _ (step std config) Undialled (fun s => s.contacts = [])
    (fun s a s' hs hu hstep => ?_) _ _ _ rfl ha h
  cases stepped hstep with
  | exchanged hc hpc => exact hquiet hs ((dials_exchange hc hpc).symm.trans hu)
  | served hc hpc => exact hquiet hs ((dials_serving hc hpc).symm.trans hu)
  | tunnelled ht hpc => exact hquiet hs ((dials_tunnel ht hpc).symm.trans hu)
  | _ => exact hs

theorem Traced.undialled {s : Server} (h : Traced std config s) (hserve : ¬ ServesHttp config)
    (a : Action) : s.Undialled a := by
  cases a with
  | conn c e =>
    cases e with
    | answer f =>
      cases hc : s.conns[c]? with
      | none => simp only [Undialled, dials, hc, Option.map_none]
      | some conn =>
        have htr := h.conn conn (List.mem_of_getElem? hc)
        rw [undialled_conn hc]
        cases hpc : conn.pc with
        | exchange req p =>
          rw [hpc] at htr
          exact absurd htr.1 hserve
        | serving request p =>
          rw [hpc] at htr
          exact absurd (ServesSocks5.http htr.1) hserve
        | _ => trivial
    | _ => exact rfl
  | tunnel k e =>
    cases e with
    | answer f =>
      cases ht : s.tunnels[k]? with
      | none => simp only [Undialled, dials, ht, Option.map_none]
      | some t =>
        have htr := h.tunnel t (List.mem_of_getElem? ht)
        exact absurd (h.request _ htr.logged).1 hserve
    | _ => exact rfl
  | _ => exact rfl

/-- **When the configured upstream is used.**  A run goes by the configured
connector in every dial exactly if that is the direct one or the run dials
nobody; and once the listeners are open, all runs of a configuration do exactly if
the upstream is direct or no client can be let in. -/
theorem upstream_honoured_iff (std : IpText) (config : AppConfig) :
    (∀ as s, Runs.run (step std config) (init config) as = some s →
      (Runs.Along (step std config) (Honours std config) (init config) as ↔
        config.upstream = .direct ∨
          Runs.Along (step std config) Undialled (init config) as)) ∧
    ((∀ as s, Runs.run (step std config) (init config) as = some s →
      Runs.Along (step std config) (Honours std config) (init config) as) ↔
      config.upstream = .direct ∨ ¬ ServesHttp config) := by
  refine ⟨fun as s h => along_honours_iff h, fun hall => ?_, fun hor as s h => ?_⟩
  · by_cases hup : config.upstream = .direct
    · exact Or.inl hup
    · refine Or.inr fun hserve => ?_
      obtain ⟨s, ⟨as, hs⟩, hc⟩ := @reaches_every_target std config (clientAddr 40000)
        (.http getReq) ⟨hserve, getReq_wellFormed⟩ ⟨"example.com", 80⟩ rfl
      have hundialled := ((along_honours_iff hs).mp (hall as s hs)).resolve_left hup
      rcases hc with ⟨x, hx, -, -⟩ | ⟨a, -, -, x, -, hx⟩
      · rw [contacts_of_undialled hs hundialled] at hx
        cases hx
      · cases hx
  · refine (along_honours_iff h).mpr (hor.imp_right fun hserve => ?_)
    exact @Runs.Along.transfer _ _ (step std config) (fun _ _ => True)
      (fun s => Accounted config s ∧ Traced std config s) Undialled
      (fun s a s' hi _ hs => ⟨hi.1.step hs, hi.2.step hi.1 hs⟩)
      (fun s a s' hi _ _ => hi.2.undialled hserve a) _ _ _ ⟨accounted_init, traced_init⟩ h
      (Runs.along_of_forall (fun _ _ => trivial) _ _)

/-- `smallConfig` with a proxy in front. -/
def proxiedConfig : AppConfig := { smallConfig with upstream := .http "10.0.0.2:3128" none none }

/-- **The target is dialled, not the proxy.** -/
theorem target_dialled_directly : ∃ s,
    Runs.run (step .plain proxiedConfig) (init proxiedConfig)
      [.loop 0 .go, .loop 0 (.accepted (.ok (clientAddr 40000))), .loop 0 .go,
        .conn 0 (.peeked (.ok (utf8 "GET http"))), .conn 0 (.request getReq getReq_wellFormed),
        .conn 0 (.answer (agreeable []))] = some s ∧
      s.contacts = [⟨clientAddr 40000, .http getReq, "example.com:80"⟩] ∧
      ¬ Runs.Along (step .plain proxiedConfig) (Honours .plain proxiedConfig) (init proxiedConfig)
        [.loop 0 .go, .loop 0 (.accepted (.ok (clientAddr 40000))), .loop 0 .go,
          .conn 0 (.peeked (.ok (utf8 "GET http"))), .conn 0 (.request getReq getReq_wellFormed),
          .conn 0 (.answer (agreeable []))] := by
  refine ⟨_, rfl, rfl, fun h => ?_⟩
  rcases (along_honours_iff rfl).mp h with hup | hundialled
  · cases hup
  · have hnone := contacts_of_undialled rfl hundialled
    cases hnone

end Server

end Peregrine
