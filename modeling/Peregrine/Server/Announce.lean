import Peregrine.Server.Reach
import Peregrine.Server.Tasks

/-!
# Is success announced before there is a tunnel?

SOCKS5 CONNECT connects first and then replies.  HTTP CONNECT has a service that
returns its response of status 200 at once, and a task that connects when hyper
has sent the response and handed the connection over.

A step is `Truthful` if what it tells the client is on the log of dials, and if
a connect that fails in it is followed by an error reply.  `truthful_step_iff`
tells the steps that are not: a CONNECT handed over, and a tunnel that cannot
connect.  `announced_iff` is the same for runs: every step of a run is truthful
exactly if it hands over no CONNECT.
-/

namespace Peregrine

open Prog (call ret fail attempt Follows Calls)
open Table

/-! ### Replies -/

def IsSuccessReply (bs : List UInt8) : Prop := bs.take 2 = [0x05, 0x00]

instance (bs : List UInt8) : Decidable (IsSuccessReply bs) := by
  unfold IsSuccessReply
  infer_instance

/-- A SOCKS5 reply with another code. -/
def IsErrorReply (bs : List UInt8) : Prop := ∃ rep, rep ≠ 0x00 ∧ bs.take 2 = [0x05, rep]

/-- A response of a status that is not 2xx, as HTTP/1.1 writes it. -/
def IsErrorResponse (bs : List UInt8) : Prop :=
  utf8 "HTTP/1.1 " <+: bs ∧ ¬ utf8 "HTTP/1.1 2" <+: bs

def HttpResponse.isSuccess (response : HttpResponse) : Bool :=
  200 ≤ response.parts.status && response.parts.status < 300

def WritesNext (P : List UInt8 → Prop) : Sys Unit → Prop
  | call (.inl (.writeAll bs)) _ => P bs
  | _ => False

namespace Server

section

variable (std : IpText)

/-- The success that a step announces to its client: which task is said to be
connected, and to whom.  hyper sends the response to a CONNECT when it goes on
from where the service has answered. -/
def announced (s : Server) : Action → Option (Task × String)
  | .conn c .go => match (s.conns[c]?).map Conn.pc with
    | some (.answered k) =>
      if HttpHandler.connectResponse.isSuccess then
        (s.tunnels[k]?).map fun t => (.tunnel k, (HttpHandler.connectTarget t.req).authority)
      else none
    | _ => none
  | .conn c (.answer _) => match (s.conns[c]?).map Conn.pc with
    | some (.serving request (call (.inl (.writeAll bs)) _)) =>
      if request.command = .connect ∧ IsSuccessReply bs then
        some (.conn c, (request.target.connectTarget std).authority)
      else none
    | _ => none
  | _ => none

/-- Whatever a step announces has been established by the task. -/
def AnnouncesTruly (s : Server) (log : List Dial) (a : Action) : Prop :=
  ∀ x ∈ s.announced std a, (⟨x.1, x.2, .ok ()⟩ : Dial) ∈ log

end

/-- Where a tunnelling task cannot connect in the step, an error reply is the next
thing that its client is sent. -/
def RefusesAtOnce (s : Server) : Action → Prop
  | .conn c (.answer f) => match (s.conns[c]?).map Conn.pc with
    | some (.serving _ (call (.inr (.tcpConnect authority)) k)) =>
      ∀ e, f (.inr (.tcpConnect authority)) = .error e → WritesNext IsErrorReply (k (.error e))
    | _ => True
  | .tunnel j (.answer f) => match (s.tunnels[j]?).map Tunnel.pc with
    | some (.running (call (.inr (.tcpConnect authority)) k)) =>
      ∀ e, f (.inr (.tcpConnect authority)) = .error e → WritesNext IsErrorResponse (k (.error e))
    | _ => True
  | _ => True

/-- **Success is announced when there is a tunnel, and failure where there is none.** -/
structure Truthful (std : IpText) (x : Server × List Dial) (a : Action) : Prop where
  announces : AnnouncesTruly std x.1 x.2 a
  refuses : x.1.RefusesAtOnce a

/-! ### The exceptions -/

/-- The step hands over no CONNECT. -/
def NotHandedOver (s : Server) : Action → Prop
  | .conn c .go => ∀ conn k, s.conns[c]? = some conn → conn.pc ≠ .answered k
  | _ => True

/-- The step is no failing connect of a tunnel. -/
def TunnelConnects (s : Server) : Action → Prop
  | .tunnel k e => ∀ d ∈ s.dials (.tunnel k e), d.outcome = .ok ()
  | _ => True

variable {std : IpText} {config : AppConfig} {log : List Dial}

/-! ### SOCKS5 -/

/-- **A success reply follows a successful connect.** -/
theorem success_follows_connect {request : SocksRequest} {bs : List UInt8}
    {k : Except IoError Unit → Sys Unit} {l : Prog.History sysSig}
    (hcmd : request.command = .connect) (hbs : IsSuccessReply bs)
    (h : Follows (dispatch std request) l (@call sysSig _ _ (.inl (.writeAll bs)) k)) :
    (⟨.inr (.tcpConnect (request.target.connectTarget std).authority), .ok ()⟩ :
      (o : sysSig.Op) × sysSig.Ans o) ∈ l := by
  have hstart : dispatch std request = attempt (DirectConnector.connect
      (request.target.connectTarget std)) >>= serveConnect request := by
    rw [dispatch, hcmd]
    rfl
  rw [hstart, attempt_connect_bind] at h
  rcases h.cases_call with ⟨-, heq⟩ | ⟨x, l', rfl, hrest⟩
  · cases heq
  · cases x with
    | ok u => exact List.mem_cons_self
    | error e =>
      have hcalls : Calls (fun o : sysSig.Op => o = .inl (.writeAll (replyBytes 0x05)))
          (serveConnect request ((Except.error e : Except IoError Unit).mapError .io)) :=
        Wire.calls_writeAll rfl
      have hop := (hrest.calls hcalls).1
      cases hop
      cases hbs

theorem error_follows_refusal {request : SocksRequest} {authority : String}
    {k : Except IoError Unit → Sys Unit} {l : Prog.History sysSig}
    (h : Follows (dispatch std request) l (@call sysSig _ _ (.inr (.tcpConnect authority)) k))
    (e : IoError) : WritesNext IsErrorReply (k (.error e)) := by
  have hcalls : ∀ {p : Sys Unit}, Calls (¬ IsDial ·) p → ∀ {l},
      ¬ Follows p l (@call sysSig _ _ (.inr (.tcpConnect authority)) k) :=
    fun hp l hf => (hf.calls hp).1 trivial
  have hwrite : ∀ bs, ¬ IsDial (.inl (.writeAll bs)) := fun _ => id
  unfold dispatch at h
  split at h
  · rw [handleConnect, attempt_connect_bind] at h
    rcases h.cases_call with ⟨-, heq⟩ | ⟨x, l', -, hrest⟩
    · cases heq
      exact ⟨0x05, by decide, rfl⟩
    · exact absurd hrest (hcalls (calls_serveConnect hwrite id _ _))
  · exact absurd h (hcalls (calls_handleUdpAssociate hwrite id id id _))
  · exact absurd h (hcalls (calls_sendReply hwrite _ _))

/-! ### Tunnels that wait -/

/-- A tunnel whose CONNECT has only been answered does not run yet. -/
def AnsweredWait (s : Server) : Prop :=
  ∀ (c k : ℕ) (conn : Conn) (t : Tunnel), s.conns[c]? = some conn → conn.pc = .answered k →
    s.tunnels[k]? = some t → ∀ p, t.pc ≠ .running p

theorem AnsweredWait.setConn {s : Server} (h : AnsweredWait s) {c : ℕ} {conn : Conn} {pc : ConnPc}
    (hpc : ∀ k, pc ≠ .answered k) : AnsweredWait (s.setConn c conn pc) := by
  intro c' k m t hm hk ht
  rcases getElem?_set_cases hm with ⟨-, rfl⟩ | ⟨-, hm⟩
  · exact absurd hk (hpc k)
  · exact h c' k m t hm hk ht

theorem AnsweredWait.step {s s' : Server} {a : Action} (acc : Accounted config s)
    (h : AnsweredWait s) (hs : s.step std config a = some s') : AnsweredWait s' := by
  cases stepped hs with
  | ctrlC | joined | ended | reloaded | notReloaded | entered | accepted | acceptFailed | notified
  | udp => exact h
  | @admitted i l addr hl hpc ha =>
    intro c k m t hm hk ht
    rcases getElem?_concat_cases hm with hm | ⟨-, rfl⟩
    · exact h c k m t hm hk ht
    · have hnew : (if l.tls then ConnPc.tlsAccept else .peek) = .answered k := hk
      split at hnew <;> cases hnew
  | tlsAccepted hc hpc | detectedHttp hc hpc | detectedSocks5 hc hpc | responded hc hpc
  | accepting hc hpc | dispatched hc hpc | relayed hc hpc => exact h.setConn nofun
  | forwarded hc hpc | exchanged hc hpc | dispatchedConnect hc hpc | associated hc hpc
  | served hc hpc =>
    refine AnsweredWait.setConn ?_ nofun
    exact h
  | closed hc hopen he =>
    intro c k m t hm hk ht
    rcases getElem?_set_cases hm with ⟨-, rfl⟩ | ⟨-, hm⟩
    · cases hk
    · exact h c k m t hm hk ht
  | @connectAnswered c conn req hreq hc hpc hm =>
    intro c' k m t hm' hk ht
    rcases getElem?_concat_cases ht with ht | ⟨-, rfl⟩
    · rcases getElem?_set_cases hm' with ⟨-, rfl⟩ | ⟨-, hm'⟩
      · -- the new tunnel is not among the old ones
        cases hk
        have hnone : s.tunnels[s.tunnels.length]? = none := List.getElem?_eq_none le_rfl
        cases ht.symm.trans hnone
      · exact h c' k m t hm' hk ht
    · exact nofun
  | @handedOver c k conn t hc hpc ht =>
    intro c' j m u hm hj hu
    rcases getElem?_set_cases hm with ⟨-, rfl⟩ | ⟨hne, hm⟩
    · cases hj
    · rcases getElem?_set_cases hu with ⟨rfl, -⟩ | ⟨-, hu⟩
      · -- two connections would stand at one tunnel
        obtain ⟨u', hu', hc'⟩ := acc.place c' j m hm (Or.inl hj)
        obtain ⟨t', ht', htc⟩ := acc.place c j conn hc (Or.inl hpc)
        obtain rfl := Option.some.inj (hu'.symm.trans ht')
        exact absurd (hc'.symm.trans htc) hne
      · exact h c' j m u hm hj hu
  | upgradeFailed ht hpc =>
    intro c j m u hm hj hu
    rcases getElem?_set_cases hu with ⟨-, rfl⟩ | ⟨-, hu⟩
    · exact nofun
    · exact h c j m u hm hj hu
  | tunnelled ht hpc =>
    intro c j m u hm hj hu
    rcases getElem?_set_cases hu with ⟨rfl, -⟩ | ⟨-, hu⟩
    · exact absurd hpc (h c j m _ hm hj ht _)
    · exact h c j m u hm hj hu

def NoneRuns (s : Server) : Prop := ∀ t ∈ s.tunnels, ∀ p, t.pc ≠ .running p

theorem NoneRuns.step {s s' : Server} {a : Action} (h : NoneRuns s) (hp : s.NotHandedOver a)
    (hs : s.step std config a = some s') : NoneRuns s' := by
  cases stepped hs with
  | handedOver hc hpc ht => exact absurd hpc (hp _ _ hc)
  | connectAnswered hc hpc hm =>
    intro t ht
    rcases List.mem_append.mp ht with ht | ht
    · exact h t ht
    · obtain rfl := List.mem_singleton.mp ht
      exact nofun
  | upgradeFailed ht hpc =>
    intro t ht
    rcases List.mem_or_eq_of_mem_set ht with ht | rfl
    · exact h t ht
    · exact nofun
  | tunnelled ht hpc => exact absurd hpc (h _ (List.mem_of_getElem? ht) _)
  | _ => exact h

/-! ### Every step -/

theorem silent_refusal {target : ConnectTarget} {authority : String}
    {k : Except IoError Unit → Sys Unit} {l : Prog.History sysSig}
    (h : Follows (HttpHandler.tunnel target) l
      (@call sysSig _ _ (.inr (.tcpConnect authority)) k)) (e : IoError) :
    k (.error e) = ret () := by
  rw [HttpHandler.tunnel_eq, attempt_connect_bind] at h
  rcases h.cases_call with ⟨-, heq⟩ | ⟨x, l', -, hrest⟩
  · cases heq
    rfl
  · have hcalls : Calls (¬ IsDial ·) (HttpHandler.copyUpgraded (x.mapError .io)) :=
      HttpHandler.calls_copyUpgraded id _
    exact absurd trivial (hrest.calls hcalls).1

theorem Tracked.announces {s : Server} {a : Action} (h : Tracked std log s)
    (hover : s.NotHandedOver a) : AnnouncesTruly std s log a := by
  intro y hy
  cases a with
  | conn c e =>
    cases e with
    | go =>
      simp only [announced] at hy
      split at hy
      · rename_i k hpc
        obtain ⟨conn, hc, hk⟩ := Option.map_eq_some_iff.mp hpc
        exact absurd hk (hover conn k hc)
      · cases hy
    | answer f =>
      simp only [announced] at hy
      split at hy
      · rename_i request bs k hpc
        obtain ⟨conn, hc, hpc⟩ := Option.map_eq_some_iff.mp hpc
        split at hy
        · rename_i hsuccess
          cases hy
          have htr := h.conn c conn hc
          rw [hpc] at htr
          obtain ⟨l, hl, hnoted⟩ := htr
          refine hnoted _ (success_follows_connect hsuccess.1 hsuccess.2 hl) _ ?_
          exact List.mem_singleton.mpr rfl
        · cases hy
      · cases hy
    | _ => cases hy
  | _ => cases hy

theorem Tracked.refuses {s : Server} {a : Action} (h : Tracked std log s)
    (hconnects : s.TunnelConnects a) : s.RefusesAtOnce a := by
  cases a with
  | conn c e =>
    cases e with
    | answer f =>
      simp only [RefusesAtOnce]
      split
      · rename_i request authority k hpc
        obtain ⟨conn, hc, hpc⟩ := Option.map_eq_some_iff.mp hpc
        have htr := h.conn c conn hc
        rw [hpc] at htr
        obtain ⟨l, hl, -⟩ := htr
        exact fun e _ => error_follows_refusal hl e
      · trivial
    | _ => trivial
  | tunnel j e =>
    cases e with
    | answer f =>
      simp only [RefusesAtOnce]
      split
      · rename_i authority k hpc
        obtain ⟨t, ht, hpc⟩ := Option.map_eq_some_iff.mp hpc
        intro e he
        have hdial := hconnects ⟨.tunnel j, authority, .error e⟩ (by
          rw [dials_tunnel ht hpc, he]
          exact List.mem_singleton.mpr rfl)
        cases hdial
      · trivial
    | _ => trivial
  | _ => trivial

theorem Tracked.truthful {s : Server} {a : Action} (h : Tracked std log s)
    (hover : s.NotHandedOver a) (hconnects : s.TunnelConnects a) : Truthful std (s, log) a :=
  ⟨h.announces hover, h.refuses hconnects⟩

/-- **Which steps are not truthful**: those that hand over a CONNECT, and the
failing connects of tunnels. -/
theorem truthful_step_iff {s s' : Server} {a : Action} (h : Tracked std log s)
    (hwait : AnsweredWait s) (hs : s.step std config a = some s') :
    Truthful std (s, log) a ↔ s.NotHandedOver a ∧ s.TunnelConnects a := by
  refine ⟨fun ⟨hann, href⟩ => ⟨?_, ?_⟩, fun ⟨hover, hconnects⟩ => h.truthful hover hconnects⟩
  · cases a with
    | conn c e =>
      cases e with
      | go =>
        intro conn k hc hk
        obtain ⟨t, ht⟩ : ∃ t, s.tunnels[k]? = some t := by
          unfold Server.step at hs
          split at hs
          · cases hs
          · simp only [hc, Option.bind_some, hk, stepConn] at hs
            obtain ⟨t, ht, -⟩ := Option.map_eq_some_iff.mp hs
            exact ⟨t, ht⟩
        have hmem := hann (.tunnel k, (HttpHandler.connectTarget t.req).authority) (by
          simp only [announced, hc, Option.map_some, hk, ht]
          rfl)
        obtain ⟨u, p, hu, hp⟩ := h.started _ hmem k rfl
        exact hwait c k conn u hc hk hu p hp
      | _ => trivial
    | _ => trivial
  · cases a with
    | tunnel k e =>
      intro d hd
      cases stepped hs with
      | upgradeFailed ht hpc => cases hd
      | @tunnelled k t o next f ht hpc =>
        rw [dials_tunnel ht hpc] at hd
        cases o with
        | inl o => cases hd
        | inr o =>
          cases o with
          | tcpConnect authority =>
            obtain rfl := List.mem_singleton.mp hd
            cases hr : f (.inr (.tcpConnect authority)) with
            | ok u => rfl
            | error e =>
              obtain ⟨l, hl, -⟩ := h.tunnel k t ht _ hpc
              have hnext : WritesNext IsErrorResponse (next (.error e)) := by
                simp only [RefusesAtOnce, ht, Option.map_some, hpc] at href
                exact href e hr
              rw [silent_refusal hl e] at hnext
              exact absurd hnext id
          | _ => cases hd
    | _ => trivial

/-! ### Every run -/

theorem NoneRuns.tunnelConnects {s : Server} (h : NoneRuns s) (a : Action) :
    s.TunnelConnects a := by
  cases a with
  | tunnel k e =>
    intro d hd
    cases e with
    | answer f =>
      simp only [dials] at hd
      split at hd
      · rename_i o next hpc
        obtain ⟨t, ht, hpc⟩ := Option.map_eq_some_iff.mp hpc
        exact absurd hpc (h t (List.mem_of_getElem? ht) _)
      · cases hd
    | upgradeFailed => cases hd
  | _ => trivial

theorem along_truthful_iff {as : List Action} {s : Server}
    (h : Runs.run (step std config) (init config) as = some s) :
    Runs.Along (Runs.logged (step std config) dials) (Truthful std) (init config, []) as ↔
      Runs.Along (step std config) NotHandedOver (init config) as := by
  obtain ⟨log, hlog⟩ := @Runs.run_logged _ _ (step std config) _ dials _ _ _ h []
  rw [← @Runs.along_logged _ _ _ NotHandedOver _ dials _ _ []]
  constructor
  · refine @Runs.Along.transfer _ _ _ (Truthful std)
      (fun x => Accounted config x.1 ∧ Tracked std x.2 x.1 ∧ AnsweredWait x.1) _
      (fun x a x' hx _ hs => ?_) (fun x a x' hx htruthful hs => ?_) _ _ _
      ⟨accounted_init, tracked_init std config, fun _ _ _ _ hc => (by cases hc)⟩ hlog
    · obtain ⟨hacc, htracked, hwait⟩ := hx
      refine ⟨?_, tracked_logged htracked hs, ?_⟩
      · obtain ⟨s', hs', rfl⟩ := Runs.logged_eq_some.mp hs
        exact hacc.step hs'
      · obtain ⟨s', hs', rfl⟩ := Runs.logged_eq_some.mp hs
        exact hwait.step hacc hs'
    · obtain ⟨s', hs', rfl⟩ := Runs.logged_eq_some.mp hs
      exact ((truthful_step_iff hx.2.1 hx.2.2 hs').mp htruthful).1
  · refine @Runs.Along.transfer _ _ _ (fun x a => NotHandedOver x.1 a)
      (fun x => Tracked std x.2 x.1 ∧ NoneRuns x.1) _
      (fun x a x' hx hover hs => ?_) (fun x a x' hx hover hs => ?_) _ _ _
      ⟨tracked_init std config, fun _ ht => (by cases ht)⟩ hlog
    · refine ⟨tracked_logged hx.1 hs, ?_⟩
      obtain ⟨s', hs', rfl⟩ := Runs.logged_eq_some.mp hs
      exact hx.2.step hover hs'
    · exact hx.1.truthful hover (hx.2.tunnelConnects a)

theorem reaches_handover (h : ServesHttp config) : ∃ as s,
    Runs.run (step std config) (init config) as = some s ∧
      ¬ Runs.Along (step std config) NotHandedOver (init config) as := by
  obtain ⟨s, s₁, s₂, ⟨as, hs⟩, hstep₁, hc₁, hstep₂, -⟩ :=
    @connect_handed_over std config h (clientAddr 40000) connectReq connectReq_wellFormed rfl
  refine ⟨as ++ [.conn 0 (.request connectReq connectReq_wellFormed), .conn 0 .go], s₂, ?_,
    fun hall => ?_⟩
  · rw [Runs.run_append, hs, Option.bind_some, Runs.run_cons, hstep₁, Option.bind_some,
      Runs.run_cons, hstep₂]
    rfl
  · have htail := ((Runs.along_append _ _ _).mp hall).2 s hs
    exact (htail.2 s₁ hstep₁).1 _ 0 hc₁ rfl

/-- **When success is announced truly.**  In a run whatever is announced has been
established, and whatever cannot be established is refused at once, exactly if no
step of it hands over a CONNECT; and once the listeners are open, this holds of all
runs of a configuration exactly if no client can be let in. -/
theorem announced_iff (std : IpText) (config : AppConfig) :
    (∀ as s, Runs.run (step std config) (init config) as = some s →
      (Runs.Along (Runs.logged (step std config) dials) (Truthful std) (init config, []) as ↔
        Runs.Along (step std config) NotHandedOver (init config) as)) ∧
    ((∀ as s, Runs.run (step std config) (init config) as = some s →
      Runs.Along (Runs.logged (step std config) dials) (Truthful std) (init config, []) as) ↔
      ¬ ServesHttp config) := by
  refine ⟨fun as s h => along_truthful_iff h, fun hall hserve => ?_, fun hserve as s h => ?_⟩
  · obtain ⟨as, s, hs, hnot⟩ := @reaches_handover std config hserve
    exact hnot ((along_truthful_iff hs).mp (hall as s hs))
  · refine (along_truthful_iff h).mpr ?_
    refine @Runs.Along.transfer _ _ (step std config) (fun _ _ => True)
      (fun s => Accounted config s ∧ Traced std config s) NotHandedOver
      (fun s a s' hi _ hs => ⟨hi.1.step hs, hi.2.step hi.1 hs⟩) (fun s a s' hi _ _ => ?_) _ _ _
      ⟨accounted_init, traced_init⟩ h (Runs.along_of_forall (fun _ _ => trivial) _ _)
    cases a with
    | conn c e =>
      cases e with
      | go =>
        intro conn k hc hk
        have htr := hi.2.conn conn (List.mem_of_getElem? hc)
        rw [hk] at htr
        exact hserve htr
      | _ => trivial
    | _ => trivial

def refusing : (o : sysSig.Op) → sysSig.Ans o
  | .inr (.tcpConnect _) => .error (.other "Connection refused (os error 111)")
  | o => agreeable [] o

def answeredRun : List Action :=
  [.loop 0 .go, .loop 0 (.accepted (.ok (clientAddr 40000))), .loop 0 .go,
    .conn 0 (.peeked (.ok (utf8 "CONNECT "))), .conn 0 (.request connectReq connectReq_wellFormed)]

def refusedRun : List Action := [.conn 0 .go, .tunnel 0 (.answer refusing)]

/-- **A tunnel to nowhere**: the client is told that it is connected, the connect
is refused, and the client is told nothing more. -/
theorem tunnel_announced_then_refused : ∃ s,
    Runs.run (step .plain smallConfig) (init smallConfig) (answeredRun ++ refusedRun) = some s ∧
      s.tunnels.map Tunnel.pc = [.running (ret ())] ∧
      ¬ Runs.Along (Runs.logged (step .plain smallConfig) dials) (Truthful .plain)
        (init smallConfig, []) (answeredRun ++ refusedRun) := by
  refine ⟨_, rfl, rfl, fun h => ?_⟩
  have hover := (((Runs.along_append _ answeredRun refusedRun).mp h).2 _ rfl).1
  have hmem := hover.announces (.tunnel 0, "example.com:443") rfl
  cases hmem

end Server

end Peregrine
