import Peregrine.Server.Permits

/-!
# What the tasks have done

The state of the server holds what is left of every task's program, and not what
the task has done.  `dials` reads off a step which TCP connection a task has
asked for and how that ended; the server with the log of its dials
(`Runs.logged`) is what this module is about.

`Tracked` is the invariant: what is left of a program follows from the program
the task was started with, by answers whose dials are all on the log under the
name of the task.  So a fact about the three programs that the server runs, each
in isolation, is a fact about every run of the server.
-/

namespace Peregrine

open Prog (call ret fail Follows History)
open Table

/-- A task of the server that connects. -/
inductive Task
  /-- The task of a connection. -/
  | conn (c : ℕ)
  /-- The task of a CONNECT tunnel. -/
  | tunnel (k : ℕ)
  deriving DecidableEq

/-- `TcpStream::connect(authority)` by a task, and what it returned. -/
structure Dial where
  task : Task
  authority : String
  outcome : Except IoError Unit

def IsDial : sysSig.Op → Prop
  | .inr (.tcpConnect _) => True
  | _ => False

namespace Server

def dialOf (task : Task) : (o : sysSig.Op) → sysSig.Ans o → List Dial
  | .inr (.tcpConnect authority), r => [⟨task, authority, r⟩]
  | _, _ => []

def dials (s : Server) : Action → List Dial
  | .conn c (.answer f) => match (s.conns[c]?).map Conn.pc with
    | some (.exchange _ (call o _)) => dialOf (.conn c) o (f o)
    | some (.serving _ (call o _)) => dialOf (.conn c) o (f o)
    | _ => []
  | .tunnel k (.answer f) => match (s.tunnels[k]?).map Tunnel.pc with
    | some (.running (call o _)) => dialOf (.tunnel k) o (f o)
    | _ => []
  | _ => []

/-! ### Histories on the log -/

/-- The dials of the history are on the log, under the name of the task. -/
def Noted (log : List Dial) (task : Task) (l : History sysSig) : Prop :=
  ∀ e ∈ l, ∀ d ∈ dialOf task e.1 e.2, d ∈ log

theorem Noted.nil (log : List Dial) (task : Task) : Noted log task [] := nofun

theorem Noted.mono {log log' : List Dial} {task : Task} {l : History sysSig}
    (h : Noted log task l) (hsub : log ⊆ log') : Noted log' task l :=
  fun e he d hd => hsub (h e he d hd)

theorem Noted.answer {log : List Dial} {task : Task} {l : History sysSig} (h : Noted log task l)
    (o : sysSig.Op) (x : sysSig.Ans o) : Noted (log ++ dialOf task o x) task (l ++ [⟨o, x⟩]) := by
  intro e he d hd
  rcases List.mem_append.mp he with he | he
  · exact List.mem_append_left _ (h e he d hd)
  · obtain rfl := List.mem_singleton.mp he
    exact List.mem_append_right _ hd

variable (std : IpText) (config : AppConfig)

section Tracked

variable (log : List Dial)

/-- `p` is what the task has left of the program `start`. -/
def Left {ε α : Type} (task : Task) (start p : Prog sysSig ε α) : Prop :=
  ∃ l, Follows start l p ∧ Noted log task l

/-- The task of the connection `c` is at work on the program of its request. -/
def ConnTracked (c : ℕ) : ConnPc → Prop
  | .exchange req p => Left log (.conn c) (HttpHandler.proxyRequest req) p
  | .serving request p => Left log (.conn c) (dispatch std request) p
  | .relaying request _ k =>
    Left log (.conn c) (dispatch std request) (call (.inr .relayLoop) k)
  | _ => True

/-- The tunnel task `k` is at work on the program of its CONNECT. -/
def TunnelTracked (k : ℕ) (t : Tunnel) : Prop :=
  ∀ p, t.pc = .running p →
    Left log (.tunnel k) (HttpHandler.tunnel (HttpHandler.connectTarget t.req)) p

/-- **Every task is where its program and the answers to it have led.** -/
structure Tracked (s : Server) : Prop where
  conn : ∀ c conn, s.conns[c]? = some conn → ConnTracked std log c conn.pc
  tunnel : ∀ k t, s.tunnels[k]? = some t → TunnelTracked log k t
  started : ∀ d ∈ log, ∀ k, d.task = .tunnel k → ∃ t p, s.tunnels[k]? = some t ∧ t.pc = .running p

end Tracked

theorem tracked_init : Tracked std [] (init config) where
  conn _ _ h := by cases h
  tunnel _ _ h := by cases h
  started _ h := by cases h

variable {std config} {log log' : List Dial}

theorem Left.start {ε α : Type} (log : List Dial) (task : Task) (p : Prog sysSig ε α) :
    Left log task p p := ⟨[], .start, .nil log task⟩

theorem Left.mono {ε α : Type} {task : Task} {start p : Prog sysSig ε α}
    (h : Left log task start p) (hsub : log ⊆ log') : Left log' task start p := by
  obtain ⟨l, hl, hnoted⟩ := h
  exact ⟨l, hl, hnoted.mono hsub⟩

theorem Left.answer {ε α : Type} {task : Task} {start : Prog sysSig ε α} {o : sysSig.Op}
    {k : sysSig.Ans o → Prog sysSig ε α} (h : Left log task start (call o k)) (x : sysSig.Ans o) :
    Left (log ++ dialOf task o x) task start (k x) := by
  obtain ⟨l, hl, hnoted⟩ := h
  exact ⟨l ++ [⟨o, x⟩], hl.answer x, hnoted.answer o x⟩

theorem ConnTracked.mono {c : ℕ} {pc : ConnPc} (h : ConnTracked std log c pc) (hsub : log ⊆ log') :
    ConnTracked std log' c pc := by
  cases pc with
  | exchange req p => exact Left.mono h hsub
  | serving request p => exact Left.mono h hsub
  | relaying request a k => exact Left.mono h hsub
  | _ => trivial

/-! ### One change at a time -/

section Changes

variable {s : Server} (h : Tracked std log s)

include h

theorem Tracked.of_eq {s' : Server} (hc : s'.conns = s.conns) (ht : s'.tunnels = s.tunnels) :
    Tracked std log s' := by
  refine ⟨?_, ?_, ?_⟩
  · rw [hc]
    exact h.conn
  · rw [ht]
    exact h.tunnel
  · rw [ht]
    exact h.started

theorem Tracked.note {new : List Dial} (hnew : ∀ d ∈ new, ∀ k, d.task ≠ .tunnel k) :
    Tracked std (log ++ new) s where
  conn c conn hc := (h.conn c conn hc).mono (List.subset_append_left _ _)
  tunnel k t ht p hp := (h.tunnel k t ht p hp).mono (List.subset_append_left _ _)
  started d hd k hk := by
    rcases List.mem_append.mp hd with hd | hd
    · exact h.started d hd k hk
    · exact absurd hk (hnew d hd k)

theorem Tracked.setConn {c : ℕ} {conn : Conn} {pc : ConnPc} (hpc : ConnTracked std log c pc) :
    Tracked std log (s.setConn c conn pc) where
  conn c' m hm := by
    rcases getElem?_set_cases hm with ⟨rfl, rfl⟩ | ⟨-, hm⟩
    · exact hpc
    · exact h.conn c' m hm
  tunnel := h.tunnel
  started := h.started

theorem Tracked.close (c : ℕ) (conn : Conn) : Tracked std log (s.close c conn) where
  conn c' m hm := by
    rcases getElem?_set_cases hm with ⟨rfl, rfl⟩ | ⟨-, hm⟩
    · trivial
    · exact h.conn c' m hm
  tunnel := h.tunnel
  started := h.started

theorem Tracked.letIn (addr : SocketAddr) (tls : Bool) : Tracked std log (s.letIn addr tls) where
  conn c m hm := by
    rcases getElem?_concat_cases hm with hm | ⟨rfl, rfl⟩
    · exact h.conn c m hm
    · cases tls <;> trivial
  tunnel := h.tunnel
  started := h.started

theorem Tracked.spawnTunnel (c : ℕ) (addr : SocketAddr) (req : HttpRequest) :
    Tracked std log (s.spawnTunnel c addr req) where
  conn := h.conn
  tunnel k t ht := by
    rcases getElem?_concat_cases ht with ht | ⟨-, rfl⟩
    · exact h.tunnel k t ht
    · exact nofun
  started d hd k hk := by
    obtain ⟨t, p, ht, hp⟩ := h.started d hd k hk
    exact ⟨t, p, getElem?_concat_of_some ht, hp⟩

theorem Tracked.setTunnel {k : ℕ} {t : Tunnel} {pc : TunnelPc} (ht : s.tunnels[k]? = some t)
    (hpc : TunnelTracked log k { t with pc })
    (hrun : ∀ p, t.pc = .running p → ∃ q, pc = .running q) :
    Tracked std log (s.setTunnel k t pc) where
  conn := h.conn
  tunnel j u hu := by
    rcases getElem?_set_cases hu with ⟨rfl, rfl⟩ | ⟨-, hu⟩
    · exact hpc
    · exact h.tunnel j u hu
  started d hd j hj := by
    obtain ⟨u, p, hu, hp⟩ := h.started d hd j hj
    by_cases hjk : j = k
    · subst hjk
      obtain rfl := Option.some.inj (ht.symm.trans hu)
      obtain ⟨q, rfl⟩ := hrun p hp
      exact ⟨_, q, getElem?_set_of_some ht, rfl⟩
    · exact ⟨u, p, (List.getElem?_set_ne (Ne.symm hjk)).trans hu, hp⟩

end Changes

/-! ### Every step -/

theorem dialOf_eq_nil {task : Task} {o : sysSig.Op} {x : sysSig.Ans o} :
    dialOf task o x = [] ↔ ¬ IsDial o := by
  cases o with
  | inl o => exact iff_of_true rfl id
  | inr o =>
    cases o with
    | tcpConnect authority => exact iff_of_false nofun fun h => h trivial
    | _ => exact iff_of_true rfl id

theorem dialOf_task {task : Task} {o : sysSig.Op} {x : sysSig.Ans o} {d : Dial}
    (h : d ∈ dialOf task o x) : d.task = task := by
  unfold dialOf at h
  split at h
  · rw [List.mem_singleton.mp h]
  · cases h

theorem dials_conn_task {s : Server} {c : ℕ} {e : ConnEvent} {d : Dial}
    (h : d ∈ s.dials (.conn c e)) : d.task = .conn c := by
  cases e with
  | answer f =>
    simp only [dials] at h
    split at h
    · exact dialOf_task h
    · exact dialOf_task h
    · cases h
  | _ => cases h

theorem dials_exchange {s : Server} {c : ℕ} {conn : Conn} {req : HttpRequest} {o : sysSig.Op}
    {k : sysSig.Ans o → Prog sysSig HyperError HttpResponse} {f : (o : sysSig.Op) → sysSig.Ans o}
    (hc : s.conns[c]? = some conn) (hpc : conn.pc = .exchange req (call o k)) :
    s.dials (.conn c (.answer f)) = dialOf (.conn c) o (f o) := by
  simp only [dials, hc, Option.map_some, hpc]

theorem dials_serving {s : Server} {c : ℕ} {conn : Conn} {request : SocksRequest} {o : sysSig.Op}
    {k : sysSig.Ans o → Sys Unit} {f : (o : sysSig.Op) → sysSig.Ans o}
    (hc : s.conns[c]? = some conn) (hpc : conn.pc = .serving request (call o k)) :
    s.dials (.conn c (.answer f)) = dialOf (.conn c) o (f o) := by
  simp only [dials, hc, Option.map_some, hpc]

theorem dials_tunnel {s : Server} {k : ℕ} {t : Tunnel} {o : sysSig.Op}
    {next : sysSig.Ans o → Sys Unit} {f : (o : sysSig.Op) → sysSig.Ans o}
    (ht : s.tunnels[k]? = some t) (hpc : t.pc = .running (call o next)) :
    s.dials (.tunnel k (.answer f)) = dialOf (.tunnel k) o (f o) := by
  simp only [dials, ht, Option.map_some, hpc]

/-- **Every step tracks its task.** -/
theorem Tracked.step {s s' : Server} {a : Action} (h : Tracked std log s)
    (hs : s.step std config a = some s') : Tracked std (log ++ s.dials a) s' := by
  have at_conn : ∀ {c : ℕ} {conn : Conn} {pc : ConnPc}, s.conns[c]? = some conn → conn.pc = pc →
      ConnTracked std log c pc := fun {c conn pc} hc hpc => hpc ▸ h.conn c conn hc
  have noted : ∀ (c : ℕ) (e : ConnEvent), Tracked std (log ++ s.dials (.conn c e)) s :=
    fun c e => h.note fun d hd k hk => by
      rw [dials_conn_task hd] at hk
      cases hk
  have unchanged : Tracked std (log ++ []) s := (List.append_nil log).symm ▸ h
  cases stepped hs with
  | ctrlC | joined | ended | reloaded | notReloaded | entered | accepted | acceptFailed | notified
  | udp => exact unchanged.of_eq rfl rfl
  | @admitted i l addr hl hpc ha => exact (unchanged.letIn addr l.tls).of_eq rfl rfl
  | tlsAccepted hc hpc | detectedHttp hc hpc | detectedSocks5 hc hpc | responded hc hpc
  | accepting hc hpc =>
    refine (noted _ _).setConn ?_
    trivial
  | forwarded hc hpc hm =>
    refine Tracked.setConn ?_ ?_
    · exact (noted _ _).of_eq rfl rfl
    · exact .start _ _ _
  | connectAnswered hc hpc hm =>
    refine Tracked.setConn (Tracked.spawnTunnel ?_ _ _ _) ?_
    · exact (noted _ _).of_eq rfl rfl
    · trivial
  | @exchanged c conn req o k f hc hpc =>
    have hleft : Left log (.conn c) (HttpHandler.proxyRequest req) (call o k) := at_conn hc hpc
    have hlog := noted c (.answer f)
    rw [dials_exchange hc hpc] at hlog ⊢
    refine Tracked.setConn ?_ ?_
    · exact hlog.of_eq rfl rfl
    · exact hleft.answer (f o)
  | @handedOver c k conn t hc hpc ht =>
    refine Tracked.setConn ((noted c .go).setTunnel ht ?_ fun p _ => ⟨_, rfl⟩) ?_
    · intro p hp
      cases hp
      exact .start _ _ _
    · trivial
  | dispatchedConnect hc hpc hcmd =>
    refine Tracked.setConn ?_ ?_
    · exact (noted _ _).of_eq rfl rfl
    · exact .start _ _ _
  | dispatched hc hpc hcmd =>
    refine (noted _ _).setConn ?_
    exact .start _ _ _
  | @associated c conn request k hc hpc =>
    have hleft : Left log (.conn c) (dispatch std request) (call (.inr .relayLoop) k) :=
      at_conn hc hpc
    refine Tracked.setConn ?_ ?_
    · exact (noted c .go).of_eq rfl rfl
    · exact hleft.mono (List.subset_append_left _ _)
  | @served c conn request o k f hc hpc =>
    have hleft : Left log (.conn c) (dispatch std request) (call o k) := at_conn hc hpc
    have hlog := noted c (.answer f)
    rw [dials_serving hc hpc] at hlog ⊢
    refine Tracked.setConn ?_ ?_
    · exact hlog.of_eq rfl rfl
    · exact hleft.answer (f o)
  | @relayed c a conn request k hc hpc =>
    have hleft : Left log (.conn c) (dispatch std request) (call (.inr .relayLoop) k) :=
      at_conn hc hpc
    -- what the relay loop returns is no dial
    have hdial : dialOf (.conn c) (.inr .relayLoop) (.ok ()) = [] := rfl
    refine (noted c .go).setConn ?_
    have hnext := hleft.answer (.ok ())
    rw [hdial, List.append_nil] at hnext
    exact hnext.mono (List.subset_append_left _ _)
  | closed hc hopen he => exact (noted _ _).close _ _
  | @upgradeFailed k t ht hpc =>
    refine unchanged.setTunnel ht nofun fun p hp => ?_
    rw [hpc] at hp
    cases hp
  | @tunnelled k t o next f ht hpc =>
    have hleft := h.tunnel k t ht _ hpc
    have hsub : log ⊆ log ++ dialOf (.tunnel k) o (f o) := List.subset_append_left _ _
    have hlog : Tracked std (log ++ dialOf (.tunnel k) o (f o)) s := by
      refine ⟨fun c conn hc => (h.conn c conn hc).mono hsub,
        fun j u hu p hp => (h.tunnel j u hu p hp).mono hsub, fun d hd j hj => ?_⟩
      rcases List.mem_append.mp hd with hd | hd
      · exact h.started d hd j hj
      · rw [dialOf_task hd] at hj
        cases hj
        exact ⟨t, _, ht, hpc⟩
    rw [dials_tunnel ht hpc]
    refine Tracked.setTunnel ?_ ht ?_ fun p _ => ⟨_, rfl⟩
    · exact hlog.of_eq rfl rfl
    · intro p hp
      cases hp
      exact hleft.answer (f o)

theorem tracked_logged {x x' : Server × List Dial} {a : Action} (h : Tracked std x.2 x.1)
    (hs : Runs.logged (Server.step std config) dials x a = some x') : Tracked std x'.2 x'.1 := by
  obtain ⟨s', hs', rfl⟩ := Runs.logged_eq_some.mp hs
  exact h.step hs'

/-- **From one condition on steps to another** by what is known of the tasks. -/
theorem along_of_tracked {P Q : Server → Action → Prop} {as : List Action} {s : Server}
    (hPQ : ∀ log s a, Tracked std log s → P s a → Q s a)
    (h : Runs.run (Server.step std config) (init config) as = some s)
    (hP : Runs.Along (Server.step std config) P (init config) as) :
    Runs.Along (Server.step std config) Q (init config) as := by
  obtain ⟨log, hlog⟩ := @Runs.run_logged _ _ (Server.step std config) _ dials _ _ _ h []
  refine (@Runs.along_logged _ _ _ Q _ dials _ _ []).mp ?_
  exact @Runs.Along.transfer _ _ (Runs.logged (Server.step std config) dials)
    (fun x a => P x.1 a) (fun x => Tracked std x.2 x.1) (fun x a => Q x.1 a)
    (fun _ _ _ hx _ hs => tracked_logged hx hs) (fun x a _ hx hp _ => hPQ x.2 x.1 a hx hp) _ _ _
    (tracked_init std config) hlog ((@Runs.along_logged _ _ _ P _ dials _ _ []).mpr hP)

end Server

end Peregrine
