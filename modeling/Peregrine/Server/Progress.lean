import Peregrine.Server.Drain
import Peregrine.Server.Reach

/-!
# What can still happen

Nothing the server does is beyond repair for its connections: from every state
it can get into, the connections alone can go on until the last of them has
ended, and every permit is then back (`permits_come_back`).  So no permit is
ever lost, and a loop that waits for one can be given one.

For the accept loops this fails, as `Server/Shutdown.lean` says, and
`can_return_iff` says when: `run` can still return unless a loop has missed the
call of `notify_waiters`, or waits for a permit of a semaphore that never had
one.
-/

namespace Peregrine

open Prog (call ret fail)
open Runs (Leads Reachable)
open Table

namespace Server

/-- What a connection does by itself, and the end of a UDP association. -/
def OfConns : Action → Prop
  | .conn _ _ | .udp _ .stop => True
  | _ => False

/-- Only the connection `c` has moved, and what belongs to it. -/
structure OnlyConn (c : ℕ) (s t : Server) : Prop where
  runPc : t.runPc = s.runPc
  notifyCalls : t.notifyCalls = s.notifyCalls
  loops : t.loops = s.loops
  conns : ∃ conn, t.conns = s.conns.set c conn

variable {std : IpText} {config : AppConfig}

theorem OnlyConn.trans {c : ℕ} {s t u : Server} (h : OnlyConn c s t) (h' : OnlyConn c t u) :
    OnlyConn c s u := by
  obtain ⟨conn, hconn⟩ := h.conns
  obtain ⟨conn', hconn'⟩ := h'.conns
  refine ⟨h'.runPc.trans h.runPc, h'.notifyCalls.trans h.notifyCalls, h'.loops.trans h.loops,
    conn', ?_⟩
  rw [hconn', hconn, List.set_set]

/-- **The connection `c` can end**, with nothing else but what belongs to it moving. -/
def CanClose (std : IpText) (config : AppConfig) (c : ℕ) (s : Server) : Prop :=
  ∃ t, Leads (step std config) OfConns s t ∧ OnlyConn c s t ∧
    ∃ conn, t.conns[c]? = some conn ∧ conn.pc.isClosed = true

section CanClose

variable {s t : Server} {c : ℕ} {conn : Conn}

theorem CanClose.of_step {a : Action} (hk : OfConns a) (hs : s.step std config a = some t)
    (ho : OnlyConn c s t) (h : CanClose std config c t) : CanClose std config c s := by
  obtain ⟨u, hu, hou, hclosed⟩ := h
  exact ⟨u, (Leads.of_step hk hs).trans hu, ho.trans hou, hclosed⟩

theorem canClose_of_close (e : ConnEvent) (hrun : s.runPc ≠ .ended)
    (hc : s.conns[c]? = some conn)
    (hs : s.stepConn std c conn conn.pc e = some (s.close c conn)) : CanClose std config c s := by
  have hstep : s.step std config (.conn c e) = some (s.close c conn) := (step_conn hrun hc).trans hs
  have hkind : OfConns (.conn c e) := trivial
  exact ⟨s.close c conn, .of_step hkind hstep, ⟨rfl, rfl, rfl, _, rfl⟩, _,
    getElem?_set_of_some hc, rfl⟩

theorem canClose_of_setConn (e : ConnEvent) (u : Server) (pc : ConnPc)
    (hrun : s.runPc ≠ .ended) (hc : s.conns[c]? = some conn)
    (hs : s.stepConn std c conn conn.pc e = some (u.setConn c conn pc))
    (hu : u.runPc = s.runPc ∧ u.notifyCalls = s.notifyCalls ∧ u.loops = s.loops ∧
      u.conns = s.conns)
    (h : (u.setConn c conn pc).conns[c]? = some { conn with pc } →
      CanClose std config c (u.setConn c conn pc)) : CanClose std config c s := by
  obtain ⟨hrunPc, hcalls, hloops, hconns⟩ := hu
  have hkind : OfConns (.conn c e) := trivial
  refine CanClose.of_step hkind ((step_conn hrun hc).trans hs)
    ⟨hrunPc, hcalls, hloops, _, congrArg (List.set · c _) hconns⟩ (h ?_)
  exact getElem?_set_of_some ((congrArg (·[c]?) hconns).trans hc)

theorem canClose_of_relaying (hrun : s.runPc ≠ .ended) (hc : s.conns[c]? = some conn)
    {request : SocksRequest} {a : ℕ} {k : Except ProxyError Unit → Sys Unit}
    (hpc : conn.pc = .relaying request a k) {assoc : Association}
    (ha : s.associations[a]? = some assoc)
    (h : ∀ u : Server, u.runPc ≠ .ended →
      u.conns[c]? = some { conn with pc := .serving request (k (.ok ())) } →
      CanClose std config c u) : CanClose std config c s := by
  have hstopped : ∀ {u : Server} {assoc : Association}, u.runPc ≠ .ended →
      u.conns[c]? = some conn → u.associations[a]? = some assoc → assoc.relay.running = false →
      CanClose std config c u := by
    intro u assoc hrun hc ha hstop
    refine canClose_of_setConn .go u (.serving request (k (.ok ()))) hrun hc ?_
      ⟨rfl, rfl, rfl, rfl⟩ fun hc' => h _ hrun hc'
    rw [hpc, stepConn]
    simp only [ha, hstop, Bool.false_eq_true, if_false]
  by_cases hon : assoc.relay.running = true
  · have hstep : s.step std config (.udp a .stop) = some { s with
        associations := s.associations.set a
          { assoc with relay := { assoc.relay with running := false } } } := by
      rw [step, if_neg hrun]
      simp only [ha, Option.bind_some, stepUdp, Relay.step, hon, if_true, Option.map_some]
    have hkind : OfConns (.udp a .stop) := trivial
    refine CanClose.of_step hkind hstep ⟨rfl, rfl, rfl, conn, ?_⟩
      (hstopped hrun hc (getElem?_set_of_some ha) rfl)
    obtain ⟨hlt, rfl⟩ := List.getElem?_eq_some_iff.mp hc
    exact (List.set_getElem_self hlt).symm
  · exact hstopped hrun hc ha (Bool.eq_false_iff.mpr hon)

theorem canClose_of_serving (request : SocksRequest) (p : Sys Unit) (hrun : s.runPc ≠ .ended)
    (hc : s.conns[c]? = some conn) (hpc : conn.pc = .serving request p) :
    CanClose std config c s := by
  induction p generalizing s conn with
  | ret a =>
    refine canClose_of_close .go hrun hc ?_
    rw [hpc]
    rfl
  | fail e =>
    refine canClose_of_close .go hrun hc ?_
    rw [hpc]
    rfl
  | call o k ih =>
    by_cases ho : o = .inr .relayLoop
    · subst ho
      -- the relay is an association of its own, which can be stopped at once
      refine canClose_of_setConn .go (s.associate conn.addr)
        (.relaying request s.associations.length k) hrun hc ?_ ⟨rfl, rfl, rfl, rfl⟩ fun hc' => ?_
      · rw [hpc]
        rfl
      · have ha : (s.associations ++ [⟨conn.addr, Relay.init⟩])[s.associations.length]? =
          some (⟨conn.addr, Relay.init⟩ : Association) := List.getElem?_concat_length
        exact canClose_of_relaying hrun hc' rfl ha fun u hrun' hcu => ih _ hrun' hcu rfl
    · have hrelay : isRelayLoop o = false := by
        rcases o with o | o
        · rfl
        · cases o <;> first | rfl | exact absurd rfl ho
      let x := agreeable [] o
      refine canClose_of_setConn (.answer (agreeable []))
        (s.logContact conn.addr (.socks5 request.target) (opened o x)) (.serving request (k x))
        hrun hc ?_ ⟨rfl, rfl, rfl, rfl⟩ fun hc' => ih x hrun hc' rfl
      rw [hpc, stepConn]
      simp only [hrelay, Bool.false_eq_true, if_false]
      rfl

theorem canClose_of_accepting (p : Sys SocksRequest) (hrun : s.runPc ≠ .ended)
    (hc : s.conns[c]? = some conn) (hpc : conn.pc = .accepting p) : CanClose std config c s := by
  induction p generalizing s conn with
  | ret request =>
    by_cases hcmd : request.command = .connect
    · refine canClose_of_setConn .go (s.logRequest conn.addr (.socks5 request.target))
        (.serving request (dispatch std request)) hrun hc ?_ ⟨rfl, rfl, rfl, rfl⟩
        fun hc' => canClose_of_serving request _ hrun hc' rfl
      rw [hpc, stepConn]
      simp only [hcmd]
    · refine canClose_of_setConn .go s (.serving request (dispatch std request)) hrun hc ?_
        ⟨rfl, rfl, rfl, rfl⟩ fun hc' => canClose_of_serving request _ hrun hc' rfl
      rw [hpc, stepConn]
      split
      · exact absurd ‹_› hcmd
      · rfl
  | fail e =>
    refine canClose_of_close .go hrun hc ?_
    rw [hpc]
    rfl
  | call o k ih =>
    refine canClose_of_setConn (.answer (agreeable [])) s (.accepting (k (agreeable [] o)))
      hrun hc ?_ ⟨rfl, rfl, rfl, rfl⟩ fun hc' => ih _ hrun hc' rfl
    rw [hpc]
    rfl

end CanClose

/-! ### Every connection -/

def Associated (s : Server) : Prop :=
  ∀ conn ∈ s.conns, ∀ request a k, conn.pc = .relaying request a k → a < s.associations.length

section Associated

variable {s s' : Server} {c : ℕ} {conn : Conn}

theorem associated_init : Associated (init config) := fun _ h => (by cases h)

theorem Associated.setConn (h : Associated s) {pc : ConnPc}
    (hpc : ∀ request a k, pc = .relaying request a k → a < s.associations.length) :
    Associated (s.setConn c conn pc) := by
  intro m hm
  rcases List.mem_or_eq_of_mem_set hm with hm | rfl
  · exact h m hm
  · exact hpc

theorem Associated.step {a : Action} (h : Associated s) (hs : s.step std config a = some s') :
    Associated s' := by
  cases stepped hs with
  | ctrlC | joined | ended | reloaded | notReloaded | entered | accepted | acceptFailed | notified
  | upgradeFailed | tunnelled => exact h
  | @admitted i l addr hl hpc ha =>
    intro m hm
    rcases List.mem_append.mp hm with hm | hm
    · exact h m hm
    · obtain rfl := List.mem_singleton.mp hm
      intro request a k hpc'
      cases hl' : l.tls <;> rw [hl'] at hpc' <;> cases hpc'
  | tlsAccepted | detectedHttp | detectedSocks5 | responded | accepting | dispatched | relayed
  | forwarded | connectAnswered | exchanged | handedOver | dispatchedConnect | served =>
    exact Associated.setConn h nofun
  | @associated c conn request k hc hpc =>
    intro m hm request' a k' hpc'
    have hlen : (s.associations ++ [(⟨conn.addr, Relay.init⟩ : Association)]).length =
      s.associations.length + 1 := List.length_append
    change a < (s.associations ++ [_]).length
    rw [hlen]
    rcases List.mem_or_eq_of_mem_set hm with hm | rfl
    · exact Nat.lt_succ_of_lt (h m hm _ _ _ hpc')
    · cases hpc'
      exact Nat.lt_succ_self _
  | closed hc hopen he =>
    intro m hm
    rcases List.mem_or_eq_of_mem_set hm with hm | rfl
    · exact h m hm
    · exact nofun
  | @udp a assoc act relay ha hr =>
    intro m hm request b k hpc
    rw [List.length_set]
    exact h m hm request b k hpc

end Associated

/-- What holds in every reachable state. -/
structure Sound (config : AppConfig) (s : Server) : Prop where
  accounted : Accounted config s
  associated : Associated s
  epochs : ∀ l ∈ s.loops, ∀ epoch, l.pc = .select epoch → epoch ≤ s.notifyCalls

section Sound

variable {s s' : Server} {c i : ℕ} {conn : Conn} {l : AcceptLoop}

theorem sound_init : Sound config (init config) := by
  refine ⟨accounted_init, associated_init, fun l hl epoch hpc => ?_⟩
  obtain ⟨listen, -, rfl⟩ := List.mem_map.mp hl
  cases hpc

theorem Sound.step {a : Action} (h : Sound config s) (hs : s.step std config a = some s') :
    Sound config s' := by
  refine ⟨h.accounted.step hs, h.associated.step hs, ?_⟩
  have hset : ∀ {i : ℕ} {l : AcceptLoop} {pc : LoopPc}, (∀ epoch, pc = .select epoch →
      epoch ≤ s.notifyCalls) → ∀ m ∈ s.loops.set i { l with pc }, ∀ epoch,
      m.pc = .select epoch → epoch ≤ s.notifyCalls := by
    intro i l pc hpc m hm
    rcases List.mem_or_eq_of_mem_set hm with hm | rfl
    · exact h.epochs m hm
    · exact hpc
  cases stepped hs with
  | ctrlC hrun => exact fun l hl epoch hpc => (h.epochs l hl epoch hpc).trans (Nat.le_succ _)
  | entered hl hpc =>
    refine hset fun epoch he => ?_
    cases he
    exact Nat.le_refl _
  | accepted | acceptFailed | notified | admitted => exact hset nofun
  | _ => exact h.epochs

theorem sound_of_reachable (h : Reachable (step std config) (init config) s) : Sound config s := by
  obtain ⟨as, has⟩ := h
  exact Runs.run_invariant (fun _ _ _ hi hs => hi.step hs) sound_init has

theorem Sound.leads {K : Action → Prop} {t : Server} (h : Sound config s)
    (hl : Leads (Server.step std config) K s t) : Sound config t := by
  obtain ⟨as, -, has⟩ := hl
  exact Runs.run_invariant (fun _ _ _ hi hs => hi.step hs) h has

/-- **Every connection can end.** -/
theorem canClose (h : Sound config s) (hrun : s.runPc ≠ .ended) (hc : s.conns[c]? = some conn)
    (hopen : conn.pc.isClosed = false) : CanClose std config c s := by
  cases hpc : conn.pc with
  | tlsAccept => exact canClose_of_close (.tls false) hrun hc (by rw [hpc]; rfl)
  | peek => exact canClose_of_close (.peeked (.ok [])) hrun hc (by rw [hpc]; rfl)
  | http => exact canClose_of_close .hangup hrun hc (by rw [hpc]; rfl)
  | exchange req p => exact canClose_of_close .hangup hrun hc (by rw [hpc]; cases p <;> rfl)
  | answered k => exact canClose_of_close .hangup hrun hc (by rw [hpc]; rfl)
  | handedOver k => exact canClose_of_close .go hrun hc (by rw [hpc]; rfl)
  | accepting p => exact canClose_of_accepting p hrun hc hpc
  | serving request p => exact canClose_of_serving request p hrun hc hpc
  | relaying request a k =>
    have ha := h.associated conn (List.mem_of_getElem? hc) request a k hpc
    exact canClose_of_relaying hrun hc hpc (List.getElem?_eq_getElem ha) fun u hrun' hcu =>
      canClose_of_serving request _ hrun' hcu rfl
  | closed =>
    rw [hpc] at hopen
    cases hopen

structure LoopsStay (s t : Server) : Prop where
  runPc : t.runPc = s.runPc
  notifyCalls : t.notifyCalls = s.notifyCalls
  loops : t.loops = s.loops

/-- **All connections can end**, one after the other. -/
theorem all_close (h : Sound config s) (hrun : s.runPc ≠ .ended) :
    ∃ t, Leads (Server.step std config) OfConns s t ∧ LoopsStay s t ∧ t.available = maxConn config ∧
      ∀ conn ∈ t.conns, conn.pc.isClosed = true := by
  induction hn : s.conns.countP (fun conn => !conn.pc.isClosed) generalizing s with
  | zero =>
    have hall : ∀ conn ∈ s.conns, conn.pc.isClosed = true := by
      intro conn hconn
      have hnot := List.countP_eq_zero.mp hn conn hconn
      rwa [Bool.not_eq_true', Bool.not_eq_false] at hnot
    refine ⟨s, .refl s, ⟨rfl, rfl, rfl⟩, ?_, hall⟩
    have hback := h.accounted.all_back_iff.mpr hall
    have hsum := h.accounted.permits
    omega
  | succ n ih =>
    obtain ⟨conn, hconn, hopen⟩ : ∃ conn ∈ s.conns, (!conn.pc.isClosed) = true :=
      List.countP_pos_iff.mp (by omega)
    obtain ⟨c, hc⟩ := List.getElem?_of_mem hconn
    obtain ⟨u, hu, ho, conn', hc', hclosed⟩ := canClose h hrun hc (by simpa using hopen)
    obtain ⟨conn'', hset⟩ := ho.conns
    obtain rfl : conn'' = conn' := by
      rw [hset, getElem?_set_of_some hc] at hc'
      exact Option.some.inj hc'
    have hfewer : u.conns.countP (fun conn => !conn.pc.isClosed) = n := by
      have hcount := @countP_set_add _ s.conns c conn'' conn (fun conn => !conn.pc.isClosed) hc
      rw [hopen, hclosed, ← hset] at hcount
      simp only [if_true, Bool.not_true, Bool.false_eq_true, if_false] at hcount
      omega
    obtain ⟨t, ht, hstay, hback, hall⟩ := ih (h.leads hu) (by rw [ho.runPc]; exact hrun) hfewer
    exact ⟨t, hu.trans ht, ⟨hstay.runPc.trans ho.runPc, hstay.notifyCalls.trans ho.notifyCalls,
      hstay.loops.trans ho.loops⟩, hback, hall⟩

end Sound

/-- **No permit is ever lost.**  From every state the server can get into, the
connections and their UDP associations alone can go on until every connection
task has ended and all permits are back, with the accept loops and `run` where
they were. -/
theorem permits_come_back {as : List Action} {s : Server}
    (h : Runs.run (step std config) (init config) as = some s) (hrun : s.runPc ≠ .ended) :
    ∃ t, Leads (step std config) OfConns s t ∧ LoopsStay s t ∧ t.available = maxConn config ∧
      ∀ conn ∈ t.conns, conn.pc.isClosed = true :=
  all_close (sound_of_reachable ⟨as, h⟩) hrun

theorem permits_come_back_leak : ∃ t,
    Leads (step .plain smallConfig) OfConns ((Runs.run (step .plain smallConfig)
      (init smallConfig) leakRun).get rfl) t ∧
    LoopsStay ((Runs.run (step .plain smallConfig) (init smallConfig) leakRun).get rfl) t ∧
    t.available = maxConn smallConfig ∧ ∀ conn ∈ t.conns, conn.pc.isClosed = true :=
  permits_come_back (Option.some_get _).symm nofun

/-! ### When `run` can return -/

/-- `run` can still return. -/
def CanReturn (config : AppConfig) (s : Server) : Prop :=
  match s.runPc with
  | .serving => 0 < maxConn config ∨ ∀ l ∈ s.loops, ∀ addr, l.pc ≠ .acquire addr
  | .joining =>
    ∀ l ∈ s.loops, l.pc = .stopped ∨ ∃ epoch, l.pc = .select epoch ∧ epoch < s.notifyCalls
  | .draining _ | .ended => True

section Return

variable {s t : Server} {i : ℕ} {l : AcceptLoop}

theorem reaches_ended_of_draining {active : ℕ} (hpc : s.runPc = .draining active) :
    ∃ t, Reachable (step std config) s t ∧ t.runPc = .ended := by
  have hrun : s.runPc ≠ .ended := by
    rw [hpc]
    exact nofun
  rcases Nat.eq_zero_or_pos active with rfl | hactive
  · refine ⟨{ s with runPc := .ended }, .of_step (a := .run .drained) ?_, rfl⟩
    rw [step, if_neg hrun, hpc]
    simp only [stepRun, true_or, if_true]
  · refine ⟨{ s with runPc := .ended }, .of_step (a := .run .timedOut) ?_, rfl⟩
    rw [step, if_neg hrun, hpc]
    exact if_pos hactive

/-- Loops that have been woken stop, one after the other, and `run` goes on. -/
theorem reaches_ended_of_woken (hpc : s.runPc = .joining) (h : CanReturn config s) :
    ∃ t, Reachable (step std config) s t ∧ t.runPc = .ended := by
  have hwoken : ∀ l ∈ s.loops, l.pc = .stopped ∨
      ∃ epoch, l.pc = .select epoch ∧ epoch < s.notifyCalls := by
    rw [CanReturn, hpc] at h
    exact h
  clear h
  induction hn : s.loops.countP (fun l => l.pc ≠ .stopped) generalizing s with
  | zero =>
    have hrun : s.runPc ≠ .ended := by
      rw [hpc]
      exact nofun
    have hall : s.loops.all (·.pc = .stopped) = true := by
      refine List.all_eq_true.mpr fun l hl => decide_eq_true ?_
      simpa using List.countP_eq_zero.mp hn l hl
    have hstep : s.step std config (.run .joined) =
        some { s with runPc := .draining (maxConn config - s.available) } := by
      rw [step, if_neg hrun, hpc]
      exact if_pos hall
    obtain ⟨t, ht, hend⟩ := @reaches_ended_of_draining std config
      { s with runPc := .draining (maxConn config - s.available) } _ rfl
    exact ⟨t, (Reachable.of_step hstep).trans ht, hend⟩
  | succ n ih =>
    have hrun : s.runPc ≠ .ended := by
      rw [hpc]
      exact nofun
    obtain ⟨l, hl, hgo⟩ : ∃ l ∈ s.loops, decide (l.pc ≠ .stopped) = true :=
      List.countP_pos_iff.mp (by omega)
    obtain ⟨i, hi⟩ := List.getElem?_of_mem hl
    obtain ⟨epoch, hsel, hlt⟩ := (hwoken l hl).resolve_left (of_decide_eq_true hgo)
    have hstep : s.step std config (.loop i .notified) = some (s.setLoop i l .stopped) := by
      rw [step_loop hrun hi, hsel]
      exact if_pos hlt
    have hfewer : (s.setLoop i l .stopped).loops.countP (fun l => l.pc ≠ .stopped) = n := by
      have hcount := @countP_set_add _ s.loops i { l with pc := .stopped } l
        (fun l => l.pc ≠ .stopped) hi
      rw [hgo] at hcount
      simp only [if_true, ne_eq, not_true_eq_false, decide_false, Bool.false_eq_true,
        if_false] at hcount
      simp only [Server.setLoop, ne_eq]
      simp only [ne_eq] at hn
      omega
    have hstill : ∀ m ∈ (s.setLoop i l .stopped).loops, m.pc = .stopped ∨
        ∃ epoch, m.pc = .select epoch ∧ epoch < s.notifyCalls := by
      intro m hm
      rcases List.mem_or_eq_of_mem_set hm with hm | rfl
      · exact hwoken m hm
      · exact Or.inl rfl
    obtain ⟨t, ht, hend⟩ := @ih (s.setLoop i l .stopped) hpc hstill hfewer
    exact ⟨t, (Reachable.of_step hstep).trans ht, hend⟩

/-- The loop waits in `select!`, or has stopped. -/
def LoopPc.Waits : LoopPc → Bool
  | .select _ | .stopped => true
  | .top | .acquire _ => false

theorem loop_reaches_select (h : Sound config s) (hrun : s.runPc ≠ .ended)
    (hi : s.loops[i]? = some l) (hw : LoopPc.Waits l.pc = false)
    (hmax : 0 < maxConn config ∨ ∀ l ∈ s.loops, ∀ addr, l.pc ≠ .acquire addr) :
    ∃ t epoch, Reachable (step std config) s t ∧ t.runPc = s.runPc ∧
      t.loops = s.loops.set i { l with pc := .select epoch } := by
  have htop : ∀ {u : Server} {m : AcceptLoop}, u.runPc ≠ .ended → u.loops[i]? = some m →
      m.pc = .top → u.step std config (.loop i .go) =
        some (u.setLoop i m (.select u.notifyCalls)) := by
    intro u m hu hm hpc
    rw [step_loop hu hm, hpc]
    rfl
  cases hpc : l.pc with
  | top => exact ⟨_, _, .of_step (htop hrun hi hpc), rfl, rfl⟩
  | acquire addr =>
    have hpos := hmax.resolve_right fun hno => hno l (List.mem_of_getElem? hi) addr hpc
    -- a permit comes back before the loop takes it
    obtain ⟨u, hu, hstay, hback, -⟩ := all_close h hrun
    have hrunu : u.runPc ≠ .ended := by
      rw [hstay.runPc]
      exact hrun
    have hiu : u.loops[i]? = some l := by
      rw [hstay.loops]
      exact hi
    have hstep : u.step std config (.loop i .go) =
        some ((u.letIn addr l.tls).setLoop i l .top) := by
      rw [step_loop hrunu hiu, hpc]
      exact if_pos (hback ▸ hpos)
    have hgo := @htop ((u.letIn addr l.tls).setLoop i l .top) { l with pc := .top } hrunu
      (getElem?_set_of_some hiu) rfl
    refine ⟨_, u.notifyCalls, (hu.reachable.tail hstep).tail hgo, hstay.runPc, ?_⟩
    change ((u.loops.set i _).set i _) = _
    rw [List.set_set, hstay.loops]
    rfl
  | select | stopped =>
    rw [hpc] at hw
    cases hw

/-- **All loops can come to wait** before the call is made. -/
theorem settle_loops (h : Sound config s) (hpc : s.runPc = .serving)
    (hmax : 0 < maxConn config ∨ ∀ l ∈ s.loops, ∀ addr, l.pc ≠ .acquire addr) :
    ∃ t, Reachable (step std config) s t ∧ t.runPc = .serving ∧
      ∀ l ∈ t.loops, LoopPc.Waits l.pc = true := by
  induction hn : s.loops.countP (fun l => !LoopPc.Waits l.pc) generalizing s with
  | zero =>
    refine ⟨s, .refl s, hpc, fun l hl => ?_⟩
    simpa using List.countP_eq_zero.mp hn l hl
  | succ n ih =>
    obtain ⟨l, hl, hw⟩ : ∃ l ∈ s.loops, (!LoopPc.Waits l.pc) = true :=
      List.countP_pos_iff.mp (by omega)
    obtain ⟨i, hi⟩ := List.getElem?_of_mem hl
    have hrun : s.runPc ≠ .ended := by
      rw [hpc]
      exact nofun
    obtain ⟨u, epoch, hu, hrunPc, hloops⟩ :=
      @loop_reaches_select std config s i l h hrun hi (by simpa using hw) hmax
    have hfewer : u.loops.countP (fun l => !LoopPc.Waits l.pc) = n := by
      have hcount := @countP_set_add _ s.loops i { l with pc := .select epoch } l
        (fun l => !LoopPc.Waits l.pc) hi
      rw [hw, ← hloops] at hcount
      simp only [if_true, LoopPc.Waits, Bool.not_true, Bool.false_eq_true, if_false] at hcount
      simp only [LoopPc.Waits] at hn ⊢
      omega
    have hmaxu : 0 < maxConn config ∨ ∀ l ∈ u.loops, ∀ addr, l.pc ≠ .acquire addr := by
      refine hmax.imp_right fun hno m hm => ?_
      rw [hloops] at hm
      rcases List.mem_or_eq_of_mem_set hm with hm | rfl
      · exact hno m hm
      · exact nofun
    have hsound : Sound config u := by
      obtain ⟨as, has⟩ := hu
      exact Runs.run_invariant (fun _ _ _ hi hs => hi.step hs) h has
    obtain ⟨t, ht, hserving, hall⟩ := ih hsound (hrunPc.trans hpc) hmaxu hfewer
    exact ⟨t, hu.trans ht, hserving, hall⟩

theorem reaches_ended_of_serving (h : Sound config s) (hpc : s.runPc = .serving)
    (hmax : 0 < maxConn config ∨ ∀ l ∈ s.loops, ∀ addr, l.pc ≠ .acquire addr) :
    ∃ t, Reachable (step std config) s t ∧ t.runPc = .ended := by
  obtain ⟨u, hu, hserving, hall⟩ := @settle_loops std config s h hpc hmax
  have hrun : u.runPc ≠ .ended := by
    rw [hserving]
    exact nofun
  have hsound : Sound config u := by
    obtain ⟨as, has⟩ := hu
    exact Runs.run_invariant (fun _ _ _ hi hs => hi.step hs) h has
  have hstep : u.step std config (.run .ctrlC) =
      some { u with runPc := .joining, notifyCalls := u.notifyCalls + 1 } := by
    rw [step, if_neg hrun, hserving]
    rfl
  have hcan : CanReturn config { u with runPc := .joining, notifyCalls := u.notifyCalls + 1 } := by
    intro l hl
    have hw := hall l hl
    cases hpc : l.pc with
    | select epoch => exact Or.inr ⟨epoch, rfl, Nat.lt_succ_of_le (hsound.epochs l hl epoch hpc)⟩
    | stopped => exact Or.inl rfl
    | top | acquire addr =>
      rw [hpc] at hw
      cases hw
  obtain ⟨t, ht, hend⟩ := @reaches_ended_of_woken std config
    { u with runPc := .joining, notifyCalls := u.notifyCalls + 1 } rfl hcan
  exact ⟨t, (hu.tail hstep).trans ht, hend⟩

/-- A loop has let a connection in that there is no permit for. -/
def Starved (i : ℕ) (s : Server) : Prop :=
  (s.runPc = .serving ∨ s.runPc = .joining) ∧
    ∃ l addr, s.loops[i]? = some l ∧ l.pc = .acquire addr

/-- Without permits the loop waits for ever, and `run` for the loop. -/
theorem Starved.step {a : Action} (hmax : maxConn config = 0) (hs : Sound config s)
    (h : Starved i s) (ht : s.step std config a = some t) : Starved i t := by
  obtain ⟨hrun, l, addr, hi, hpc⟩ := h
  have hother : ∀ {j : ℕ} {m : AcceptLoop} {pc : LoopPc}, s.loops[j]? = some m →
      (∀ addr, m.pc ≠ .acquire addr) → (s.loops.set j { m with pc })[i]? = some l := by
    intro j m pc hj hm
    have hij : j ≠ i := by
      rintro rfl
      obtain rfl := Option.some.inj (hi.symm.trans hj)
      exact hm addr hpc
    exact (List.getElem?_set_ne hij).trans hi
  cases stepped ht with
  | ctrlC hserving => exact ⟨Or.inr rfl, l, addr, hi, hpc⟩
  | joined hjoin hstop =>
    rw [hstop l (List.mem_of_getElem? hi)] at hpc
    cases hpc
  | ended hdrain => rcases hrun with hrun | hrun <;> rw [hrun] at hdrain <;> cases hdrain
  | entered hj hm => exact ⟨hrun, l, addr, hother hj (by rw [hm]; exact nofun), hpc⟩
  | accepted hj hm | acceptFailed hj hm =>
    exact ⟨hrun, l, addr, hother hj (by rw [hm]; exact nofun), hpc⟩
  | notified hj hm he => exact ⟨hrun, l, addr, hother hj (by rw [hm]; exact nofun), hpc⟩
  | admitted hj hm ha =>
    have hsum := hs.accounted.permits
    omega
  | reloaded | notReloaded | tlsAccepted | detectedHttp | detectedSocks5 | forwarded
  | connectAnswered | exchanged | responded | handedOver | accepting | dispatchedConnect
  | dispatched | associated | served | relayed | closed | upgradeFailed | tunnelled | udp =>
    exact ⟨hrun, l, addr, hi, hpc⟩

theorem missed_of_not_woken (h : Sound config s) (hl : l ∈ s.loops) (hstop : l.pc ≠ .stopped)
    (hsel : ¬ ∃ epoch, l.pc = .select epoch ∧ epoch < s.notifyCalls) : s.Missed l := by
  cases hpc : l.pc with
  | top => exact Or.inl hpc
  | acquire addr => exact Or.inr (Or.inl ⟨addr, hpc⟩)
  | select epoch =>
    have hle := h.epochs l hl epoch hpc
    have hge : ¬ epoch < s.notifyCalls := fun hlt => hsel ⟨epoch, hpc, hlt⟩
    obtain rfl : epoch = s.notifyCalls := by omega
    exact Or.inr (Or.inr hpc)
  | stopped => exact absurd hpc hstop

theorem canReturn_of_reaches (h : Sound config s) (ht : Reachable (step std config) s t)
    (hend : t.runPc = .ended) : CanReturn config s := by
  obtain ⟨as, has⟩ := ht
  rw [CanReturn]
  split
  · rename_i hserving
    by_contra hno
    obtain ⟨hmax, hacq⟩ := not_or.mp hno
    obtain ⟨l, hl, addr, hpc⟩ : ∃ l ∈ s.loops, ∃ addr, l.pc = .acquire addr := by
      simpa using hacq
    obtain ⟨i, hi⟩ := List.getElem?_of_mem hl
    have hboth := @Runs.run_invariant _ _ (step std config)
      (fun s => Sound config s ∧ Starved i s)
      (fun _ _ _ hi hs => ⟨hi.1.step hs, hi.2.step (Nat.eq_zero_of_not_pos hmax) hi.1 hs⟩)
      _ _ _ ⟨h, Or.inl hserving, l, addr, hi, hpc⟩ has
    rcases hboth.2.1 with hrun | hrun <;> rw [hend] at hrun <;> cases hrun
  · rename_i hjoining
    intro l hl
    by_contra hno
    obtain ⟨hstop, hsel⟩ := not_or.mp hno
    obtain ⟨i, hi⟩ := List.getElem?_of_mem hl
    have hhang : Hangs s i := ⟨hjoining, l, hi, missed_of_not_woken h hl hstop hsel⟩
    have hrun := never_joined hhang has
    rw [hend] at hrun
    cases hrun
  · trivial
  · trivial

end Return

/-- **When shutdown can complete.**  Before the signal it can, unless a loop holds
a connection for a semaphore without permits; while `run` waits for the loops it
can exactly when each has stopped or waits on a `Notified` older than the call;
and from then on it can in any case. -/
theorem can_return_iff {as : List Action} {s : Server}
    (h : Runs.run (step std config) (init config) as = some s) :
    (∃ t, Reachable (step std config) s t ∧ t.runPc = .ended) ↔ CanReturn config s := by
  have hsound : Sound config s := sound_of_reachable ⟨as, h⟩
  constructor
  · rintro ⟨t, ht, hend⟩
    exact canReturn_of_reaches hsound ht hend
  · intro hcan
    cases hpc : s.runPc with
    | serving =>
      rw [CanReturn, hpc] at hcan
      exact reaches_ended_of_serving hsound hpc hcan
    | joining => exact reaches_ended_of_woken hpc hcan
    | draining active => exact reaches_ended_of_draining hpc
    | ended => exact ⟨s, .refl s, hpc⟩

theorem can_return_iff_late :
    ¬ CanReturn smallConfig ((Runs.run (step .plain smallConfig) (init smallConfig)
      lateRun).get rfl) ∧
    ((∃ t, Reachable (step .plain smallConfig) ((Runs.run (step .plain smallConfig)
      (init smallConfig) lateRun).get rfl) t ∧ t.runPc = .ended) ↔
    CanReturn smallConfig ((Runs.run (step .plain smallConfig) (init smallConfig)
      lateRun).get rfl)) := by
  refine ⟨fun h => ?_, can_return_iff (Option.some_get _).symm⟩
  rcases h ⟨false, .select 1⟩ (List.mem_singleton.mpr rfl) with hstop | ⟨epoch, hsel, hlt⟩
  · cases hstop
  · cases hsel
    exact absurd hlt (by decide)

end Server

end Peregrine
