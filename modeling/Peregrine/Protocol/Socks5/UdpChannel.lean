import Peregrine.Protocol.Socks5.UdpAccounting
import Peregrine.Protocol.Socks5.UdpDelivery

/-!
# The relay as a channel

To the targets the relay is a bag of datagrams.  What has come in and parses is in
the bag until it is sent or dropped, and nothing else is sent; but every task runs by
itself, so whatever is in the bag can be sent next, in any order, and the rest lost.
`sends_iff` says that these two are all there is to it.  A datagram is in the bag only
if it can get out again: every target socket is bound to `0.0.0.0:0`, and what cannot
be sent from there (`Surroundings.Reaches`) never is.

The relay does nothing on its own.  A datagram is good for nine steps, a packet from a
target for two and a byte on the control connection for one, and the relay takes no
others (`work_bounded`): once nothing comes in any more, every task and every listener
comes to rest, whoever moves first.
-/

namespace Peregrine

open Table
open Runs (Reachable ReachableAlong)

namespace Relay

/-! ### What lies outside -/

/-- What the resolver may answer, and where a socket bound to the first address can
send to. -/
structure Surroundings where
  answers : (String → Except IoError (List SocketAddr)) → Prop
  able : SocketAddr → SocketAddr → Prop

/-- A lookup ends as the resolver says, and a send succeeds only where the socket can
send to. -/
def Surroundings.Allows (out : Surroundings) (s : Relay) : Action → Prop
  | .task _ (.resolved lookupHost) => out.answers lookupHost
  | .task i (.sent true) => ∀ t target payload socket addr bound, s.tasks[i]? = some t →
    t.pc = .send target payload socket addr → s.boundTo socket = some bound → out.able bound addr
  | _ => True

/-- The target may resolve to an address that a target socket can send to. -/
def Surroundings.Reaches (out : Surroundings) (target : TargetAddr) : Prop :=
  ∃ lookupHost, out.answers lookupHost ∧
    ∃ addr, resolveTargetAddr lookupHost target = .ok addr ∧ out.able targetBind addr

/-- **Reached are the targets that may resolve to an IPv4 address.** -/
theorem Surroundings.reaches_iff {out : Surroundings} (hos : UdpSends out.able)
    {target : TargetAddr} :
    out.Reaches target ↔ ∃ lookupHost, out.answers lookupHost ∧
      ∃ addr, resolveTargetAddr lookupHost target = .ok addr ∧ addr.isV4 = true := by
  simp only [Surroundings.Reaches, hos.targetBind_iff]

/-! ### What is on its way -/

section Bag

variable (out : Surroundings)

open Classical in
/-- What a datagram asks for, if it can be had. -/
noncomputable def Surroundings.wanted (x : SocketAddr × List UInt8) :
    Option (SocketAddr × TargetAddr × List UInt8) :=
  (wantedOf x).filter fun r => out.Reaches r.2.1

open Classical in
/-- What the task may still send. -/
noncomputable def pendingOf (t : PacketTask) : Option (SocketAddr × TargetAddr × List UInt8) :=
  match t.pc with
  | .done => none
  | .send _ _ _ addr => if out.able targetBind addr then wantedOf t.datagram else none
  | _ => out.wanted t.datagram

noncomputable def pending (s : Relay) : List (SocketAddr × TargetAddr × List UInt8) :=
  s.tasks.filterMap (pendingOf out)

end Bag

/-- What a datagram from a client is to the relay. -/
def ofDatagram (x : SocketAddr × Datagram) : SocketAddr × List UInt8 := (x.1, x.2.bytes)

variable {out : Surroundings} {s s' u : Relay} {i : ℕ} {t : PacketTask}
  {r : SocketAddr × TargetAddr × List UInt8}

theorem wantedOf_eq_some {x : SocketAddr × List UInt8} :
    wantedOf x = some r ↔ ∃ q, parseSocks5UdpPacket x.2 = .ok q ∧ r = (x.1, q) := by
  cases hp : parseSocks5UdpPacket x.2 with
  | error e => simp [wantedOf, hp, Except.toOption]
  | ok q => simp [wantedOf, hp, Except.toOption, eq_comm]

theorem Surroundings.wanted_eq_some {x : SocketAddr × List UInt8} :
    out.wanted x = some r ↔ wantedOf x = some r ∧ out.Reaches r.2.1 := by
  simp only [Surroundings.wanted, Option.filter_eq_some_iff, decide_eq_true_eq]

/-! ### Whatever is in the bag can go out -/

/-- The task sends what is asked for and ends; the others stay where they are. -/
def Sends (out : Surroundings) (i : ℕ) (t : PacketTask) (r : SocketAddr × TargetAddr × List UInt8)
    (s : Relay) : Prop :=
  ∃ s', ReachableAlong step out.Allows s s' ∧ s'.running = s.running ∧
    s'.received = s.received ∧ s'.tasks = s.tasks.set i { t with pc := .done } ∧
    s'.sent.map Sent.wanted = s.sent.map Sent.wanted ++ [r]

theorem Sends.of_stepTask {pc pc' : PacketPc} {e : Event} (ht : s.tasks[i]? = some t)
    (hpc : t.pc = pc) (hs : s.stepTask i t pc e = some (u.setTask i t pc'))
    (hallows : out.Allows s (.task i e)) (htasks : u.tasks = s.tasks)
    (hrun : u.running = s.running) (hreceived : u.received = s.received) (hsent : u.sent = s.sent)
    (h : Sends out i { t with pc := pc' } r (u.setTask i t pc')) : Sends out i t r s := by
  obtain ⟨s', hreach, hrun', hreceived', htasks', hsent'⟩ := h
  have hstep : s.step (.task i e) = some (u.setTask i t pc') := by
    subst hpc
    exact Option.bind_eq_some_iff.mpr ⟨t, ht, hs⟩
  refine ⟨s', (ReachableAlong.of_step hallows hstep).trans hreach, hrun'.trans hrun,
    hreceived'.trans hreceived, ?_, ?_⟩
  · rw [htasks', ← htasks]
    exact List.set_set _
  · rw [hsent', ← hsent]
    rfl

variable {target : TargetAddr} {payload : List UInt8} {socket : ℕ}

theorem sends_send {addr : SocketAddr} (ht : s.tasks[i]? = some t)
    (hpc : t.pc = .send target payload socket addr) (hable : out.able targetBind addr) :
    Sends out i t (t.clientAddr, target, payload) s := by
  have hstep : s.step (.task i (.sent true)) =
      some ((s.logSent ⟨socket, t.clientAddr, target, addr, payload⟩).setTask i t .done) := by
    refine Option.bind_eq_some_iff.mpr ⟨t, ht, ?_⟩
    rw [hpc]
    rfl
  have hallows : out.Allows s (.task i (.sent true)) := by
    intro t' target' payload' socket' addr' bound ht' hpc' hbound
    obtain rfl := Option.some.inj (ht.symm.trans ht')
    obtain ⟨-, -, -, rfl⟩ := PacketPc.send.inj (hpc.symm.trans hpc')
    obtain ⟨-, -, rfl⟩ := Option.map_eq_some_iff.mp hbound
    exact hable
  refine ⟨_, ReachableAlong.of_step hallows hstep, rfl, rfl, rfl, ?_⟩
  exact List.map_append

theorem sends_resolve (ht : s.tasks[i]? = some t) (hpc : t.pc = .resolve target payload socket)
    (hreaches : out.Reaches target) : Sends out i t (t.clientAddr, target, payload) s := by
  obtain ⟨lookupHost, hanswers, addr, hr, hable⟩ := hreaches
  have hs : s.stepTask i t (.resolve target payload socket) (.resolved lookupHost) =
      some (s.setTask i t (.send target payload socket addr)) := by
    rw [stepTask, hr]
  refine Sends.of_stepTask ht hpc hs hanswers rfl rfl rfl rfl ?_
  exact @sends_send _ _ i { t with pc := .send target payload socket addr } _ _ _ _
    (getElem?_set_of_some ht) rfl hable

theorem sends_insert (ht : s.tasks[i]? = some t) (hpc : t.pc = .insert target payload socket)
    (hreaches : out.Reaches target) : Sends out i t (t.clientAddr, target, payload) s := by
  have hs : s.stepTask i t (.insert target payload socket) .go =
      some ((s.register t.clientAddr target socket).setTask i t
        (.resolve target payload socket)) := rfl
  refine Sends.of_stepTask ht hpc hs trivial rfl rfl rfl rfl ?_
  exact @sends_resolve _ _ i { t with pc := .resolve target payload socket } _ _ _
    (getElem?_set_of_some ht) rfl hreaches

theorem sends_bind (ht : s.tasks[i]? = some t) (hpc : t.pc = .bind target payload)
    (hreaches : out.Reaches target) : Sends out i t (t.clientAddr, target, payload) s := by
  have hs : s.stepTask i t (.bind target payload) (.bound true) =
      some ((s.bindSocket t.clientAddr).setTask i t
        (.insert target payload s.sockets.length)) := rfl
  refine Sends.of_stepTask ht hpc hs trivial rfl rfl rfl rfl ?_
  exact @sends_insert _ _ i { t with pc := .insert target payload s.sockets.length } _ _ _
    (getElem?_set_of_some ht) rfl hreaches

theorem sends_lookup (ht : s.tasks[i]? = some t) (hpc : t.pc = .lookup target payload)
    (hreaches : out.Reaches target) : Sends out i t (t.clientAddr, target, payload) s := by
  cases hm : s.clientMap t.clientAddr with
  | some socket =>
    have hs : s.stepTask i t (.lookup target payload) .go =
        some (s.setTask i t (.resolve target payload socket)) := by
      rw [stepTask, hm]
    refine Sends.of_stepTask ht hpc hs trivial rfl rfl rfl rfl ?_
    exact @sends_resolve _ _ i { t with pc := .resolve target payload socket } _ _ _
      (getElem?_set_of_some ht) rfl hreaches
  | none =>
    have hs : s.stepTask i t (.lookup target payload) .go =
        some (s.setTask i t (.bind target payload)) := by
      rw [stepTask, hm]
    refine Sends.of_stepTask ht hpc hs trivial rfl rfl rfl rfl ?_
    exact @sends_bind _ _ i { t with pc := .bind target payload } _ _
      (getElem?_set_of_some ht) rfl hreaches

theorem sends_parse (ht : s.tasks[i]? = some t) (hpc : t.pc = .parse)
    (hp : parseSocks5UdpPacket t.packetData = .ok (target, payload))
    (hreaches : out.Reaches target) : Sends out i t (t.clientAddr, target, payload) s := by
  have hs : s.stepTask i t .parse .go = some (s.setTask i t (.lookup target payload)) := by
    rw [stepTask, hp]
  refine Sends.of_stepTask ht hpc hs trivial rfl rfl rfl rfl ?_
  exact @sends_lookup _ _ i { t with pc := .lookup target payload } _ _
    (getElem?_set_of_some ht) rfl hreaches

/-- **Whatever a task may still send, it can send**, wherever it stands. -/
theorem sends_of_pending (o : Owned s) (ht : s.tasks[i]? = some t)
    (hr : pendingOf out t = some r) : Sends out i t r s := by
  have hasked : ∀ q, t.pc.parsed = some q → out.wanted t.datagram = some r →
      (t.clientAddr, q) = r ∧ out.Reaches q.1 := by
    intro q hq hw
    obtain ⟨hw, hreaches⟩ := Surroundings.wanted_eq_some.mp hw
    obtain rfl := Option.some.inj ((o.wantedOf_eq ht hq).symm.trans hw)
    exact ⟨rfl, hreaches⟩
  cases hpc : t.pc with
  | parse =>
    rw [pendingOf, hpc] at hr
    obtain ⟨hw, hreaches⟩ := Surroundings.wanted_eq_some.mp hr
    obtain ⟨⟨target, payload⟩, hp, rfl⟩ := wantedOf_eq_some.mp hw
    exact sends_parse ht hpc hp hreaches
  | lookup target payload =>
    rw [pendingOf, hpc] at hr
    obtain ⟨rfl, hreaches⟩ := hasked (target, payload) (by rw [hpc]; rfl) hr
    exact sends_lookup ht hpc hreaches
  | bind target payload =>
    rw [pendingOf, hpc] at hr
    obtain ⟨rfl, hreaches⟩ := hasked (target, payload) (by rw [hpc]; rfl) hr
    exact sends_bind ht hpc hreaches
  | insert target payload socket =>
    rw [pendingOf, hpc] at hr
    obtain ⟨rfl, hreaches⟩ := hasked (target, payload) (by rw [hpc]; rfl) hr
    exact sends_insert ht hpc hreaches
  | resolve target payload socket =>
    rw [pendingOf, hpc] at hr
    obtain ⟨rfl, hreaches⟩ := hasked (target, payload) (by rw [hpc]; rfl) hr
    exact sends_resolve ht hpc hreaches
  | send target payload socket addr =>
    rw [pendingOf, hpc] at hr
    obtain ⟨hable, hw⟩ := Option.ite_none_right_eq_some.mp hr
    obtain rfl := Option.some.inj
      ((o.wantedOf_eq ht (q := (target, payload)) (by rw [hpc]; rfl)).symm.trans hw)
    exact sends_send ht hpc hable
  | done =>
    rw [pendingOf, hpc] at hr
    cases hr

theorem owned_of_reachable (o : Owned s) (h : Reachable step s s') : Owned s' := by
  obtain ⟨as, has⟩ := h
  exact Runs.run_invariant (fun _ _ _ ho hs => ho.step hs) o has

/-- **The bag can be emptied in any order**, and need not be. -/
theorem sends_all {l : List (SocketAddr × TargetAddr × List UInt8)} (o : Owned s)
    (hl : l.Subperm (s.pending out)) : ∃ s', ReachableAlong step out.Allows s s' ∧
      s'.received = s.received ∧ s'.sent.map Sent.wanted = s.sent.map Sent.wanted ++ l := by
  induction l generalizing s with
  | nil => exact ⟨s, .refl s, rfl, (List.append_nil _).symm⟩
  | cons r l ih =>
    obtain ⟨t, ht, hr⟩ := List.mem_filterMap.mp (hl.subset List.mem_cons_self)
    obtain ⟨i, hi⟩ := List.mem_iff_getElem?.mp ht
    obtain ⟨u, hreach, -, hreceived, htasks, hsent⟩ := sends_of_pending o hi hr
    have hperm : (s.pending out).Perm (r :: u.pending out) := by
      rw [pending, pending, htasks]
      exact filterMap_set_perm hi hr rfl
    have hrest : l.Subperm (u.pending out) := List.subperm_cons r |>.mp (hl.trans hperm.subperm)
    obtain ⟨s', hreach', hreceived', hsent'⟩ :=
      ih (owned_of_reachable o hreach.reachable) hrest
    refine ⟨s', hreach.trans hreach', hreceived'.trans hreceived, ?_⟩
    rw [hsent', hsent, List.append_assoc]
    rfl

/-- **Datagrams go into the bag** as long as the relay runs. -/
theorem receives (hrun : s.running = true) (ds : List (SocketAddr × Datagram)) :
    ∃ s', ReachableAlong step out.Allows s s' ∧ s'.received = s.received ++ ds.map ofDatagram ∧
      s'.sent = s.sent ∧
      s'.pending out = s.pending out ++ ds.filterMap fun d => out.wanted (ofDatagram d) := by
  induction ds generalizing s with
  | nil => exact ⟨s, .refl s, (List.append_nil _).symm, rfl, (List.append_nil _).symm⟩
  | cons d ds ih =>
    have hstep : s.step (.datagram d.1 d.2) = some { s with
        received := s.received ++ [ofDatagram d]
        tasks := s.tasks ++ [⟨d.2.received, d.1, .parse⟩] } := if_pos hrun
    obtain ⟨s', hreach, hreceived, hsent, hpending⟩ := @ih { s with
        received := s.received ++ [ofDatagram d]
        tasks := s.tasks ++ [⟨d.2.received, d.1, .parse⟩] } hrun
    refine ⟨s', (ReachableAlong.of_step trivial hstep).trans hreach, ?_, hsent, ?_⟩
    · rw [hreceived, List.map_cons, List.append_assoc]
      rfl
    · have hnew : pendingOf out ⟨d.2.received, d.1, .parse⟩ = out.wanted (ofDatagram d) := by
        rw [Datagram.received_eq]
        rfl
      rw [hpending, pending, pending, List.filterMap_append, List.append_assoc]
      rw [List.filterMap_cons, List.filterMap_cons, hnew]
      cases out.wanted (ofDatagram d) with
      | none => rfl
      | some r => rfl

/-! ### Nothing else goes out -/

/-- From `s` to `s'` nothing has come out that was not there or has not come in. -/
def Within (out : Surroundings) (s s' : Relay) : Prop :=
  ∀ r, (s'.sent.countP fun x => x.wanted = r) +
      (s'.tasks.countP fun t => pendingOf out t = some r) +
      (s.received.countP fun x => out.wanted x = some r) ≤
    (s.sent.countP fun x => x.wanted = r) + (s.tasks.countP fun t => pendingOf out t = some r) +
      s'.received.countP fun x => out.wanted x = some r

theorem Within.refl (s : Relay) : Within out s s := fun _ => Nat.le_refl _

theorem Within.trans (h : Within out s s') (h' : Within out s' u) : Within out s u := by
  intro r
  have h := h r
  have h' := h' r
  omega

theorem within_setTask (ht : s.tasks[i]? = some t) {pc : PacketPc}
    (hpending : ∀ r, pendingOf out { t with pc } = some r → pendingOf out t = some r) :
    Within out s (s.setTask i t pc) := by
  intro r
  have hle : ((s.setTask i t pc).tasks.countP fun t => pendingOf out t = some r) ≤
      s.tasks.countP fun t => pendingOf out t = some r :=
    countP_set_le ht fun hp => decide_eq_true (hpending r (of_decide_eq_true hp))
  exact Nat.add_le_add_right (Nat.add_le_add_left hle _) _

theorem within_send (ht : s.tasks[i]? = some t) {x : Sent}
    (hx : pendingOf out t = some x.wanted) : Within out s ((s.logSent x).setTask i t .done) := by
  intro r
  have hset := @countP_set_add _ s.tasks i { t with pc := .done } t
    (fun t => pendingOf out t = some r) ht
  have hdone : pendingOf out { t with pc := .done } = none := rfl
  simp only [hx, hdone, Option.some.injEq, reduceCtorEq, decide_eq_true_eq, if_false] at hset
  change (s.sent ++ [x]).countP _ + ((s.tasks.set i { t with pc := .done }).countP _) +
    s.received.countP _ ≤ _ + _ + s.received.countP _
  rw [List.countP_append, List.countP_singleton]
  simp only [decide_eq_true_eq]
  omega

/-- **One step**: only a datagram puts something into the bag. -/
theorem within_step {a : Action} (o : Owned s) (hallows : out.Allows s a)
    (hs : s.step a = some s') : Within out s s' := by
  cases stepped hs with
  | datagram client d =>
    intro r
    have hnew : pendingOf out ⟨d.received, client, .parse⟩ = out.wanted (client, d.bytes) := by
      rw [Datagram.received_eq]
      rfl
    change s.sent.countP _ + (s.tasks ++ [_]).countP _ + s.received.countP _ ≤
      s.sent.countP _ + s.tasks.countP _ + (s.received ++ [_]).countP _
    rw [List.countP_append, List.countP_append, List.countP_singleton, List.countP_singleton, hnew]
    omega
  | control | stop | arrived | broken | delivered | removed => exact Within.refl s
  | parsed ht hpc | missed ht hpc | found ht hpc | bound ht hpc | inserted ht hpc =>
    refine within_setTask ht fun r hr => ?_
    rw [pendingOf, hpc]
    exact hr
  | @resolved i t target payload socket addr lookupHost ht hpc hresolved =>
    have hasks := o.wantedOf_eq ht (q := (target, payload)) (by rw [hpc]; rfl)
    refine within_setTask ht fun r hr => ?_
    obtain ⟨hable, hw⟩ := Option.ite_none_right_eq_some.mp hr
    obtain rfl := Option.some.inj (hasks.symm.trans hw)
    rw [pendingOf, hpc]
    exact Surroundings.wanted_eq_some.mpr ⟨hw, lookupHost, hallows, addr, hresolved, hable⟩
  | ended ht he => exact within_setTask ht nofun
  | @sent i t target payload socket addr ht hpc =>
    have hasks := o.wantedOf_eq ht (q := (target, payload)) (by rw [hpc]; rfl)
    have hbound : s.boundTo socket = some targetBind :=
      Option.map_eq_some_iff.mpr ⟨_, (o.of_task ht).socket socket (by rw [hpc]; rfl), rfl⟩
    have hable := hallows t target payload socket addr targetBind ht hpc hbound
    refine within_send ht ?_
    rw [pendingOf, hpc]
    exact (if_pos hable).trans hasks

theorem within_of_reachable (o : Owned s) (h : ReachableAlong step out.Allows s s') :
    Within out s s' := by
  have hboth : Owned s' ∧ Within out s s' :=
    @ReachableAlong.invariant _ _ step out.Allows (fun u => Owned u ∧ Within out s u) _ _
      (fun _ _ _ hu hallows hs => ⟨hu.1.step hs, hu.2.trans (within_step hu.1 hallows hs)⟩)
      ⟨o, Within.refl s⟩ h
  exact hboth.2

theorem received_of_stopped (hrun : s.running = false) (h : Reachable step s s') :
    s'.received = s.received := by
  obtain ⟨as, has⟩ := h
  have hboth : s'.running = false ∧ s'.received = s.received := by
    refine @Runs.run_invariant _ _ step (fun u => u.running = false ∧ u.received = s.received)
      (fun u a u' hu hs => ?_) _ _ _ ⟨hrun, rfl⟩ has
    cases a with
    | datagram client d =>
      rw [step, hu.1] at hs
      cases hs
    | control | stop =>
      rw [step, hu.1] at hs
      cases hs
    | task i e => cases stepped hs <;> exact hu
    | listener j e => cases stepped hs <;> exact hu
  exact hboth.2

/-- **The relay is a bag and no more.**  From a state it can be in, the datagrams `ds` come in
and `l` goes out to the targets in some run exactly when `l`, in whatever order, is taken from
what was pending and what `ds` asks for, as far as a target socket can send there; and none
come in once it has stopped. -/
theorem sends_iff (out : Surroundings) (h : Reachable step init s)
    {ds : List (SocketAddr × Datagram)}
    {l : List (SocketAddr × TargetAddr × List UInt8)} :
    (∃ s', ReachableAlong step out.Allows s s' ∧ s'.received = s.received ++ ds.map ofDatagram ∧
      s'.sent.map Sent.wanted = s.sent.map Sent.wanted ++ l) ↔
      (s.running = true ∨ ds = []) ∧
        l.Subperm (s.pending out ++ ds.filterMap fun d => out.wanted (ofDatagram d)) := by
  have o := owned_of_reachable owned_init h
  constructor
  · rintro ⟨s', hreach, hreceived, hsent⟩
    constructor
    · cases hrun : s.running with
      | true => exact Or.inl rfl
      | false =>
        rw [received_of_stopped hrun hreach.reachable] at hreceived
        exact Or.inr (List.map_eq_nil_iff.mp (List.self_eq_append_right.mp hreceived))
    · refine List.subperm_ext_iff.mpr fun r _ => ?_
      have hr := within_of_reachable o hreach r
      have hl : (s'.sent.countP fun x => x.wanted = r) =
          (s.sent.countP fun x => x.wanted = r) + l.count r := by
        rw [← count_map, hsent, List.count_append, count_map]
      have hds : (s'.received.countP fun x => out.wanted x = some r) =
          (s.received.countP fun x => out.wanted x = some r) +
            (ds.filterMap fun d => out.wanted (ofDatagram d)).count r := by
        rw [hreceived, List.countP_append, List.countP_map, count_filterMap]
        rfl
      rw [List.count_append, pending, count_filterMap]
      omega
  · rintro ⟨hrun, hl⟩
    have hin : ∃ u, ReachableAlong step out.Allows s u ∧
        u.received = s.received ++ ds.map ofDatagram ∧ u.sent = s.sent ∧
        u.pending out = s.pending out ++ ds.filterMap fun d => out.wanted (ofDatagram d) := by
      rcases hrun with hrun | rfl
      · exact receives hrun ds
      · exact ⟨s, .refl s, (List.append_nil _).symm, rfl, (List.append_nil _).symm⟩
    obtain ⟨u, hreach, hreceived, hsent, hpending⟩ := hin
    rw [← hpending] at hl
    obtain ⟨s', hreach', hreceived', hsent'⟩ :=
      sends_all (owned_of_reachable o hreach.reachable) hl
    refine ⟨s', hreach.trans hreach', hreceived'.trans hreceived, ?_⟩
    rw [hsent', hsent]

def twoDatagrams : List (SocketAddr × Datagram) :=
  let client : SocketAddr := .v4 (.new 192 0 2 1) 40000
  [(client, .ofBytes [0, 0, 0, 1, 192, 0, 2, 53, 0, 53, 7]),
    (client, .ofBytes [0, 0, 0, 1, 192, 0, 2, 53, 0, 53, 8])]

/-- A resolver that may say anything, and sockets that send to their own family. -/
def plainOutside : Surroundings := ⟨fun _ => True, ownFamily⟩

theorem twoDatagrams_wanted :
    (twoDatagrams.filterMap fun d => plainOutside.wanted (ofDatagram d)) =
      twoDatagrams.filterMap fun d => wantedOf (ofDatagram d) := by
  have hreaches : plainOutside.Reaches (.ipv4 (.new 192 0 2 53) 53) :=
    (Surroundings.reaches_iff ownFamily_sends).mpr ⟨fun _ => .ok [], trivial, _, rfl, rfl⟩
  refine List.filterMap_congr fun d hd => ?_
  rcases List.mem_pair.mp hd with rfl | rfl <;>
    exact (Surroundings.wanted_eq_some.mpr ⟨rfl, hreaches⟩).trans rfl

theorem sends_iff_reversed :
    (twoDatagrams.filterMap fun d => wantedOf (ofDatagram d)).length = 2 ∧
    ∃ s', ReachableAlong step plainOutside.Allows init s' ∧
      s'.received = init.received ++ twoDatagrams.map ofDatagram ∧
      s'.sent.map Sent.wanted = init.sent.map Sent.wanted ++
        (twoDatagrams.filterMap fun d => wantedOf (ofDatagram d)).reverse :=
  ⟨by decide, (sends_iff plainOutside (.refl init)).mpr
    ⟨Or.inl rfl, by rw [twoDatagrams_wanted]; exact (List.reverse_perm _).subperm⟩⟩

end Relay

/-! ### Nothing goes on by itself -/

/-- The steps a task may still take, with those of the listener it may spawn. -/
def PacketPc.work : PacketPc → ℕ
  | .parse => 8
  | .lookup _ _ => 7
  | .bind _ _ => 6
  | .insert _ _ _ => 5
  | .resolve _ _ _ => 2
  | .send _ _ _ _ => 1
  | .done => 0

/-- The steps a listener may still take if nothing more arrives. -/
def ListenerPc.work : ListenerPc → ℕ
  | .receive => 2
  | .reply _ _ _ => 3
  | .cleanup => 1
  | .done => 0

namespace Relay

variable {s s' : Relay}

/-- The steps the relay may still take if nothing more comes in. -/
def work (s : Relay) : ℕ :=
  (s.tasks.map fun t => t.pc.work).sum + (s.listeners.map fun l => l.pc.work).sum +
    if s.running then 1 else 0

/-- A byte on the control connection. -/
def Action.isControl : Action → Bool
  | .control => true
  | _ => false

/-- The steps that what has come in is good for. -/
def paid (s : Relay) : ℕ := 9 * s.received.length + 2 * s.arrived.length

theorem work_setTask {i : ℕ} {t : PacketTask} (ht : s.tasks[i]? = some t) (pc : PacketPc) :
    (s.setTask i t pc).work + t.pc.work = s.work + pc.work := by
  have hset : ((s.tasks.set i { t with pc }).map fun t => t.pc.work).sum + t.pc.work =
    (s.tasks.map fun t => t.pc.work).sum + pc.work := sum_map_set_add (fun t => t.pc.work) ht
  change ((s.tasks.set i { t with pc }).map _).sum + (s.listeners.map _).sum +
    (if s.running then 1 else 0) + t.pc.work = _
  rw [work]
  omega

theorem work_setListener {j : ℕ} {l : Listener} (hl : s.listeners[j]? = some l) (pc : ListenerPc) :
    (s.setListener j l pc).work + l.pc.work = s.work + pc.work := by
  have hset : ((s.listeners.set j { l with pc }).map fun l => l.pc.work).sum + l.pc.work =
    (s.listeners.map fun l => l.pc.work).sum + pc.work := sum_map_set_add (fun l => l.pc.work) hl
  change (s.tasks.map _).sum + ((s.listeners.set j { l with pc }).map _).sum +
    (if s.running then 1 else 0) + l.pc.work = _
  rw [work]
  omega

theorem work_register (client : SocketAddr) (target : TargetAddr) (socket : ℕ) :
    (s.register client target socket).work = s.work + 2 := by
  change (s.tasks.map _).sum + ((s.listeners ++ [_]).map _).sum + (if s.running then 1 else 0) = _
  rw [sum_map_concat, work]
  show _ + (_ + 2) + _ = _
  omega

theorem work_stepTask {i : ℕ} {t : PacketTask} {pc : PacketPc} {e : Event}
    (ht : s.tasks[i]? = some t) (hpc : t.pc = pc) (hs : s.stepTask i t pc e = some s') :
    s'.work + 1 ≤ s.work ∧ s'.paid = s.paid := by
  have moved : ∀ {u : Relay} {next : PacketPc}, u.tasks = s.tasks → u.paid = s.paid →
      u.work + next.work + 1 ≤ s.work + pc.work →
      (u.setTask i t next).work + 1 ≤ s.work ∧ (u.setTask i t next).paid = s.paid := by
    intro u next htasks hpaid hle
    have hset := @work_setTask u i t (by rw [htasks]; exact ht) next
    rw [hpc] at hset
    exact ⟨by omega, hpaid⟩
  unfold stepTask at hs
  split at hs
  · split at hs
    · cases hs
      exact moved rfl rfl (Nat.le_refl _)
    · cases hs
      exact moved rfl rfl (Nat.add_le_add_left (by decide : 0 + 1 ≤ 8) s.work)
  · split at hs
    · cases hs
      exact moved rfl rfl (Nat.add_le_add_left (by decide : 2 + 1 ≤ 7) s.work)
    · cases hs
      exact moved rfl rfl (Nat.le_refl _)
  · split at hs
    · cases hs
      exact moved rfl rfl (Nat.le_refl _)
    · cases hs
      exact moved rfl rfl (Nat.add_le_add_left (by decide : 0 + 1 ≤ 6) s.work)
  · cases hs
    refine moved rfl rfl ?_
    rw [work_register]
    exact Nat.le_refl _
  · split at hs
    · cases hs
      exact moved rfl rfl (Nat.le_refl _)
    · cases hs
      exact moved rfl rfl (Nat.add_le_add_left (by decide : 0 + 1 ≤ 2) s.work)
  · split at hs
    · cases hs
      exact moved rfl rfl (Nat.le_refl _)
    · cases hs
      exact moved rfl rfl (Nat.le_refl _)
  · cases hs

theorem work_stepListener {j : ℕ} {l : Listener} {pc : ListenerPc} {e : Event}
    (hl : s.listeners[j]? = some l) (hpc : l.pc = pc) (hs : s.stepListener j l pc e = some s') :
    s'.work + s.paid + 1 ≤ s.work + s'.paid := by
  have moved : ∀ {u : Relay} {next : ListenerPc}, u.listeners = s.listeners → u.work = s.work →
      next.work + s.paid + 1 ≤ pc.work + u.paid →
      (u.setListener j l next).work + s.paid + 1 ≤ s.work + (u.setListener j l next).paid := by
    intro u next hlisteners hwork hle
    have hset := @work_setListener u j l (by rw [hlisteners]; exact hl) next
    rw [hpc] at hset
    change _ ≤ s.work + u.paid
    omega
  unfold stepListener at hs
  split at hs
  · split at hs
    · cases hs
      refine moved rfl rfl ?_
      rw [paid, paid, logArrival, List.length_append, List.length_singleton]
      simp only [ListenerPc.work]
      omega
    · rename_i hb
      cases hb
  · cases hs
    refine moved rfl rfl ?_
    simp only [ListenerPc.work]
    omega
  · split at hs
    · cases hs
      refine moved rfl rfl ?_
      show 2 + s.paid + 1 ≤ 3 + s.paid
      omega
    · cases hs
      refine moved rfl rfl ?_
      simp only [ListenerPc.work]
      omega
  · cases hs
    refine moved rfl rfl ?_
    show 0 + s.paid + 1 ≤ 1 + s.paid
    omega
  · cases hs

/-- **Every step is paid for**, whoever takes it. -/
theorem work_step {a : Action} (hs : s.step a = some s') :
    s'.work + s.paid + 1 ≤ s.work + s'.paid + if a.isControl then 1 else 0 := by
  cases a with
  | datagram client d =>
    by_cases hrun : s.running = true
    · rw [step, if_pos hrun] at hs
      cases hs
      show ((s.tasks ++ [_]).map fun t : PacketTask => t.pc.work).sum + (s.listeners.map _).sum +
        (if s.running then 1 else 0) + s.paid + 1 ≤
          s.work + (9 * (s.received ++ [_]).length + 2 * s.arrived.length) + 0
      rw [sum_map_concat, work, paid, List.length_append, List.length_singleton]
      simp only [PacketPc.work]
      omega
    · rw [step, if_neg hrun] at hs
      cases hs
  | control =>
    by_cases hrun : s.running = true
    · rw [step, if_pos hrun] at hs
      cases hs
      exact Nat.le_refl _
    · rw [step, if_neg hrun] at hs
      cases hs
  | stop =>
    by_cases hrun : s.running = true
    · rw [step, if_pos hrun] at hs
      cases hs
      show (s.tasks.map fun t => t.pc.work).sum + (s.listeners.map fun l => l.pc.work).sum + 0 +
        s.paid + 1 ≤ s.work + s.paid + 0
      rw [work, if_pos hrun]
      omega
    · rw [step, if_neg hrun] at hs
      cases hs
  | task i e =>
    obtain ⟨t, ht, hs⟩ := Option.bind_eq_some_iff.mp hs
    obtain ⟨hwork, hpaid⟩ := work_stepTask ht rfl hs
    rw [hpaid]
    omega
  | listener j e =>
    obtain ⟨l, hl, hs⟩ := Option.bind_eq_some_iff.mp hs
    exact Nat.le_add_right_of_le (work_stepListener hl rfl hs)

theorem work_run {as : List Action} (h : Runs.run step s as = some s') :
    as.length + s'.work + s.paid ≤ s.work + s'.paid + as.countP Action.isControl := by
  induction as generalizing s with
  | nil =>
    cases h
    rw [List.length_nil]
    omega
  | cons a as ih =>
    obtain ⟨u, hu, h⟩ := Runs.run_cons_some h
    have hstep := work_step hu
    have hrest := ih h
    rw [List.length_cons, List.countP_cons]
    omega

/-- **The relay does nothing on its own.**  In every run a datagram costs nine steps at most,
a packet from a target two and a byte on the control connection one, and stopping is one more;
so from every state the relay gets into, every schedule ends that lets nothing more in. -/
theorem work_bounded {as : List Action} (h : Runs.run step init as = some s) :
    as.length ≤
      9 * s.received.length + 2 * s.arrived.length + as.countP Action.isControl + 1 := by
  have hrun := work_run h
  have hwork : init.work = 1 := rfl
  have hpaid : init.paid = 0 := rfl
  rw [hwork, hpaid, paid] at hrun
  omega

theorem work_bounded_echo :
    echoRun.length = 9 ∧
    echoRun.length ≤ 9 * echoEnd.received.length + 2 * echoEnd.arrived.length +
      echoRun.countP Action.isControl + 1 :=
  ⟨rfl, work_bounded (Option.some_get echoRun_runs).symm⟩

end Relay

end Peregrine
