import Peregrine.Lib.Table
import Peregrine.Protocol.Socks5.UdpOwnership

/-!
# One datagram, one send

What becomes of a datagram that parses: its task gets hold of a socket, resolves the
target, and hands the payload to `send_to` once, addressed to what was resolved
(`Traced`, which every run keeps whatever runs beside the task).  A client without an
entry needs a new socket, and where it cannot be bound the task ends there.  The
socket is bound to `0.0.0.0:0` like every target socket, before the target is resolved.
`forwarded_iff` says what follows: the datagram can go out exactly if no bind has failed
and the target resolves to an IPv4 address.
-/

namespace Peregrine

open Table

/-- A call of a `handle_udp_packet` task that has returned. -/
inductive TaskCall
  /-- `UdpSocket::bind`. -/
  | bound (ok : Bool)
  /-- `resolve_target_addr`. -/
  | resolved (r : Except ProxyError SocketAddr)
  /-- `send_to`, whatever its outcome. -/
  | handed (x : Sent)

/-- The datagram that was handed on with the call. -/
def TaskCall.datagram : TaskCall → Option Sent
  | .handed x => some x
  | _ => none

/-- The calls that return with a step of a task. -/
def PacketPc.calls (client : SocketAddr) : PacketPc → Relay.Event → List TaskCall
  | .bind _ _, .bound ok => [.bound ok]
  | .resolve target _ _, .resolved lookupHost => [.resolved (resolveTargetAddr lookupHost target)]
  | .send target payload socket addr, .sent _ => [.handed ⟨socket, client, target, addr, payload⟩]
  | _, _ => []

@[simp] theorem PacketPc.calls_go (client : SocketAddr) (pc : PacketPc) :
    pc.calls client .go = [] := by
  cases pc <;> rfl

def SocketAddr.isV4 : SocketAddr → Bool
  | .v4 .. => true
  | .v6 .. => false

/-- What is asked of the operating system: which addresses a UDP socket can send
to, given the address it is bound to. -/
structure UdpSends (able : SocketAddr → SocketAddr → Prop) : Prop where
  v4_v4 : ∀ ip port ip' port', able (.v4 ip port) (.v4 ip' port')
  v4_v6 : ∀ ip port ip' port' flowinfo scopeId,
    ¬ able (.v4 ip port) (.v6 ip' port' flowinfo scopeId)

/-- `"0.0.0.0:0"`, which every target socket is bound to. -/
def targetBind : SocketAddr := .v4 (.new 0 0 0 0) 0

theorem UdpSends.targetBind_iff {able : SocketAddr → SocketAddr → Prop} (hos : UdpSends able)
    {addr : SocketAddr} : able targetBind addr ↔ addr.isV4 = true := by
  cases addr with
  | v4 ip port => exact iff_of_true (hos.v4_v4 _ _ _ _) rfl
  | v6 ip port flowinfo scopeId => exact iff_of_false (hos.v4_v6 _ _ _ _ _ _) Bool.false_ne_true

namespace Relay

/-- The calls of the task `i` that return with an action. -/
def callsOf (i : ℕ) (s : Relay) : Action → List TaskCall
  | .task j e =>
    if j = i then ((s.tasks[i]?).map fun t => t.pc.calls t.clientAddr e).getD [] else []
  | _ => []

def boundTo (s : Relay) (socket : ℕ) : Option SocketAddr :=
  (s.sockets[socket]?).map fun _ => targetBind

/-- **The datagram has been forwarded**: it was handed on once, with this payload,
for this address, to a socket that can send there. -/
def Forwarded (able : SocketAddr → SocketAddr → Prop) (s : Relay) (calls : List TaskCall)
    (payload : List UInt8) (addr : SocketAddr) : Prop :=
  ∃ x, calls.filterMap TaskCall.datagram = [x] ∧ x.payload = payload ∧ x.addr = addr ∧
    ∃ bound, s.boundTo x.socket = some bound ∧ able bound addr

/-! ### The calls of a task -/

/-- The calls of a task that has got hold of a socket, its client's or a new one. -/
def GotSocket (calls : List TaskCall) : Prop := calls = [] ∨ calls = [.bound true]

/-- The calls of a task for these bytes that has ended; `n` sockets have been bound. -/
inductive Ended (n : ℕ) (data : List UInt8) : List TaskCall → Prop
  | unparsed (hp : ∀ q, parseSocks5UdpPacket data ≠ .ok q) : Ended n data []
  | refused : Ended n data [.bound false]
  | unresolved {calls : List TaskCall} {e : ProxyError} (hg : GotSocket calls) :
    Ended n data (calls ++ [.resolved (.error e)])
  | sent {calls : List TaskCall} {x : Sent} (hg : GotSocket calls)
    (hp : parseSocks5UdpPacket data = .ok (x.target, x.payload)) (hs : x.socket < n) :
    Ended n data (calls ++ [.resolved (.ok x.addr), .handed x])

/-- The calls a task for these bytes has made, by where it stands. -/
def Traced (n : ℕ) (data : List UInt8) (calls : List TaskCall) : PacketPc → Prop
  | .parse | .lookup _ _ | .bind _ _ => calls = []
  | .insert _ _ _ | .resolve _ _ _ => GotSocket calls
  | .send _ _ _ addr => ∃ got, GotSocket got ∧ calls = got ++ [.resolved (.ok addr)]
  | .done => Ended n data calls

section Traced

variable {n n' : ℕ} {data : List UInt8} {calls : List TaskCall} {pc : PacketPc}

theorem Ended.mono (h : Ended n data calls) (hn : n ≤ n') : Ended n' data calls := by
  cases h with
  | unparsed hp => exact .unparsed hp
  | refused => exact .refused
  | unresolved hg => exact .unresolved hg
  | sent hg hp hs => exact .sent hg hp (Nat.lt_of_lt_of_le hs hn)

theorem Traced.mono (h : Traced n data calls pc) (hn : n ≤ n') : Traced n' data calls pc := by
  cases pc with
  | done => exact Ended.mono h hn
  | _ => exact h

theorem GotSocket.not_refused (hg : GotSocket calls) : .bound false ∉ calls := by
  rcases hg with rfl | rfl <;> simp

theorem GotSocket.filterMap_datagram (hg : GotSocket calls) :
    calls.filterMap TaskCall.datagram = [] := by
  rcases hg with rfl | rfl <;> rfl

end Traced

/-- **A step of the task itself** adds the call that returns with it. -/
theorem traced_stepTask {s s' : Relay} {i : ℕ} {t : PacketTask} {pc : PacketPc} {e : Event}
    {calls : List TaskCall} (o : Owned s) (ht : s.tasks[i]? = some t) (hpc : t.pc = pc)
    (h : Traced s.sockets.length t.packetData calls pc) (hs : s.stepTask i t pc e = some s') :
    ∃ pc', s'.tasks[i]? = some { t with pc := pc' } ∧
      Traced s'.sockets.length t.packetData (calls ++ pc.calls t.clientAddr e) pc' := by
  unfold stepTask at hs
  split at hs
  · obtain rfl : calls = [] := h
    split at hs
    · cases hs
      exact ⟨_, getElem?_set_of_some ht, rfl⟩
    · rename_i hp
      cases hs
      exact ⟨_, getElem?_set_of_some ht, .unparsed fun q hq => nomatch hp.symm.trans hq⟩
  · obtain rfl : calls = [] := h
    split at hs
    · cases hs
      exact ⟨_, getElem?_set_of_some ht, Or.inl rfl⟩
    · cases hs
      exact ⟨_, getElem?_set_of_some ht, rfl⟩
  · obtain rfl : calls = [] := h
    rename_i ok
    cases ok with
    | true =>
      cases hs
      exact ⟨_, getElem?_set_of_some ht, Or.inr rfl⟩
    | false =>
      cases hs
      exact ⟨_, getElem?_set_of_some ht, .refused⟩
  · cases hs
    refine ⟨_, getElem?_set_of_some ht, ?_⟩
    rw [PacketPc.calls_go, List.append_nil]
    exact h
  · rename_i target payload socket lookupHost
    split at hs
    · rename_i addr hr
      cases hs
      refine ⟨_, getElem?_set_of_some ht, calls, h, ?_⟩
      rw [PacketPc.calls, hr]
    · rename_i e hr
      cases hs
      refine ⟨_, getElem?_set_of_some ht, ?_⟩
      rw [PacketPc.calls, hr]
      exact .unresolved h
  · obtain ⟨got, hg, rfl⟩ := h
    have hparsed := (o.of_task ht).parsed _ (by rw [hpc]; rfl)
    obtain ⟨hlt, -⟩ := List.getElem?_eq_some_iff.mp ((o.of_task ht).socket _ (by rw [hpc]; rfl))
    rw [List.append_assoc]
    -- the payload has been handed on, whether the call has failed or not
    split at hs <;> cases hs <;>
      exact ⟨_, getElem?_set_of_some ht, @Ended.sent _ _ got ⟨_, _, _, _, _⟩ hg hparsed hlt⟩
  · cases hs

/-- The task `i` is traced, and has made no call before it is spawned. -/
structure TracedTask (i : ℕ) (s : Relay) (calls : List TaskCall) : Prop where
  spawned : ∀ t, s.tasks[i]? = some t → Traced s.sockets.length t.packetData calls t.pc
  unspawned : s.tasks[i]? = none → calls = []

theorem sockets_grow {s s' : Relay} {a : Action} (hs : s.step a = some s') :
    s.sockets.length ≤ s'.sockets.length := by
  cases stepped hs with
  | @bound i t target payload ht hpc =>
    exact (Nat.le_succ _).trans (@List.length_append _ s.sockets [t.clientAddr]).ge
  | _ => exact Nat.le_refl _

theorem task_of_step {s s' : Relay} {a : Action} {i : ℕ} (ha : ∀ e, a ≠ .task i e)
    (hs : s.step a = some s') : s'.tasks[i]? = s.tasks[i]? ∨
      s.tasks[i]? = none ∧ ∃ t, s'.tasks[i]? = some t ∧ t.pc = .parse := by
  have hset : ∀ {j : ℕ} {e : Event} {t : PacketTask}, Action.task j e = a →
      (s.tasks.set j t)[i]? = s.tasks[i]? := by
    rintro j e t rfl
    exact List.getElem?_set_ne fun hj => ha e (by rw [hj])
  cases stepped hs with
  | datagram client d =>
    rcases Nat.lt_trichotomy i s.tasks.length with hi | rfl | hi
    · exact Or.inl (List.getElem?_append_left hi)
    · exact Or.inr ⟨List.getElem?_eq_none (Nat.le_refl _), _, List.getElem?_concat_length, rfl⟩
    · left
      rw [List.getElem?_eq_none (Nat.le_of_lt hi), List.getElem?_eq_none]
      rw [List.length_append]
      exact hi
  | parsed | ended | found | missed | bound | inserted | resolved | sent => exact Or.inl (hset rfl)
  | control | stop | arrived | broken | delivered | removed => exact Or.inl rfl

/-- **Every step keeps the task traced.** -/
theorem TracedTask.step {i : ℕ} {x x' : Relay × List TaskCall} {a : Action} (o : Owned x.1)
    (h : TracedTask i x.1 x.2) (hs : Runs.logged Relay.step (callsOf i) x a = some x') :
    TracedTask i x'.1 x'.2 := by
  obtain ⟨s', hs', rfl⟩ := Runs.logged_eq_some.mp hs
  by_cases ha : ∃ e, a = .task i e
  · obtain ⟨e, rfl⟩ := ha
    obtain ⟨t, ht, hstep⟩ := Option.bind_eq_some_iff.mp hs'
    obtain ⟨pc', ht', htr⟩ := traced_stepTask o ht rfl (h.spawned t ht) hstep
    have hcalls : callsOf i x.1 (.task i e) = t.pc.calls t.clientAddr e := by
      rw [callsOf, if_pos rfl, ht, Option.map_some, Option.getD_some]
    refine ⟨fun u hu => ?_, fun hnone => ?_⟩
    · obtain rfl := Option.some.inj (ht'.symm.trans hu)
      rw [hcalls]
      exact htr
    · cases ht'.symm.trans hnone
  · have hcalls : callsOf i x.1 a = [] := by
      unfold callsOf
      split
      · rename_i j e
        exact if_neg fun hj => ha ⟨e, by rw [hj]⟩
      · rfl
    have hgrow := sockets_grow hs'
    rw [hcalls, List.append_nil]
    rcases task_of_step (fun e he => ha ⟨e, he⟩) hs' with heq | ⟨hnone, u, hu, hpc⟩
    · exact ⟨fun t ht => (h.spawned t (heq.symm.trans ht)).mono hgrow,
        fun hnone => h.unspawned (heq.symm.trans hnone)⟩
    · rw [h.unspawned hnone]
      refine ⟨fun t ht => ?_, fun hnone' => ?_⟩
      · obtain rfl := Option.some.inj (hu.symm.trans ht)
        rw [hpc]
        rfl
      · cases hu.symm.trans hnone'

/-- **Every run traces every task.** -/
theorem tracedTask_of_run {i : ℕ} {as : List Action} {s : Relay} {calls : List TaskCall}
    (h : Runs.run (Runs.logged step (callsOf i)) (init, []) as = some (s, calls)) :
    Owned s ∧ TracedTask i s calls := by
  have hinit : Owned init ∧ TracedTask i init [] :=
    ⟨owned_init, fun _ ht => absurd ht (by rw [init]; exact nofun), fun _ => rfl⟩
  exact @Runs.run_invariant _ _ (Runs.logged step (callsOf i))
    (fun x => Owned x.1 ∧ TracedTask i x.1 x.2)
    (fun x a x' hx hs => by
      obtain ⟨s', hs', rfl⟩ := Runs.logged_eq_some.mp hs
      exact ⟨hx.1.step hs', TracedTask.step hx.1 hx.2 hs⟩) _ _ _ hinit h

/-! ### A task by itself -/

/-- Within `n` steps of its own the task `i` gets to its end, with calls as `Q` asks. -/
def Finishes (i : ℕ) (data : List UInt8) (Q : List TaskCall → Prop) (n : ℕ)
    (x : Relay × List TaskCall) : Prop :=
  ∃ bs s calls t, bs.length ≤ n ∧ (∀ b ∈ bs, ∃ e, b = .task i e) ∧
    Runs.run (Runs.logged step (callsOf i)) x bs = some (s, calls) ∧ s.tasks[i]? = some t ∧
    t.packetData = data ∧ t.pc = .done ∧ Q calls

section Finishes

variable {i n : ℕ} {s s' : Relay} {t : PacketTask} {calls : List TaskCall} {target : TargetAddr}
  {payload : List UInt8} {socket : ℕ} {addr : SocketAddr} {Q : List TaskCall → Prop} {ok : Bool}
  {lookupHost : String → Except IoError (List SocketAddr)}

theorem finishes_done (ht : s.tasks[i]? = some t) (hpc : t.pc = .done) (hq : Q calls) :
    Finishes i t.packetData Q 0 (s, calls) :=
  ⟨[], s, calls, t, Nat.le_refl _, fun _ hb => absurd hb List.not_mem_nil, rfl, ht, rfl, hpc, hq⟩

theorem Finishes.of_stepTask {data : List UInt8} {pc : PacketPc} {e : Event}
    (ht : s.tasks[i]? = some t) (hpc : t.pc = pc) (hs : s.stepTask i t pc e = some s')
    (h : Finishes i data Q n (s', calls ++ pc.calls t.clientAddr e)) :
    Finishes i data Q (n + 1) (s, calls) := by
  subst hpc
  obtain ⟨bs, u, calls', t', hlen, hown, hrun, hend⟩ := h
  have hstep : Runs.logged step (callsOf i) (s, calls) (.task i e) =
      some (s', calls ++ t.pc.calls t.clientAddr e) := by
    refine Runs.logged_eq_some.mpr ⟨s', Option.bind_eq_some_iff.mpr ⟨t, ht, hs⟩, ?_⟩
    rw [callsOf, if_pos rfl, ht, Option.map_some, Option.getD_some]
  refine ⟨.task i e :: bs, u, calls', t', Nat.succ_le_succ hlen, ?_, ?_, hend⟩
  · exact List.forall_mem_cons.mpr ⟨⟨e, rfl⟩, hown⟩
  · rw [Runs.run_cons, hstep]
    exact hrun

theorem Finishes.mono {data : List UInt8} {m : ℕ} {x : Relay × List TaskCall}
    (h : Finishes i data Q n x) (hn : n ≤ m) : Finishes i data Q m x := by
  obtain ⟨bs, u, calls', t', hlen, hrest⟩ := h
  exact ⟨bs, u, calls', t', hlen.trans hn, hrest⟩

theorem finishes_resolve (ht : s.tasks[i]? = some t) (hpc : t.pc = .resolve target payload socket)
    (hr : resolveTargetAddr lookupHost target = .ok addr)
    (hq : ∀ x, Q (calls ++ [.resolved (.ok addr), .handed x])) :
    Finishes i t.packetData Q 2 (s, calls) := by
  have hs : s.stepTask i t (.resolve target payload socket) (.resolved lookupHost) =
      some (s.setTask i t (.send target payload socket addr)) := by
    rw [stepTask, hr]
  refine Finishes.of_stepTask ht hpc hs ?_
  have hsend := getElem?_set_of_some (x := { t with pc := .send target payload socket addr }) ht
  refine Finishes.of_stepTask hsend rfl (e := .sent false) rfl ?_
  refine finishes_done (t := { t with pc := .done }) (getElem?_set_of_some hsend) rfl ?_
  rw [PacketPc.calls, hr, List.append_assoc]
  exact hq _

theorem finishes_lookup (ht : s.tasks[i]? = some t) (hpc : t.pc = .lookup target payload)
    (hr : resolveTargetAddr lookupHost target = .ok addr)
    (hfound : s.clientMap t.clientAddr ≠ none →
      ∀ x, Q (calls ++ [.resolved (.ok addr), .handed x]))
    (hbound : s.clientMap t.clientAddr = none → ok = true →
      ∀ x, Q (calls ++ [.bound true, .resolved (.ok addr), .handed x]))
    (hrefused : s.clientMap t.clientAddr = none → ok = false → Q (calls ++ [.bound false])) :
    Finishes i t.packetData Q 5 (s, calls) := by
  cases hm : s.clientMap t.clientAddr with
  | some socket =>
    have hs : s.stepTask i t (.lookup target payload) .go =
        some (s.setTask i t (.resolve target payload socket)) := by
      rw [stepTask, hm]
    refine (Finishes.of_stepTask ht hpc hs ?_).mono (by decide : 3 ≤ 5)
    refine finishes_resolve (t := { t with pc := .resolve target payload socket })
      (getElem?_set_of_some ht) rfl hr ?_
    rw [PacketPc.calls_go, List.append_nil]
    exact hfound (by rw [hm]; exact Option.some_ne_none socket)
  | none =>
    have hs : s.stepTask i t (.lookup target payload) .go =
        some (s.setTask i t (.bind target payload)) := by
      rw [stepTask, hm]
    have hbind := getElem?_set_of_some (x := { t with pc := .bind target payload }) ht
    cases ok with
    | false =>
      refine (Finishes.of_stepTask ht hpc hs ?_).mono (by decide : 2 ≤ 5)
      refine Finishes.of_stepTask hbind rfl (e := .bound false) rfl ?_
      refine finishes_done (t := { t with pc := .done }) (getElem?_set_of_some hbind) rfl ?_
      rw [PacketPc.calls_go, List.append_nil]
      exact hrefused hm rfl
    | true =>
      refine Finishes.of_stepTask ht hpc hs ?_
      refine Finishes.of_stepTask hbind rfl (e := .bound true) rfl ?_
      have hinsert := getElem?_set_of_some
        (x := { t with pc := .insert target payload s.sockets.length }) hbind
      refine Finishes.of_stepTask hinsert rfl (e := .go) rfl ?_
      refine finishes_resolve (t := { t with pc := .resolve target payload s.sockets.length })
        (getElem?_set_of_some hinsert) rfl hr fun x => ?_
      rw [PacketPc.calls_go, PacketPc.calls_go, List.append_nil, List.append_nil, PacketPc.calls,
        List.append_assoc]
      exact hbound hm rfl x

/-- **A datagram that parses is dealt with** in six steps of its task at most, whatever the
bind comes to. -/
theorem finishes_parse (ht : s.tasks[i]? = some t) (hpc : t.pc = .parse)
    (hp : parseSocks5UdpPacket t.packetData = .ok (target, payload))
    (hr : resolveTargetAddr lookupHost target = .ok addr)
    (hfound : s.clientMap t.clientAddr ≠ none →
      ∀ x, Q (calls ++ [.resolved (.ok addr), .handed x]))
    (hbound : s.clientMap t.clientAddr = none → ok = true →
      ∀ x, Q (calls ++ [.bound true, .resolved (.ok addr), .handed x]))
    (hrefused : s.clientMap t.clientAddr = none → ok = false → Q (calls ++ [.bound false])) :
    Finishes i t.packetData Q 6 (s, calls) := by
  have hs : s.stepTask i t .parse .go = some (s.setTask i t (.lookup target payload)) := by
    rw [stepTask, hp]
  refine Finishes.of_stepTask ht hpc hs ?_
  rw [PacketPc.calls_go, List.append_nil]
  exact finishes_lookup (t := { t with pc := .lookup target payload })
    (getElem?_set_of_some ht) rfl hr hfound hbound hrefused

end Finishes

/-! ### Where a datagram can go -/

theorem forwarded_of_ended {able : SocketAddr → SocketAddr → Prop} (hos : UdpSends able)
    {s : Relay} {data : List UInt8} {calls : List TaskCall} {target : TargetAddr}
    {payload : List UInt8} {addr : SocketAddr} (h : Ended s.sockets.length data calls)
    (hp : parseSocks5UdpPacket data = .ok (target, payload))
    (haddr : ∀ r, .resolved r ∈ calls → r = .ok addr) :
    Forwarded able s calls payload addr ↔ .bound false ∉ calls ∧ addr.isV4 = true := by
  cases h with
  | unparsed hno => exact absurd hp (hno _)
  | refused =>
    refine iff_of_false ?_ fun h => h.1 List.mem_cons_self
    rintro ⟨x, hx, -⟩
    cases hx
  | unresolved hg => cases haddr _ (List.mem_append_right _ List.mem_cons_self)
  | @sent got x hg hx hlt =>
    obtain rfl := Except.ok.inj (haddr _ (List.mem_append_right _ List.mem_cons_self))
    obtain ⟨-, rfl⟩ := Prod.mk.inj (Except.ok.inj (hx.symm.trans hp))
    have hbound : s.boundTo x.socket = some targetBind := by
      rw [boundTo, List.getElem?_eq_getElem hlt, Option.map_some]
    have hhanded : (got ++ [TaskCall.resolved (.ok x.addr), .handed x]).filterMap
        TaskCall.datagram = [x] := by
      rw [List.filterMap_append, hg.filterMap_datagram]
      rfl
    have hno : .bound false ∉ got ++ [TaskCall.resolved (.ok x.addr), .handed x] := by
      rw [List.mem_append]
      exact fun h => h.elim hg.not_refused (by simp)
    rw [← hos.targetBind_iff, and_iff_right hno, Forwarded, hhanded]
    constructor
    · rintro ⟨y, hy, -, -, bound, hb, hable⟩
      obtain rfl := (List.cons.inj hy).1
      obtain rfl := Option.some.inj (hbound.symm.trans hb)
      exact hable
    · exact fun hable => ⟨x, rfl, rfl, rfl, _, hbound, hable⟩

/-- **The datagram can go out exactly if no bind has failed and its target resolves to an
IPv4 address.**  Whatever runs beside it, a task that has ended, and for which
`resolve_target_addr` returns `addr` if it gets so far, has handed the payload on once, for that
address, through a socket that can send there, exactly in that case.  Every datagram that
parses comes to that, from every state, whatever its bind and its target come to; and a bind
fails only for a client without an entry. -/
theorem forwarded_iff {able : SocketAddr → SocketAddr → Prop} (hos : UdpSends able) :
    (∀ i as s calls, Runs.run (Runs.logged step (callsOf i)) (init, []) as = some (s, calls) →
      ∀ t target payload addr, s.tasks[i]? = some t → t.pc = .done →
        parseSocks5UdpPacket t.packetData = .ok (target, payload) →
        (∀ r, .resolved r ∈ calls → r = .ok addr) →
          (Forwarded able s calls payload addr ↔ .bound false ∉ calls ∧ addr.isV4 = true)) ∧
    ∀ as s, Runs.run step init as = some s → s.running = true →
      ∀ client d target payload lookupHost addr ok,
        parseSocks5UdpPacket d.bytes = .ok (target, payload) →
        resolveTargetAddr lookupHost target = .ok addr →
        ∃ bs s' calls t, (∀ b ∈ bs, ∃ e, b = .task s.tasks.length e) ∧
          Runs.run (Runs.logged step (callsOf s.tasks.length)) (init, [])
            (as ++ .datagram client d :: bs) = some (s', calls) ∧
          s'.tasks[s.tasks.length]? = some t ∧ t.packetData = d.bytes ∧ t.pc = .done ∧
          (∀ b, .bound b ∈ calls → b = ok) ∧ (∀ r, .resolved r ∈ calls → r = .ok addr) ∧
          (.bound false ∉ calls ↔ s.clientMap client ≠ none ∨ ok = true) := by
  constructor
  · intro i as s calls hrun t target payload addr ht hdone hp haddr
    have htr := (tracedTask_of_run hrun).2.spawned t ht
    rw [hdone] at htr
    exact forwarded_of_ended hos htr hp haddr
  · intro as s hrun hrunning client d target payload lookupHost addr ok hp hr
    obtain ⟨calls, hlog⟩ :=
      @Runs.run_logged _ _ _ _ (callsOf s.tasks.length) _ _ _ hrun []
    obtain rfl : calls = [] :=
      (tracedTask_of_run hlog).2.unspawned (List.getElem?_eq_none (Nat.le_refl _))
    let t : PacketTask := ⟨d.received, client, .parse⟩
    let s₁ : Relay :=
      { s with received := s.received ++ [(client, d.bytes)], tasks := s.tasks ++ [t] }
    have hstep : Runs.logged step (callsOf s.tasks.length) (s, []) (.datagram client d) =
        some (s₁, []) := Runs.logged_eq_some.mpr ⟨s₁, if_pos hrunning, rfl⟩
    have hparse : parseSocks5UdpPacket t.packetData = .ok (target, payload) := by
      show parseSocks5UdpPacket d.received = _
      rw [d.received_eq]
      exact hp
    obtain ⟨bs, s', calls', t', -, hown, hend, ht', hdata, hdone, hcalls⟩ :=
      @finishes_parse s.tasks.length s₁ t [] target payload addr
        (fun calls => (∀ b, .bound b ∈ calls → b = ok) ∧
          (∀ r, .resolved r ∈ calls → r = .ok addr) ∧
          (.bound false ∉ calls ↔ s.clientMap client ≠ none ∨ ok = true)) ok lookupHost
        List.getElem?_concat_length rfl hparse hr
        (fun hm x => by simpa using Or.inl hm)
        (fun hm hok x => by simp [hok])
        (fun hm hok => by simp [hok, show s.clientMap client = none from hm])
    refine ⟨bs, s', calls', t', hown, ?_, ht', hdata.trans d.received_eq, hdone, hcalls⟩
    rw [Runs.run_append, hlog, Option.bind_some, Runs.run_cons, hstep]
    exact hend

/-- Sockets that send to their own family. -/
def ownFamily (bound addr : SocketAddr) : Prop := bound.isV4 = addr.isV4

theorem ownFamily_sends : UdpSends ownFamily :=
  ⟨fun _ _ _ _ => rfl, fun _ _ _ _ _ _ h => Bool.noConfusion h⟩

/-- A new client sends one datagram, and its task is left to run. -/
def singleRun (d : Datagram) : List Action :=
  [.datagram (.v4 (.new 192 0 2 1) 40000) d, .task 0 .go, .task 0 .go, .task 0 (.bound true),
    .task 0 .go, .task 0 (.resolved fun _ => .ok []), .task 0 (.sent true)]

def singleEnd : Relay :=
  ((Runs.run step init (singleRun (.ofBytes [0, 0, 0, 1, 192, 0, 2, 53, 0, 53, 7]))).get rfl)

def singleCalls : List TaskCall :=
  let addr : SocketAddr := .v4 (.new 192 0 2 53) 53
  [.bound true, .resolved (.ok addr),
    .handed ⟨0, .v4 (.new 192 0 2 1) 40000, .ipv4 (.new 192 0 2 53) 53, addr, [7]⟩]

theorem forwarded_iff_single :
    Forwarded ownFamily singleEnd singleCalls [7] (.v4 (.new 192 0 2 53) 53) :=
  ((forwarded_iff ownFamily_sends).1 0
    (singleRun (.ofBytes [0, 0, 0, 1, 192, 0, 2, 53, 0, 53, 7])) singleEnd singleCalls rfl
    _ _ _ _ rfl rfl rfl (by simp [singleCalls])).mpr ⟨by simp [singleCalls], rfl⟩

def loopbackV6 : Ipv6Addr := ⟨List.replicate 15 0 ++ [1], rfl⟩

def ipv6Run : List Action :=
  singleRun (.ofBytes ([0, 0, 0, 4] ++ loopbackV6.bytes ++ [0, 53, 7]))

def ipv6End : Relay := (Runs.run step init ipv6Run).get rfl

/-- **A datagram to an IPv6 address** is handed to a socket bound to `0.0.0.0`,
which cannot send it. -/
theorem ipv6_target_not_forwarded :
    let addr : SocketAddr := .v6 loopbackV6 53 0 0
    let calls : List TaskCall := [.bound true, .resolved (.ok addr),
      .handed ⟨0, .v4 (.new 192 0 2 1) 40000, .ipv6 loopbackV6 53, addr, [7]⟩]
    parseSocks5UdpPacket ([0, 0, 0, 4] ++ loopbackV6.bytes ++ [0, 53, 7]) =
      .ok (.ipv6 loopbackV6 53, [7]) ∧
    Runs.run (Runs.logged step (callsOf 0)) (init, []) ipv6Run = some (ipv6End, calls) ∧
    ipv6End.boundTo 0 = some targetBind ∧
    ∀ able, UdpSends able → ¬ Forwarded able ipv6End calls [7] addr := by
  refine ⟨rfl, rfl, rfl, ?_⟩
  rintro able hos ⟨x, -, -, -, bound, hbound, hable⟩
  obtain ⟨_, -, rfl⟩ := Option.map_eq_some_iff.mp hbound
  exact absurd (hos.targetBind_iff.mp hable) (by decide)

end Relay

end Peregrine
