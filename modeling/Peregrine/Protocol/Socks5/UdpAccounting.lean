import Peregrine.Lib.Table
import Peregrine.Protocol.Socks5.UdpOwnership

/-!
# What goes in and what comes out

What a relay does for its datagrams, counted.  A datagram that parses accounts
for one send and one socket at most, and a datagram that does not for none
(`datagrams_account`).  A socket that has been bound has one
listener, or one task that is about to register it (`Served`), so no socket is
left without a reader and no packet is read twice.  Therefore what arrives at a
socket goes to the client in the order of its arrival; only the last packet can
be on its way, or lost with the send that ends the listener
(`responses_in_order`).
-/

namespace Peregrine

open Table

/-! ### One listener for each socket -/

/-- The socket a task is about to register. -/
def PacketPc.inserting : PacketPc → Option ℕ
  | .insert _ _ socket => some socket
  | _ => none

section Inserting

variable (target : TargetAddr) (payload : List UInt8) (socket : ℕ)

@[simp] theorem PacketPc.inserting_bind : (PacketPc.bind target payload).inserting = none := rfl

@[simp] theorem PacketPc.inserting_insert :
    (PacketPc.insert target payload socket).inserting = some socket := rfl

@[simp] theorem PacketPc.inserting_resolve :
    (PacketPc.resolve target payload socket).inserting = none := rfl

end Inserting

namespace Relay

/-- **Each socket that has been bound** has one listener, or one task about to
register it; a number not given out yet has none. -/
def Served (s : Relay) : Prop :=
  ∀ k, (s.listeners.countP fun l => l.targetSocket = k) +
    (s.tasks.countP fun t => t.pc.inserting = some k) = if k < s.sockets.length then 1 else 0

theorem served_init : Served init := fun _ => rfl

section Served

variable {s s' : Relay} {i j : ℕ} {t : PacketTask} {l : Listener}

theorem inserting_setTask (ht : s.tasks[i]? = some t) (pc : PacketPc) (k : ℕ) :
    ((s.setTask i t pc).tasks.countP fun t => t.pc.inserting = some k) +
      (if t.pc.inserting = some k then 1 else 0) =
    (s.tasks.countP fun t => t.pc.inserting = some k) +
      if pc.inserting = some k then 1 else 0 := by
  have hset := @countP_set_add _ s.tasks i { t with pc } t (fun t => t.pc.inserting = some k) ht
  simp only [decide_eq_true_eq] at hset
  exact hset

theorem Served.setTask (h : Served s) (ht : s.tasks[i]? = some t) {pc : PacketPc}
    (hpc : pc.inserting = t.pc.inserting) : Served (s.setTask i t pc) := by
  intro k
  have hcount : ((s.setTask i t pc).tasks.countP fun t => t.pc.inserting = some k) =
      s.tasks.countP fun t => t.pc.inserting = some k := by
    refine countP_set_of_eq ht ?_
    rw [hpc]
  rw [hcount]
  exact h k

theorem Served.setListener (h : Served s) (hl : s.listeners[j]? = some l) (pc : ListenerPc) :
    Served (s.setListener j l pc) := by
  intro k
  have hcount : ((s.setListener j l pc).listeners.countP fun l => l.targetSocket = k) =
      s.listeners.countP fun l => l.targetSocket = k := countP_set_of_eq hl rfl
  rw [hcount]
  exact h k

theorem inserting_of_ended {e : Event} (ht : s.tasks[i]? = some t)
    (he : e = .go → t.pc = .parse) (hs : s.step (.task i e) = some s') :
    t.pc.inserting = none := by
  cases hpc : t.pc with
  | insert target payload socket =>
    rw [step, ht, Option.bind_some, hpc] at hs
    cases e with
    | go =>
      rw [he rfl] at hpc
      cases hpc
    | _ => cases hs
  | _ => rfl

/-- **Every step keeps each socket served.** -/
theorem Served.step {a : Action} (h : Served s) (hs : s.step a = some s') : Served s' := by
  cases stepped hs with
  | datagram client d =>
    intro k
    rw [List.countP_append, List.countP_singleton]
    exact h k
  | control | stop => exact h
  | parsed ht hpc hp | missed ht hpc hm =>
    refine h.setTask ht ?_
    rw [hpc]
    rfl
  | ended ht he => exact h.setTask ht (inserting_of_ended ht he hs).symm
  | found ht hpc hm | resolved ht hpc hr =>
    refine h.setTask ht ?_
    rw [hpc]
    rfl
  | @bound i t target payload ht hpc =>
    intro k
    have hcount := @inserting_setTask (s.bindSocket t.clientAddr) i t ht
      (.insert target payload s.sockets.length) k
    have hlen : ((s.bindSocket t.clientAddr).setTask i t
        (.insert target payload s.sockets.length)).sockets.length = s.sockets.length + 1 :=
      List.length_append
    have hk : _ + ((s.bindSocket t.clientAddr).tasks.countP fun t => t.pc.inserting = some k) =
      _ := h k
    simp only [hpc, PacketPc.inserting_bind, PacketPc.inserting_insert, Option.some.injEq,
      reduceCtorEq, if_false] at hcount
    rw [hlen]
    change (s.listeners.countP _) + _ = _
    split_ifs at hcount hk ⊢ <;> omega
  | @inserted i t target payload socket ht hpc =>
    intro k
    have hcount := @inserting_setTask (s.register t.clientAddr target socket) i t ht
      (.resolve target payload socket) k
    have hk : _ + ((s.register t.clientAddr target socket).tasks.countP
      fun t => t.pc.inserting = some k) = _ := h k
    simp only [hpc, PacketPc.inserting_insert, PacketPc.inserting_resolve, Option.some.injEq,
      reduceCtorEq, if_false] at hcount
    change ((s.listeners ++ [_]).countP _) + _ = if k < s.sockets.length then 1 else 0
    rw [List.countP_append, List.countP_singleton]
    simp only [decide_eq_true_eq]
    split_ifs at hcount hk ⊢ <;> omega
  | @sent i t target payload socket addr ht hpc =>
    refine Served.setTask (s := s.logSent ⟨socket, t.clientAddr, target, addr, payload⟩) h ht ?_
    rw [hpc]
    rfl
  | arrived hl hpc hb | delivered hl hpc => exact Served.setListener h hl _
  | broken hl hpc he => exact h.setListener hl _
  | removed hl hpc => exact Served.setListener h hl _

theorem Served.targetSocket_ne (h : Served s) {k : ℕ} {m : Listener}
    (hl : s.listeners[j]? = some l) (hm : s.listeners[k]? = some m) (hne : k ≠ j) :
    m.targetSocket ≠ l.targetSocket := by
  intro hsame
  have htwo : [j, k].length ≤ s.listeners.countP fun x => x.targetSocket = l.targetSocket := by
    refine length_le_countP (by simpa using hne.symm) fun x hx => ?_
    rcases List.mem_pair.mp hx with rfl | rfl
    · exact ⟨l, hl, decide_eq_true rfl⟩
    · exact ⟨m, hm, decide_eq_true hsame⟩
  have hone := h l.targetSocket
  simp only [List.length_cons, List.length_nil] at htwo
  split at hone <;> omega

end Served

/-! ### In the order of arrival -/

def arrivedAt (s : Relay) (k : ℕ) : List Arrival := s.arrived.filter fun x => x.socket = k

def deliveredFrom (s : Relay) (k : ℕ) : List Delivery :=
  s.delivered.filter fun d => d.arrival.socket = k

/-- What a listener has left to send on: the packet it holds, or the one it has lost. -/
def Left (l : Listener) : ListenerPc → List Arrival → Prop
  | .receive, rest => rest = []
  | .reply source payload _, rest => rest = [⟨l.targetSocket, source, payload⟩]
  | .cleanup, rest | .done, rest => rest.length ≤ 1

/-- What has arrived at a socket is what was sent on, and what its listener has left. -/
structure Answered (s : Relay) : Prop where
  listened : ∀ l ∈ s.listeners, ∃ rest, Left l l.pc rest ∧
    s.arrivedAt l.targetSocket = (s.deliveredFrom l.targetSocket).map (·.arrival) ++ rest
  unlistened : ∀ k, (∀ l ∈ s.listeners, l.targetSocket ≠ k) →
    s.arrivedAt k = [] ∧ s.deliveredFrom k = []

theorem answered_init : Answered init := ⟨fun _ h => (by cases h), fun _ _ => ⟨rfl, rfl⟩⟩

theorem Left.length_le {l : Listener} {pc : ListenerPc} {rest : List Arrival} (h : Left l pc rest) :
    rest.length ≤ 1 := by
  cases pc with
  | receive =>
    rw [show rest = [] from h]
    exact Nat.zero_le 1
  | reply source payload packet =>
    rw [show rest = _ from h]
    exact Nat.le_refl 1
  | cleanup | done => exact h

section Answered

variable {s s' : Relay} {j : ℕ} {l : Listener}

theorem arrivedAt_logArrival (x : Arrival) (k : ℕ) : (s.logArrival x).arrivedAt k =
    s.arrivedAt k ++ if x.socket = k then [x] else [] := by
  simp only [arrivedAt, logArrival, List.filter_append, List.filter_singleton, Bool.cond_decide]

theorem deliveredFrom_logDelivery (d : Delivery) (k : ℕ) : (s.logDelivery d).deliveredFrom k =
    s.deliveredFrom k ++ if d.arrival.socket = k then [d] else [] := by
  simp only [deliveredFrom, logDelivery, List.filter_append, List.filter_singleton,
    Bool.cond_decide]

theorem Answered.listener (h : Answered s) (hv : Served s) (hl : s.listeners[j]? = some l)
    {pc : ListenerPc} (hls : s'.listeners = s.listeners.set j { l with pc })
    (ha : ∀ k, k ≠ l.targetSocket → s'.arrivedAt k = s.arrivedAt k)
    (hd : ∀ k, k ≠ l.targetSocket → s'.deliveredFrom k = s.deliveredFrom k)
    (hrest : ∀ rest, Left l l.pc rest → s.arrivedAt l.targetSocket =
        (s.deliveredFrom l.targetSocket).map (·.arrival) ++ rest →
      ∃ rest', Left l pc rest' ∧ s'.arrivedAt l.targetSocket =
        (s'.deliveredFrom l.targetSocket).map (·.arrival) ++ rest') : Answered s' := by
  have hmem : l ∈ s.listeners := List.mem_of_getElem? hl
  constructor
  · intro m hm
    rw [hls] at hm
    obtain ⟨k, hk⟩ := List.getElem?_of_mem hm
    rcases getElem?_set_cases hk with ⟨-, rfl⟩ | ⟨hne, hk⟩
    · obtain ⟨rest, hleft, heq⟩ := h.listened l hmem
      exact hrest rest hleft heq
    · have hsock := hv.targetSocket_ne hl hk hne
      rw [ha _ hsock, hd _ hsock]
      exact h.listened m (List.mem_of_getElem? hk)
  · intro k hk
    rw [hls] at hk
    have hsock : k ≠ l.targetSocket := Ne.symm (hk { l with pc } (mem_set_self hl))
    rw [ha k hsock, hd k hsock]
    refine h.unlistened k fun m hm => ?_
    obtain ⟨n, hn⟩ := List.getElem?_of_mem hm
    by_cases hnj : n = j
    · subst hnj
      obtain rfl := Option.some.inj (hl.symm.trans hn)
      exact hsock.symm
    · exact hk m (mem_set_of_ne hn hnj)

/-- **Every step keeps the order.** -/
theorem Answered.step {a : Action} (h : Answered s) (hv : Served s) (hs : s.step a = some s') :
    Answered s' := by
  cases stepped hs with
  | datagram | control | stop | parsed | ended | found | missed | bound | resolved | sent =>
    exact ⟨h.listened, h.unlistened⟩
  | @inserted i t target payload socket ht hpc =>
    have hfresh : ∀ l ∈ s.listeners, l.targetSocket ≠ socket := by
      have htask : 0 < s.tasks.countP fun t => t.pc.inserting = some socket := by
        refine List.countP_pos_iff.mpr ⟨t, List.mem_of_getElem? ht, decide_eq_true ?_⟩
        rw [hpc]
        rfl
      have hone := hv socket
      have hnone : (s.listeners.countP fun l => l.targetSocket = socket) = 0 := by
        split at hone <;> omega
      intro l hl hsock
      exact List.countP_eq_zero.mp hnone l hl (decide_eq_true hsock)
    constructor
    · intro l hl
      rcases List.mem_append.mp hl with hl | hl
      · exact h.listened l hl
      · obtain rfl := List.mem_singleton.mp hl
        obtain ⟨ha, hd⟩ := h.unlistened socket hfresh
        refine ⟨[], rfl, ?_⟩
        change s.arrivedAt socket = (s.deliveredFrom socket).map _ ++ []
        rw [ha, hd]
        rfl
    · exact fun k hk => h.unlistened k fun l hl => hk l (List.mem_append_left _ hl)
  | @arrived j l source d packet hl hpc hb =>
    refine h.listener hv hl rfl (fun k hk => ?_) (fun k hk => rfl) fun rest hleft heq => ?_
    · change (s.logArrival _).arrivedAt k = _
      rw [arrivedAt_logArrival, if_neg hk.symm, List.append_nil]
    · rw [hpc] at hleft
      obtain rfl : rest = [] := hleft
      refine ⟨_, rfl, ?_⟩
      change (s.logArrival _).arrivedAt _ = (s.deliveredFrom _).map _ ++ _
      rw [arrivedAt_logArrival, if_pos rfl, heq, List.append_nil, d.received_eq]
  | broken hl hpc he =>
    refine h.listener hv hl rfl (fun _ _ => rfl) (fun _ _ => rfl) fun rest hleft heq => ?_
    exact ⟨rest, hleft.length_le, heq⟩
  | @delivered j l source payload packet hl hpc =>
    refine h.listener hv hl rfl (fun _ _ => rfl) (fun k hk => ?_) fun rest hleft heq => ?_
    · change (s.logDelivery _).deliveredFrom k = _
      rw [deliveredFrom_logDelivery, if_neg hk.symm, List.append_nil]
    · rw [hpc] at hleft
      obtain rfl : rest = [_] := hleft
      refine ⟨[], rfl, ?_⟩
      change s.arrivedAt _ = ((s.logDelivery _).deliveredFrom _).map _ ++ []
      rw [deliveredFrom_logDelivery, if_pos rfl, heq, List.map_append, List.append_nil]
      rfl
  | removed hl hpc =>
    refine h.listener hv hl rfl (fun _ _ => rfl) (fun _ _ => rfl) fun rest hleft heq => ?_
    rw [hpc] at hleft
    exact ⟨rest, hleft, heq⟩

end Answered

def payloadOf (packet : List UInt8) : Option (List UInt8) :=
  (parseSocks5UdpPacket packet).toOption.map Prod.snd

/-- What holds in every reachable state. -/
structure Accounted (s : Relay) : Prop where
  owned : Owned s
  served : Served s
  answered : Answered s

theorem accounted {as : List Action} {s : Relay} (h : Runs.run step init as = some s) :
    Accounted s :=
  Runs.run_invariant
    (fun _ _ _ ha hs => ⟨ha.owned.step hs, ha.served.step hs, ha.answered.step ha.served hs⟩)
    ⟨owned_init, served_init, answered_init⟩ h

/-- **Responses keep their order, and only the last can be missing.**  What the
client reads out of the packets sent to it for a socket are the payloads that
arrived there, from the first on, each once; and all of them have been sent but
at most the last. -/
theorem responses_in_order {as : List Action} {s : Relay} (h : Runs.run step init as = some s)
    (k : ℕ) :
    ((s.deliveredFrom k).map fun d => payloadOf d.packet) <+:
      ((s.arrivedAt k).map fun x => some x.payload) ∧
    (s.arrivedAt k).length ≤ (s.deliveredFrom k).length + 1 := by
  obtain ⟨o, -, ha⟩ := accounted h
  have hrest : ∃ rest : List Arrival, rest.length ≤ 1 ∧
      s.arrivedAt k = (s.deliveredFrom k).map (·.arrival) ++ rest := by
    by_cases hk : ∃ l ∈ s.listeners, l.targetSocket = k
    · obtain ⟨l, hl, rfl⟩ := hk
      obtain ⟨rest, hleft, heq⟩ := ha.listened l hl
      exact ⟨rest, hleft.length_le, heq⟩
    · obtain ⟨harr, hdel⟩ := ha.unlistened k fun l hl hsock => hk ⟨l, hl, hsock⟩
      exact ⟨[], Nat.zero_le 1, by rw [harr, hdel]; rfl⟩
  obtain ⟨rest, hlen, heq⟩ := hrest
  have hread : (s.deliveredFrom k).map (fun d => payloadOf d.packet) =
      ((s.deliveredFrom k).map (·.arrival)).map fun x => some x.payload := by
    rw [List.map_map]
    refine List.map_congr_left fun d hd => ?_
    obtain ⟨target, hp⟩ := (o.delivered d (List.mem_of_mem_filter hd)).packet
    rw [payloadOf, hp]
    rfl
  constructor
  · rw [hread, heq, List.map_append]
    exact List.prefix_append _ _
  · rw [heq, List.length_append, List.length_map]
    omega

theorem responses_in_order_echo :
    echoEnd.arrivedAt 0 ≠ [] ∧
    ((echoEnd.deliveredFrom 0).map fun d => payloadOf d.packet) <+:
      ((echoEnd.arrivedAt 0).map fun x => some x.payload) ∧
    (echoEnd.arrivedAt 0).length ≤ (echoEnd.deliveredFrom 0).length + 1 :=
  ⟨by decide, responses_in_order (Option.some_get echoRun_runs).symm 0⟩

/-! ### One send and one socket for a datagram -/

/-- What a datagram asks for, if it parses. -/
def wantedOf (x : SocketAddr × List UInt8) : Option (SocketAddr × TargetAddr × List UInt8) :=
  (parseSocks5UdpPacket x.2).toOption.map fun r => (x.1, r)

end Relay

def PacketTask.datagram (t : PacketTask) : SocketAddr × List UInt8 := (t.clientAddr, t.packetData)

def Sent.wanted (x : Sent) : SocketAddr × TargetAddr × List UInt8 :=
  (x.clientAddr, x.target, x.payload)

def PacketPc.over : PacketPc → Bool
  | .done => true
  | _ => false

def PacketPc.unbound : PacketPc → Bool
  | .parse | .lookup _ _ | .bind _ _ => true
  | _ => false

@[simp] theorem PacketPc.over_parse : PacketPc.parse.over = false := rfl

@[simp] theorem PacketPc.unbound_parse : PacketPc.parse.unbound = true := rfl

namespace Relay

/-- What a task has parsed is what it was asked for. -/
theorem Owned.wantedOf_eq {s : Relay} {i : ℕ} {t : PacketTask} (o : Owned s)
    (ht : s.tasks[i]? = some t) {q : TargetAddr × List UInt8} (hq : t.pc.parsed = some q) :
    wantedOf t.datagram = some (t.clientAddr, q) := by
  have hp := (o.of_task ht).parsed q hq
  rw [wantedOf, PacketTask.datagram, hp]
  rfl

/-- A task of `c` whose datagram parses. -/
def Asks (c : SocketAddr) (t : PacketTask) : Prop := ∃ r, wantedOf t.datagram = some (c, r)

instance (c : SocketAddr) (t : PacketTask) : Decidable (Asks c t) :=
  decidable_of_iff ((wantedOf t.datagram).any fun r => r.1 = c) <| by
    simp [Asks, Option.any_eq_true]

/-- **Every datagram has a task**, which has one send and one socket to give. -/
structure Matched (s : Relay) : Prop where
  spawned : s.tasks.map PacketTask.datagram = s.received
  sends : ∀ r, (s.sent.countP fun x => x.wanted = r) +
    (s.tasks.countP fun t => t.pc.over = false ∧ wantedOf t.datagram = some r) ≤
      s.tasks.countP fun t => wantedOf t.datagram = some r
  binds : ∀ c, s.sockets.count c + (s.tasks.countP fun t => t.pc.unbound = true ∧ Asks c t) ≤
    s.tasks.countP fun t => Asks c t

theorem matched_init : Matched init := ⟨rfl, fun _ => Nat.le_refl 0, fun _ => Nat.le_refl 0⟩

section Matched

variable {s s' : Relay} {i : ℕ} {t : PacketTask}

theorem Matched.setTask (h : Matched s) (ht : s.tasks[i]? = some t) {pc : PacketPc}
    (hover : t.pc.over = true → pc.over = true)
    (hunbound : pc.unbound = true → t.pc.unbound = true) :
    Matched (s.setTask i t pc) where
  spawned := by
    refine Eq.trans ?_ h.spawned
    exact @map_set_of_eq _ s.tasks i { t with pc } t _ PacketTask.datagram ht rfl
  sends r := by
    have hpending : ((s.setTask i t pc).tasks.countP
        fun t => t.pc.over = false ∧ wantedOf t.datagram = some r) ≤
        s.tasks.countP fun t => t.pc.over = false ∧ wantedOf t.datagram = some r := by
      refine countP_set_le ht fun hp => ?_
      obtain ⟨hpc, hr⟩ := of_decide_eq_true hp
      refine decide_eq_true ⟨?_, hr⟩
      cases ho : t.pc.over with
      | true => exact absurd (hover ho) (by rw [hpc]; exact Bool.false_ne_true)
      | false => rfl
    have hall : ((s.setTask i t pc).tasks.countP fun t => wantedOf t.datagram = some r) =
      s.tasks.countP fun t => wantedOf t.datagram = some r := countP_set_of_eq ht rfl
    have hs := h.sends r
    rw [hall]
    exact (Nat.add_le_add_left hpending _).trans hs
  binds c := by
    have hpending : ((s.setTask i t pc).tasks.countP fun t => t.pc.unbound = true ∧ Asks c t) ≤
        s.tasks.countP fun t => t.pc.unbound = true ∧ Asks c t := by
      refine countP_set_le ht fun hp => ?_
      obtain ⟨hpc, hr⟩ := of_decide_eq_true hp
      exact decide_eq_true ⟨hunbound hpc, hr⟩
    have hall : ((s.setTask i t pc).tasks.countP fun t => Asks c t) =
      s.tasks.countP fun t => Asks c t := countP_set_of_eq ht rfl
    rw [hall]
    exact (Nat.add_le_add_left hpending _).trans (h.binds c)

theorem Matched.send (h : Matched s) (ht : s.tasks[i]? = some t) {x : Sent}
    (hover : t.pc.over = false) (hx : wantedOf t.datagram = some x.wanted) :
    Matched ((s.logSent x).setTask i t .done) := by
  have hdone : Matched (s.setTask i t .done) := h.setTask ht (fun _ => rfl) nofun
  refine ⟨hdone.spawned, fun r => ?_, hdone.binds⟩
  have hset := @countP_set_add _ s.tasks i { t with pc := .done } t
    (fun t => t.pc.over = false ∧ wantedOf t.datagram = some r) ht
  have hall : ((s.setTask i t .done).tasks.countP fun t => wantedOf t.datagram = some r) =
    s.tasks.countP fun t => wantedOf t.datagram = some r := countP_set_of_eq ht rfl
  have hs := h.sends r
  have hpc : PacketPc.over .done = true := rfl
  simp only [hover, hx, hpc, Option.some.injEq, true_and, reduceCtorEq, false_and,
    decide_eq_true_eq, if_false] at hset
  change (s.sent ++ [x]).countP _ + ((s.setTask i t .done).tasks.countP _) ≤
    (s.setTask i t .done).tasks.countP _
  rw [hall, List.countP_append, List.countP_singleton]
  simp only [Relay.setTask, decide_eq_true_eq]
  omega

theorem Matched.bind (h : Matched s) (o : Owned s) (ht : s.tasks[i]? = some t) {target : TargetAddr}
    {payload : List UInt8} (hpc : t.pc = .bind target payload) {socket : ℕ} :
    Matched ((s.bindSocket t.clientAddr).setTask i t (.insert target payload socket)) := by
  have hunbound : t.pc.unbound = true := by
    rw [hpc]
    rfl
  have hover : t.pc.over = true → PacketPc.over (.insert target payload socket) = true := by
    rw [hpc]
    exact nofun
  have hasks : Asks t.clientAddr t := ⟨(target, payload), o.wantedOf_eq ht (by rw [hpc]; rfl)⟩
  have hmoved := h.setTask ht hover fun _ => hunbound
  refine ⟨hmoved.spawned, hmoved.sends, fun c => ?_⟩
  have hset := @countP_set_add _ s.tasks i { t with pc := .insert target payload socket } t
    (fun t => t.pc.unbound = true ∧ Asks c t) ht
  have hall : ((s.setTask i t (.insert target payload socket)).tasks.countP fun t => Asks c t) =
    s.tasks.countP fun t => Asks c t := countP_set_of_eq ht rfl
  have hb := h.binds c
  have hnew : PacketPc.unbound (.insert target payload socket) = false := rfl
  have hsame : Asks c t ↔ t.clientAddr = c := by
    constructor
    · rintro ⟨r, hr⟩
      obtain ⟨q, -, hq⟩ := Option.map_eq_some_iff.mp hr
      exact congrArg Prod.fst hq
    · rintro rfl
      exact hasks
  simp only [hunbound, hnew, hsame, true_and, Bool.false_eq_true, false_and, decide_eq_true_eq,
    if_false] at hset
  change (s.sockets ++ [t.clientAddr]).count c + ((s.setTask i t _).tasks.countP _) ≤
    (s.setTask i t (.insert target payload socket)).tasks.countP _
  rw [hall, List.count_append, List.count_singleton]
  simp only [Relay.setTask, beq_iff_eq]
  omega

/-- **Every step keeps what has been done within what was asked for.** -/
theorem Matched.step {a : Action} (h : Matched s) (o : Owned s) (hs : s.step a = some s') :
    Matched s' := by
  cases stepped hs with
  | datagram client d =>
    constructor
    · change (s.tasks ++ [_]).map _ = s.received ++ [_]
      rw [List.map_append, h.spawned, List.map_singleton, PacketTask.datagram, d.received_eq]
    · intro r
      have hr := h.sends r
      change (s.sent.countP _) + (s.tasks ++ [_]).countP _ ≤ (s.tasks ++ [_]).countP _
      rw [List.countP_append, List.countP_append, List.countP_singleton, List.countP_singleton]
      simp only [PacketPc.over_parse, true_and]
      omega
    · intro c
      have hb := h.binds c
      change (s.sockets.count c) + (s.tasks ++ [_]).countP _ ≤ (s.tasks ++ [_]).countP _
      rw [List.countP_append, List.countP_append, List.countP_singleton, List.countP_singleton]
      simp only [PacketPc.unbound_parse, true_and]
      omega
  | control | stop | arrived | broken | delivered | removed => exact ⟨h.spawned, h.sends, h.binds⟩
  | parsed ht hpc hp | missed ht hpc hm =>
    refine h.setTask ht ?_ fun _ => ?_
    · rw [hpc]
      exact nofun
    · rw [hpc]
      rfl
  | ended ht he => exact h.setTask ht (fun _ => rfl) nofun
  | found ht hpc hm | resolved ht hpc hr =>
    refine h.setTask ht ?_ nofun
    rw [hpc]
    exact nofun
  | bound ht hpc => exact h.bind o ht hpc
  | @inserted i t target payload socket ht hpc =>
    have hr : Matched (s.register t.clientAddr target socket) := ⟨h.spawned, h.sends, h.binds⟩
    refine hr.setTask ht ?_ nofun
    rw [hpc]
    exact nofun
  | @sent i t target payload socket addr ht hpc =>
    exact h.send ht (by rw [hpc]; rfl) (o.wantedOf_eq ht (by rw [hpc]; rfl))

end Matched

/-- **A datagram pays for one send and one socket.**  The sends, by client,
target and payload, are matched one to one with received datagrams that parse to
just that; and a client has no more sockets than datagrams that parse. -/
theorem datagrams_account {as : List Action} {s : Relay} (h : Runs.run step init as = some s) :
    (s.sent.map Sent.wanted).Subperm (s.received.filterMap wantedOf) ∧
    ∀ c, s.sockets.count c ≤ (s.received.filterMap wantedOf).countP fun r => r.1 = c := by
  obtain ⟨-, hm⟩ := @Runs.run_invariant _ _ step (fun s => Owned s ∧ Matched s)
    (fun _ _ _ hm hs => ⟨hm.1.step hs, hm.2.step hm.1 hs⟩) _ _ _ ⟨owned_init, matched_init⟩ h
  constructor
  · refine List.subperm_ext_iff.mpr fun r _ => ?_
    have hr := hm.sends r
    rw [count_map, count_filterMap, ← hm.spawned, List.countP_map]
    have htask : s.tasks.countP ((fun x => decide (wantedOf x = some r)) ∘ PacketTask.datagram) =
      s.tasks.countP fun t => wantedOf t.datagram = some r := rfl
    omega
  · intro c
    have hb := hm.binds c
    rw [List.countP_filterMap, ← hm.spawned, List.countP_map]
    have htask : s.tasks.countP
        ((fun x => ((wantedOf x).map fun r => decide (r.1 = c)).getD false) ∘
          PacketTask.datagram) = s.tasks.countP fun t => Asks c t := by
      refine List.countP_congr fun t _ => ?_
      rw [decide_eq_true_iff, Asks, Function.comp_apply]
      cases wantedOf t.datagram with
      | none => simp
      | some r => simp [Prod.ext_iff]
    rw [htask]
    omega

theorem datagrams_account_echo :
    echoEnd.sent.length = 1 ∧
    (echoEnd.sent.map Sent.wanted).Subperm (echoEnd.received.filterMap wantedOf) ∧
    ∀ c, echoEnd.sockets.count c ≤ (echoEnd.received.filterMap wantedOf).countP fun r => r.1 = c :=
  ⟨by decide, datagrams_account (Option.some_get echoRun_runs).symm⟩

end Relay

end Peregrine
