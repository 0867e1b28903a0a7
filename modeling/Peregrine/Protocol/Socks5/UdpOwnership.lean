import Peregrine.Protocol.Socks5.UdpRelay

/-!
# Who a target socket belongs to

A target socket serves the client it was bound for, in every interleaving: the
map sends a client to a socket of its own, a task sends through a socket of its
own client, and a listener answers the client its socket was bound for.  The
map alone does not carry this, since an entry may be overwritten or removed
while listeners and tasks still use the socket; `Owned` says it of the map, of
every task, of every listener and of the logs at once.

A step changes one of these and lets the others stand, because the logs and
the list of sockets only grow (`Grows`).
-/

namespace Peregrine

def PacketPc.parsed : PacketPc → Option (TargetAddr × List UInt8)
  | .parse | .done => none
  | .lookup target payload | .bind target payload => some (target, payload)
  | .insert target payload _ | .resolve target payload _ | .send target payload _ _ =>
    some (target, payload)

def PacketPc.socket : PacketPc → Option ℕ
  | .insert _ _ socket | .resolve _ _ socket | .send _ _ socket _ => some socket
  | _ => none

namespace Relay

/-- What the relay has done so far that nothing takes back. -/
structure Ledger where
  sockets : List SocketAddr
  received : List (SocketAddr × List UInt8)
  arrived : List Arrival

def ledger (s : Relay) : Ledger := ⟨s.sockets, s.received, s.arrived⟩

/-- `socket` was bound for `client`. -/
def Ledger.BoundFor (b : Ledger) (socket : ℕ) (client : SocketAddr) : Prop :=
  b.sockets[socket]? = some client

/-- `payload` was taken from a datagram of `client` for `target`. -/
def Ledger.TakenFrom (b : Ledger) (client : SocketAddr) (target : TargetAddr)
    (payload : List UInt8) : Prop :=
  ∃ data, (client, data) ∈ b.received ∧ parseSocks5UdpPacket data = .ok (target, payload)

/-- The task works for the client its datagram came from. -/
structure TaskOwned (b : Ledger) (t : PacketTask) : Prop where
  received : (t.clientAddr, t.packetData) ∈ b.received
  parsed : ∀ r, t.pc.parsed = some r → parseSocks5UdpPacket t.packetData = .ok r
  socket : ∀ k, t.pc.socket = some k → b.BoundFor k t.clientAddr

/-- The listener answers the client its socket was bound for, with what arrived. -/
structure ListenerOwned (b : Ledger) (l : Listener) : Prop where
  socket : b.BoundFor l.targetSocket l.clientAddr
  target : l.targetAddr.Fits
  reply : ∀ source payload packet, l.pc = .reply source payload packet →
    ⟨l.targetSocket, source, payload⟩ ∈ b.arrived ∧
    buildSocks5UdpResponse l.targetAddr payload = .ok packet

structure SentOwned (b : Ledger) (x : Sent) : Prop where
  socket : b.BoundFor x.socket x.clientAddr
  taken : b.TakenFrom x.clientAddr x.target x.payload

structure DeliveryOwned (b : Ledger) (d : Delivery) : Prop where
  socket : b.BoundFor d.arrival.socket d.dest
  arrived : d.arrival ∈ b.arrived
  packet : ∃ target, parseSocks5UdpPacket d.packet = .ok (target, d.arrival.payload)

/-- **The ownership invariant.** -/
structure Owned (s : Relay) : Prop where
  map : ∀ client socket, s.clientMap client = some socket → s.ledger.BoundFor socket client
  task : ∀ t ∈ s.tasks, TaskOwned s.ledger t
  listener : ∀ l ∈ s.listeners, ListenerOwned s.ledger l
  sent : ∀ x ∈ s.sent, SentOwned s.ledger x
  delivered : ∀ d ∈ s.delivered, DeliveryOwned s.ledger d

/-! ### What only grows -/

structure Ledger.Grows (b b' : Ledger) : Prop where
  sockets : b.sockets <+: b'.sockets
  received : b.received ⊆ b'.received
  arrived : b.arrived ⊆ b'.arrived

section Grows

variable {b b' : Ledger} (g : b.Grows b')

include g

theorem Ledger.BoundFor.grows {socket : ℕ} {client : SocketAddr} (h : b.BoundFor socket client) :
    b'.BoundFor socket client := by
  obtain ⟨more, hmore⟩ := g.sockets
  obtain ⟨hlt, -⟩ := List.getElem?_eq_some_iff.mp h
  rw [Ledger.BoundFor, ← hmore, List.getElem?_append_left hlt]
  exact h

theorem TaskOwned.grows {t : PacketTask} (h : TaskOwned b t) : TaskOwned b' t :=
  ⟨g.received h.received, h.parsed, fun k hk => (h.socket k hk).grows g⟩

theorem ListenerOwned.grows {l : Listener} (h : ListenerOwned b l) : ListenerOwned b' l :=
  ⟨h.socket.grows g, h.target, fun source payload packet hpc =>
    ⟨g.arrived (h.reply source payload packet hpc).1, (h.reply source payload packet hpc).2⟩⟩

theorem SentOwned.grows {x : Sent} (h : SentOwned b x) : SentOwned b' x := by
  obtain ⟨data, hd, hp⟩ := h.taken
  exact ⟨h.socket.grows g, data, g.received hd, hp⟩

theorem DeliveryOwned.grows {d : Delivery} (h : DeliveryOwned b d) : DeliveryOwned b' d :=
  ⟨h.socket.grows g, g.arrived h.arrived, h.packet⟩

end Grows

/-! ### One change at a time -/

section Changes

variable {s : Relay} (h : Owned s)

include h

theorem Owned.setTask {i : ℕ} {t : PacketTask} {pc : PacketPc}
    (ht : TaskOwned s.ledger { t with pc }) : Owned (s.setTask i t pc) where
  map := h.map
  task x hx := by
    rcases List.mem_or_eq_of_mem_set hx with hx | rfl
    · exact h.task x hx
    · exact ht
  listener := h.listener
  sent := h.sent
  delivered := h.delivered

theorem Owned.setListener {j : ℕ} {l : Listener} {pc : ListenerPc}
    (hl : ListenerOwned s.ledger { l with pc }) : Owned (s.setListener j l pc) where
  map := h.map
  task := h.task
  listener x hx := by
    rcases List.mem_or_eq_of_mem_set hx with hx | rfl
    · exact h.listener x hx
    · exact hl
  sent := h.sent
  delivered := h.delivered

theorem Owned.datagram (client : SocketAddr) (d : Datagram) : Owned { s with
    received := s.received ++ [(client, d.bytes)]
    tasks := s.tasks ++ [⟨d.received, client, .parse⟩] } := by
  have g : s.ledger.Grows ⟨s.sockets, s.received ++ [(client, d.bytes)], s.arrived⟩ :=
    ⟨List.prefix_refl _, List.subset_append_left _ _, fun _ => id⟩
  constructor
  · exact h.map
  · intro t ht
    rcases List.mem_append.mp ht with ht | ht
    · exact (h.task t ht).grows g
    · obtain rfl := List.mem_singleton.mp ht
      rw [d.received_eq]
      exact ⟨List.mem_append_right _ (List.mem_singleton.mpr rfl), nofun, nofun⟩
  · exact fun l hl => (h.listener l hl).grows g
  · exact fun x hx => (h.sent x hx).grows g
  · exact fun d hd => (h.delivered d hd).grows g

theorem Owned.bindSocket (client : SocketAddr) : Owned (s.bindSocket client) := by
  have g : s.ledger.Grows (s.bindSocket client).ledger :=
    ⟨List.prefix_append _ _, fun _ => id, fun _ => id⟩
  exact ⟨fun c k hk => (h.map c k hk).grows g, fun t ht => (h.task t ht).grows g,
    fun l hl => (h.listener l hl).grows g, fun x hx => (h.sent x hx).grows g,
    fun d hd => (h.delivered d hd).grows g⟩

theorem Owned.register {client : SocketAddr} {target : TargetAddr} {socket : ℕ}
    (hb : s.ledger.BoundFor socket client) (ht : target.Fits) :
    Owned (s.register client target socket) where
  map c k hk := by
    by_cases hc : c = client
    · subst hc
      rw [register_self] at hk
      obtain rfl := Option.some.inj hk
      exact hb
    · simp only [Relay.register, Function.update_of_ne hc] at hk
      exact h.map c k hk
  task := h.task
  listener l hl := by
    rcases List.mem_append.mp hl with hl | hl
    · exact h.listener l hl
    · obtain rfl := List.mem_singleton.mp hl
      exact ⟨hb, ht, nofun⟩
  sent := h.sent
  delivered := h.delivered

theorem Owned.remove (client : SocketAddr) : Owned (s.remove client) where
  map c k hk := by
    by_cases hc : c = client
    · subst hc
      rw [remove_self] at hk
      cases hk
    · simp only [Relay.remove, Function.update_of_ne hc] at hk
      exact h.map c k hk
  task := h.task
  listener := h.listener
  sent := h.sent
  delivered := h.delivered

theorem Owned.logSent {x : Sent} (hx : SentOwned s.ledger x) : Owned (s.logSent x) where
  map := h.map
  task := h.task
  listener := h.listener
  sent y hy := by
    rcases List.mem_append.mp hy with hy | hy
    · exact h.sent y hy
    · obtain rfl := List.mem_singleton.mp hy
      exact hx
  delivered := h.delivered

theorem Owned.logArrival (x : Arrival) : Owned (s.logArrival x) := by
  have g : s.ledger.Grows (s.logArrival x).ledger :=
    ⟨List.prefix_refl _, fun _ => id, List.subset_append_left _ _⟩
  exact ⟨h.map, fun t ht => (h.task t ht).grows g, fun l hl => (h.listener l hl).grows g,
    fun y hy => (h.sent y hy).grows g, fun d hd => (h.delivered d hd).grows g⟩

theorem Owned.logDelivery {x : Delivery} (hx : DeliveryOwned s.ledger x) :
    Owned (s.logDelivery x) where
  map := h.map
  task := h.task
  listener := h.listener
  sent := h.sent
  delivered d hd := by
    rcases List.mem_append.mp hd with hd | hd
    · exact h.delivered d hd
    · obtain rfl := List.mem_singleton.mp hd
      exact hx

end Changes

/-! ### Every step -/

theorem owned_init : Owned init := ⟨nofun, nofun, nofun, nofun, nofun⟩

theorem Owned.of_task {s : Relay} (h : Owned s) {i : ℕ} {t : PacketTask}
    (ht : s.tasks[i]? = some t) : TaskOwned s.ledger t := h.task t (List.mem_of_getElem? ht)

theorem Owned.of_listener {s : Relay} (h : Owned s) {j : ℕ} {l : Listener}
    (hl : s.listeners[j]? = some l) : ListenerOwned s.ledger l :=
  h.listener l (List.mem_of_getElem? hl)

/-- **Every step keeps every socket with its client.** -/
theorem Owned.step {s s' : Relay} {a : Action} (h : Owned s) (hs : s.step a = some s') :
    Owned s' := by
  cases stepped hs with
  | datagram client d => exact h.datagram client d
  | control => exact h
  | stop => exact ⟨h.map, h.task, h.listener, h.sent, h.delivered⟩
  | parsed ht hpc hp =>
    have o := h.of_task ht
    exact h.setTask ⟨o.received, fun r hr => Option.some.inj hr ▸ hp, nofun⟩
  | ended ht he => exact h.setTask ⟨(h.of_task ht).received, nofun, nofun⟩
  | found ht hpc hm =>
    have o := h.of_task ht
    refine h.setTask ⟨o.received, fun r hr => o.parsed r (by rw [hpc]; exact hr), fun k hk => ?_⟩
    obtain rfl := Option.some.inj hk
    exact h.map _ _ hm
  | missed ht hpc hm =>
    have o := h.of_task ht
    exact h.setTask ⟨o.received, fun r hr => o.parsed r (by rw [hpc]; exact hr), nofun⟩
  | @bound i t target payload ht hpc =>
    have o := h.of_task ht
    refine (h.bindSocket t.clientAddr).setTask ⟨o.received, fun r hr =>
      o.parsed r (by rw [hpc]; exact hr), fun k hk => ?_⟩
    obtain rfl := Option.some.inj hk
    exact List.getElem?_concat_length
  | inserted ht hpc =>
    have o := h.of_task ht
    have hb := o.socket _ (by rw [hpc]; rfl)
    have hp := o.parsed _ (by rw [hpc]; rfl)
    refine (h.register hb (build_parse hp).1).setTask ⟨o.received, fun r hr =>
      o.parsed r (by rw [hpc]; exact hr), fun k hk => ?_⟩
    obtain rfl := Option.some.inj hk
    exact hb
  | resolved ht hpc hr =>
    have o := h.of_task ht
    exact h.setTask ⟨o.received, fun r hr => o.parsed r (by rw [hpc]; exact hr),
      fun k hk => o.socket k (by rw [hpc]; exact hk)⟩
  | @sent i t target payload socket addr ht hpc =>
    have o := h.of_task ht
    have hx : SentOwned s.ledger ⟨socket, t.clientAddr, target, addr, payload⟩ :=
      ⟨o.socket _ (by rw [hpc]; rfl), t.packetData, o.received, o.parsed _ (by rw [hpc]; rfl)⟩
    exact (h.logSent hx).setTask ⟨o.received, nofun, nofun⟩
  | @arrived j l source d packet hl hpc hb =>
    have o := h.of_listener hl
    refine (h.logArrival _).setListener ⟨o.socket, o.target, fun source payload packet he => ?_⟩
    cases he
    rw [d.received_eq] at hb ⊢
    exact ⟨List.mem_append_right _ (List.mem_singleton.mpr rfl), hb⟩
  | broken hl hpc he =>
    have o := h.of_listener hl
    exact h.setListener ⟨o.socket, o.target, nofun⟩
  | @delivered j l source payload packet hl hpc =>
    have o := h.of_listener hl
    obtain ⟨harr, hb⟩ := o.reply _ _ _ hpc
    have hd : DeliveryOwned s.ledger ⟨⟨l.targetSocket, source, payload⟩, l.clientAddr, packet⟩ :=
      ⟨o.socket, harr, l.targetAddr, by rw [← Except.ok.inj hb]; exact parse_build o.target payload⟩
    exact (h.logDelivery hd).setListener ⟨o.socket, o.target, nofun⟩
  | removed hl hpc =>
    have o := h.of_listener hl
    exact (h.remove _).setListener ⟨o.socket, o.target, nofun⟩

/-- **No cross-client delivery.**  After any run, the map sends a client to a
socket bound for it; what was sent through a socket bound for a client was
taken, payload unchanged, from a datagram of that client; and what was delivered
had arrived, payload unchanged, at a socket bound for the client it went to. -/
theorem relay_keeps_clients_apart {as : List Action} {s : Relay}
    (h : Runs.run step init as = some s) :
    (∀ client socket, s.clientMap client = some socket → s.ledger.BoundFor socket client) ∧
    (∀ x ∈ s.sent, (∃ client, s.ledger.BoundFor x.socket client) ∧
      ∀ client, s.ledger.BoundFor x.socket client → s.ledger.TakenFrom client x.target x.payload) ∧
    ∀ d ∈ s.delivered, s.ledger.BoundFor d.arrival.socket d.dest ∧
      d.arrival ∈ s.ledger.arrived ∧
      ∃ target, parseSocks5UdpPacket d.packet = .ok (target, d.arrival.payload) := by
  have o : Owned s := Runs.run_invariant (fun _ _ _ ho hs => ho.step hs) owned_init h
  refine ⟨o.map, fun x hx => ⟨⟨_, (o.sent x hx).socket⟩, fun client hc => ?_⟩, fun d hd => ?_⟩
  · obtain rfl : x.clientAddr = client := Option.some.inj ((o.sent x hx).socket.symm.trans hc)
    exact (o.sent x hx).taken
  · exact ⟨(o.delivered d hd).socket, (o.delivered d hd).arrived, (o.delivered d hd).packet⟩

/-- A client at 192.0.2.1 sends two bytes to 192.0.2.53 and gets one back. -/
def echoRun : List Action :=
  let client : SocketAddr := .v4 (.new 192 0 2 1) 40000
  let server : SocketAddr := .v4 (.new 192 0 2 53) 53
  [.datagram client (.ofBytes [0, 0, 0, 1, 192, 0, 2, 53, 0, 53, 7, 8]), .task 0 .go, .task 0 .go,
    .task 0 (.bound true), .task 0 .go, .task 0 (.resolved fun _ => .ok []), .task 0 (.sent true),
    .listener 0 (.received server (.ofBytes [9])), .listener 0 (.replied true)]

theorem echoRun_runs : (Runs.run step init echoRun).isSome = true := by decide

def echoEnd : Relay := (Runs.run step init echoRun).get echoRun_runs

theorem relay_keeps_clients_apart_echo :
    (echoEnd.sent.map (·.payload), echoEnd.delivered.map (·.arrival.payload)) = ([[7, 8]], [[9]]) ∧
    (∀ client socket, echoEnd.clientMap client = some socket →
      echoEnd.ledger.BoundFor socket client) ∧
    (∀ x ∈ echoEnd.sent, (∃ client, echoEnd.ledger.BoundFor x.socket client) ∧
      ∀ client, echoEnd.ledger.BoundFor x.socket client →
        echoEnd.ledger.TakenFrom client x.target x.payload) ∧
    ∀ d ∈ echoEnd.delivered, echoEnd.ledger.BoundFor d.arrival.socket d.dest ∧
      d.arrival ∈ echoEnd.ledger.arrived ∧
      ∃ target, parseSocks5UdpPacket d.packet = .ok (target, d.arrival.payload) :=
  ⟨by decide, relay_keeps_clients_apart (Option.some_get echoRun_runs).symm⟩

end Relay

end Peregrine
