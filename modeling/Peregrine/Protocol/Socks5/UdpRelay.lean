import Mathlib.Logic.Function.Basic
import Peregrine.Lib.Runs
import Peregrine.Protocol.Socks5.UdpPacket

/-!
# The UDP relay

One association of `protocol/socks5/udp_associate.rs` as a state machine.
`relay_loop` spawns a `handle_udp_packet` task for every datagram of a client;
a task that finds no socket for its client binds one, enters it into
`client_map` and spawns `listen_for_responses` on it.  Tasks and listeners run
side by side, so each stands at a program point of its own (`PacketPc`,
`ListenerPc`), between any two of which the others may move: at the awaits, and
around each access to the map.

A step names the task or listener that moves and how the call it made has
ended.  The logs `received`, `sent`, `arrived` and `delivered`, the client in
`sockets` and the sender in `ListenerPc.reply` are there to speak about runs; no
step looks at them.
-/

namespace Peregrine

/-- What a UDP socket can carry; the buffers of the relay are larger. -/
structure Datagram where
  bytes : List UInt8
  fits : bytes.length ≤ 65527

/-- What `recv_from` puts into a buffer of 65535 bytes. -/
def Datagram.received (d : Datagram) : List UInt8 := d.bytes.take 65535

/-- The datagram of these bytes, if there are not too many. -/
def Datagram.ofBytes (bs : List UInt8) : Datagram := ⟨bs.take 65527, List.length_take_le _ _⟩

theorem Datagram.received_eq (d : Datagram) : d.received = d.bytes :=
  List.take_of_length_le (d.fits.trans (by decide))

/-- Where a `handle_udp_packet` task stands. -/
inductive PacketPc
  /-- Before `parse_socks5_udp_packet`. -/
  | parse
  /-- Before `client_map.get`. -/
  | lookup (target : TargetAddr) (payload : List UInt8)
  /-- In `UdpSocket::bind`. -/
  | bind (target : TargetAddr) (payload : List UInt8)
  /-- Before `client_map.insert`. -/
  | insert (target : TargetAddr) (payload : List UInt8) (socket : ℕ)
  /-- In `resolve_target_addr`. -/
  | resolve (target : TargetAddr) (payload : List UInt8) (socket : ℕ)
  /-- In `target_socket.send_to`. -/
  | send (target : TargetAddr) (payload : List UInt8) (socket : ℕ) (addr : SocketAddr)
  | done

/-- A `handle_udp_packet` task. -/
structure PacketTask where
  packetData : List UInt8
  clientAddr : SocketAddr
  pc : PacketPc

/-- Where a `listen_for_responses` task stands. -/
inductive ListenerPc
  /-- In `target_socket.recv_from`. -/
  | receive
  /-- In `relay_socket.send_to`, with what came from `source`. -/
  | reply (source : SocketAddr) (payload packet : List UInt8)
  /-- Before `client_map.remove`. -/
  | cleanup
  | done
  deriving DecidableEq

/-- A `listen_for_responses` task. -/
structure Listener where
  targetSocket : ℕ
  clientAddr : SocketAddr
  targetAddr : TargetAddr
  pc : ListenerPc

/-- A payload sent through a target socket. -/
structure Sent where
  socket : ℕ
  clientAddr : SocketAddr
  target : TargetAddr
  addr : SocketAddr
  payload : List UInt8

/-- A packet that arrived at a target socket. -/
structure Arrival where
  socket : ℕ
  source : SocketAddr
  payload : List UInt8

/-- A response packet sent from the relay socket to `dest`. -/
structure Delivery where
  arrival : Arrival
  dest : SocketAddr
  packet : List UInt8

/-- The association.  `sockets` has the client each target socket was bound for. -/
structure Relay where
  running : Bool
  clientMap : SocketAddr → Option ℕ
  sockets : List SocketAddr
  tasks : List PacketTask
  listeners : List Listener
  received : List (SocketAddr × List UInt8)
  sent : List Sent
  arrived : List Arrival
  delivered : List Delivery

namespace Relay

def init : Relay := ⟨true, fun _ => none, [], [], [], [], [], [], []⟩

/-- How the call of a task has ended; how a failed one failed is only logged. -/
inductive Event
  | go
  | bound (ok : Bool)
  | resolved (lookupHost : String → Except IoError (List SocketAddr))
  | sent (ok : Bool)
  | received (source : SocketAddr) (d : Datagram)
  | recvFailed
  | replied (ok : Bool)

inductive Action
  /-- `udp_socket.recv_from`, and the task spawned for it. -/
  | datagram (client : SocketAddr) (d : Datagram)
  /-- A byte on the control connection, which is ignored. -/
  | control
  /-- The control connection has closed, or `recv_from` failed. -/
  | stop
  | task (i : ℕ) (e : Event)
  | listener (j : ℕ) (e : Event)

def setTask (s : Relay) (i : ℕ) (t : PacketTask) (pc : PacketPc) : Relay :=
  { s with tasks := s.tasks.set i { t with pc } }

def setListener (s : Relay) (j : ℕ) (l : Listener) (pc : ListenerPc) : Relay :=
  { s with listeners := s.listeners.set j { l with pc } }

/-- `UdpSocket::bind`. -/
def bindSocket (s : Relay) (client : SocketAddr) : Relay :=
  { s with sockets := s.sockets ++ [client] }

/-- `client_map.insert`, and the listener spawned.  Nothing else can tell
whether the spawn has happened yet, so the two are one step. -/
def register (s : Relay) (client : SocketAddr) (target : TargetAddr) (socket : ℕ) : Relay :=
  { s with
    clientMap := Function.update s.clientMap client (some socket)
    listeners := s.listeners ++ [⟨socket, client, target, .receive⟩] }

def logSent (s : Relay) (x : Sent) : Relay := { s with sent := s.sent ++ [x] }

def logArrival (s : Relay) (x : Arrival) : Relay := { s with arrived := s.arrived ++ [x] }

/-- `relay_socket.send_to` with the response. -/
def logDelivery (s : Relay) (x : Delivery) : Relay := { s with delivered := s.delivered ++ [x] }

/-- `client_map.remove`. -/
def remove (s : Relay) (client : SocketAddr) : Relay :=
  { s with clientMap := Function.update s.clientMap client none }

@[simp] theorem register_self (s : Relay) (client : SocketAddr) (target : TargetAddr) (socket : ℕ) :
    (s.register client target socket).clientMap client = some socket := Function.update_self _ _ _

theorem register_of_ne {s : Relay} {client other : SocketAddr} {target : TargetAddr} {socket : ℕ}
    (h : other ≠ client) :
    (s.register client target socket).clientMap other = s.clientMap other :=
  Function.update_of_ne h _ _

@[simp] theorem remove_self (s : Relay) (client : SocketAddr) :
    (s.remove client).clientMap client = none := Function.update_self _ _ _

theorem remove_of_ne {s : Relay} {client other : SocketAddr} (h : other ≠ client) :
    (s.remove client).clientMap other = s.clientMap other := Function.update_of_ne h _ _

/-- One step of `handle_udp_packet`. -/
def stepTask (s : Relay) (i : ℕ) (t : PacketTask) : PacketPc → Event → Option Relay
  | .parse, .go =>
    match parseSocks5UdpPacket t.packetData with
    | .ok (target, payload) => some (s.setTask i t (.lookup target payload))
    | .error _ => some (s.setTask i t .done)
  | .lookup target payload, .go =>
    match s.clientMap t.clientAddr with
    | some socket => some (s.setTask i t (.resolve target payload socket))
    | none => some (s.setTask i t (.bind target payload))
  | .bind target payload, .bound ok =>
    if ok then
      some ((s.bindSocket t.clientAddr).setTask i t (.insert target payload s.sockets.length))
    else some (s.setTask i t .done)
  | .insert target payload socket, .go =>
    some ((s.register t.clientAddr target socket).setTask i t (.resolve target payload socket))
  | .resolve target payload socket, .resolved lookupHost =>
    match resolveTargetAddr lookupHost target with
    | .ok addr => some (s.setTask i t (.send target payload socket addr))
    | .error _ => some (s.setTask i t .done)
  | .send target payload socket addr, .sent ok =>
    if ok then
      some ((s.logSent ⟨socket, t.clientAddr, target, addr, payload⟩).setTask i t .done)
    else some (s.setTask i t .done)
  | _, _ => none

/-- One step of `listen_for_responses`. -/
def stepListener (s : Relay) (j : ℕ) (l : Listener) : ListenerPc → Event → Option Relay
  | .receive, .received source d =>
    match buildSocks5UdpResponse l.targetAddr d.received with
    | .ok packet =>
      some ((s.logArrival ⟨l.targetSocket, source, d.bytes⟩).setListener j l
        (.reply source d.received packet))
    | .error _ => some s
  | .receive, .recvFailed => some (s.setListener j l .cleanup)
  | .reply source payload packet, .replied ok =>
    if ok then
      some ((s.logDelivery ⟨⟨l.targetSocket, source, payload⟩, l.clientAddr, packet⟩).setListener
        j l .receive)
    else some (s.setListener j l .cleanup)
  | .cleanup, .go =>
    some ((s.remove l.clientAddr).setListener j l .done)
  | _, _ => none

def step (s : Relay) : Action → Option Relay
  | .datagram client d =>
    if s.running then
      some { s with
        received := s.received ++ [(client, d.bytes)]
        tasks := s.tasks ++ [⟨d.received, client, .parse⟩] }
    else none
  | .control => if s.running then some s else none
  | .stop => if s.running then some { s with running := false } else none
  | .task i e => (s.tasks[i]?).bind fun t => s.stepTask i t t.pc e
  | .listener j e => (s.listeners[j]?).bind fun l => s.stepListener j l l.pc e

/-! ### What a step can do -/

/-- Every step of the relay, with what it found and what it changed. -/
inductive Stepped (s : Relay) : Action → Relay → Prop
  | datagram (client : SocketAddr) (d : Datagram) :
    Stepped s (.datagram client d) { s with
      received := s.received ++ [(client, d.bytes)]
      tasks := s.tasks ++ [⟨d.received, client, .parse⟩] }
  | control : Stepped s .control s
  | stop : Stepped s .stop { s with running := false }
  | parsed {i : ℕ} {t : PacketTask} {target : TargetAddr} {payload : List UInt8}
    (ht : s.tasks[i]? = some t) (hpc : t.pc = .parse)
    (hp : parseSocks5UdpPacket t.packetData = .ok (target, payload)) :
    Stepped s (.task i .go) (s.setTask i t (.lookup target payload))
  | ended {i : ℕ} {t : PacketTask} {e : Event} (ht : s.tasks[i]? = some t)
    (he : e = .go → t.pc = .parse) :
    Stepped s (.task i e) (s.setTask i t .done)
  | found {i : ℕ} {t : PacketTask} {target : TargetAddr} {payload : List UInt8} {socket : ℕ}
    (ht : s.tasks[i]? = some t) (hpc : t.pc = .lookup target payload)
    (hm : s.clientMap t.clientAddr = some socket) :
    Stepped s (.task i .go) (s.setTask i t (.resolve target payload socket))
  | missed {i : ℕ} {t : PacketTask} {target : TargetAddr} {payload : List UInt8}
    (ht : s.tasks[i]? = some t) (hpc : t.pc = .lookup target payload)
    (hm : s.clientMap t.clientAddr = none) :
    Stepped s (.task i .go) (s.setTask i t (.bind target payload))
  | bound {i : ℕ} {t : PacketTask} {target : TargetAddr} {payload : List UInt8}
    (ht : s.tasks[i]? = some t) (hpc : t.pc = .bind target payload) :
    Stepped s (.task i (.bound true))
      ((s.bindSocket t.clientAddr).setTask i t (.insert target payload s.sockets.length))
  | inserted {i : ℕ} {t : PacketTask} {target : TargetAddr} {payload : List UInt8} {socket : ℕ}
    (ht : s.tasks[i]? = some t) (hpc : t.pc = .insert target payload socket) :
    Stepped s (.task i .go)
      ((s.register t.clientAddr target socket).setTask i t (.resolve target payload socket))
  | resolved {i : ℕ} {t : PacketTask} {target : TargetAddr} {payload : List UInt8} {socket : ℕ}
    {addr : SocketAddr} {lookupHost : String → Except IoError (List SocketAddr)}
    (ht : s.tasks[i]? = some t) (hpc : t.pc = .resolve target payload socket)
    (hr : resolveTargetAddr lookupHost target = .ok addr) :
    Stepped s (.task i (.resolved lookupHost)) (s.setTask i t (.send target payload socket addr))
  | sent {i : ℕ} {t : PacketTask} {target : TargetAddr} {payload : List UInt8} {socket : ℕ}
    {addr : SocketAddr} (ht : s.tasks[i]? = some t)
    (hpc : t.pc = .send target payload socket addr) :
    Stepped s (.task i (.sent true))
      ((s.logSent ⟨socket, t.clientAddr, target, addr, payload⟩).setTask i t .done)
  | arrived {j : ℕ} {l : Listener} {source : SocketAddr} {d : Datagram} {packet : List UInt8}
    (hl : s.listeners[j]? = some l) (hpc : l.pc = .receive)
    (hb : buildSocks5UdpResponse l.targetAddr d.received = .ok packet) :
    Stepped s (.listener j (.received source d))
      ((s.logArrival ⟨l.targetSocket, source, d.bytes⟩).setListener j l
        (.reply source d.received packet))
  | broken {j : ℕ} {l : Listener} {e : Event} (hl : s.listeners[j]? = some l)
    (hpc : l.pc ≠ .done) (he : e ≠ .replied true) :
    Stepped s (.listener j e) (s.setListener j l .cleanup)
  | delivered {j : ℕ} {l : Listener} {source : SocketAddr} {payload packet : List UInt8}
    (hl : s.listeners[j]? = some l) (hpc : l.pc = .reply source payload packet) :
    Stepped s (.listener j (.replied true))
      ((s.logDelivery ⟨⟨l.targetSocket, source, payload⟩, l.clientAddr, packet⟩).setListener
        j l .receive)
  | removed {j : ℕ} {l : Listener} (hl : s.listeners[j]? = some l) (hpc : l.pc = .cleanup) :
    Stepped s (.listener j .go)
      ((s.remove l.clientAddr).setListener j l .done)

theorem stepped_of_stepTask {s s' : Relay} {i : ℕ} {t : PacketTask} {pc : PacketPc} {e : Event}
    (ht : s.tasks[i]? = some t) (hpc : t.pc = pc) (h : s.stepTask i t pc e = some s') :
    Stepped s (.task i e) s' := by
  unfold stepTask at h
  split at h
  · split at h
    · cases h
      exact .parsed ht hpc ‹_›
    · cases h
      exact .ended ht fun _ => hpc
  · split at h
    · cases h
      exact .found ht hpc ‹_›
    · cases h
      exact .missed ht hpc ‹_›
  · split at h
    · cases h
      subst_vars
      exact .bound ht hpc
    · cases h
      exact .ended ht nofun
  · cases h
    exact .inserted ht hpc
  · split at h
    · cases h
      exact .resolved ht hpc ‹_›
    · cases h
      exact .ended ht nofun
  · split at h
    · cases h
      subst_vars
      exact .sent ht hpc
    · cases h
      exact .ended ht nofun
  · cases h

theorem stepped_of_stepListener {s s' : Relay} {j : ℕ} {l : Listener} {pc : ListenerPc}
    {e : Event} (hl : s.listeners[j]? = some l) (hpc : l.pc = pc)
    (h : s.stepListener j l pc e = some s') : Stepped s (.listener j e) s' := by
  unfold stepListener at h
  split at h
  · split at h
    · cases h
      exact .arrived hl hpc ‹_›
    · rename_i hb
      cases hb
  · cases h
    exact .broken hl (by rw [hpc]; exact nofun) nofun
  · split at h
    · cases h
      subst_vars
      exact .delivered hl hpc
    · rename_i hok
      cases h
      refine .broken hl (by rw [hpc]; exact nofun) fun he => ?_
      cases he
      exact hok rfl
  · cases h
    exact .removed hl hpc
  · cases h

/-- **Every step is one of these.** -/
theorem stepped {s s' : Relay} {a : Action} (h : s.step a = some s') : Stepped s a s' := by
  cases a with
  | datagram client d =>
    rw [step] at h
    split at h
    · cases h
      exact .datagram client d
    · cases h
  | control =>
    rw [step] at h
    split at h
    · cases h
      exact .control
    · cases h
  | stop =>
    rw [step] at h
    split at h
    · cases h
      exact .stop
    · cases h
  | task i e =>
    obtain ⟨t, ht, h⟩ := Option.bind_eq_some_iff.mp h
    exact stepped_of_stepTask ht rfl h
  | listener j e =>
    obtain ⟨l, hl, h⟩ := Option.bind_eq_some_iff.mp h
    exact stepped_of_stepListener hl rfl h

/-! ### A datagram on its way -/

/-- The steps that take one datagram to its target, where every call succeeds. -/
def forwardRun (client : SocketAddr) (d : Datagram) : List Action :=
  [.datagram client d, .task 0 .go, .task 0 .go, .task 0 (.bound true), .task 0 .go,
    .task 0 (.resolved fun _ => .ok [client]), .task 0 (.sent true)]

/-- **A datagram that parses is forwarded**, whoever it comes from. -/
theorem run_forwardRun (client : SocketAddr) {d : Datagram} {target : TargetAddr}
    {payload : List UInt8} (hp : parseSocks5UdpPacket d.bytes = .ok (target, payload)) :
    ∃ s, Runs.run step init (forwardRun client d) = some s ∧
      ∃ addr, s.sent = [⟨0, client, target, addr, payload⟩] := by
  have hparse : parseSocks5UdpPacket d.received = .ok (target, payload) := by
    rw [d.received_eq]
    exact hp
  obtain ⟨addr, haddr⟩ : ∃ addr, resolveTargetAddr (fun _ => .ok [client]) target = .ok addr := by
    cases target <;> exact ⟨_, rfl⟩
  let t : PacketTask := ⟨d.received, client, .parse⟩
  let s₁ : Relay := { init with received := [(client, d.bytes)], tasks := [t] }
  let s₂ := s₁.setTask 0 t (.lookup target payload)
  let s₃ := s₂.setTask 0 t (.bind target payload)
  let s₄ := (s₃.bindSocket client).setTask 0 t (.insert target payload 0)
  let s₅ := (s₄.register client target 0).setTask 0 t (.resolve target payload 0)
  let s₆ := s₅.setTask 0 t (.send target payload 0 addr)
  let s₇ := (s₆.logSent ⟨0, client, target, addr, payload⟩).setTask 0 t .done
  have h₁ : init.step (.datagram client d) = some s₁ := rfl
  have h₂ : s₁.step (.task 0 .go) = some s₂ := by
    show s₁.stepTask 0 t .parse .go = some s₂
    rw [stepTask, hparse]
  have h₃ : s₂.step (.task 0 .go) = some s₃ := rfl
  have h₄ : s₃.step (.task 0 (.bound true)) = some s₄ := rfl
  have h₅ : s₄.step (.task 0 .go) = some s₅ := rfl
  have h₆ : s₅.step (.task 0 (.resolved fun _ => .ok [client])) = some s₆ := by
    show s₅.stepTask 0 { t with pc := .resolve target payload 0 } (.resolve target payload 0)
      (.resolved fun _ => .ok [client]) = some s₆
    rw [stepTask, haddr]
    rfl
  have h₇ : s₆.step (.task 0 (.sent true)) = some s₇ := rfl
  refine ⟨s₇, ?_, addr, rfl⟩
  simp only [forwardRun, Runs.run_cons, h₁, h₂, h₃, h₄, h₅, h₆, h₇, Option.bind_some, Runs.run_nil]

end Relay

end Peregrine
