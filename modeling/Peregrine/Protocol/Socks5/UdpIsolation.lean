import Peregrine.Lib.Table
import Peregrine.Lib.Views
import Peregrine.Protocol.Socks5.UdpOwnership

/-!
# A client sees a relay of its own

One relay loop serves every client that finds its port: their tasks share the
map, the sockets share one numbering, and the listeners answer through one relay
socket.  `only c` is what is left of an association for the client `c`: its
entry, its sockets in the order they were bound, its tasks and listeners, and
what went in and out for it.  This is a relay again, of which `c` is the only
client, and the relay of all clients moves exactly as it does (`shows_only`): what
`c` does is a step of it, with the tasks, listeners and sockets under their own
numbers, and what the others do is not seen at all.  Only the end of the association
is shared.
-/

namespace Peregrine

open Table

/-! ### Other numbers for the sockets -/

section Rename

variable (r : ℕ → ℕ)

def PacketPc.rename : PacketPc → PacketPc
  | .parse => .parse
  | .lookup target payload => .lookup target payload
  | .bind target payload => .bind target payload
  | .insert target payload socket => .insert target payload (r socket)
  | .resolve target payload socket => .resolve target payload (r socket)
  | .send target payload socket addr => .send target payload (r socket) addr
  | .done => .done

def PacketTask.rename (t : PacketTask) : PacketTask := { t with pc := t.pc.rename r }

def Listener.rename (l : Listener) : Listener := { l with targetSocket := r l.targetSocket }

def Sent.rename (x : Sent) : Sent := { x with socket := r x.socket }

def Arrival.rename (x : Arrival) : Arrival := { x with socket := r x.socket }

def Delivery.rename (d : Delivery) : Delivery := { d with arrival := d.arrival.rename r }

@[simp] theorem PacketTask.rename_packetData (t : PacketTask) :
    (t.rename r).packetData = t.packetData := rfl

@[simp] theorem PacketTask.rename_clientAddr (t : PacketTask) :
    (t.rename r).clientAddr = t.clientAddr := rfl

@[simp] theorem Listener.rename_targetAddr (l : Listener) :
    (l.rename r).targetAddr = l.targetAddr := rfl

end Rename

theorem PacketPc.rename_congr {r r' : ℕ → ℕ} {pc : PacketPc}
    (h : ∀ k, pc.socket = some k → r k = r' k) : pc.rename r = pc.rename r' := by
  cases pc with
  | parse | lookup | bind | done => rfl
  | insert target payload socket | resolve target payload socket | send target payload socket =>
    simp only [PacketPc.rename, h socket rfl]

attribute [ext] Relay

namespace Relay

/-! ### The view -/

variable (c : SocketAddr) (s : Relay)

/-- The number a socket has among those of `c`. -/
def socketPlace : ℕ → ℕ := place (fun client => decide (client = c)) s.sockets

def taskPlace : ℕ → ℕ := place (fun t => decide (t.clientAddr = c)) s.tasks

def listenerPlace : ℕ → ℕ := place (fun l => decide (l.clientAddr = c)) s.listeners

/-- **What the relay is for `c`.** -/
def only : Relay where
  running := s.running
  clientMap := Function.update (fun _ => none) c ((s.clientMap c).map (s.socketPlace c))
  sockets := s.sockets.filter fun client => client = c
  tasks := (s.tasks.filter fun t => t.clientAddr = c).map (PacketTask.rename (s.socketPlace c))
  listeners :=
    (s.listeners.filter fun l => l.clientAddr = c).map (Listener.rename (s.socketPlace c))
  received := s.received.filter fun x => x.1 = c
  sent := (s.sent.filter fun x => x.clientAddr = c).map (Sent.rename (s.socketPlace c))
  arrived := (s.arrived.filter fun x => s.sockets[x.socket]? = some c).map
    (Arrival.rename (s.socketPlace c))
  delivered := (s.delivered.filter fun d => d.dest = c).map (Delivery.rename (s.socketPlace c))

/-- The action as `c` sees it, if `c` sees it. -/
def seenAs : Action → Option Action
  | .datagram client d => if client = c then some (.datagram client d) else none
  | .control => some .control
  | .stop => some .stop
  | .task i e => (s.tasks[i]?).bind fun t =>
    if t.clientAddr = c then some (.task (s.taskPlace c i) e) else none
  | .listener j e => (s.listeners[j]?).bind fun l =>
    if l.clientAddr = c then some (.listener (s.listenerPlace c j) e) else none

/-- A datagram comes from `c`. -/
def Action.IsOf : Action → Prop
  | .datagram client _ => client = c
  | _ => True

/-- What holds in every reachable state: the ownership invariant, and packets
arrive at sockets that have been bound. -/
structure Apart : Prop where
  owned : Owned s
  arrived : ∀ x ∈ s.arrived, x.socket < s.sockets.length

variable {c s}

theorem apart_init : Apart init := ⟨owned_init, fun _ h => (by cases h)⟩

theorem Apart.step {s' : Relay} {a : Action} (h : Apart s) (hs : s.step a = some s') :
    Apart s' := by
  refine ⟨h.owned.step hs, ?_⟩
  cases stepped hs with
  | @bound i t target payload ht hpc =>
    intro x hx
    exact (h.arrived x hx).trans_le (List.length_append ▸ Nat.le_add_right _ _)
  | @arrived j l source d packet hl hpc hb =>
    intro x hx
    rcases List.mem_append.mp hx with hx | hx
    · exact h.arrived x hx
    · obtain rfl := List.mem_singleton.mp hx
      exact (List.getElem?_eq_some_iff.mp (h.owned.of_listener hl).socket).1
  | _ => exact h.arrived

/-! ### What a change looks like -/

theorem only_clientMap (c : SocketAddr) (s : Relay) :
    (s.only c).clientMap c = (s.clientMap c).map (s.socketPlace c) := by
  simp only [only, Function.update_self]

section Changes

variable {i j : ℕ} {t : PacketTask} {l : Listener}

theorem getElem?_only_tasks (ht : s.tasks[i]? = some t) (hc : t.clientAddr = c) :
    (s.only c).tasks[s.taskPlace c i]? = some (t.rename (s.socketPlace c)) := by
  rw [only, List.getElem?_map, taskPlace, getElem?_place ht (decide_eq_true hc)]
  rfl

theorem getElem?_only_listeners (hl : s.listeners[j]? = some l) (hc : l.clientAddr = c) :
    (s.only c).listeners[s.listenerPlace c j]? = some (l.rename (s.socketPlace c)) := by
  rw [only, List.getElem?_map, listenerPlace, getElem?_place hl (decide_eq_true hc)]
  rfl

theorem only_setTask (ht : s.tasks[i]? = some t) (hc : t.clientAddr = c) (pc : PacketPc) :
    (s.setTask i t pc).only c = (s.only c).setTask (s.taskPlace c i) (t.rename (s.socketPlace c))
      (pc.rename (s.socketPlace c)) := by
  have hset := @filter_set_place _ s.tasks i { t with pc } t
    (fun t => decide (t.clientAddr = c)) ht (decide_eq_true hc) (decide_eq_true hc)
  simp only [only, setTask, hset, List.map_set]
  rfl

theorem only_setTask_of_ne (ht : s.tasks[i]? = some t) (hc : t.clientAddr ≠ c) (pc : PacketPc) :
    (s.setTask i t pc).only c = s.only c := by
  have hset := @filter_set_of_not _ s.tasks i { t with pc } t
    (fun t => decide (t.clientAddr = c)) ht (by simpa using hc) (by simpa using hc)
  simp only [only, setTask, hset]
  rfl

theorem only_setListener (hl : s.listeners[j]? = some l) (hc : l.clientAddr = c)
    (pc : ListenerPc) : (s.setListener j l pc).only c =
      (s.only c).setListener (s.listenerPlace c j) (l.rename (s.socketPlace c)) pc := by
  have hset := @filter_set_place _ s.listeners j { l with pc } l
    (fun l => decide (l.clientAddr = c)) hl (decide_eq_true hc) (decide_eq_true hc)
  simp only [only, setListener, hset, List.map_set]
  rfl

theorem only_setListener_of_ne (hl : s.listeners[j]? = some l) (hc : l.clientAddr ≠ c)
    (pc : ListenerPc) : (s.setListener j l pc).only c = s.only c := by
  have hset := @filter_set_of_not _ s.listeners j { l with pc } l
    (fun l => decide (l.clientAddr = c)) hl (by simpa using hc) (by simpa using hc)
  simp only [only, setListener, hset]
  rfl

/-! #### Binding a socket -/

theorem socketPlace_bindSocket {k : ℕ} (hk : k ≤ s.sockets.length) (client : SocketAddr) :
    (s.bindSocket client).socketPlace c k = s.socketPlace c k := place_append hk [client]

theorem Ledger.BoundFor.le {k : ℕ} {client : SocketAddr} (h : s.ledger.BoundFor k client) :
    k ≤ s.sockets.length := Nat.le_of_lt (List.getElem?_eq_some_iff.mp h).1

theorem only_bindSocket_eq (h : Apart s) (client : SocketAddr) :
    (s.bindSocket client).only c =
      { s.only c with sockets := (s.sockets ++ [client]).filter fun a => a = c } := by
  have hmap : (s.clientMap c).map ((s.bindSocket client).socketPlace c) =
      (s.clientMap c).map (s.socketPlace c) := by
    refine Option.map_congr fun k hk => ?_
    exact socketPlace_bindSocket (Ledger.BoundFor.le (h.owned.map c k hk)) client
  have htasks : ∀ t ∈ s.tasks, t.rename ((s.bindSocket client).socketPlace c) =
      t.rename (s.socketPlace c) := by
    intro t ht
    have hpc : t.pc.rename ((s.bindSocket client).socketPlace c) =
        t.pc.rename (s.socketPlace c) := by
      refine PacketPc.rename_congr fun k hk => ?_
      exact socketPlace_bindSocket (Ledger.BoundFor.le ((h.owned.task t ht).socket k hk)) client
    rw [PacketTask.rename, hpc]
    rfl
  have hlisteners : ∀ l ∈ s.listeners, l.rename ((s.bindSocket client).socketPlace c) =
      l.rename (s.socketPlace c) := by
    intro l hl
    rw [Listener.rename,
      socketPlace_bindSocket (Ledger.BoundFor.le (h.owned.listener l hl).socket) client]
    rfl
  have hsent : ∀ x ∈ s.sent, x.rename ((s.bindSocket client).socketPlace c) =
      x.rename (s.socketPlace c) := by
    intro x hx
    rw [Sent.rename, socketPlace_bindSocket (Ledger.BoundFor.le (h.owned.sent x hx).socket) client]
    rfl
  have harrived : ∀ x ∈ s.arrived, x.rename ((s.bindSocket client).socketPlace c) =
      x.rename (s.socketPlace c) := by
    intro x hx
    rw [Arrival.rename, socketPlace_bindSocket (Nat.le_of_lt (h.arrived x hx)) client]
    rfl
  have howner : ∀ x ∈ s.arrived, decide ((s.sockets ++ [client])[x.socket]? = some c) =
      decide (s.sockets[x.socket]? = some c) := by
    intro x hx
    rw [List.getElem?_append_left (h.arrived x hx)]
  have hdelivered : ∀ d ∈ s.delivered, d.rename ((s.bindSocket client).socketPlace c) =
      d.rename (s.socketPlace c) := by
    intro d hd
    rw [Delivery.rename, harrived _ (h.owned.delivered d hd).arrived]
    rfl
  have hfilter : ∀ {α : Type} {p : α → Bool} {xs : List α} {f g : α → α},
      (∀ x ∈ xs, f x = g x) → (xs.filter p).map f = (xs.filter p).map g :=
    fun hfg => List.map_congr_left fun x hx => hfg x (List.mem_of_mem_filter hx)
  ext1
  · rfl
  · exact congrArg (Function.update (fun _ => none) c) hmap
  · rfl
  · exact hfilter htasks
  · exact hfilter hlisteners
  · rfl
  · exact hfilter hsent
  · exact (hfilter harrived).trans (congrArg _ (List.filter_congr howner))
  · exact hfilter hdelivered

theorem only_bindSocket (h : Apart s) : (s.bindSocket c).only c = (s.only c).bindSocket c := by
  rw [only_bindSocket_eq h, List.filter_append, List.filter_singleton, decide_eq_true rfl]
  rfl

theorem only_bindSocket_of_ne (h : Apart s) {client : SocketAddr} (hc : client ≠ c) :
    (s.bindSocket client).only c = s.only c := by
  rw [only_bindSocket_eq h, List.filter_append, List.filter_singleton, decide_eq_false hc,
    cond_false, List.append_nil]
  rfl

/-! #### The map and the logs -/

theorem entry_congr {m m' : Option ℕ} (h : m = m') (r : ℕ → ℕ) :
    Function.update (fun _ : SocketAddr => none) c (m.map r) =
      Function.update (fun _ => none) c (m'.map r) := by rw [h]

theorem only_register {target : TargetAddr} {socket : ℕ} : (s.register c target socket).only c =
    (s.only c).register c target (s.socketPlace c socket) := by
  refine Relay.ext rfl ?_ rfl rfl ?_ rfl rfl rfl rfl
  · refine (entry_congr (register_self s c target socket) _).trans ?_
    exact (Function.update_idem _ _ _).symm
  · refine map_filter_concat ?_ _
    exact decide_eq_true rfl

theorem only_register_of_ne {client : SocketAddr} (hc : client ≠ c) {target : TargetAddr}
    {socket : ℕ} : (s.register client target socket).only c = s.only c := by
  refine Relay.ext rfl ?_ rfl rfl ?_ rfl rfl rfl rfl
  · exact entry_congr (register_of_ne hc.symm) _
  · refine map_filter_concat_of_not ?_ _
    simpa using hc

theorem only_remove : (s.remove c).only c = (s.only c).remove c := by
  refine Relay.ext rfl ?_ rfl rfl rfl rfl rfl rfl rfl
  refine (entry_congr (remove_self s c) _).trans ?_
  exact (Function.update_idem _ _ _).symm

theorem only_remove_of_ne {client : SocketAddr} (hc : client ≠ c) :
    (s.remove client).only c = s.only c :=
  Relay.ext rfl (entry_congr (remove_of_ne hc.symm) _) rfl rfl rfl rfl rfl rfl rfl

theorem only_logSent {x : Sent} (hc : x.clientAddr = c) :
    (s.logSent x).only c = (s.only c).logSent (x.rename (s.socketPlace c)) := by
  refine Relay.ext rfl rfl rfl rfl rfl rfl (map_filter_concat ?_ _) rfl rfl
  exact decide_eq_true hc

theorem only_logSent_of_ne {x : Sent} (hc : x.clientAddr ≠ c) :
    (s.logSent x).only c = s.only c := by
  refine Relay.ext rfl rfl rfl rfl rfl rfl (map_filter_concat_of_not ?_ _) rfl rfl
  simpa using hc

theorem only_logArrival {x : Arrival} (hc : s.ledger.BoundFor x.socket c) :
    (s.logArrival x).only c = (s.only c).logArrival (x.rename (s.socketPlace c)) := by
  refine Relay.ext rfl rfl rfl rfl rfl rfl rfl (map_filter_concat ?_ _) rfl
  exact decide_eq_true hc

theorem only_logArrival_of_ne {x : Arrival} {client : SocketAddr}
    (hb : s.ledger.BoundFor x.socket client) (hc : client ≠ c) :
    (s.logArrival x).only c = s.only c := by
  refine Relay.ext rfl rfl rfl rfl rfl rfl rfl (map_filter_concat_of_not ?_ _) rfl
  intro h
  exact hc (Option.some.inj (hb.symm.trans (of_decide_eq_true h)))

theorem only_logDelivery {x : Delivery} (hc : x.dest = c) :
    (s.logDelivery x).only c = (s.only c).logDelivery (x.rename (s.socketPlace c)) := by
  refine Relay.ext rfl rfl rfl rfl rfl rfl rfl rfl (map_filter_concat ?_ _)
  exact decide_eq_true hc

theorem only_logDelivery_of_ne {x : Delivery} (hc : x.dest ≠ c) :
    (s.logDelivery x).only c = s.only c := by
  refine Relay.ext rfl rfl rfl rfl rfl rfl rfl rfl (map_filter_concat_of_not ?_ _)
  simpa using hc

end Changes

/-! ### Every step -/

variable {i j : ℕ} {t : PacketTask} {l : Listener}

/-- **A task of `c`** moves as it would in the relay of `c` alone. -/
theorem stepTask_only (h : Apart s) (ht : s.tasks[i]? = some t) (hc : t.clientAddr = c)
    (pc : PacketPc) (e : Event) :
    (s.only c).stepTask (s.taskPlace c i) (t.rename (s.socketPlace c))
      (pc.rename (s.socketPlace c)) e = (s.stepTask i t pc e).map (only c) := by
  have hset : ∀ pc pc', pc.rename (s.socketPlace c) = pc' →
      some ((s.only c).setTask (s.taskPlace c i) (t.rename (s.socketPlace c)) pc') =
        some ((s.setTask i t pc).only c) := by
    rintro pc _ rfl
    rw [only_setTask ht hc]
  subst hc
  cases pc with
  | parse =>
    cases e with
    | go =>
      simp only [stepTask, PacketPc.rename, PacketTask.rename_packetData]
      cases parseSocks5UdpPacket t.packetData with
      | ok r => exact hset _ _ rfl
      | error e => exact hset _ _ rfl
    | _ => rfl
  | lookup target payload =>
    cases e with
    | go =>
      simp only [stepTask, PacketPc.rename, PacketTask.rename_clientAddr, only_clientMap]
      cases s.clientMap t.clientAddr with
      | some socket => exact hset _ _ rfl
      | none => exact hset _ _ rfl
    | _ => rfl
  | bind target payload =>
    cases e with
    | bound ok =>
      cases ok with
      | true =>
        have hnew : (s.bindSocket t.clientAddr).socketPlace t.clientAddr s.sockets.length =
            (s.only t.clientAddr).sockets.length :=
          (socketPlace_bindSocket (Nat.le_refl _) _).trans (place_length _)
        refine congrArg some ?_
        have hmove := @only_setTask t.clientAddr (s.bindSocket t.clientAddr) i t ht rfl
          (.insert target payload s.sockets.length)
        rw [hmove, only_bindSocket h, PacketPc.rename, hnew]
        rfl
      | false => exact hset _ _ rfl
    | _ => rfl
  | insert target payload socket =>
    cases e with
    | go =>
      refine congrArg some ?_
      have hmove := @only_setTask t.clientAddr (s.register t.clientAddr target socket) i t ht rfl
        (.resolve target payload socket)
      rw [hmove, only_register]
      rfl
    | _ => rfl
  | resolve target payload socket =>
    cases e with
    | resolved lookupHost =>
      simp only [stepTask, PacketPc.rename]
      cases resolveTargetAddr lookupHost target with
      | ok addr => exact hset _ _ rfl
      | error e => exact hset _ _ rfl
    | _ => rfl
  | send target payload socket addr =>
    cases e with
    | sent ok =>
      cases ok with
      | true =>
        refine congrArg some ?_
        have hmove := @only_setTask t.clientAddr
          (s.logSent ⟨socket, t.clientAddr, target, addr, payload⟩) i t ht rfl .done
        have hlog := @only_logSent t.clientAddr s ⟨socket, t.clientAddr, target, addr, payload⟩ rfl
        rw [hmove, hlog]
        rfl
      | false => exact hset _ _ rfl
    | _ => rfl
  | done => rfl

/-- **A listener of `c`** moves as it would in the relay of `c` alone. -/
theorem stepListener_only (h : Apart s) (hl : s.listeners[j]? = some l) (hc : l.clientAddr = c)
    (pc : ListenerPc) (e : Event) :
    (s.only c).stepListener (s.listenerPlace c j) (l.rename (s.socketPlace c)) pc e =
      (s.stepListener j l pc e).map (only c) := by
  have hset : ∀ pc, some ((s.only c).setListener (s.listenerPlace c j)
      (l.rename (s.socketPlace c)) pc) = some ((s.setListener j l pc).only c) := by
    intro pc
    rw [only_setListener hl hc]
  have hb : s.ledger.BoundFor l.targetSocket c := hc ▸ (h.owned.of_listener hl).socket
  subst hc
  cases pc with
  | receive =>
    cases e with
    | received source d =>
      simp only [stepListener, Listener.rename_targetAddr]
      cases buildSocks5UdpResponse l.targetAddr d.received with
      | ok packet =>
        refine congrArg some ?_
        have hmove := @only_setListener l.clientAddr
          (s.logArrival ⟨l.targetSocket, source, d.bytes⟩) j l hl rfl
          (.reply source d.received packet)
        rw [hmove, only_logArrival hb]
        rfl
      | error e => rfl
    | recvFailed => exact hset _
    | _ => rfl
  | reply source payload packet =>
    cases e with
    | replied ok =>
      cases ok with
      | true =>
        refine congrArg some ?_
        have hmove := @only_setListener l.clientAddr
          (s.logDelivery ⟨⟨l.targetSocket, source, payload⟩, l.clientAddr, packet⟩) j l hl rfl
          .receive
        have hlog := @only_logDelivery l.clientAddr s
          ⟨⟨l.targetSocket, source, payload⟩, l.clientAddr, packet⟩ rfl
        rw [hmove, hlog]
        rfl
      | false => exact hset _
    | _ => rfl
  | cleanup =>
    cases e with
    | go =>
      refine congrArg some ?_
      have hmove := @only_setListener l.clientAddr (s.remove l.clientAddr) j l hl rfl .done
      rw [hmove, only_remove]
      rfl
    | _ => rfl
  | done => rfl

theorem only_datagram (d : Datagram) :
    { s.only c with
      received := (s.only c).received ++ [(c, d.bytes)]
      tasks := (s.only c).tasks ++ [⟨d.received, c, .parse⟩] } =
    only c { s with
      received := s.received ++ [(c, d.bytes)]
      tasks := s.tasks ++ [⟨d.received, c, .parse⟩] } := by
  simp only [only, List.filter_append, List.filter_singleton, decide_true, cond_true,
    List.map_append, List.map_cons, List.map_nil]
  rfl

/-- **What `c` sees is what the relay of `c` alone does.** -/
theorem step_only (h : Apart s) {a b : Action} (hb : s.seenAs c a = some b) :
    (s.only c).step b = (s.step a).map (only c) := by
  cases a with
  | datagram client d =>
    by_cases hc : client = c
    · subst hc
      obtain rfl := Option.some.inj ((if_pos rfl).symm.trans hb)
      change (if s.running then _ else _) = Option.map _ (if s.running then _ else _)
      by_cases hr : s.running
      · rw [if_pos hr, if_pos hr]
        exact congrArg some (only_datagram d)
      · rw [if_neg hr, if_neg hr]
        rfl
    · cases (if_neg hc).symm.trans hb
  | control =>
    cases hb
    change (if s.running then _ else _) = Option.map _ (if s.running then _ else _)
    by_cases hr : s.running
    · rw [if_pos hr, if_pos hr]
      rfl
    · rw [if_neg hr, if_neg hr]
      rfl
  | stop =>
    cases hb
    change (if s.running then _ else _) = Option.map _ (if s.running then _ else _)
    by_cases hr : s.running
    · rw [if_pos hr, if_pos hr]
      rfl
    · rw [if_neg hr, if_neg hr]
      rfl
  | task i e =>
    obtain ⟨t, ht, hb⟩ := Option.bind_eq_some_iff.mp hb
    by_cases hc : t.clientAddr = c
    · obtain rfl := Option.some.inj ((if_pos hc).symm.trans hb)
      rw [step, getElem?_only_tasks ht hc, step, ht]
      exact stepTask_only h ht hc t.pc e
    · cases (if_neg hc).symm.trans hb
  | listener j e =>
    obtain ⟨l, hl, hb⟩ := Option.bind_eq_some_iff.mp hb
    by_cases hc : l.clientAddr = c
    · obtain rfl := Option.some.inj ((if_pos hc).symm.trans hb)
      rw [step, getElem?_only_listeners hl hc, step, hl]
      exact stepListener_only h hl hc l.pc e
    · cases (if_neg hc).symm.trans hb

theorem clientAddr_ne_of_unseen {e : Event} (ht : s.tasks[i]? = some t)
    (h : s.seenAs c (.task i e) = none) : t.clientAddr ≠ c := by
  intro hc
  rw [seenAs, ht, Option.bind_some, if_pos hc] at h
  cases h

theorem listener_ne_of_unseen {e : Event} (hl : s.listeners[j]? = some l)
    (h : s.seenAs c (.listener j e) = none) : l.clientAddr ≠ c := by
  intro hc
  rw [seenAs, hl, Option.bind_some, if_pos hc] at h
  cases h

/-- **What the others do is not seen.** -/
theorem only_of_unseen (h : Apart s) {s' : Relay} {a : Action} (hn : s.seenAs c a = none)
    (hs : s.step a = some s') : s'.only c = s.only c := by
  cases stepped hs with
  | datagram client d =>
    have hc : client ≠ c := by
      rintro rfl
      cases (if_pos rfl).symm.trans hn
    refine Relay.ext rfl rfl rfl (map_filter_concat_of_not ?_ _) rfl ?_ rfl rfl rfl
    · simpa using hc
    · simp only [only, List.filter_append, List.filter_singleton, decide_eq_false hc, cond_false,
        List.append_nil]
  | control => cases hn
  | stop => cases hn
  | parsed ht hpc hp => exact only_setTask_of_ne ht (clientAddr_ne_of_unseen ht hn) _
  | ended ht he => exact only_setTask_of_ne ht (clientAddr_ne_of_unseen ht hn) _
  | found ht hpc hm => exact only_setTask_of_ne ht (clientAddr_ne_of_unseen ht hn) _
  | missed ht hpc hm => exact only_setTask_of_ne ht (clientAddr_ne_of_unseen ht hn) _
  | @bound i t target payload ht hpc =>
    have hc := clientAddr_ne_of_unseen ht hn
    exact (@only_setTask_of_ne c (s.bindSocket t.clientAddr) i t ht hc _).trans
      (only_bindSocket_of_ne h hc)
  | @inserted i t target payload socket ht hpc =>
    have hc := clientAddr_ne_of_unseen ht hn
    exact (@only_setTask_of_ne c (s.register t.clientAddr target socket) i t ht hc _).trans
      (only_register_of_ne hc)
  | resolved ht hpc hr => exact only_setTask_of_ne ht (clientAddr_ne_of_unseen ht hn) _
  | @sent i t target payload socket addr ht hpc =>
    have hc := clientAddr_ne_of_unseen ht hn
    have hmove := @only_setTask_of_ne c (s.logSent ⟨socket, t.clientAddr, target, addr, payload⟩)
      i t ht hc .done
    refine hmove.trans (only_logSent_of_ne ?_)
    exact hc
  | @arrived j l source d packet hl hpc hb =>
    have hc := listener_ne_of_unseen hl hn
    have hmove := @only_setListener_of_ne c (s.logArrival ⟨l.targetSocket, source, d.bytes⟩)
      j l hl hc (.reply source d.received packet)
    exact hmove.trans (only_logArrival_of_ne (h.owned.of_listener hl).socket hc)
  | broken hl hpc he => exact only_setListener_of_ne hl (listener_ne_of_unseen hl hn) _
  | @delivered j l source payload packet hl hpc =>
    have hc := listener_ne_of_unseen hl hn
    have hmove := @only_setListener_of_ne c
      (s.logDelivery ⟨⟨l.targetSocket, source, payload⟩, l.clientAddr, packet⟩) j l hl hc .receive
    refine hmove.trans (only_logDelivery_of_ne ?_)
    exact hc
  | @removed j l hl hpc =>
    have hc := listener_ne_of_unseen hl hn
    exact (@only_setListener_of_ne c (s.remove l.clientAddr) j l hl hc .done).trans
      (only_remove_of_ne hc)

theorem isOf_of_seenAs {a b : Action} (hb : s.seenAs c a = some b) : b.IsOf c := by
  cases a with
  | datagram client d =>
    by_cases hc : client = c
    · obtain rfl := Option.some.inj ((if_pos hc).symm.trans hb)
      exact hc
    · cases (if_neg hc).symm.trans hb
  | control =>
    cases hb
    trivial
  | stop =>
    cases hb
    trivial
  | task i e =>
    obtain ⟨t, ht, hb⟩ := Option.bind_eq_some_iff.mp hb
    by_cases hc : t.clientAddr = c
    · obtain rfl := Option.some.inj ((if_pos hc).symm.trans hb)
      trivial
    · cases (if_neg hc).symm.trans hb
  | listener j e =>
    obtain ⟨l, hl, hb⟩ := Option.bind_eq_some_iff.mp hb
    by_cases hc : l.clientAddr = c
    · obtain rfl := Option.some.inj ((if_pos hc).symm.trans hb)
      trivial
    · cases (if_neg hc).symm.trans hb

theorem exists_seenAs {b : Action} {u : Relay} (hb : b.IsOf c)
    (hs : (s.only c).step b = some u) : ∃ a, s.seenAs c a = some b := by
  cases b with
  | datagram client d => exact ⟨.datagram client d, if_pos hb⟩
  | control => exact ⟨.control, rfl⟩
  | stop => exact ⟨.stop, rfl⟩
  | task i e =>
    obtain ⟨t, ht, -⟩ := Option.bind_eq_some_iff.mp hs
    rw [only, List.getElem?_map] at ht
    obtain ⟨t', ht', -⟩ := Option.map_eq_some_iff.mp ht
    obtain ⟨i', hi', hc, hplace⟩ := exists_place ht'
    refine ⟨.task i' e, ?_⟩
    rw [seenAs, hi', Option.bind_some, if_pos (of_decide_eq_true hc), taskPlace, hplace]
  | listener j e =>
    obtain ⟨l, hl, -⟩ := Option.bind_eq_some_iff.mp hs
    rw [only, List.getElem?_map] at hl
    obtain ⟨l', hl', -⟩ := Option.map_eq_some_iff.mp hl
    obtain ⟨j', hj', hc, hplace⟩ := exists_place hl'
    refine ⟨.listener j' e, ?_⟩
    rw [seenAs, hj', Option.bind_some, if_pos (of_decide_eq_true hc), listenerPlace, hplace]

/-- **The view of a client is a relay.** -/
theorem shows_only (c : SocketAddr) :
    Runs.Shows step step Apart (only c) (seenAs c) (Action.IsOf c) where
  keeps _ _ _ h hs := h.step hs
  seen _ _ _ h hb := step_only h hb
  unseen _ _ _ h hn hs := only_of_unseen h hn hs
  own _ _ _ hb := isOf_of_seenAs hb
  covers _ _ _ _ hb hs := exists_seenAs hb hs

theorem only_init (c : SocketAddr) : init.only c = init :=
  Relay.ext rfl (Function.update_eq_self c _) rfl rfl rfl rfl rfl rfl rfl

/-- **A client is served as if it were alone.**  Whatever the other clients of
the association do, what it does for `c` is a run of a relay that has had
datagrams from `c` only; and whatever that relay could do next, this one can do
next, with the same outcome for `c`. -/
theorem client_served_alone (c : SocketAddr) {as : List Action} {s : Relay}
    (h : Runs.run step init as = some s) :
    (∀ b ∈ Runs.labels step (seenAs c) init as, b.IsOf c) ∧
    Runs.run step init (Runs.labels step (seenAs c) init as) = some (s.only c) ∧
    ∀ bs u, (∀ b ∈ bs, b.IsOf c) → Runs.run step (s.only c) bs = some u →
      ∃ as' s', Runs.run step s as' = some s' ∧ s'.only c = u ∧
        Runs.labels step (seenAs c) s as' = bs := by
  have hs : Apart s := Runs.run_invariant (fun _ _ _ ha hs => ha.step hs) apart_init h
  refine ⟨(shows_only c).labels_own h, ?_, fun bs u hb hu => (shows_only c).run_shown hs hb hu⟩
  have hrun := (shows_only c).run_seen apart_init h
  rw [only_init] at hrun
  exact hrun

def firstClient : SocketAddr := .v4 (.new 192 0 2 1) 40000

/-- Two clients send at once; the second gets its socket first. -/
def crossRun : List Action :=
  let other : SocketAddr := .v4 (.new 192 0 2 2) 40000
  let d : Datagram := .ofBytes [0, 0, 0, 1, 192, 0, 2, 53, 0, 53, 7, 8]
  [.datagram firstClient d, .datagram other d, .task 0 .go, .task 1 .go, .task 0 .go, .task 1 .go,
    .task 1 (.bound true), .task 0 (.bound true), .task 1 .go, .task 0 .go,
    .task 0 (.resolved fun _ => .ok []), .task 1 (.resolved fun _ => .ok []),
    .task 0 (.sent true)]

theorem crossRun_runs : (Runs.run step init crossRun).isSome = true := by decide

def crossEnd : Relay := (Runs.run step init crossRun).get crossRun_runs

theorem client_served_alone_cross :
    (crossEnd.clientMap firstClient, (crossEnd.only firstClient).clientMap firstClient) =
      (some 1, some 0) ∧
    (∀ b ∈ Runs.labels step (seenAs firstClient) init crossRun, b.IsOf firstClient) ∧
    Runs.run step init (Runs.labels step (seenAs firstClient) init crossRun) =
      some (crossEnd.only firstClient) ∧
    ∀ bs u, (∀ b ∈ bs, b.IsOf firstClient) → Runs.run step (crossEnd.only firstClient) bs = some u →
      ∃ as' s', Runs.run step crossEnd as' = some s' ∧ s'.only firstClient = u ∧
        Runs.labels step (seenAs firstClient) crossEnd as' = bs :=
  ⟨by decide, client_served_alone firstClient (Option.some_get crossRun_runs).symm⟩

end Relay

end Peregrine
