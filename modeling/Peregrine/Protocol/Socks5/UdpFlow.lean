import Peregrine.Lib.Table
import Peregrine.Protocol.Socks5.UdpOwnership

/-!
# One flow per client

A client should have one target socket at a time, with one listener on it,
entered in the map; then its datagrams leave from one port and the listener's
cleanup removes its own entry (`OneFlow`).  The lookup and the insert of a task
are separate steps with the bind between them, so a second task of the same
client may insert in between, and nothing keeps an old socket from being used by
a task that looked it up before the flow ended.

`oneFlow_iff` says this is all that can go wrong: a run keeps to one flow per
client exactly when every insert finds no entry for its client and no task of
the client still about to send.  `Registered` is what holds in every run: an
entry of the map has a live listener, and a socket not yet inserted is known to
its task alone.
-/

namespace Peregrine

open Table

def PacketPc.sending : PacketPc → Option ℕ
  | .resolve _ _ socket | .send _ _ socket _ => some socket
  | _ => none

theorem PacketPc.socket_of_sending {pc : PacketPc} {k : ℕ} (h : pc.sending = some k) :
    pc.socket = some k := by
  cases pc <;> first | exact h | cases h

def Listener.Live (l : Listener) : Prop := l.pc ≠ .done

namespace Relay

/-- **One flow per client**: at most one live listener, on the socket the map
holds, and every task about to send sends through that socket. -/
structure OneFlow (s : Relay) : Prop where
  single : ∀ (j k : ℕ) (l m : Listener), s.listeners[j]? = some l → s.listeners[k]? = some m →
    l.Live → m.Live → l.clientAddr = m.clientAddr → j = k
  mapped : ∀ l ∈ s.listeners, l.Live → s.clientMap l.clientAddr = some l.targetSocket
  same_port : ∀ t ∈ s.tasks, ∀ k, t.pc.sending = some k → ∀ l ∈ s.listeners, l.Live →
    l.clientAddr = t.clientAddr → k = l.targetSocket

/-- An insert finds no entry for its client, and no task of the client about to send. -/
def FreshInsert (s : Relay) : Action → Prop
  | .task i .go => ∀ t target payload socket, s.tasks[i]? = some t →
    t.pc = .insert target payload socket → s.clientMap t.clientAddr = none ∧
      ∀ t' ∈ s.tasks, t'.clientAddr = t.clientAddr → t'.pc.sending = none
  | _ => True

/-- What every run keeps. -/
structure Registered (s : Relay) : Prop where
  backed : ∀ client k, s.clientMap client = some k →
    ∃ l ∈ s.listeners, l.Live ∧ l.clientAddr = client ∧ l.targetSocket = k
  unmapped : ∀ (i : ℕ) (t : PacketTask) target payload k, s.tasks[i]? = some t →
    t.pc = .insert target payload k → ∀ client, s.clientMap client ≠ some k
  unshared : ∀ (i : ℕ) (t : PacketTask) target payload k, s.tasks[i]? = some t →
    t.pc = .insert target payload k → ∀ (i' : ℕ) (t' : PacketTask), s.tasks[i']? = some t' →
    i' ≠ i → t'.pc.socket ≠ some k

theorem Registered.setTask {s : Relay} (h : Registered s) {i : ℕ} {t : PacketTask} {pc : PacketPc}
    (hins : ∀ target payload k, pc = .insert target payload k →
      (∀ client, s.clientMap client ≠ some k) ∧
      ∀ (i' : ℕ) (t' : PacketTask), s.tasks[i']? = some t' → i' ≠ i → t'.pc.socket ≠ some k)
    (hsock : ∀ k, pc.socket = some k → ∀ (i' : ℕ) (t' : PacketTask) target payload,
      s.tasks[i']? = some t' → i' ≠ i → t'.pc ≠ .insert target payload k) :
    Registered (s.setTask i t pc) where
  backed := h.backed
  unmapped i' t' target payload k ht' hpc := by
    rcases getElem?_set_cases ht' with ⟨rfl, rfl⟩ | ⟨-, ht'⟩
    · exact (hins target payload k hpc).1
    · exact h.unmapped i' t' target payload k ht' hpc
  unshared i' t' target payload k ht' hpc i'' t'' ht'' hne := by
    rcases getElem?_set_cases ht' with ⟨rfl, rfl⟩ | ⟨hi, hold⟩
    · rcases getElem?_set_cases ht'' with ⟨rfl, rfl⟩ | ⟨-, ht''⟩
      · exact absurd rfl hne
      · exact (hins target payload k hpc).2 i'' t'' ht'' hne
    · rcases getElem?_set_cases ht'' with ⟨rfl, rfl⟩ | ⟨-, ht''⟩
      · exact fun hk => hsock k hk i' t' target payload hold hi hpc
      · exact h.unshared i' t' target payload k hold hpc i'' t'' ht'' hne

theorem Registered.setTask_keep {s : Relay} (h : Registered s) {i : ℕ} {t : PacketTask}
    {pc : PacketPc} (ht : s.tasks[i]? = some t)
    (hpc : ∀ target payload k, pc ≠ .insert target payload k)
    (hsock : ∀ k, pc.socket = some k → t.pc.socket = some k) : Registered (s.setTask i t pc) := by
  refine h.setTask (fun target payload k hk => absurd hk (hpc target payload k)) ?_
  intro k hk i' t' target payload ht' hne hins
  exact h.unshared i' t' target payload k ht' hins i t ht (Ne.symm hne) (hsock k hk)

theorem Registered.setListener {s : Relay} (h : Registered s) {j : ℕ} {l : Listener}
    {pc : ListenerPc} (hl : s.listeners[j]? = some l) (hpc : pc ≠ .done) :
    Registered (s.setListener j l pc) where
  backed client k hk := by
    obtain ⟨m, hm, hlive, hc, hs⟩ := h.backed client k hk
    obtain ⟨j', hj'⟩ := List.getElem?_of_mem hm
    by_cases hj : j' = j
    · subst hj
      obtain rfl := Option.some.inj (hl.symm.trans hj')
      exact ⟨{ l with pc }, mem_set_self hl, hpc, hc, hs⟩
    · exact ⟨m, mem_set_of_ne hj' hj, hlive, hc, hs⟩
  unmapped := h.unmapped
  unshared := h.unshared

theorem Registered.logged {s s' : Relay} (h : Registered s) (hm : s'.clientMap = s.clientMap)
    (ht : s'.tasks = s.tasks) (hl : s'.listeners = s.listeners) : Registered s' := by
  obtain ⟨hb, hu, hs⟩ := h
  constructor
  · rw [hm, hl]
    exact hb
  · rw [ht, hm]
    exact hu
  · rw [ht]
    exact hs

theorem registered_init : Registered init :=
  ⟨fun _ _ h => (by cases h), fun _ _ _ _ _ h => (by cases h), fun _ _ _ _ _ h => (by cases h)⟩

theorem BoundFor.lt {s : Relay} {k : ℕ} {client : SocketAddr} (h : s.ledger.BoundFor k client) :
    k < s.sockets.length := (List.getElem?_eq_some_iff.mp h).1

theorem Registered.spawn {s : Relay} (h : Registered s) (t : PacketTask)
    (hpc : ∀ target payload k, t.pc ≠ .insert target payload k) (hsock : t.pc.socket = none) :
    Registered { s with tasks := s.tasks ++ [t] } where
  backed := h.backed
  unmapped i t' target payload k ht hins := by
    rcases getElem?_concat_cases ht with ht | ⟨-, rfl⟩
    · exact h.unmapped i t' target payload k ht hins
    · exact absurd hins (hpc target payload k)
  unshared i t' target payload k ht hins i' t'' ht' hne := by
    rcases getElem?_concat_cases ht with ht | ⟨-, rfl⟩
    · rcases getElem?_concat_cases ht' with ht' | ⟨-, rfl⟩
      · exact h.unshared i t' target payload k ht hins i' t'' ht' hne
      · rw [hsock]
        exact nofun
    · exact absurd hins (hpc target payload k)

theorem Registered.insert {s : Relay} (h : Registered s) {i : ℕ} {t : PacketTask}
    {target : TargetAddr} {payload : List UInt8} {socket : ℕ} (ht : s.tasks[i]? = some t)
    (hpc : t.pc = .insert target payload socket) : Registered
      ((s.register t.clientAddr target socket).setTask i t (.resolve target payload socket)) := by
  have ho : t.pc.socket = some socket := by
    rw [hpc]
    rfl
  constructor
  · intro client k hk
    change (s.register t.clientAddr target socket).clientMap client = some k at hk
    by_cases hc : client = t.clientAddr
    · subst hc
      rw [register_self] at hk
      obtain rfl := Option.some.inj hk
      exact ⟨_, List.mem_append_right _ (List.mem_singleton.mpr rfl), nofun, rfl, rfl⟩
    · rw [register_of_ne hc] at hk
      obtain ⟨l, hl, hlive⟩ := h.backed client k hk
      exact ⟨l, List.mem_append_left _ hl, hlive⟩
  · intro i' t' target' payload' k ht' hpc' client hk
    rcases getElem?_set_cases ht' with ⟨rfl, rfl⟩ | ⟨hi, hold⟩
    · cases hpc'
    · change (s.register t.clientAddr target socket).clientMap client = some k at hk
      by_cases hc : client = t.clientAddr
      · subst hc
        rw [register_self] at hk
        obtain rfl := Option.some.inj hk
        exact h.unshared i' t' target' payload' _ hold hpc' i t ht (Ne.symm hi) ho
      · rw [register_of_ne hc] at hk
        exact h.unmapped i' t' target' payload' k hold hpc' client hk
  · intro i' t' target' payload' k ht' hpc' i'' t'' ht'' hne
    rcases getElem?_set_cases ht' with ⟨rfl, rfl⟩ | ⟨hi, hold⟩
    · cases hpc'
    · rcases getElem?_set_cases ht'' with ⟨rfl, rfl⟩ | ⟨-, hold''⟩
      · rw [show PacketPc.socket _ = some socket from rfl, ← ho]
        exact h.unshared i' t' target' payload' k hold hpc' _ t ht hne
      · exact h.unshared i' t' target' payload' k hold hpc' i'' t'' hold'' hne

theorem Registered.removeDone {s : Relay} (h : Registered s) {j : ℕ} {l : Listener}
    (hl : s.listeners[j]? = some l) :
    Registered ((s.remove l.clientAddr).setListener j l .done) := by
  have hmap : ∀ client k, (s.remove l.clientAddr).clientMap client = some k →
      client ≠ l.clientAddr ∧ s.clientMap client = some k := by
    intro client k hk
    by_cases hc : client = l.clientAddr
    · subst hc
      rw [remove_self] at hk
      cases hk
    · rw [remove_of_ne hc] at hk
      exact ⟨hc, hk⟩
  refine ⟨fun client k hk => ?_, fun i t target payload k ht hpc client hk => ?_, h.unshared⟩
  · obtain ⟨hc, hk⟩ := hmap client k hk
    obtain ⟨m, hm, hlive, hmc, hms⟩ := h.backed client k hk
    obtain ⟨j', hj'⟩ := List.getElem?_of_mem hm
    refine ⟨m, mem_set_of_ne hj' ?_, hlive, hmc, hms⟩
    rintro rfl
    obtain rfl := Option.some.inj (hl.symm.trans hj')
    exact hc hmc.symm
  · exact h.unmapped i t target payload k ht hpc client (hmap client k hk).2

/-- **Every step keeps the map backed and new sockets to their tasks.** -/
theorem Registered.step {s s' : Relay} {a : Action} (o : Owned s) (h : Registered s)
    (hs : s.step a = some s') : Registered s' := by
  cases stepped hs with
  | datagram client d => exact (h.spawn ⟨d.received, client, .parse⟩ nofun rfl).logged rfl rfl rfl
  | control => exact h
  | stop => exact h.logged rfl rfl rfl
  | parsed ht hpc hp => exact h.setTask_keep ht nofun nofun
  | ended ht he => exact h.setTask_keep ht nofun nofun
  | @found i t target payload socket ht hpc hm =>
    refine h.setTask nofun fun k hk i' t' target payload ht' hne hins => ?_
    obtain rfl := Option.some.inj hk
    exact h.unmapped i' t' target payload _ ht' hins _ hm
  | missed ht hpc hm => exact h.setTask_keep ht nofun nofun
  | @bound i t target payload ht hpc =>
    have hb : Registered (s.bindSocket t.clientAddr) := h.logged rfl rfl rfl
    refine hb.setTask (fun target payload k hk => ?_)
      fun k hk i' t' target payload ht' hne hins => ?_
    · cases hk
      refine ⟨fun client hc => ?_, fun i' t' ht' hne hk => ?_⟩
      · exact absurd (BoundFor.lt (o.map client _ hc)) (Nat.lt_irrefl _)
      · exact absurd (BoundFor.lt ((o.of_task ht').socket _ hk)) (Nat.lt_irrefl _)
    · obtain rfl := Option.some.inj hk
      have hk' : t'.pc.socket = some s.sockets.length := by rw [hins]; rfl
      exact absurd (BoundFor.lt ((o.of_task ht').socket _ hk')) (Nat.lt_irrefl _)
  | inserted ht hpc => exact h.insert ht hpc
  | resolved ht hpc hr =>
    exact h.setTask_keep ht nofun fun k hk => by rw [hpc]; exact hk
  | sent ht hpc =>
    refine Registered.setTask_keep ?_ ht nofun nofun
    exact h.logged rfl rfl rfl
  | arrived hl hpc hb =>
    refine Registered.setListener ?_ hl nofun
    exact h.logged rfl rfl rfl
  | broken hl hpc he => exact h.setListener hl nofun
  | delivered hl hpc =>
    refine Registered.setListener ?_ hl nofun
    exact h.logged rfl rfl rfl
  | removed hl hpc => exact h.removeDone hl

/-! ### Keeping to one flow -/

theorem oneFlow_init : OneFlow init :=
  ⟨fun _ _ _ _ h => (by cases h), fun _ h => (by cases h), fun _ h => (by cases h)⟩

theorem OneFlow.setTask {s : Relay} (h : OneFlow s) {i : ℕ} {t : PacketTask} {pc : PacketPc}
    (hk : ∀ k, pc.sending = some k → ∀ l ∈ s.listeners, l.Live → l.clientAddr = t.clientAddr →
      k = l.targetSocket) : OneFlow (s.setTask i t pc) where
  single := h.single
  mapped := h.mapped
  same_port t' ht' k hs l hl hlive hc := by
    rcases List.mem_or_eq_of_mem_set ht' with ht' | rfl
    · exact h.same_port t' ht' k hs l hl hlive hc
    · exact hk k hs l hl hlive hc

theorem live_of_setListener {s : Relay} {j : ℕ} {l : Listener} {pc : ListenerPc}
    (hl : s.listeners[j]? = some l) (hlive : l.Live) {k : ℕ} {m : Listener}
    (hm : (s.setListener j l pc).listeners[k]? = some m) (hml : m.Live) :
    ∃ m', s.listeners[k]? = some m' ∧ m'.Live ∧ m'.clientAddr = m.clientAddr ∧
      m'.targetSocket = m.targetSocket := by
  rcases getElem?_set_cases hm with ⟨rfl, rfl⟩ | ⟨-, hm⟩
  · exact ⟨l, hl, hlive, rfl, rfl⟩
  · exact ⟨m, hm, hml, rfl, rfl⟩

theorem OneFlow.setListener {s : Relay} (h : OneFlow s) {j : ℕ} {l : Listener} {pc : ListenerPc}
    (hl : s.listeners[j]? = some l) (hlive : l.Live) : OneFlow (s.setListener j l pc) where
  single j₁ j₂ m₁ m₂ h₁ h₂ hlive₁ hlive₂ hc := by
    obtain ⟨m₁', h₁', hl₁, hc₁, -⟩ := live_of_setListener hl hlive h₁ hlive₁
    obtain ⟨m₂', h₂', hl₂, hc₂, -⟩ := live_of_setListener hl hlive h₂ hlive₂
    exact h.single j₁ j₂ m₁' m₂' h₁' h₂' hl₁ hl₂ (hc₁.trans (hc.trans hc₂.symm))
  mapped m hm hml := by
    obtain ⟨k, hk⟩ := List.getElem?_of_mem hm
    obtain ⟨m', hm', hl', hc', hs'⟩ := live_of_setListener hl hlive hk hml
    rw [← hc', ← hs']
    exact h.mapped m' (List.mem_of_getElem? hm') hl'
  same_port t ht k hk m hm hml hc := by
    obtain ⟨k', hk'⟩ := List.getElem?_of_mem hm
    obtain ⟨m', hm', hl', hc', hs'⟩ := live_of_setListener hl hlive hk' hml
    rw [← hs']
    exact h.same_port t ht k hk m' (List.mem_of_getElem? hm') hl' (hc'.trans hc)

theorem OneFlow.remove {s : Relay} (h : OneFlow s) {client : SocketAddr}
    (hno : ∀ l ∈ s.listeners, l.Live → l.clientAddr ≠ client) : OneFlow (s.remove client) where
  single := h.single
  mapped l hl hlive := by
    rw [remove_of_ne (hno l hl hlive)]
    exact h.mapped l hl hlive
  same_port := h.same_port

/-- **An insert into an empty place starts one flow.** -/
theorem OneFlow.insert {s : Relay} (h : OneFlow s) {i : ℕ} {t : PacketTask} {target : TargetAddr}
    {payload : List UInt8} {socket : ℕ} (hmap : s.clientMap t.clientAddr = none)
    (hsend : ∀ t' ∈ s.tasks, t'.clientAddr = t.clientAddr → t'.pc.sending = none) :
    OneFlow ((s.register t.clientAddr target socket).setTask i t
      (.resolve target payload socket)) := by
  have hother : ∀ l ∈ s.listeners, l.Live → l.clientAddr ≠ t.clientAddr := by
    intro l hl hlive hc
    have hm := h.mapped l hl hlive
    rw [hc, hmap] at hm
    cases hm
  refine OneFlow.setTask ⟨fun j k l m hj hk hl hm hc => ?_, fun l hl hlive => ?_,
    fun t' ht' k hk l hl hlive hc => ?_⟩ fun k hk l hl hlive hc => ?_
  · rcases getElem?_concat_cases hj with hj | ⟨rfl, rfl⟩ <;>
      rcases getElem?_concat_cases hk with hk | ⟨rfl, rfl⟩
    · exact h.single j k l m hj hk hl hm hc
    · exact absurd hc (hother l (List.mem_of_getElem? hj) hl)
    · exact absurd hc.symm (hother m (List.mem_of_getElem? hk) hm)
    · rfl
  · rcases List.mem_append.mp hl with hl | hl
    · rw [register_of_ne (hother l hl hlive)]
      exact h.mapped l hl hlive
    · obtain rfl := List.mem_singleton.mp hl
      exact register_self _ _ _ _
  · rcases List.mem_append.mp hl with hl | hl
    · exact h.same_port t' ht' k hk l hl hlive hc
    · obtain rfl := List.mem_singleton.mp hl
      have hnone : t'.pc.sending = none := hsend t' ht' hc.symm
      rw [hnone] at hk
      cases hk
  · rcases List.mem_append.mp hl with hl | hl
    · exact absurd hc (hother l hl hlive)
    · obtain rfl := List.mem_singleton.mp hl
      exact (Option.some.inj hk).symm

theorem OneFlow.datagram {s : Relay} (h : OneFlow s) (client : SocketAddr) (d : Datagram) :
    OneFlow { s with
      received := s.received ++ [(client, d.bytes)]
      tasks := s.tasks ++ [⟨d.received, client, .parse⟩] } where
  single := h.single
  mapped := h.mapped
  same_port t ht k hk l hl hlive hc := by
    rcases List.mem_append.mp ht with ht | ht
    · exact h.same_port t ht k hk l hl hlive hc
    · obtain rfl := List.mem_singleton.mp ht
      cases hk

/-- **A step keeps to one flow per client** if its insert, if any, is fresh. -/
theorem OneFlow.step {s s' : Relay} {a : Action} (h : OneFlow s) (hf : s.FreshInsert a)
    (hs : s.step a = some s') : OneFlow s' := by
  cases stepped hs with
  | datagram client d => exact h.datagram client d
  | control => exact h
  | stop => exact ⟨h.single, h.mapped, h.same_port⟩
  | parsed | ended | missed => exact h.setTask nofun
  | @found i t target payload socket ht hpc hm =>
    refine h.setTask fun k hk l hl hlive hc => ?_
    obtain rfl := Option.some.inj hk
    have hml := h.mapped l hl hlive
    rw [hc, hm] at hml
    exact Option.some.inj hml
  | bound ht hpc =>
    refine OneFlow.setTask ?_ nofun
    exact ⟨h.single, h.mapped, h.same_port⟩
  | inserted ht hpc =>
    obtain ⟨hmap, hsend⟩ := hf _ _ _ _ ht hpc
    exact h.insert hmap hsend
  | @resolved i t target payload socket addr lookupHost ht hpc hr =>
    refine h.setTask fun k hk l hl hlive hc => ?_
    exact h.same_port t (List.mem_of_getElem? ht) k (by rw [hpc]; exact hk) l hl hlive hc
  | sent ht hpc =>
    refine OneFlow.setTask ?_ nofun
    exact ⟨h.single, h.mapped, h.same_port⟩
  | arrived hl hpc hb =>
    refine OneFlow.setListener ?_ hl (by rw [Listener.Live, hpc]; exact nofun)
    exact ⟨h.single, h.mapped, h.same_port⟩
  | broken hl hpc he => exact h.setListener hl hpc
  | delivered hl hpc =>
    refine OneFlow.setListener ?_ hl (by rw [Listener.Live, hpc]; exact nofun)
    exact ⟨h.single, h.mapped, h.same_port⟩
  | @removed j l hl hpc =>
    have hlive : l.Live := by rw [Listener.Live, hpc]; exact nofun
    have hd : OneFlow (s.setListener j l .done) := h.setListener hl hlive
    refine hd.remove fun m hm hml hc => ?_
    obtain ⟨k, hk⟩ := List.getElem?_of_mem hm
    rcases getElem?_set_cases hk with ⟨-, rfl⟩ | ⟨hne, hk⟩
    · exact hml rfl
    · exact hne (h.single k j m l hk hl hml hlive hc)

/-- **An insert that is not fresh starts a second flow.** -/
theorem freshInsert_of_step {s s' : Relay} {a : Action} (r : Registered s)
    (hs : s.step a = some s') (h' : OneFlow s') : s.FreshInsert a := by
  unfold FreshInsert
  split
  · intro t target payload socket ht hpc
    rename_i i
    have hs' : s' = (s.register t.clientAddr target socket).setTask i t
        (.resolve target payload socket) := by
      rw [Relay.step, ht, Option.bind_some, hpc] at hs
      exact (Option.some.inj hs).symm
    subst hs'
    have hnew : (s.listeners ++ [(⟨socket, t.clientAddr, target, .receive⟩ : Listener)])[
        s.listeners.length]? = some ⟨socket, t.clientAddr, target, .receive⟩ :=
      List.getElem?_concat_length
    have hlive' : Listener.Live ⟨socket, t.clientAddr, target, .receive⟩ := by
      intro h
      cases h
    constructor
    · by_contra hsome
      obtain ⟨k, hk⟩ := Option.ne_none_iff_exists'.mp hsome
      obtain ⟨l, hl, hlive, hc, -⟩ := r.backed _ _ hk
      obtain ⟨j, hj⟩ := List.getElem?_of_mem hl
      have hlt : j < s.listeners.length := (List.getElem?_eq_some_iff.mp hj).1
      have hj' : (s.listeners ++ [(⟨socket, t.clientAddr, target, .receive⟩ : Listener)])[j]? =
          some l := by
        rw [List.getElem?_append_left hlt]
        exact hj
      exact absurd (h'.single j _ l _ hj' hnew hlive hlive' hc) (by omega)
    · intro t' ht' hc
      by_contra hsome
      obtain ⟨k, hk⟩ := Option.ne_none_iff_exists'.mp hsome
      obtain ⟨i', hi'⟩ := List.getElem?_of_mem ht'
      have hne : i' ≠ i := by
        rintro rfl
        obtain rfl := Option.some.inj (ht.symm.trans hi')
        rw [hpc] at hk
        cases hk
      have hport : k = socket :=
        h'.same_port t' (mem_set_of_ne hi' hne) k hk _ (List.mem_of_getElem? hnew) hlive' hc.symm
      subst hport
      exact r.unshared i t target payload _ ht hpc i' t' hi' hne (PacketPc.socket_of_sending hk)
  · trivial

/-- **When a relay keeps to one flow per client.**  A run has one live listener
per client, on the socket of the map, in all the states it goes through, exactly
when every insert of it is fresh. -/
theorem oneFlow_iff {as : List Action} {s : Relay} (h : Runs.run step init as = some s) :
    Runs.Along step FreshInsert init as ↔
      ∀ bs t, bs <+: as → Runs.run step init bs = some t → OneFlow t :=
  @Runs.along_iff_prefix Relay Action step FreshInsert (fun s => Owned s ∧ Registered s) OneFlow
    (fun _ _ _ o hs => ⟨o.1.step hs, o.2.step o.1 hs⟩) (fun _ _ _ _ hg hp hs => hg.step hp hs)
    (fun _ _ _ o _ hs hg => freshInsert_of_step o.2 hs hg) _ _ _
    ⟨owned_init, registered_init⟩ oneFlow_init h

theorem oneFlow_iff_echo : Runs.Along step FreshInsert init echoRun ↔
    ∀ bs t, bs <+: echoRun → Runs.run step init bs = some t → OneFlow t :=
  oneFlow_iff (Option.some_get echoRun_runs).symm

/-- Two datagrams of one client in a row; both tasks look the client up before
either of them inserts. -/
def doubleInsertRun : List Action :=
  let client : SocketAddr := .v4 (.new 192 0 2 1) 40000
  let d : Datagram := .ofBytes [0, 0, 0, 1, 192, 0, 2, 53, 0, 53, 7]
  [.datagram client d, .datagram client d, .task 0 .go, .task 1 .go, .task 0 .go, .task 1 .go,
    .task 0 (.bound true), .task 1 (.bound true), .task 0 .go, .task 1 .go]

theorem doubleInsertRun_runs : (Runs.run step init doubleInsertRun).isSome = true := by decide

def doubleInsertEnd : Relay := (Runs.run step init doubleInsertRun).get doubleInsertRun_runs

/-- **Two listeners for one client.**  The first one is not on the socket of the map. -/
theorem back_to_back_datagrams_two_flows :
    Runs.run step init doubleInsertRun = some doubleInsertEnd ∧ ¬ OneFlow doubleInsertEnd := by
  refine ⟨(Option.some_get doubleInsertRun_runs).symm, fun h => ?_⟩
  let l (socket : ℕ) : Listener :=
    ⟨socket, .v4 ⟨[192, 0, 2, 1], rfl⟩ 40000, .ipv4 ⟨[192, 0, 2, 53], rfl⟩ 53, .receive⟩
  have hls : doubleInsertEnd.listeners = [l 0, l 1] := rfl
  have h0 : doubleInsertEnd.listeners[0]? = some (l 0) := by rw [hls]; rfl
  have h1 : doubleInsertEnd.listeners[1]? = some (l 1) := by rw [hls]; rfl
  exact absurd (h.single 0 1 _ _ h0 h1 nofun nofun rfl) (by decide)

end Relay

end Peregrine
