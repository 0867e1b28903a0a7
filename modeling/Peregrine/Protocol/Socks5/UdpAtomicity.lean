import Peregrine.Protocol.Socks5.UdpDelivery
import Peregrine.Protocol.Socks5.UdpFlow

/-!
# What a failed datagram leaves behind

`handle_udp_packet` enters the socket of a new client into the map and spawns a
listener on it before the target has been resolved, and takes neither back when
the resolution or the send fails.  A call that fails before the insert, or for a
client that has an entry, leaves the association as it was.

`failed_leaves_state_iff` says that there are no other cases: the calls that
fail and change something are those that have bound a socket.
-/

namespace Peregrine

open Table

def PacketPc.pastBind : PacketPc → Bool
  | .parse | .lookup .. | .bind .. => false
  | .insert .. | .resolve .. | .send .. | .done => true

namespace Relay

/-- The target sockets something still has: the map, a listener or a task. -/
def liveSockets (s : Relay) : Set ℕ :=
  {k | (∃ client, s.clientMap client = some k) ∨ (∃ l ∈ s.listeners, l.Live ∧ l.targetSocket = k) ∨
    ∃ t ∈ s.tasks, t.pc.socket = some k}

/-- In a run with these actions the call of the task `i` has ended, with an error. -/
def Failed (i : ℕ) (as : List Action) (s : Relay) : Prop :=
  (∃ t, s.tasks[i]? = some t ∧ t.pc = .done) ∧ .task i (.sent true) ∉ as

/-- No socket is bound for the datagram: it does not parse, its client has an entry,
or the bind fails. -/
def NeedsNoSocket (s : Relay) (client : SocketAddr) (d : Datagram) (as : List Action) : Prop :=
  (∀ r, parseSocks5UdpPacket d.bytes ≠ .ok r) ∨ s.clientMap client ≠ none ∨
    .task s.tasks.length (.bound false) ∈ as

/-- No step of the task `i` changes the map or the listeners. -/
def TaskUntouched (i : ℕ) (as : List Action) : Prop :=
  ∀ bs e u v, bs ++ [.task i e] <+: as → Runs.run step init bs = some u →
    u.step (.task i e) = some v → v.clientMap = u.clientMap ∧ v.listeners = u.listeners

/-! ### Tasks that bind nothing -/

/-- The task `i` has no socket to insert. -/
def NotInserting (i : ℕ) (s : Relay) : Prop :=
  ∀ t, s.tasks[i]? = some t → ∀ target payload socket, t.pc ≠ .insert target payload socket

section

variable {i : ℕ} {s s' u v : Relay} {a : Action} {as bs : List Action}

theorem notInserting_init : NotInserting i init := fun _ ht => (by cases ht)

theorem NotInserting.step (h : NotInserting i s) (ha : a ≠ .task i (.bound true))
    (hs : s.step a = some s') : NotInserting i s' := by
  intro t ht
  by_cases hown : ∃ e, a = .task i e
  · obtain ⟨e, rfl⟩ := hown
    cases stepped hs with
    | bound => exact absurd rfl ha
    | parsed ht' | ended ht' | found ht' | missed ht' | inserted ht' | resolved ht' | sent ht' =>
      obtain rfl := Option.some.inj ((getElem?_set_of_some ht').symm.trans ht)
      exact nofun
  · rcases task_of_step (fun e he => hown ⟨e, he⟩) hs with heq | ⟨-, t', ht', hpc⟩
    · exact h t (heq.symm.trans ht)
    · obtain rfl := Option.some.inj (ht'.symm.trans ht)
      rw [hpc]
      exact nofun

/-- **A step of a task that has no socket to insert** leaves the association as it was. -/
theorem NotInserting.unchanged {e : Event} (h : NotInserting i s)
    (hs : s.step (.task i e) = some s') :
    s'.clientMap = s.clientMap ∧ s'.listeners = s.listeners := by
  cases stepped hs with
  | inserted ht hpc => exact absurd hpc (h _ ht _ _ _)
  | _ => exact ⟨rfl, rfl⟩

/-! ### Tasks that bind a socket -/

theorem insert_of_bound (hs : s.step (.task i (.bound true)) = some s') :
    ∃ t target payload socket, s'.tasks[i]? = some t ∧ t.pc = .insert target payload socket := by
  obtain ⟨t, ht, hstep⟩ := Option.bind_eq_some_iff.mp hs
  cases hpc : t.pc with
  | bind target payload =>
    rw [hpc] at hstep
    cases hstep
    exact ⟨_, target, payload, s.sockets.length, getElem?_set_of_some ht, rfl⟩
  | _ =>
    rw [hpc] at hstep
    cases hstep

theorem listeners_grow (hs : s.step a = some s') : s.listeners.length ≤ s'.listeners.length := by
  cases stepped hs with
  | inserted => exact (List.prefix_append _ _).length_le
  | arrived | broken | delivered | removed => exact (List.length_set ..).ge
  | _ => exact Nat.le_refl _

theorem listeners_grow_run {n : ℕ} (hn : n ≤ s.listeners.length)
    (hs : Runs.run step s as = some s') : n ≤ s'.listeners.length :=
  @Runs.run_invariant _ _ step (fun x => n ≤ x.listeners.length)
    (fun _ _ _ hx hs => hx.trans (listeners_grow hs)) _ _ _ hn hs

/-- **A task with a socket to insert inserts it** before it ends. -/
theorem inserts_before_done {t : PacketTask} {target : TargetAddr} {payload : List UInt8}
    {socket : ℕ} (ht : u.tasks[i]? = some t) (hpc : t.pc = .insert target payload socket)
    (hrun : Runs.run step u as = some s) (hdone : ∃ t', s.tasks[i]? = some t' ∧ t'.pc = .done) :
    ∃ bs v w cs, as = bs ++ .task i .go :: cs ∧ Runs.run step u bs = some v ∧
      v.step (.task i .go) = some w ∧ Runs.run step w cs = some s ∧
      v.listeners.length < w.listeners.length := by
  induction as generalizing u t with
  | nil =>
    cases hrun
    obtain ⟨t', ht', hdone⟩ := hdone
    obtain rfl := Option.some.inj (ht.symm.trans ht')
    rw [hpc] at hdone
    cases hdone
  | cons a as ih =>
    obtain ⟨u', hu', hrun'⟩ := Runs.run_cons_some hrun
    by_cases hown : ∃ e, a = .task i e
    · obtain ⟨e, rfl⟩ := hown
      have hstep : u.stepTask i t (.insert target payload socket) e = some u' := by
        rw [← hpc]
        rw [step, ht] at hu'
        exact hu'
      cases e with
      | go =>
        refine ⟨[], u, u', as, rfl, rfl, hu', hrun', ?_⟩
        cases hstep
        exact (Nat.lt_succ_self _).trans_eq (@List.length_append _ _ [_]).symm
      | _ => cases hstep
    · rcases task_of_step (fun e he => hown ⟨e, he⟩) hu' with heq | ⟨hnone, -⟩
      · obtain ⟨bs, v, w, cs, rfl, hbs, hrest⟩ := ih (heq.trans ht) hpc hrun'
        refine ⟨a :: bs, v, w, cs, rfl, ?_, hrest⟩
        rw [Runs.run_cons, hu']
        exact hbs
      · cases ht.symm.trans hnone

/-- **A call that has bound a socket has spawned a listener** by its end. -/
theorem listeners_of_bound (hmem : .task i (.bound true) ∈ as) (hrun : Runs.run step u as = some s)
    (hdone : ∃ t, s.tasks[i]? = some t ∧ t.pc = .done) :
    ∃ bs v w cs, as = bs ++ .task i .go :: cs ∧ Runs.run step u bs = some v ∧
      v.step (.task i .go) = some w ∧ Runs.run step w cs = some s ∧
      u.listeners.length ≤ v.listeners.length ∧ v.listeners.length < w.listeners.length := by
  obtain ⟨xs, ys, rfl⟩ := List.append_of_mem hmem
  rw [Runs.run_append] at hrun
  obtain ⟨u₀, hxs, hrun⟩ := Option.bind_eq_some_iff.mp hrun
  obtain ⟨u₁, hbound, hys⟩ := Runs.run_cons_some hrun
  obtain ⟨t, target, payload, socket, ht, hpc⟩ := insert_of_bound hbound
  obtain ⟨bs, v, w, cs, rfl, hbs, hgo, hcs, hlt⟩ := inserts_before_done ht hpc hys hdone
  have hpre : Runs.run step u (xs ++ .task i (.bound true) :: bs) = some v := by
    rw [Runs.run_append, hxs, Option.bind_some, Runs.run_cons, hbound]
    exact hbs
  refine ⟨_, v, w, cs, ?_, hpre, hgo, hcs, listeners_grow_run (Nat.le_refl _) hpre, hlt⟩
  rw [List.append_assoc]
  rfl

theorem NotInserting.run (h : NotInserting i u) (hno : .task i (.bound true) ∉ as)
    (hrun : Runs.run Relay.step u as = some s) : NotInserting i s :=
  @Runs.run_invariant_along _ _ Relay.step (fun _ a => a ≠ .task i (.bound true)) (NotInserting i)
    (fun _ _ _ hx ha hs => hx.step ha hs) _ _ _ h
    (Runs.along_of_mem (fun _ ha _ => ne_of_mem_of_not_mem ha hno) u) hrun

/-! ### A call by itself -/

theorem pastBind_stepTask {t : PacketTask} {pc : PacketPc} {e : Event}
    (ht : s.tasks[i]? = some t) (hpast : pc.pastBind = true)
    (hs : s.stepTask i t pc e = some s') : (∀ ok, e ≠ .bound ok) ∧
      ∃ pc', s'.tasks[i]? = some { t with pc := pc' } ∧ pc'.pastBind = true := by
  unfold stepTask at hs
  split at hs
  · cases hpast
  · cases hpast
  · cases hpast
  · cases hs
    exact ⟨nofun, _, getElem?_set_of_some ht, rfl⟩
  · split at hs <;> cases hs <;> exact ⟨nofun, _, getElem?_set_of_some ht, rfl⟩
  · split at hs <;> cases hs <;> exact ⟨nofun, _, getElem?_set_of_some ht, rfl⟩
  · cases hs

theorem not_mem_bound {t : PacketTask} (ht : u.tasks[i]? = some t)
    (hpast : t.pc.pastBind = true) (hown : ∀ b ∈ bs, ∃ e, b = .task i e)
    (hrun : Runs.run step u bs = some s) (ok : Bool) : .task i (.bound ok) ∉ bs := by
  induction bs generalizing u t with
  | nil => exact List.not_mem_nil
  | cons b bs ih =>
    obtain ⟨e, rfl⟩ := hown b List.mem_cons_self
    obtain ⟨u', hu', hrun'⟩ := Runs.run_cons_some hrun
    rw [step, ht] at hu'
    obtain ⟨hne, pc', ht', hpast'⟩ := pastBind_stepTask ht hpast hu'
    have hrest := ih ht' hpast' (fun b hb => hown b (List.mem_cons_of_mem _ hb)) hrun'
    intro hm
    rcases List.mem_cons.mp hm with hm | hm
    · cases hm
      exact hne ok rfl
    · exact hrest hm

theorem own_step {t : PacketTask} {pc : PacketPc} (ht : u.tasks[i]? = some t) (hpc : t.pc = pc)
    (hne : pc ≠ .done) (hown : ∀ b ∈ bs, ∃ e, b = .task i e) (hrun : Runs.run step u bs = some s)
    (hdone : ∃ t', s.tasks[i]? = some t' ∧ t'.pc = .done) : ∃ e v cs, bs = .task i e :: cs ∧
      (∀ b ∈ cs, ∃ e, b = .task i e) ∧ u.stepTask i t pc e = some v ∧
      Runs.run step v cs = some s := by
  subst hpc
  cases bs with
  | nil =>
    cases hrun
    obtain ⟨t', ht', hdone⟩ := hdone
    obtain rfl := Option.some.inj (ht.symm.trans ht')
    exact absurd hdone hne
  | cons b cs =>
    obtain ⟨e, rfl⟩ := hown b List.mem_cons_self
    obtain ⟨v, hv, hcs⟩ := Runs.run_cons_some hrun
    rw [step, ht] at hv
    exact ⟨e, v, cs, rfl, fun b hb => hown b (List.mem_cons_of_mem _ hb), hv, hcs⟩

/-- The state when the task for a datagram has just been spawned. -/
def withTask (s : Relay) (client : SocketAddr) (d : Datagram) : Relay :=
  { s with
    received := s.received ++ [(client, d.bytes)]
    tasks := s.tasks ++ [⟨d.received, client, .parse⟩] }

theorem mem_go_cons {ok : Bool} :
    .task i (.bound ok) ∈ .task i .go :: bs ↔ .task i (.bound ok) ∈ bs :=
  ⟨fun hm => (List.mem_cons.mp hm).resolve_left nofun, List.mem_cons_of_mem _⟩

section Alone

variable {t : PacketTask} {target : TargetAddr} {payload : List UInt8}
  (hown : ∀ b ∈ bs, ∃ e, b = .task i e) (hrun : Runs.run step u bs = some s)
  (hdone : ∃ t', s.tasks[i]? = some t' ∧ t'.pc = .done)

include hown hrun hdone

theorem not_bound_bind (ht : u.tasks[i]? = some t) (hpc : t.pc = .bind target payload) :
    .task i (.bound true) ∉ bs ↔ .task i (.bound false) ∈ bs := by
  obtain ⟨e, v, cs, rfl, hown', hstep, hrun'⟩ := own_step ht hpc nofun hown hrun hdone
  cases e with
  | bound ok =>
    cases ok with
    | true =>
      cases hstep
      have hrest := not_mem_bound (getElem?_set_of_some ht) rfl hown' hrun' false
      refine iff_of_false (fun h => h List.mem_cons_self) fun hm => ?_
      exact hrest ((List.mem_cons.mp hm).resolve_left nofun)
    | false =>
      cases hstep
      have hrest := not_mem_bound (getElem?_set_of_some ht) rfl hown' hrun' true
      refine iff_of_true (fun hm => ?_) List.mem_cons_self
      exact hrest ((List.mem_cons.mp hm).resolve_left nofun)
  | _ => cases hstep

theorem not_bound_lookup (ht : u.tasks[i]? = some t) (hpc : t.pc = .lookup target payload) :
    .task i (.bound true) ∉ bs ↔
      u.clientMap t.clientAddr ≠ none ∨ .task i (.bound false) ∈ bs := by
  obtain ⟨e, v, cs, rfl, hown', hstep, hrun'⟩ := own_step ht hpc nofun hown hrun hdone
  cases e with
  | go =>
    rw [mem_go_cons, mem_go_cons]
    rw [stepTask] at hstep
    cases hm : u.clientMap t.clientAddr with
    | some socket =>
      rw [hm] at hstep
      cases hstep
      exact iff_of_true (not_mem_bound (getElem?_set_of_some ht) rfl hown' hrun' true)
        (Or.inl (Option.some_ne_none _))
    | none =>
      rw [hm] at hstep
      cases hstep
      rw [or_iff_right fun h => h rfl]
      exact not_bound_bind hown' hrun' hdone (getElem?_set_of_some ht) rfl
  | _ => cases hstep

/-- **When a call binds no socket**: its datagram does not parse, its client has an
entry, or the bind fails. -/
theorem not_bound_parse (ht : u.tasks[i]? = some t) (hpc : t.pc = .parse) :
    .task i (.bound true) ∉ bs ↔ (∀ r, parseSocks5UdpPacket t.packetData ≠ .ok r) ∨
      u.clientMap t.clientAddr ≠ none ∨ .task i (.bound false) ∈ bs := by
  obtain ⟨e, v, cs, rfl, hown', hstep, hrun'⟩ := own_step ht hpc nofun hown hrun hdone
  cases e with
  | go =>
    rw [mem_go_cons, mem_go_cons]
    rw [stepTask] at hstep
    cases hp : parseSocks5UdpPacket t.packetData with
    | error err =>
      rw [hp] at hstep
      cases hstep
      exact iff_of_true (not_mem_bound (getElem?_set_of_some ht) rfl hown' hrun' true)
        (Or.inl fun r hr => (by cases hr))
    | ok r =>
      rw [hp] at hstep
      cases hstep
      rw [or_iff_right fun h => h r rfl]
      have hlookup := not_bound_lookup hown' hrun' hdone (getElem?_set_of_some ht) rfl
      exact hlookup
  | _ => cases hstep

end Alone

theorem tasks_of_own_step {ts : List PacketTask} {t : PacketTask} {e : Event}
    (hts : s.tasks = ts ++ [t]) (hs : s.step (.task ts.length e) = some s') :
    ∃ t', s'.tasks = ts ++ [t'] := by
  have hset : ∀ x, s.tasks.set ts.length x = ts ++ [x] := by
    intro x
    rw [hts, List.set_append_right _ _ (Nat.le_refl _), Nat.sub_self]
    rfl
  cases stepped hs with
  | _ => exact ⟨_, hset _⟩

theorem tasks_of_own_run {ts : List PacketTask} (hts : ∃ t, u.tasks = ts ++ [t])
    (hown : ∀ b ∈ bs, ∃ e, b = .task ts.length e) (hrun : Runs.run step u bs = some s) :
    ∃ t, s.tasks = ts ++ [t] :=
  @Runs.run_invariant_along _ _ step (fun _ a => ∃ e, a = .task ts.length e)
    (fun x => ∃ t, x.tasks = ts ++ [t])
    (fun x a x' hx ha hs => by
      obtain ⟨t, ht⟩ := hx
      obtain ⟨e, rfl⟩ := ha
      exact tasks_of_own_step ht hs) _ _ _ hts (Runs.along_of_mem (fun b hb _ => hown b hb) u) hrun

/-- **A call that binds no socket**, by itself, leaves the association as it was. -/
theorem unchanged_of_not_bound (h : NotInserting i u) (hown : ∀ b ∈ bs, ∃ e, b = .task i e)
    (hno : .task i (.bound true) ∉ bs) (hrun : Runs.run step u bs = some s) :
    s.clientMap = u.clientMap ∧ s.listeners = u.listeners := by
  have hinv : NotInserting i s ∧ s.clientMap = u.clientMap ∧ s.listeners = u.listeners :=
    @Runs.run_invariant_along _ _ step
      (fun _ a => a ≠ .task i (.bound true) ∧ ∃ e, a = .task i e)
      (fun x => NotInserting i x ∧ x.clientMap = u.clientMap ∧ x.listeners = u.listeners)
      (fun x a x' hx ha hs => by
        obtain ⟨hne, e, rfl⟩ := ha
        obtain ⟨hmap, hlisteners⟩ := hx.1.unchanged hs
        exact ⟨hx.1.step hne hs, hmap.trans hx.2.1, hlisteners.trans hx.2.2⟩)
      _ _ _ ⟨h, rfl, rfl⟩
      (Runs.along_of_mem (fun b hb _ => ⟨ne_of_mem_of_not_mem hb hno, hown b hb⟩) u) hrun
  exact hinv.2

theorem liveSockets_eq {t : PacketTask} (hmap : s'.clientMap = s.clientMap)
    (hlisteners : s'.listeners = s.listeners) (htasks : s'.tasks = s.tasks ++ [t])
    (hdone : t.pc = .done) : s'.liveSockets = s.liveSockets := by
  have hnone : t.pc.socket = none := by
    rw [hdone]
    rfl
  ext k
  rw [liveSockets, liveSockets, hmap, hlisteners, htasks]
  simp [hnone]

end

/-! ### What is left behind -/

/-- **A failed datagram leaves the association as it was exactly if no socket was
bound for it.**  First for a call by itself, in any state reached: the map, the listeners
and the live sockets after it are those before it exactly if the datagram does not
parse, the client has an entry, or the bind fails.  Then for a call among others:
none of its own steps changes the map or the listeners exactly if it binds no
socket. -/
theorem failed_leaves_state_iff {as : List Action} {s : Relay}
    (hreach : Runs.run step init as = some s) :
    (∀ client d bs s', (∀ b ∈ bs, ∃ e, b = .task s.tasks.length e) →
      Runs.run step s (.datagram client d :: bs) = some s' → Failed s.tasks.length bs s' →
        (s'.clientMap = s.clientMap ∧ s'.listeners = s.listeners ∧
            s'.liveSockets = s.liveSockets ↔
          s.NeedsNoSocket client d bs)) ∧
    ∀ i, Failed i as s → (TaskUntouched i as ↔ .task i (.bound true) ∉ as) := by
  constructor
  · rintro client d bs s' hown hrun ⟨hdone, -⟩
    obtain ⟨u, hu, hbs⟩ := Runs.run_cons_some hrun
    obtain rfl : s.withTask client d = u := by
      rw [step] at hu
      split at hu
      · exact Option.some.inj hu
      · cases hu
    have ht : (s.withTask client d).tasks[s.tasks.length]? = some ⟨d.received, client, .parse⟩ :=
      List.getElem?_concat_length
    have hneeds : .task s.tasks.length (.bound true) ∉ bs ↔ s.NeedsNoSocket client d bs := by
      have hparse := not_bound_parse hown hbs hdone ht rfl
      rw [d.received_eq] at hparse
      exact hparse
    rw [← hneeds]
    constructor
    · rintro ⟨-, hlisteners, -⟩ hmem
      obtain ⟨-, v, w, cs, -, -, -, hcs, hle, hlt⟩ := listeners_of_bound hmem hbs hdone
      have hgrown := listeners_grow_run (Nat.le_refl _) hcs
      rw [hlisteners] at hgrown
      exact Nat.lt_irrefl _ ((hle.trans_lt hlt).trans_le hgrown)
    · intro hno
      have hnot : NotInserting s.tasks.length (s.withTask client d) := by
        intro t ht'
        obtain rfl := Option.some.inj (ht.symm.trans ht')
        intro _ _ _ hpc
        cases hpc
      obtain ⟨hmap, hlisteners⟩ := unchanged_of_not_bound hnot hown hno hbs
      obtain ⟨t, htasks⟩ := tasks_of_own_run ⟨_, rfl⟩ hown hbs
      obtain ⟨t', ht', hpc⟩ := hdone
      rw [htasks, List.getElem?_concat_length] at ht'
      obtain rfl := Option.some.inj ht'
      exact ⟨hmap, hlisteners, liveSockets_eq hmap hlisteners htasks hpc⟩
  · rintro i ⟨hdone, -⟩
    constructor
    · intro hun hmem
      obtain ⟨bs, v, w, cs, rfl, hbs, hgo, -, -, hlt⟩ := listeners_of_bound hmem hreach hdone
      have hpre : bs ++ [.task i .go] <+: bs ++ .task i .go :: cs := ⟨cs, by simp⟩
      have heq := (hun bs .go v w hpre hbs hgo).2
      rw [heq] at hlt
      exact Nat.lt_irrefl _ hlt
    · intro hno bs e u v hpre hbs hs
      have hbs' : .task i (.bound true) ∉ bs :=
        fun hm => hno (hpre.subset (List.mem_append_left _ hm))
      exact (notInserting_init.run hbs' hbs).unchanged hs

def unresolvedClient : SocketAddr := .v4 (.new 192 0 2 1) 40000

/-- A new client names a host that does not resolve. -/
def unresolvedDatagram : Datagram := .ofBytes [0, 0, 0, 3, 1, 0x78, 0, 53, 7]

def unresolvedSteps : List Action :=
  [.task 0 .go, .task 0 .go, .task 0 (.bound true), .task 0 .go,
    .task 0 (.resolved fun _ => .error (.other "Name or service not known"))]

def unresolvedEnd : Relay :=
  (Runs.run step init (.datagram unresolvedClient unresolvedDatagram ::
    unresolvedSteps)).get rfl

theorem unresolved_failed : Failed 0 unresolvedSteps unresolvedEnd := by
  refine ⟨⟨_, rfl, rfl⟩, fun hm => ?_⟩
  simp [unresolvedSteps] at hm

theorem failed_leaves_state_unresolved :
    (unresolvedEnd.clientMap = init.clientMap ∧ unresolvedEnd.listeners = init.listeners ∧
        unresolvedEnd.liveSockets = init.liveSockets ↔
      init.NeedsNoSocket unresolvedClient unresolvedDatagram unresolvedSteps) ∧
    (TaskUntouched 0 (.datagram unresolvedClient unresolvedDatagram :: unresolvedSteps) ↔
      .task 0 (.bound true) ∉
        Action.datagram unresolvedClient unresolvedDatagram :: unresolvedSteps) := by
  have hown : ∀ b ∈ unresolvedSteps, ∃ e, b = .task 0 e := by
    simp [unresolvedSteps]
  have hfailed : Failed 0 (.datagram unresolvedClient unresolvedDatagram :: unresolvedSteps)
      unresolvedEnd := by
    refine ⟨unresolved_failed.1, fun hm => ?_⟩
    rcases List.mem_cons.mp hm with h | h
    · cases h
    · exact unresolved_failed.2 h
  exact ⟨(@failed_leaves_state_iff [] init rfl).1 unresolvedClient unresolvedDatagram
      unresolvedSteps unresolvedEnd hown rfl unresolved_failed,
    (@failed_leaves_state_iff _ unresolvedEnd rfl).2 0 hfailed⟩

/-- **A name that does not resolve pins a socket**: the call fails, and the client
has an entry, a socket and a listener that answers in the name of the target. -/
theorem unresolved_name_pins_socket :
    let client := unresolvedClient
    Runs.run step init (.datagram client unresolvedDatagram :: unresolvedSteps) =
      some unresolvedEnd ∧
    Failed 0 unresolvedSteps unresolvedEnd ∧
    init.clientMap client = none ∧ unresolvedEnd.clientMap client = some 0 ∧
    init.listeners = [] ∧ unresolvedEnd.listeners = [⟨0, client, .domain "x" 53, .receive⟩] ∧
    0 ∉ init.liveSockets ∧ 0 ∈ unresolvedEnd.liveSockets := by
  intro client
  have hmap : unresolvedEnd.clientMap client = some 0 := rfl
  refine ⟨rfl, unresolved_failed, rfl, hmap, rfl, rfl, ?_, Or.inl ⟨client, hmap⟩⟩
  rintro (⟨_, h⟩ | ⟨_, h, -⟩ | ⟨_, h, -⟩) <;> cases h

end Relay

end Peregrine
