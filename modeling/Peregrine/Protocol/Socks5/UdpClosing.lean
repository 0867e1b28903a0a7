import Peregrine.Protocol.Socks5.UdpOwnership

/-!
# What is left of an association that has ended

An association is to end with its control connection.  What ends is
`relay_loop`; the tasks it has spawned for datagrams and the listeners these
have spawned hold sockets of their own and know nothing of the connection.

`ends_with_control_iff` says when that makes no difference: exactly if every
task and every listener has ended by the time the loop stops.  A listener only
ends when its socket or the relay's fails, so where none does, it is exactly if
no target socket has been registered at all.
-/

namespace Peregrine

namespace Relay

/-- No task that the association has spawned holds a socket any more. -/
structure Released (s : Relay) : Prop where
  task : ∀ t ∈ s.tasks, t.pc = .done
  listener : ∀ l ∈ s.listeners, l.pc = .done

/-- **The association ends with its control connection**: from when the loop has
stopped, no task holds a socket, and nothing more is sent to a target or
delivered to a client. -/
def EndsWithControl (as : List Action) : Prop :=
  ∀ bs cs t u, bs ++ cs <+: as → Runs.run step init bs = some t → t.running = false →
    Runs.run step t cs = some u → t.Released ∧ u.sent = t.sent ∧ u.delivered = t.delivered

/-- If the loop stops, it leaves nothing behind. -/
def StopsIdle (s : Relay) (a : Action) : Prop := a = .stop → s.Released

/-- If the loop stops, every datagram has been dealt with, and none has had a
target socket registered. -/
def StopsUnused (s : Relay) (a : Action) : Prop :=
  a = .stop → (∀ t ∈ s.tasks, t.pc = .done) ∧ s.listeners = []

/-- No call of a listener fails. -/
def ListenerServed (_s : Relay) : Action → Prop
  | .listener _ .recvFailed | .listener _ (.replied false) => False
  | _ => True

/-! ### After the loop has stopped -/

theorem Released.terminal {s : Relay} (h : s.Released) (hstop : s.running = false) :
    Runs.Terminal step s := by
  intro a
  have hnot : ¬ s.running = true := by
    rw [hstop]
    exact Bool.false_ne_true
  cases a with
  | datagram client d => exact if_neg hnot
  | control => exact if_neg hnot
  | stop => exact if_neg hnot
  | task i e =>
    rw [step]
    cases ht : s.tasks[i]? with
    | none => rfl
    | some t =>
      rw [Option.bind_some, h.task t (List.mem_of_getElem? ht)]
      rfl
  | listener j e =>
    rw [step]
    cases hl : s.listeners[j]? with
    | none => rfl
    | some l =>
      rw [Option.bind_some, h.listener l (List.mem_of_getElem? hl)]
      rfl

theorem running_of_step {s s' : Relay} {a : Action} (ha : a ≠ .stop) (hs : s.step a = some s') :
    s'.running = s.running := by
  cases stepped hs with
  | stop => exact absurd rfl ha
  | _ => rfl

def Settled (s : Relay) : Prop := s.running = false → s.Released

theorem Settled.step {s s' : Relay} {a : Action} (h : Settled s) (hp : StopsIdle s a)
    (hs : s.step a = some s') : Settled s' := by
  intro hstop
  by_cases ha : a = .stop
  · subst ha
    have hreleased := hp rfl
    cases stepped hs
    exact ⟨hreleased.task, hreleased.listener⟩
  · rw [running_of_step ha hs] at hstop
    rw [(h hstop).terminal hstop a] at hs
    cases hs

theorem stopsIdle_of_step {s s' : Relay} {a : Action} (hs : s.step a = some s')
    (h : Settled s') : StopsIdle s a := by
  rintro rfl
  cases stepped hs
  have hreleased := h rfl
  exact ⟨hreleased.task, hreleased.listener⟩

theorem settled_iff (as : List Action) :
    (∀ bs t, bs <+: as → Runs.run step init bs = some t → Settled t) ↔ EndsWithControl as := by
  constructor
  · intro hall bs cs t u hpre ht hstop hu
    have hreleased := hall bs t ((List.prefix_append bs cs).trans hpre) ht hstop
    cases cs with
    | nil =>
      cases hu
      exact ⟨hreleased, rfl, rfl⟩
    | cons c cs =>
      obtain ⟨v, hv, -⟩ := Runs.run_cons_some hu
      rw [hreleased.terminal hstop c] at hv
      cases hv
  · intro hends bs t hpre ht hstop
    have hnil : bs ++ [] <+: as := by
      rw [List.append_nil]
      exact hpre
    exact (hends bs [] t t hnil ht hstop rfl).1

/-! ### Listeners that nothing ends -/

def AllListen (s : Relay) : Prop := ∀ l ∈ s.listeners, l.pc ≠ .done ∧ l.pc ≠ .cleanup

theorem AllListen.setListener {s : Relay} (h : AllListen s) {j : ℕ} {l : Listener} {pc : ListenerPc}
    (hdone : pc ≠ .done) (hclean : pc ≠ .cleanup) : AllListen (s.setListener j l pc) := by
  intro x hx
  rcases List.mem_or_eq_of_mem_set hx with hx | rfl
  · exact h x hx
  · exact ⟨hdone, hclean⟩

theorem AllListen.step_listener {s s' : Relay} {j : ℕ} {e : Event} (h : AllListen s)
    (hp : s.ListenerServed (.listener j e)) (hs : s.step (.listener j e) = some s') :
    AllListen s' := by
  obtain ⟨l, hl, hstep⟩ := Option.bind_eq_some_iff.mp hs
  obtain ⟨-, hclean⟩ := h l (List.mem_of_getElem? hl)
  cases hpc : l.pc with
  | done =>
    rw [hpc] at hstep
    cases hstep
  | cleanup => exact absurd hpc hclean
  | receive =>
    rw [hpc] at hstep
    cases e with
    | received source d =>
      rw [stepListener] at hstep
      split at hstep
      · cases hstep
        refine AllListen.setListener ?_ nofun nofun
        exact h
      · cases hstep
        exact h
    | recvFailed => exact absurd hp id
    | _ => cases hstep
  | reply source payload packet =>
    rw [hpc] at hstep
    cases e with
    | replied ok =>
      cases ok with
      | true =>
        cases hstep
        refine AllListen.setListener ?_ nofun nofun
        exact h
      | false => exact absurd hp id
    | _ => cases hstep

/-- **Where no call of a listener fails, no listener ends.** -/
theorem AllListen.step {s s' : Relay} {a : Action} (h : AllListen s) (hp : s.ListenerServed a)
    (hs : s.step a = some s') : AllListen s' := by
  cases a with
  | listener j e => exact h.step_listener hp hs
  | datagram client d =>
    cases stepped hs
    exact h
  | control =>
    cases stepped hs
    exact h
  | stop =>
    cases stepped hs
    exact h
  | task i e =>
    cases stepped hs with
    | inserted ht hpc =>
      intro l hl
      rcases List.mem_append.mp hl with hl | hl
      · exact h l hl
      · obtain rfl := List.mem_singleton.mp hl
        exact ⟨nofun, nofun⟩
    | _ => exact h

theorem AllListen.released_iff {s : Relay} (h : AllListen s) :
    s.Released ↔ (∀ t ∈ s.tasks, t.pc = .done) ∧ s.listeners = [] := by
  refine ⟨fun hr => ⟨hr.task, ?_⟩, fun ⟨ht, hl⟩ => ⟨ht, ?_⟩⟩
  · refine List.eq_nil_iff_forall_not_mem.mpr fun l hl => ?_
    exact (h l hl).1 (hr.listener l hl)
  · rw [hl]
    exact nofun

/-! ### Runs -/

/-- **When an association ends with its control connection.**  A run does, exactly
if every task and every listener has ended when the loop stops; and a run in
which no call of a listener fails does, exactly if every datagram has been dealt
with by then and none of them has had a target socket registered. -/
theorem ends_with_control_iff {as : List Action} {s : Relay}
    (h : Runs.run step init as = some s) :
    (Runs.Along step StopsIdle init as ↔ EndsWithControl as) ∧
    (Runs.Along step ListenerServed init as →
      (EndsWithControl as ↔ Runs.Along step StopsUnused init as)) := by
  have hidle : Runs.Along step StopsIdle init as ↔ EndsWithControl as := by
    rw [← settled_iff as]
    exact Runs.along_iff_prefix (fun _ _ _ _ _ => trivial)
      (fun _ _ _ _ hset hp hs => hset.step hp hs)
      (fun _ _ _ _ _ hs hset => stopsIdle_of_step hs hset) trivial nofun h
  refine ⟨hidle, fun hserved => ?_⟩
  rw [← hidle]
  have hboth : ∀ {P Q : Relay → Action → Prop}, (∀ s a, AllListen s → P s a → Q s a) →
      Runs.Along step P init as → Runs.Along step Q init as := by
    intro P Q hPQ hP
    have hand : Runs.Along step (fun s a => ListenerServed s a ∧ P s a) init as := hserved.and hP
    exact Runs.Along.transfer (fun _ _ _ hl hp hs => hl.step hp.1 hs)
      (fun s a _ hl hp _ => hPQ s a hl hp.2) nofun h hand
  constructor
  · exact hboth fun s a hl hp ha => hl.released_iff.mp (hp ha)
  · exact hboth fun s a hl hp ha => hl.released_iff.mpr (hp ha)

theorem ends_with_control_iff_unused :
    (Runs.Along step StopsIdle init [.stop] ↔ EndsWithControl [.stop]) ∧
    (Runs.Along step ListenerServed init [.stop] →
      (EndsWithControl [.stop] ↔ Runs.Along step StopsUnused init [.stop])) :=
  ends_with_control_iff (s := { init with running := false }) rfl

/-! ### An answer after the end -/

/-- The control connection closes after `echoRun`. -/
def closedRun : List Action := echoRun ++ [.stop]

/-- The target sends another byte. -/
def lateRun : List Action :=
  [.listener 0 (.received (.v4 (.new 192 0 2 53) 53) (.ofBytes [10])),
    .listener 0 (.replied true)]

theorem closedRun_runs : (Runs.run step init closedRun).isSome = true := by decide

def closedEnd : Relay := (Runs.run step init closedRun).get closedRun_runs

theorem lateRun_runs : (Runs.run step closedEnd lateRun).isSome = true := by decide

def lateEnd : Relay := (Runs.run step closedEnd lateRun).get lateRun_runs

/-- **The client is answered after its control connection has closed.** -/
theorem answered_after_closing :
    Runs.run step init closedRun = some closedEnd ∧ closedEnd.running = false ∧
      Runs.run step closedEnd lateRun = some lateEnd ∧
      closedEnd.delivered.map (·.arrival.payload) = [[9]] ∧
      lateEnd.delivered.map (·.arrival.payload) = [[9], [10]] ∧
      ¬ EndsWithControl (closedRun ++ lateRun) := by
  have hclosed : Runs.run step init closedRun = some closedEnd := (Option.some_get _).symm
  have hlate : Runs.run step closedEnd lateRun = some lateEnd := (Option.some_get _).symm
  have hstop : closedEnd.running = false := by decide
  refine ⟨hclosed, hstop, hlate, by decide, by decide, fun h => ?_⟩
  obtain ⟨-, -, hsame⟩ := h _ _ _ _ (List.prefix_refl _) hclosed hstop hlate
  have hlen := congrArg List.length hsame
  exact absurd hlen (by decide)

end Relay

end Peregrine
