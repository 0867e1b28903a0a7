import Peregrine.PlainText
import Peregrine.Server.Server

/-!
# Shutdown and the accept loops

`run` wakes the accept loops by `notify_waiters`, which wakes the `Notified`
futures there are and leaves nothing behind for later ones.  A loop makes a new
one on every turn and has none while it waits for a permit, so a loop that comes
back to `select!` after the call waits for a call that is never made
(`entered_late`), goes on accepting, and keeps `run` waiting (`never_joined`).

`no_late_waiter` says when this cannot happen: every loop waits in `select!`, or
has stopped, when the call is made, and from then on none takes a connection
that came in together with the call.  No listener is safe from it
(`never_late_iff`).
-/

namespace Peregrine

namespace Server

variable {std : IpText} {config : AppConfig}

/-- Once `notify_waiters` has been called, no loop waits in `select!` on a
`Notified` created after the call. -/
def NoLateWaiter (s : Server) : Prop :=
  s.notifyCalls ≠ 0 → ∀ l ∈ s.loops, ∀ epoch, l.pc = .select epoch → epoch < s.notifyCalls

/-- The call of `notify_waiters` finds every loop in `select!` or stopped, and
after the call no loop takes the accept branch. -/
def CaughtWaiting (s : Server) : Action → Prop
  | .run .ctrlC => ∀ l ∈ s.loops, (∃ epoch, l.pc = .select epoch) ∨ l.pc = .stopped
  | .loop _ (.accepted _) => s.notifyCalls = 0
  | _ => True

/-- After the call every loop has been woken or has stopped. -/
structure Caught (s : Server) : Prop where
  epoch_le : ∀ l ∈ s.loops, ∀ epoch, l.pc = .select epoch → epoch ≤ s.notifyCalls
  woken : s.notifyCalls ≠ 0 → ∀ l ∈ s.loops,
    (∃ epoch, l.pc = .select epoch ∧ epoch < s.notifyCalls) ∨ l.pc = .stopped

theorem Caught.noLateWaiter {s : Server} (h : Caught s) : NoLateWaiter s := by
  intro hcalls l hl epoch hpc
  rcases h.woken hcalls l hl with ⟨epoch', hpc', hlt⟩ | hstop
  · rw [hpc] at hpc'
    cases hpc'
    exact hlt
  · rw [hpc] at hstop
    cases hstop

theorem caught_init : Caught (init config) := by
  refine ⟨fun l hl epoch hpc => ?_, fun hcalls => absurd rfl hcalls⟩
  obtain ⟨listen, -, rfl⟩ := List.mem_map.mp hl
  cases hpc

theorem Caught.setLoop {s : Server} (h : Caught s) {i : ℕ} {l : AcceptLoop} {pc : LoopPc}
    (hle : ∀ epoch, pc = .select epoch → epoch ≤ s.notifyCalls)
    (hwoken : s.notifyCalls ≠ 0 → (∃ epoch, pc = .select epoch ∧ epoch < s.notifyCalls) ∨
      pc = .stopped) : Caught (s.setLoop i l pc) where
  epoch_le m hm epoch hpc := by
    rcases List.mem_or_eq_of_mem_set hm with hm | rfl
    · exact h.epoch_le m hm epoch hpc
    · exact hle epoch hpc
  woken hcalls m hm := by
    rcases List.mem_or_eq_of_mem_set hm with hm | rfl
    · exact h.woken hcalls m hm
    · exact hwoken hcalls

theorem Caught.before_call {s : Server} (h : Caught s) {i : ℕ} {l : AcceptLoop} {pc : LoopPc}
    (hl : s.loops[i]? = some l) (hpc : l.pc = pc) (hsel : ∀ epoch, pc ≠ .select epoch)
    (hstop : pc ≠ .stopped) : s.notifyCalls = 0 := by
  subst hpc
  by_contra hcalls
  rcases h.woken hcalls l (List.mem_of_getElem? hl) with ⟨epoch, hpc, -⟩ | hpc
  · exact hsel epoch hpc
  · exact hstop hpc

theorem Caught.step {s s' : Server} {a : Action} (h : Caught s) (hp : s.CaughtWaiting a)
    (hs : s.step std config a = some s') : Caught s' := by
  cases stepped hs with
  | ctrlC hrun =>
    refine ⟨fun l hl epoch hpc => (h.epoch_le l hl epoch hpc).trans (Nat.le_succ _),
      fun _ l hl => (hp l hl).imp_left ?_⟩
    rintro ⟨epoch, hpc⟩
    exact ⟨epoch, hpc, Nat.lt_succ_of_le (h.epoch_le l hl epoch hpc)⟩
  | @entered i l hl hpc =>
    have hcalls : s.notifyCalls = 0 := h.before_call hl hpc nofun nofun
    refine h.setLoop (fun epoch he => ?_) fun hc => absurd hcalls hc
    cases he
    exact Nat.le_refl _
  | accepted | acceptFailed => exact h.setLoop nofun fun hc => absurd hp hc
  | notified => exact h.setLoop nofun fun _ => Or.inr rfl
  | @admitted i l addr hl hpc ha =>
    have hcalls : s.notifyCalls = 0 := h.before_call hl hpc nofun nofun
    have hin : Caught (s.letIn addr l.tls) := ⟨h.epoch_le, h.woken⟩
    exact hin.setLoop nofun fun hc => absurd hcalls hc
  | joined | ended | reloaded | notReloaded | tlsAccepted | detectedHttp | detectedSocks5
  | forwarded | connectAnswered | exchanged | responded | handedOver | accepting
  | dispatchedConnect | dispatched | associated | served | relayed | closed | upgradeFailed
  | tunnelled | udp => exact ⟨h.epoch_le, h.woken⟩

/-- **When no shutdown is lost.**  In a run in which the call finds every loop
waiting and no loop accepts after it, no loop ever waits on a `Notified` created
after the call. -/
theorem no_late_waiter {as : List Action} {s : Server}
    (h : Runs.run (step std config) (init config) as = some s)
    (ha : Runs.Along (step std config) CaughtWaiting (init config) as) : NoLateWaiter s :=
  Caught.noLateWaiter
    (Runs.run_invariant_along (fun _ _ _ hc hp hs => hc.step hp hs) caught_init ha h)

/-- One plain listener, one connection at a time, nobody allowed. -/
def smallConfig : AppConfig where
  server :=
    { listen := [{ addr := "127.0.0.1:8080", protocol := .http, tls := none }]
      maxConnections := some 1 }
  accessControl := { defaultAction := .deny, rules := [] }
  upstream := .direct

theorem no_late_waiter_idle : NoLateWaiter
    ((Runs.run (step .plain smallConfig) (init smallConfig)
      [.loop 0 .go, .run .ctrlC, .loop 0 .notified]).get rfl) :=
  no_late_waiter (Option.some_get _).symm
    ⟨trivial, fun _ h1 => ⟨by cases h1; simp [CaughtWaiting, init, setLoop, smallConfig],
      fun _ h2 => ⟨trivial, fun _ _ => trivial⟩⟩⟩

/-! ### What is lost otherwise -/

/-- **A loop that comes to `select!` after the call is late.** -/
theorem entered_late {s s' : Server} {i : ℕ} {l : AcceptLoop} (hl : s.loops[i]? = some l)
    (hpc : l.pc = .top) (hcalls : s.notifyCalls ≠ 0)
    (hs : s.step std config (.loop i .go) = some s') : ¬ NoLateWaiter s' := by
  intro hlate
  cases stepped hs with
  | entered hl' hpc' =>
    obtain rfl := Option.some.inj (hl.symm.trans hl')
    have hmem : { l with pc := LoopPc.select s.notifyCalls } ∈
        (s.setLoop i l (.select s.notifyCalls)).loops :=
      List.mem_set (List.getElem?_eq_some_iff.mp hl).1 _
    exact Nat.lt_irrefl _ (hlate hcalls _ hmem _ rfl)
  | admitted hl' hpc' ha =>
    obtain rfl := Option.some.inj (hl.symm.trans hl')
    rw [hpc] at hpc'
    cases hpc'

/-- **Over all runs of a configuration** no shutdown is lost exactly if it has no
listener. -/
theorem never_late_iff (std : IpText) (config : AppConfig) :
    (∀ as s, Runs.run (step std config) (init config) as = some s → NoLateWaiter s) ↔
      config.server.listen = [] := by
  constructor
  · intro hall
    by_contra hne
    obtain ⟨listen, rest, hlisten⟩ := List.exists_cons_of_ne_nil hne
    -- the call is made before the first loop has come to `select!`
    let s₁ : Server := { init config with runPc := .joining, notifyCalls := 1 }
    have hl : s₁.loops[0]? = some ⟨listen.tls.isSome, .top⟩ := by
      show (config.server.listen.map _)[0]? = _
      rw [hlisten]
      rfl
    have h₁ : (init config).step std config (.run .ctrlC) = some s₁ := rfl
    have h₂ : s₁.step std config (.loop 0 .go) =
        some (s₁.setLoop 0 ⟨listen.tls.isSome, .top⟩ (.select 1)) := by
      show (s₁.loops[0]?).bind _ = _
      rw [hl]
      rfl
    refine entered_late hl rfl Nat.one_ne_zero h₂ (hall [.run .ctrlC, .loop 0 .go] _ ?_)
    rw [Runs.run_cons, h₁, Option.bind_some, Runs.run_cons, h₂]
    rfl
  · intro hnil as s h
    have hlen : s.loops.length = 0 :=
      @Runs.run_invariant _ _ (step std config) (·.loops.length = 0)
        (fun _ _ _ hl hs => (step_loops_length hs).trans hl) _ _ _ (by rw [init, hnil]; rfl) h
    intro _ l hl
    rw [List.eq_nil_of_length_eq_zero hlen] at hl
    cases hl

/-- A loop that no call will wake: it waits on a `Notified` newer than the last
call, or is on its way to the next one. -/
def Missed (s : Server) (l : AcceptLoop) : Prop :=
  l.pc = .top ∨ (∃ addr, l.pc = .acquire addr) ∨ l.pc = .select s.notifyCalls

/-- `run` waits for the loop `i`, which no call will wake. -/
def Hangs (s : Server) (i : ℕ) : Prop :=
  s.runPc = .joining ∧ ∃ l, s.loops[i]? = some l ∧ s.Missed l

theorem Hangs.setLoop {s : Server} {i j : ℕ} {l : AcceptLoop} {pc : LoopPc} (h : Hangs s i)
    (hl : s.loops[j]? = some l) (hm : s.Missed l → s.Missed { l with pc }) :
    Hangs (s.setLoop j l pc) i := by
  obtain ⟨hrun, m, hi, hmiss⟩ := h
  by_cases hij : i = j
  · subst hij
    obtain rfl := Option.some.inj (hl.symm.trans hi)
    refine ⟨hrun, { l with pc }, ?_, hm hmiss⟩
    exact List.getElem?_set_self (List.getElem?_eq_some_iff.mp hl).1
  · refine ⟨hrun, m, ?_, hmiss⟩
    exact (List.getElem?_set_ne (Ne.symm hij)).trans hi

theorem Hangs.step {s s' : Server} {i : ℕ} {a : Action} (h : Hangs s i)
    (hs : s.step std config a = some s') : Hangs s' i := by
  cases stepped hs with
  | ctrlC hrun | ended hrun => rw [h.1] at hrun; cases hrun
  | joined hrun hstop =>
    obtain ⟨-, l, hl, hmiss⟩ := h
    have hpc := hstop l (List.mem_of_getElem? hl)
    rw [Missed, hpc] at hmiss
    rcases hmiss with hmiss | ⟨addr, hmiss⟩ | hmiss <;> cases hmiss
  | entered hl hpc => exact h.setLoop hl fun _ => Or.inr (Or.inr rfl)
  | accepted hl hpc => exact h.setLoop hl fun _ => Or.inr (Or.inl ⟨_, rfl⟩)
  | acceptFailed hl hpc => exact h.setLoop hl fun _ => Or.inl rfl
  | notified hl hpc he =>
    refine h.setLoop hl fun hmiss => ?_
    rw [Missed, hpc] at hmiss
    rcases hmiss with hmiss | ⟨addr, hmiss⟩ | hmiss
    · cases hmiss
    · cases hmiss
    · cases hmiss
      exact absurd he (Nat.lt_irrefl _)
  | @admitted j l addr hl hpc ha =>
    have hin : Hangs (s.letIn addr l.tls) i := h
    exact hin.setLoop hl fun _ => Or.inl rfl
  | reloaded | notReloaded | tlsAccepted | detectedHttp | detectedSocks5 | forwarded
  | connectAnswered | exchanged | responded | handedOver | accepting | dispatchedConnect
  | dispatched | associated | served | relayed | closed | upgradeFailed | tunnelled | udp =>
    exact h

/-- **A lost shutdown is never made up for.**  Once `run` waits for a loop that
missed the call, it waits for ever. -/
theorem never_joined {s t : Server} {i : ℕ} {as : List Action} (h : Hangs s i)
    (hr : Runs.run (step std config) s as = some t) : t.runPc = .joining :=
  (@Runs.run_invariant _ _ (step std config) (Hangs · i) (fun _ _ _ hi hs => hi.step hs)
    _ _ _ h hr).1

/-- The loop has let a connection in and waits for its permit when the call is
made; then it gets the permit and goes back to `select!`. -/
def lateRun : List Action :=
  let client : SocketAddr := .v4 (.new 192 0 2 1) 40000
  [.loop 0 .go, .loop 0 (.accepted (.ok client)), .run .ctrlC, .loop 0 .go, .loop 0 .go]

/-- **A lost shutdown.** -/
theorem accepting_loop_misses_shutdown : ∃ s,
    Runs.run (step .plain smallConfig) (init smallConfig) lateRun = some s ∧ ¬ NoLateWaiter s := by
  refine ⟨_, rfl, fun h => ?_⟩
  exact absurd (h (by decide) ⟨false, .select 1⟩ (List.mem_singleton.mpr rfl) 1 rfl) (by decide)

end Server

end Peregrine
