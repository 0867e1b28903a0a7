import Peregrine.Server.Permits

/-!
# The drain

At shutdown `run` waits for the connections by acquiring every permit.  The
semaphore has `max_conn` of them, a `usize`, and `acquire_many` is asked for
`max_conn as u32`: the wait completes as soon as `max_conn % 2 ^ 32` permits are
back (`drained_iff`), which are all of them for a limit below `2 ^ 32` and for no
other (`drain_sound_iff`).
-/

namespace Peregrine

namespace Server

variable {std : IpText} {config : AppConfig}

/-- **The drain of a limit is sound**: where the wait of `run` completes, all
permits have been returned and no connection task is left. -/
def DrainSound (n : ℕ) : Prop :=
  ∀ (std : IpText) (config : AppConfig) (as : List Action) (s : Server) (active : ℕ),
    maxConn config = n → Runs.run (step std config) (init config) as = some s →
    s.runPc = .draining active → 0 < active → (s.step std config (.run .drained)).isSome = true →
    s.available = n ∧ ∀ conn ∈ s.conns, conn.pc.isClosed = true

theorem drained_iff {s : Server} {active : ℕ} (hpc : s.runPc = .draining active)
    (hactive : 0 < active) : (s.step std config (.run .drained)).isSome = true ↔
      maxConn config % 2 ^ 32 ≤ s.available := by
  have hne : s.runPc ≠ .ended := by
    rw [hpc]
    exact nofun
  rw [step, if_neg hne, hpc]
  simp only [stepRun]
  split_ifs with h
  · refine ⟨fun _ => ?_, fun _ => rfl⟩
    exact h.resolve_left (Nat.ne_of_gt hactive)
  · exact ⟨nofun, fun hle => absurd (Or.inr hle) h⟩

theorem Accounted.all_back_iff {s : Server} (h : Accounted config s) :
    maxConn config ≤ s.available ↔ ∀ conn ∈ s.conns, conn.pc.isClosed = true := by
  have hsum := h.permits
  have hzero : maxConn config ≤ s.available ↔ s.held = 0 := by omega
  rw [hzero, held, List.countP_eq_zero]
  refine forall₂_congr fun conn hconn => ?_
  rw [h.permit_eq conn hconn]
  simp

/-! ### Limits that are too large -/

def limitedTo (n : ℕ) : AppConfig :=
  { smallConfig with server := { smallConfig.server with maxConnections := some n } }

/-- A connection is let in, and then the server is shut down. -/
def shutdownRun : List Action :=
  let client : SocketAddr := .v4 (.new 192 0 2 1) 40000
  [.loop 0 .go, .loop 0 (.accepted (.ok client)), .loop 0 .go, .loop 0 .go, .run .ctrlC,
    .loop 0 .notified, .run .joined]

theorem run_shutdownRun {n : ℕ} (hn : 0 < n) : ∃ s conn,
    Runs.run (step std (limitedTo n)) (init (limitedTo n)) shutdownRun = some s ∧
      s.runPc = .draining 1 ∧ s.available = n - 1 ∧ s.conns = [conn] ∧
      conn.pc.isClosed = false := by
  obtain ⟨m, rfl⟩ := Nat.exists_eq_add_of_lt hn
  rw [Nat.zero_add]
  have hactive : maxConn (limitedTo (m + 1)) - (m + 1 - 1) = 1 := by
    show m + 1 - (m + 1 - 1) = 1
    omega
  refine ⟨_, _, rfl, ?_, rfl, rfl, rfl⟩
  exact congrArg RunPc.draining hactive

/-- **A limit of `2 ^ 32` or more is not waited for**: the wait completes with a
connection task left. -/
theorem drains_early {n : ℕ} (hn : 2 ^ 32 ≤ n) : ∃ s conn,
    Runs.run (step std (limitedTo n)) (init (limitedTo n)) shutdownRun = some s ∧
      s.runPc = .draining 1 ∧ (s.step std (limitedTo n) (.run .drained)).isSome = true ∧
      s.available = n - 1 ∧ conn ∈ s.conns ∧ conn.pc.isClosed = false := by
  obtain ⟨s, conn, hrun, hpc, havailable, hconns, hopen⟩ :=
    @run_shutdownRun std n (Nat.lt_of_lt_of_le (by decide) hn)
  have hmod := Nat.mod_lt n (by decide : 2 ^ 32 > 0)
  have hback : maxConn (limitedTo n) % 2 ^ 32 ≤ s.available := by
    show n % 2 ^ 32 ≤ s.available
    omega
  refine ⟨s, conn, hrun, hpc, (drained_iff hpc Nat.one_pos).mpr hback, havailable, ?_, hopen⟩
  rw [hconns]
  exact List.mem_singleton.mpr rfl

theorem not_drainSound {n : ℕ} (hn : 2 ^ 32 ≤ n) : ¬ DrainSound n := by
  intro h
  obtain ⟨s, conn, hrun, hpc, hsome, -, hconn, hopen⟩ := @drains_early .plain n hn
  have hclosed := (h .plain (limitedTo n) _ s 1 rfl hrun hpc Nat.one_pos hsome).2 conn hconn
  rw [hopen] at hclosed
  cases hclosed

/-! ### Soundness -/

/-- **The drain is sound exactly for the limits that a `u32` can hold.** -/
theorem drain_sound_iff (n : ℕ) : DrainSound n ↔ n < 2 ^ 32 := by
  constructor
  · intro h
    by_contra hlarge
    exact not_drainSound (Nat.le_of_not_lt hlarge) h
  · rintro hn std config as s active rfl hrun hpc hactive hsome
    have hacc := Runs.run_invariant (fun _ _ _ hi hs => Accounted.step hi hs)
      (@accounted_init config) hrun
    have hback := (drained_iff hpc hactive).mp hsome
    rw [Nat.mod_eq_of_lt hn] at hback
    have hsum := hacc.permits
    exact ⟨by omega, hacc.all_back_iff.mp hback⟩

/-- **An unlimited limit**: with `max_connections: 4294967296` the wait asks for no
permits at all, and completes with a connection being served. -/
theorem unlimited_drained_at_once : ¬ DrainSound 4294967296 ∧ ∃ s conn,
    Runs.run (step .plain (limitedTo 4294967296)) (init (limitedTo 4294967296)) shutdownRun =
      some s ∧ s.runPc = .draining 1 ∧
      (s.step .plain (limitedTo 4294967296) (.run .drained)).isSome = true ∧
      s.available = 4294967295 ∧ conn ∈ s.conns ∧ conn.pc.isClosed = false :=
  ⟨not_drainSound (by decide), drains_early (by decide)⟩

end Server

end Peregrine
