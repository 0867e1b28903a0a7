import Peregrine.Lib.Table
import Peregrine.Server.Shutdown

/-!
# The connection limit

Every connection task holds a permit until it ends, so `max_connections` bounds
the tasks (`Accounted`, which every run keeps).  A CONNECT tunnel is a task of
its own, though, and holds none: its connection's task ends, and drops the
permit, when hyper has handed the connection over.

`permits_bound_iff` says this is the only leak: a run keeps a permit for
everything in service exactly when no connection task ends while the tunnel it
was handed to is still copying.
-/

namespace Peregrine

open Prog (call ret fail)
open Table

def Tunnel.Live (t : Tunnel) : Prop := ∃ o k, t.pc = .running (call o k)

/-- The connection stands where the tunnel `k` has to do with it. -/
def ConnPc.IsFor (pc : ConnPc) (k : ℕ) : Prop := pc = .answered k ∨ pc = .handedOver k

namespace Server

variable {std : IpText} {config : AppConfig}

/-- The client connection `c` is still being served, by its task or by a tunnel. -/
def InService (s : Server) (c : ℕ) : Prop :=
  (∃ conn, s.conns[c]? = some conn ∧ conn.pc.isClosed = false) ∨
  ∃ t ∈ s.tunnels, t.conn = c ∧ t.Live

/-- The permits that are out. -/
def held (s : Server) : ℕ := s.conns.countP (·.permit)

/-- **Everything in service holds a permit**, as many permits are out as
connections hold one, and what `run` computes at shutdown is the truth. -/
structure Bounded (config : AppConfig) (s : Server) : Prop where
  permit : ∀ c, s.InService c → ∃ conn, s.conns[c]? = some conn ∧ conn.permit = true
  permits : s.available + s.held = maxConn config
  at_most : ∀ cs : List ℕ, cs.Nodup → (∀ c ∈ cs, s.InService c) → cs.length ≤ maxConn config
  no_underflow : s.available ≤ maxConn config
  idle : maxConn config - s.available = 0 → ∀ c, ¬ s.InService c

/-- A connection task whose connection was handed to a tunnel ends after the tunnel. -/
def TunnelOver (s : Server) : Action → Prop
  | .conn c .go => ∀ conn k t, s.conns[c]? = some conn → conn.pc = .handedOver k →
    s.tunnels[k]? = some t → ¬ t.Live
  | _ => True

/-! ### What every run keeps -/

/-- Where a tunnel's connection stands. -/
def TunnelPlace (s : Server) (k : ℕ) (t : Tunnel) : Prop :=
  ∃ conn, s.conns[t.conn]? = some conn ∧
    (conn.pc.isClosed = true ∨ (conn.pc = .answered k ∧ ¬ t.Live) ∨ conn.pc = .handedOver k)

/-- **The books of the semaphore.** -/
structure Accounted (config : AppConfig) (s : Server) : Prop where
  permits : s.available + s.held = maxConn config
  permit_eq : ∀ conn ∈ s.conns, conn.permit = !conn.pc.isClosed
  tunnel : ∀ (k : ℕ) (t : Tunnel), s.tunnels[k]? = some t → s.TunnelPlace k t
  place : ∀ (c k : ℕ) (conn : Conn), s.conns[c]? = some conn → conn.pc.IsFor k →
    ∃ t, s.tunnels[k]? = some t ∧ t.conn = c

theorem accounted_init : Accounted config (init config) :=
  ⟨rfl, fun _ h => (by cases h), fun _ _ h => (by cases h), fun _ _ _ h => (by cases h)⟩

theorem held_setConn {s : Server} {c : ℕ} {conn : Conn} {pc : ConnPc}
    (hc : s.conns[c]? = some conn) : (s.setConn c conn pc).held = s.held := by
  have hcount := @countP_set_add _ s.conns c { conn with pc } conn (·.permit) hc
  exact Nat.add_right_cancel hcount

theorem Accounted.permit_setConn {s : Server} (h : Accounted config s) {c : ℕ} {conn : Conn}
    {pc : ConnPc} (hc : s.conns[c]? = some conn) (hopen : conn.pc.isClosed = false)
    (hpc : pc.isClosed = false) :
    ∀ m ∈ (s.setConn c conn pc).conns, m.permit = !m.pc.isClosed := by
  intro m hm
  rcases List.mem_or_eq_of_mem_set hm with hm | rfl
  · exact h.permit_eq m hm
  · have hp := h.permit_eq conn (List.mem_of_getElem? hc)
    rw [hopen] at hp
    rw [hpc]
    exact hp

theorem Accounted.setConn {s : Server} (h : Accounted config s) {c : ℕ} {conn : Conn}
    {pc : ConnPc} (hc : s.conns[c]? = some conn) (hopen : conn.pc.isClosed = false)
    (hnot : ∀ k, ¬ conn.pc.IsFor k) (hpc : pc.isClosed = false)
    (hpcnot : ∀ k, ¬ pc.IsFor k) : Accounted config (s.setConn c conn pc) where
  permits := (congrArg (s.available + ·) (held_setConn hc)).trans h.permits
  permit_eq := h.permit_setConn hc hopen hpc
  tunnel k t ht := by
    obtain ⟨m, hm, hplace⟩ := h.tunnel k t ht
    by_cases htc : t.conn = c
    · subst htc
      obtain rfl := Option.some.inj (hc.symm.trans hm)
      rcases hplace with hclosed | ⟨hans, -⟩ | hover
      · rw [hopen] at hclosed
        cases hclosed
      · exact absurd (Or.inl hans) (hnot k)
      · exact absurd (Or.inr hover) (hnot k)
    · exact ⟨m, (List.getElem?_set_ne (Ne.symm htc)).trans hm, hplace⟩
  place c' k m hm hfor := by
    rcases getElem?_set_cases hm with ⟨-, rfl⟩ | ⟨-, hm⟩
    · exact absurd hfor (hpcnot k)
    · exact h.place c' k m hm hfor

theorem Accounted.letIn {s : Server} (h : Accounted config s) (ha : 0 < s.available)
    (addr : SocketAddr) (tls : Bool) : Accounted config (s.letIn addr tls) where
  permits := by
    have hsum := h.permits
    have hcount : (s.conns ++ [(⟨addr, true, if tls then .tlsAccept else .peek⟩ : Conn)]).countP
        (·.permit) = s.conns.countP (·.permit) + 1 := List.countP_append ..
    simp only [held, Server.letIn] at hsum ⊢
    omega
  permit_eq m hm := by
    rcases List.mem_append.mp hm with hm | hm
    · exact h.permit_eq m hm
    · obtain rfl := List.mem_singleton.mp hm
      cases tls <;> rfl
  tunnel k t ht := by
    obtain ⟨m, hm, hplace⟩ := h.tunnel k t ht
    exact ⟨m, getElem?_concat_of_some hm, hplace⟩
  place c k m hm hfor := by
    rcases getElem?_concat_cases hm with hm | ⟨-, rfl⟩
    · exact h.place c k m hm hfor
    · cases tls <;> rcases hfor with hfor | hfor <;> cases hfor

theorem Accounted.close {s : Server} (h : Accounted config s) {c : ℕ} {conn : Conn}
    (hc : s.conns[c]? = some conn) (hopen : conn.pc.isClosed = false) :
    Accounted config (s.close c conn) where
  permits := by
    have hp := h.permit_eq conn (List.mem_of_getElem? hc)
    rw [hopen] at hp
    have hcount := @countP_set_add _ s.conns c { conn with permit := false, pc := .closed } conn
      (·.permit) hc
    have hsum := h.permits
    simp only [held, Server.close, hp] at hcount hsum ⊢
    simp only [Bool.not_false, if_true, Bool.false_eq_true, if_false] at hcount
    omega
  permit_eq m hm := by
    rcases List.mem_or_eq_of_mem_set hm with hm | rfl
    · exact h.permit_eq m hm
    · rfl
  tunnel k t ht := by
    obtain ⟨m, hm, hplace⟩ := h.tunnel k t ht
    by_cases htc : t.conn = c
    · subst htc
      exact ⟨_, getElem?_set_of_some hc, Or.inl rfl⟩
    · exact ⟨m, (List.getElem?_set_ne (Ne.symm htc)).trans hm, hplace⟩
  place c' k m hm hfor := by
    rcases getElem?_set_cases hm with ⟨-, rfl⟩ | ⟨-, hm⟩
    · rcases hfor with hfor | hfor <;> cases hfor
    · exact h.place c' k m hm hfor

theorem TunnelPlace.eq {s : Server} {j k c : ℕ} {t : Tunnel} {conn : Conn}
    (ht : s.TunnelPlace j t) (hc : s.conns[c]? = some conn) (htc : t.conn = c)
    (hfor : conn.pc.IsFor k) : j = k := by
  obtain ⟨m, hm, hplace⟩ := ht
  subst htc
  obtain rfl := Option.some.inj (hc.symm.trans hm)
  rcases hfor with hfor | hfor <;> rw [hfor] at hplace <;>
    rcases hplace with hplace | ⟨hplace, -⟩ | hplace <;> cases hplace <;> rfl

theorem Accounted.connectAnswered {s : Server} (h : Accounted config s) {c : ℕ} {conn : Conn}
    (hc : s.conns[c]? = some conn) (hpc : conn.pc = .http) (req : HttpRequest) :
    Accounted config ((s.spawnTunnel c conn.addr req).setConn c conn
      (.answered s.tunnels.length)) where
  permits := (congrArg (s.available + ·) (held_setConn hc)).trans h.permits
  permit_eq := h.permit_setConn hc (by rw [hpc]; rfl) rfl
  tunnel k t ht := by
    rcases getElem?_concat_cases ht with ht | ⟨rfl, rfl⟩
    · obtain ⟨m, hm, hplace⟩ := h.tunnel k t ht
      by_cases htc : t.conn = c
      · subst htc
        obtain rfl := Option.some.inj (hc.symm.trans hm)
        rw [hpc] at hplace
        rcases hplace with hplace | ⟨hplace, -⟩ | hplace <;> cases hplace
      · exact ⟨m, (List.getElem?_set_ne (Ne.symm htc)).trans hm, hplace⟩
    · refine ⟨_, getElem?_set_of_some hc, Or.inr (Or.inl ⟨rfl, ?_⟩)⟩
      rintro ⟨o, k, hlive⟩
      cases hlive
  place c' k m hm hfor := by
    rcases getElem?_set_cases hm with ⟨rfl, rfl⟩ | ⟨-, hm⟩
    · rcases hfor with hfor | hfor <;> cases hfor
      exact ⟨_, List.getElem?_concat_length, rfl⟩
    · obtain ⟨t, ht, htc⟩ := h.place c' k m hm hfor
      exact ⟨t, getElem?_concat_of_some ht, htc⟩

theorem exists_tunnel_set {ts : List Tunnel} {j k c : ℕ} {t t' : Tunnel} (ht : ts[k]? = some t)
    (hconn : t'.conn = t.conn) (h : ∃ u, ts[j]? = some u ∧ u.conn = c) :
    ∃ u, (ts.set k t')[j]? = some u ∧ u.conn = c := by
  obtain ⟨u, hu, huc⟩ := h
  by_cases hj : j = k
  · subst hj
    obtain rfl := Option.some.inj (ht.symm.trans hu)
    exact ⟨t', getElem?_set_of_some ht, hconn.trans huc⟩
  · exact ⟨u, (List.getElem?_set_ne (Ne.symm hj)).trans hu, huc⟩

theorem Accounted.handOver {s : Server} (h : Accounted config s) {c k : ℕ} {conn : Conn}
    {t : Tunnel} (hc : s.conns[c]? = some conn) (hpc : conn.pc = .answered k)
    (ht : s.tunnels[k]? = some t) (pc : TunnelPc) :
    Accounted config ((s.setTunnel k t pc).setConn c conn (.handedOver k)) where
  permits := (congrArg (s.available + ·) (held_setConn hc)).trans h.permits
  permit_eq := h.permit_setConn hc (by rw [hpc]; rfl) rfl
  tunnel j u hu := by
    have htc : t.conn = c := by
      obtain ⟨t', ht', htc⟩ := h.place c k conn hc (Or.inl hpc)
      obtain rfl := Option.some.inj (ht.symm.trans ht')
      exact htc
    rcases getElem?_set_cases hu with ⟨rfl, rfl⟩ | ⟨hne, hu⟩
    · subst htc
      exact ⟨_, getElem?_set_of_some hc, Or.inr (Or.inr rfl)⟩
    · obtain ⟨m, hm, hplace⟩ := h.tunnel j u hu
      by_cases huc : u.conn = c
      · exact absurd (TunnelPlace.eq (h.tunnel j u hu) hc huc (Or.inl hpc)) hne
      · exact ⟨m, (List.getElem?_set_ne (Ne.symm huc)).trans hm, hplace⟩
  place c' j m hm hfor := by
    have hold : ∃ u, s.tunnels[j]? = some u ∧ u.conn = c' := by
      rcases getElem?_set_cases hm with ⟨rfl, rfl⟩ | ⟨-, hm⟩
      · rcases hfor with hfor | hfor <;> cases hfor
        exact h.place _ _ conn hc (Or.inl hpc)
      · exact h.place c' j m hm hfor
    exact exists_tunnel_set ht rfl hold

theorem Accounted.setTunnel {s : Server} (h : Accounted config s) {k : ℕ} {t : Tunnel}
    {pc : TunnelPc} (ht : s.tunnels[k]? = some t) (hlive : ¬ t.Live → ¬ { t with pc }.Live) :
    Accounted config (s.setTunnel k t pc) where
  permits := h.permits
  permit_eq := h.permit_eq
  tunnel j u hu := by
    rcases getElem?_set_cases hu with ⟨rfl, rfl⟩ | ⟨-, hu⟩
    · obtain ⟨m, hm, hplace⟩ := h.tunnel _ t ht
      exact ⟨m, hm, hplace.imp_right (Or.imp_left (And.imp_right hlive))⟩
    · exact h.tunnel j u hu
  place c j m hm hfor := by
    exact exists_tunnel_set ht rfl (h.place c j m hm hfor)

theorem not_isFor {pc : ConnPc} (hans : ∀ k, pc ≠ .answered k) (hover : ∀ k, pc ≠ .handedOver k) :
    ∀ k, ¬ pc.IsFor k := fun k hfor => hfor.elim (hans k) (hover k)

/-- **Every step keeps the books.** -/
theorem Accounted.step {s s' : Server} {a : Action} (h : Accounted config s)
    (hs : s.step std config a = some s') : Accounted config s' := by
  cases stepped hs with
  | ctrlC | joined | ended | reloaded | notReloaded | entered | accepted | acceptFailed | notified
  | udp => exact ⟨h.permits, h.permit_eq, h.tunnel, h.place⟩
  | @admitted i l addr hl hpc ha =>
    have hin := h.letIn ha addr l.tls
    exact ⟨hin.permits, hin.permit_eq, hin.tunnel, hin.place⟩
  | tlsAccepted hc hpc | detectedHttp hc hpc | detectedSocks5 hc hpc | responded hc hpc
  | accepting hc hpc | dispatched hc hpc | relayed hc hpc =>
    exact h.setConn hc (by rw [hpc]; rfl) (by rw [hpc]; exact not_isFor nofun nofun) rfl
      (not_isFor nofun nofun)
  | forwarded hc hpc | exchanged hc hpc | dispatchedConnect hc hpc | associated hc hpc
  | served hc hpc =>
    refine Accounted.setConn ?_ hc (by rw [hpc]; rfl) (by rw [hpc]; exact not_isFor nofun nofun)
      rfl (not_isFor nofun nofun)
    exact ⟨h.permits, h.permit_eq, h.tunnel, h.place⟩
  | @connectAnswered c conn req hreq hc hpc hm =>
    have hlog : Accounted config (s.logRequest conn.addr (.http req)) :=
      ⟨h.permits, h.permit_eq, h.tunnel, h.place⟩
    exact hlog.connectAnswered hc hpc req
  | handedOver hc hpc ht => exact h.handOver hc hpc ht _
  | closed hc hopen he => exact h.close hc hopen
  | upgradeFailed ht hpc =>
    refine h.setTunnel ht fun _ hlive => ?_
    obtain ⟨o, k, hlive⟩ := hlive
    cases hlive
  | tunnelled ht hpc =>
    refine Accounted.setTunnel ?_ ht fun hnot => absurd ⟨_, _, hpc⟩ hnot
    exact ⟨h.permits, h.permit_eq, h.tunnel, h.place⟩

/-! ### Tunnels that hold a permit -/

def TunnelsHeld (s : Server) : Prop :=
  ∀ (k : ℕ) (t : Tunnel), s.tunnels[k]? = some t → t.Live →
    ∃ conn, s.conns[t.conn]? = some conn ∧ conn.permit = true

/-- **Nothing but tunnels can be in service without a permit.** -/
theorem Accounted.bounded_iff {s : Server} (h : Accounted config s) :
    Bounded config s ↔ s.TunnelsHeld := by
  constructor
  · intro hb k t ht hlive
    exact hb.permit t.conn (Or.inr ⟨t, List.mem_of_getElem? ht, rfl, hlive⟩)
  · intro hheld
    have hserve : ∀ c, s.InService c → ∃ conn, s.conns[c]? = some conn ∧ conn.permit = true := by
      rintro c (⟨conn, hc, hopen⟩ | ⟨t, ht, rfl, hlive⟩)
      · refine ⟨conn, hc, ?_⟩
        rw [h.permit_eq conn (List.mem_of_getElem? hc), hopen]
        rfl
      · obtain ⟨k, hk⟩ := List.getElem?_of_mem ht
        exact hheld k t hk hlive
    have hmost : ∀ cs : List ℕ, cs.Nodup → (∀ c ∈ cs, s.InService c) → cs.length ≤ s.held :=
      fun cs hn hcs => length_le_countP hn fun c hc => hserve c (hcs c hc)
    have hsum := h.permits
    refine ⟨hserve, hsum, fun cs hn hcs => ?_, by omega, fun hidle c hc => ?_⟩
    · have hle := hmost cs hn hcs
      omega
    · have hle := hmost [c] (List.pairwise_singleton _ c)
        fun c' hc' => List.mem_singleton.mp hc' ▸ hc
      rw [List.length_singleton] at hle
      omega

theorem TunnelsHeld.setConn {s : Server} (h : TunnelsHeld s) {c : ℕ} {conn : Conn} {pc : ConnPc}
    (hc : s.conns[c]? = some conn) : TunnelsHeld (s.setConn c conn pc) := by
  intro k t ht hlive
  obtain ⟨m, hm, hp⟩ := h k t ht hlive
  by_cases htc : t.conn = c
  · subst htc
    obtain rfl := Option.some.inj (hc.symm.trans hm)
    exact ⟨_, getElem?_set_of_some hc, hp⟩
  · exact ⟨m, (List.getElem?_set_ne (Ne.symm htc)).trans hm, hp⟩

/-- **A step keeps the permits of the tunnels** unless it ends the task of one. -/
theorem TunnelsHeld.step {s s' : Server} {a : Action} (inv : Accounted config s)
    (h : TunnelsHeld s) (hp : s.TunnelOver a) (hs : s.step std config a = some s') :
    TunnelsHeld s' := by
  cases stepped hs with
  | ctrlC | joined | ended | reloaded | notReloaded | entered | accepted | acceptFailed | notified
  | udp => exact h
  | admitted hl hpc ha =>
    intro k t ht hlive
    obtain ⟨m, hm, hperm⟩ := h k t ht hlive
    exact ⟨m, getElem?_concat_of_some hm, hperm⟩
  | tlsAccepted hc hpc | detectedHttp hc hpc | detectedSocks5 hc hpc | responded hc hpc
  | accepting hc hpc | dispatched hc hpc | relayed hc hpc => exact h.setConn hc
  | forwarded hc hpc | exchanged hc hpc | dispatchedConnect hc hpc | associated hc hpc
  | served hc hpc =>
    refine TunnelsHeld.setConn ?_ hc
    exact h
  | connectAnswered hc hpc hm =>
    refine TunnelsHeld.setConn ?_ hc
    intro k t ht hlive
    rcases getElem?_concat_cases ht with ht | ⟨-, rfl⟩
    · exact h k t ht hlive
    · obtain ⟨o, next, hlive⟩ := hlive
      cases hlive
  | @handedOver c k conn t hc hpc ht =>
    refine TunnelsHeld.setConn ?_ hc
    intro j u hu hlive
    rcases getElem?_set_cases hu with ⟨rfl, rfl⟩ | ⟨-, hu⟩
    · obtain ⟨t', ht', rfl⟩ := inv.place c j conn hc (Or.inl hpc)
      obtain rfl := Option.some.inj (ht.symm.trans ht')
      refine ⟨conn, hc, ?_⟩
      rw [inv.permit_eq conn (List.mem_of_getElem? hc), hpc]
      rfl
    · exact h j u hu hlive
  | @closed c conn e hc hopen he =>
    intro k t ht hlive
    obtain ⟨m, hm, hperm⟩ := h k t ht hlive
    have htc : t.conn ≠ c := by
      rintro rfl
      obtain ⟨m', hm', hplace⟩ := inv.tunnel k t ht
      obtain rfl := Option.some.inj (hc.symm.trans hm')
      rcases hplace with hclosed | ⟨-, hdead⟩ | hover
      · rw [hopen] at hclosed
        cases hclosed
      · exact hdead hlive
      · obtain rfl := he k hover
        exact hp conn k t hc hover ht hlive
    exact ⟨m, (List.getElem?_set_ne (Ne.symm htc)).trans hm, hperm⟩
  | upgradeFailed ht hpc =>
    intro j u hu hlive
    rcases getElem?_set_cases hu with ⟨-, rfl⟩ | ⟨-, hu⟩
    · obtain ⟨o, next, hlive⟩ := hlive
      cases hlive
    · exact h j u hu hlive
  | @tunnelled k t o next f ht hpc =>
    intro j u hu hlive
    rcases getElem?_set_cases hu with ⟨-, rfl⟩ | ⟨-, hu⟩
    · exact h k t ht ⟨o, next, hpc⟩
    · exact h j u hu hlive

/-- **A task that ends before its tunnel** leaves the tunnel without a permit. -/
theorem tunnelOver_of_step {s s' : Server} {a : Action} (inv : Accounted config s)
    (hs : s.step std config a = some s') (h' : TunnelsHeld s') : s.TunnelOver a := by
  unfold TunnelOver
  split
  · rename_i c
    intro conn k t hc hpc ht hlive
    have hs' : s' = s.close c conn := by
      unfold Server.step at hs
      split at hs
      · cases hs
      · simp only [hc, Option.bind_some, hpc, stepConn] at hs
        exact (Option.some.inj hs).symm
    subst hs'
    obtain ⟨t', ht', htc⟩ := inv.place c k conn hc (Or.inr hpc)
    obtain rfl := Option.some.inj (ht.symm.trans ht')
    subst htc
    obtain ⟨m, hm, hperm⟩ := h' k t ht hlive
    obtain rfl := Option.some.inj ((getElem?_set_of_some hc).symm.trans hm)
    cases hperm
  · trivial

/-- **When `max_connections` bounds everything in service.**  A run has a permit
for everything in service, in all the states it goes through, exactly when no
connection task of it ends while the tunnel it was handed to is live. -/
theorem permits_bound_iff {as : List Action} {s : Server}
    (h : Runs.run (step std config) (init config) as = some s) :
    Runs.Along (step std config) TunnelOver (init config) as ↔
      ∀ bs t, bs <+: as → Runs.run (step std config) (init config) bs = some t →
        Bounded config t := by
  have hacc : ∀ bs t, Runs.run (step std config) (init config) bs = some t → Accounted config t :=
    fun bs t ht => Runs.run_invariant (fun _ _ _ ha hs => ha.step hs) accounted_init ht
  have hiff := @Runs.along_iff_prefix _ _ (step std config) TunnelOver (Accounted config)
    TunnelsHeld
    (fun _ _ _ ha hs => ha.step hs) (fun _ _ _ ha hg hp hs => hg.step ha hp hs)
    (fun _ _ _ ha _ hs hg => tunnelOver_of_step ha hs hg) _ _ _ accounted_init
    (fun _ _ ht => (by cases ht)) h
  rw [hiff]
  constructor
  · exact fun hall bs t hp ht => (hacc bs t ht).bounded_iff.mpr (hall bs t hp ht)
  · exact fun hall bs t hp ht => (hacc bs t ht).bounded_iff.mp (hall bs t hp ht)

/-! ### A tunnel without a permit -/

/-- A client; the listener is `smallConfig`'s. -/
def clientAddr (port : UInt16) : SocketAddr := .v4 (.new 192 0 2 1) port

/-- `CONNECT example.com:443`. -/
def connectReq : HttpRequest where
  method := "CONNECT"
  uri :=
    { authority := some "example.com:443"
      host := some "example.com"
      port := some 443
      pathAndQuery := none }
  version := .http11
  headers := []
  body := []

theorem connectReq_wellFormed : connectReq.wellFormed = true := by decide +kernel

/-- A client opens a tunnel, which is handed over and copies; its permit goes to
a second client. -/
def leakRun : List Action :=
  [.loop 0 .go, .loop 0 (.accepted (.ok (clientAddr 40000))), .loop 0 .go,
    .conn 0 (.peeked (.ok (utf8 "CONNECT "))),
    .conn 0 (.request connectReq connectReq_wellFormed), .conn 0 .go,
    .tunnel 0 (.answer (agreeable [])), .conn 0 .go,
    .loop 0 .go, .loop 0 (.accepted (.ok (clientAddr 40001))), .loop 0 .go]

theorem permits_bound_iff_leak :
    Runs.Along (step .plain smallConfig) TunnelOver (init smallConfig) leakRun ↔
      ∀ bs t, bs <+: leakRun →
        Runs.run (step .plain smallConfig) (init smallConfig) bs = some t →
          Bounded smallConfig t :=
  permits_bound_iff (Option.some_get (rfl : (Runs.run (step .plain smallConfig)
    (init smallConfig) leakRun).isSome = true)).symm

/-- **Two connections in service where one is allowed.** -/
theorem tunnel_outlives_permit : ∃ s,
    Runs.run (step .plain smallConfig) (init smallConfig) leakRun = some s ∧
      ¬ Bounded smallConfig s := by
  refine ⟨_, rfl, fun h => ?_⟩
  have hle := h.at_most [0, 1] (by decide) (by
    intro c hc
    rcases List.mem_cons.mp hc with rfl | hc
    · exact Or.inr ⟨_, List.mem_singleton.mpr rfl, rfl, _, _, rfl⟩
    · obtain rfl := List.mem_singleton.mp hc
      exact Or.inl ⟨_, rfl, rfl⟩)
  exact absurd hle (by decide)

end Server

end Peregrine
