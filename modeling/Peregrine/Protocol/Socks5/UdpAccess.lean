import Peregrine.Protocol.Socks5.Accept
import Peregrine.Protocol.Socks5.UdpOwnership

/-!
# Who may use an association

A client asks for UDP ASSOCIATE over a connection on which it may have had to
authenticate, and the relay socket that is bound for it takes datagrams from
anyone: `handle_udp_associate` is given neither the users nor the peer's
address.

`Negotiated` is a connection that has got as far as the command, and
`only_peer_iff` says when the relay serves its peer alone: over all runs with
given arrivals, exactly if the peer sends every datagram among them that parses.
A send counts if the call may succeed, whatever the family of the target.
-/

namespace Peregrine

/-- A control connection on which a client has asked for UDP ASSOCIATE. -/
structure Negotiated (users : Option (List UserCredential)) where
  peer : SocketAddr
  /-- What the peer has sent, in the segments in which it came. -/
  segs : List (List UInt8)
  closed : Bool
  request : SocksRequest
  rest : List UInt8
  reaches : ReachesDispatch users segs closed request rest
  command : request.command = .udpAssociate

/-- **A host may use the association** if it is the peer, and the peer has
presented a listed credential where users are configured. -/
def Negotiated.Entitles {users : Option (List UserCredential)} (n : Negotiated users)
    (ip : IpAddr) : Prop :=
  ip = n.peer.ip ∧ ∀ list, users = some list → PresentsListed list n.segs.flatten

theorem Negotiated.entitles_iff {users : Option (List UserCredential)} {n : Negotiated users}
    {ip : IpAddr} : n.Entitles ip ↔ ip = n.peer.ip := by
  refine and_iff_left ?_
  rintro list rfl
  obtain ⟨o, hsegs, -⟩ := reachesDispatch_iff.mp n.reaches
  rw [hsegs]
  exact o.presentsListed n.rest

namespace Relay

/-- Everything sent to a target is from a host that may use the association. -/
def OnlyEntitled {users : Option (List UserCredential)} (n : Negotiated users) (s : Relay) : Prop :=
  ∀ x ∈ s.sent, n.Entitles x.clientAddr.ip

/-- A payload that is about to be sent is the peer's. -/
def SendsForPeer (peer : SocketAddr) (s : Relay) : Action → Prop
  | .task i (.sent true) => ∀ t, s.tasks[i]? = some t → t.clientAddr.ip = peer.ip
  | _ => True

variable {users : Option (List UserCredential)} {n : Negotiated users}

theorem OnlyEntitled.step {s s' : Relay} {a : Action} (h : OnlyEntitled n s)
    (hp : s.SendsForPeer n.peer a) (hs : s.step a = some s') : OnlyEntitled n s' := by
  cases stepped hs with
  | sent ht hpc =>
    intro x hx
    rcases List.mem_append.mp hx with hx | hx
    · exact h x hx
    · obtain rfl := List.mem_singleton.mp hx
      exact Negotiated.entitles_iff.mpr (hp _ ht)
  | _ => exact h

theorem sendsForPeer_of_step {s s' : Relay} {a : Action} (hs : s.step a = some s')
    (h : OnlyEntitled n s') : s.SendsForPeer n.peer a := by
  unfold SendsForPeer
  split
  · rename_i i
    intro t ht
    have hstep : s.stepTask i t t.pc (.sent true) = some s' := by
      rw [step, ht, Option.bind_some] at hs
      exact hs
    cases hpc : t.pc with
    | send target payload socket addr =>
      rw [hpc] at hstep
      cases hstep
      exact Negotiated.entitles_iff.mp (h _ (List.mem_append_right _ (List.mem_singleton.mpr rfl)))
    | _ =>
      rw [hpc] at hstep
      cases hstep
  · trivial

theorem received_of_run {as : List Action} {s t : Relay} (h : Runs.run step s as = some t) :
    ∀ x ∈ t.received, x ∈ s.received ∨ ∃ d, .datagram x.1 d ∈ as ∧ x.2 = d.bytes := by
  induction as generalizing s with
  | nil =>
    cases h
    exact fun x hx => Or.inl hx
  | cons a as ih =>
    obtain ⟨u, hu, hrun⟩ := Runs.run_cons_some h
    intro x hx
    rcases ih hrun x hx with hx | ⟨d, hd, hbytes⟩
    · have hstep : x ∈ s.received ∨ ∃ d, a = .datagram x.1 d ∧ x.2 = d.bytes := by
        cases stepped hu with
        | datagram client d =>
          rcases List.mem_append.mp hx with hx | hx
          · exact Or.inl hx
          · obtain rfl := List.mem_singleton.mp hx
            exact Or.inr ⟨d, rfl, rfl⟩
        | _ => exact Or.inl hx
      rcases hstep with hx | ⟨d, rfl, hbytes⟩
      · exact Or.inl hx
      · exact Or.inr ⟨d, List.mem_cons_self, hbytes⟩
    · exact Or.inr ⟨d, List.mem_cons_of_mem _ hd, hbytes⟩

/-- **When only the peer is served.**  Over all runs in which only datagrams of a given
kind arrive, exactly if each of these that parses is from the peer's address.  And in
one run, exactly if each payload that is sent to a target is the peer's when it is
sent. -/
theorem only_peer_iff {users : Option (List UserCredential)} (n : Negotiated users) :
    (∀ arrives : SocketAddr → Datagram → Prop,
      (∀ as s, Runs.run step init as = some s →
        (∀ client d, .datagram client d ∈ as → arrives client d) → OnlyEntitled n s) ↔
      ∀ client d target payload, arrives client d →
        parseSocks5UdpPacket d.bytes = .ok (target, payload) → client.ip = n.peer.ip) ∧
    ∀ as s, Runs.run step init as = some s →
      (Runs.Along step (SendsForPeer n.peer) init as ↔
        ∀ bs t, bs <+: as → Runs.run step init bs = some t → OnlyEntitled n t) := by
  refine ⟨fun arrives => ⟨fun hall client d target payload hd hp => ?_,
    fun hall as s h has x hx => ?_⟩, fun as s h => ?_⟩
  · obtain ⟨s, hs, addr, hsent⟩ := run_forwardRun client hp
    have honly := hall _ s hs fun client' d' hmem => by
      simp only [forwardRun, List.mem_cons, List.not_mem_nil, Action.datagram.injEq,
        reduceCtorEq, or_false] at hmem
      obtain ⟨rfl, rfl⟩ := hmem
      exact hd
    refine Negotiated.entitles_iff.mp (honly ⟨0, client, target, addr, payload⟩ ?_)
    rw [hsent]
    exact List.mem_singleton.mpr rfl
  · have howned : Owned s := Runs.run_invariant (fun _ _ _ ho hs => ho.step hs) owned_init h
    obtain ⟨data, hdata, hp⟩ := (howned.sent x hx).taken
    rcases received_of_run h _ hdata with hnone | ⟨d, hd, hbytes⟩
    · cases hnone
    · have hparse : parseSocks5UdpPacket d.bytes = .ok (x.target, x.payload) := by
        rw [← hbytes]
        exact hp
      exact Negotiated.entitles_iff.mpr (hall _ d _ _ (has _ d hd) hparse)
  · exact Runs.along_iff_prefix (fun _ _ _ _ _ => trivial)
      (fun _ _ _ _ ho hp hs => ho.step hp hs)
      (fun _ _ _ _ _ hs ho => sendsForPeer_of_step hs ho) trivial
      (fun _ hx => absurd hx List.not_mem_nil) h

/-! ### A stranger -/

def oneUser : List UserCredential := [⟨"kestrel", "hover"⟩]

/-- The user authenticates and asks for UDP ASSOCIATE. -/
def userOpening : Opening (some oneUser) where
  greeting := ⟨[0x02], by decide⟩
  auth := AuthMessage.bytes ⟨"kestrel", "hover", by decide, by decide⟩
  message := ⟨.udpAssociate, 0x00, .ipv4 (.new 0 0 0 0) 0, trivial⟩
  offers := by decide
  authenticates := .listed _ _ (by decide)

def userNegotiated : Negotiated (some oneUser) where
  peer := .v4 (.new 192 0 2 1) 50000
  segs := [userOpening.bytes]
  closed := false
  request := userOpening.request
  rest := []
  reaches := reachesDispatch_iff.mpr ⟨userOpening, rfl, rfl⟩
  command := rfl

def strangerRun : List Action :=
  forwardRun (.v4 (.new 203 0 113 9) 40000)
    (.ofBytes [0, 0, 0, 1, 192, 0, 2, 53, 0, 53, 7, 8])

theorem strangerRun_runs : (Runs.run step init strangerRun).isSome = true := by decide

def strangerEnd : Relay := (Runs.run step init strangerRun).get strangerRun_runs

/-- **A stranger is served**: a host that has never authenticated has its datagram
forwarded through the association of one that has. -/
theorem stranger_served :
    Runs.run step init strangerRun = some strangerEnd ∧
      strangerEnd.sent.map (fun x => (x.clientAddr.ip, x.payload)) =
        [(.v4 ⟨[203, 0, 113, 9], rfl⟩, [7, 8])] ∧
      ¬ OnlyEntitled userNegotiated strangerEnd := by
  refine ⟨(Option.some_get _).symm, by decide, fun h => ?_⟩
  have hall : ∀ x ∈ strangerEnd.sent, x.clientAddr.ip ≠ userNegotiated.peer.ip := by decide
  have hne : strangerEnd.sent ≠ [] := by decide
  obtain ⟨x, hx⟩ := List.exists_mem_of_ne_nil _ hne
  exact hall x hx (Negotiated.entitles_iff.mp (h x hx))

end Relay

end Peregrine
