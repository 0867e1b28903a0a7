import Peregrine.Protocol.Socks5.UdpOwnership

/-!
# Whom a UDP response names

`listen_for_responses` writes into every response the target its task captured,
that of the datagram for which the socket was bound, and drops the address
`recv_from` returned.  A socket serves all targets of its client, so the header
is right exactly as long as what is passed on comes from that first target:
`attributed_iff` says so of every run.
-/

namespace Peregrine

namespace Relay

/-- `source` is the address `target` spells out. -/
def Literal : TargetAddr → SocketAddr → Prop
  | .ipv4 ip port, .v4 ip' port' => ip = ip' ∧ port = port'
  | .ipv6 ip port, .v6 ip' port' _ _ => ip = ip' ∧ port = port'
  | _, _ => False

/-- `target` names `source` to the client: it is that address, or the client has
addressed it and it resolved to that address. -/
def Names (s : Relay) (client : SocketAddr) (target : TargetAddr) (source : SocketAddr) : Prop :=
  Literal target source ∨
  ∃ x ∈ s.sent, x.clientAddr = client ∧ x.target = target ∧ x.addr = source

/-- The response carries the name of its sender. -/
def Attributed (s : Relay) (d : Delivery) : Prop :=
  ∃ target payload, parseSocks5UdpPacket d.packet = .ok (target, payload) ∧
    s.Names d.dest target d.arrival.source

def AllAttributed (s : Relay) : Prop := ∀ d ∈ s.delivered, s.Attributed d

/-- A response that is about to go out came from where the first datagram of
the flow was addressed. -/
def FromFirstTarget (s : Relay) : Action → Prop
  | .listener j (.replied true) => ∀ l source payload packet, s.listeners[j]? = some l →
    l.pc = .reply source payload packet → s.Names l.clientAddr l.targetAddr source
  | _ => True

theorem Names.mono {s s' : Relay} (h : s.sent ⊆ s'.sent) {client : SocketAddr}
    {target : TargetAddr} {source : SocketAddr} (hn : s.Names client target source) :
    s'.Names client target source :=
  hn.imp_right fun ⟨x, hx, hr⟩ => ⟨x, h hx, hr⟩

theorem AllAttributed.mono {s s' : Relay} (h : s.sent ⊆ s'.sent)
    (hd : s'.delivered = s.delivered) (ha : AllAttributed s) : AllAttributed s' := by
  intro d hm
  rw [hd] at hm
  obtain ⟨target, payload, hp, hn⟩ := ha d hm
  exact ⟨target, payload, hp, hn.mono h⟩

/-- **A delivery is attributed exactly when it came from the first target.** -/
theorem attributed_delivery {s : Relay} (o : Owned s) {j : ℕ} {l : Listener} {source : SocketAddr}
    {payload packet : List UInt8} (hl : s.listeners[j]? = some l)
    (hpc : l.pc = .reply source payload packet) :
    s.Attributed ⟨⟨l.targetSocket, source, payload⟩, l.clientAddr, packet⟩ ↔
      s.Names l.clientAddr l.targetAddr source := by
  have hb := ((o.of_listener hl).reply _ _ _ hpc).2
  have hparse : parseSocks5UdpPacket packet = .ok (l.targetAddr, payload) := by
    rw [← Except.ok.inj hb]
    exact parse_build (o.of_listener hl).target payload
  constructor
  · rintro ⟨target, payload', hp, hn⟩
    obtain ⟨rfl, rfl⟩ := Prod.mk.inj (Except.ok.inj (hparse.symm.trans hp))
    exact hn
  · exact fun hn => ⟨l.targetAddr, payload, hparse, hn⟩

theorem allAttributed_step {s s' : Relay} {a : Action} (o : Owned s) (ha : AllAttributed s)
    (hp : s.FromFirstTarget a) (hs : s.step a = some s') : AllAttributed s' := by
  cases stepped hs with
  | delivered hl hpc =>
    intro d hd
    rcases List.mem_append.mp hd with hd | hd
    · exact ha d hd
    · obtain rfl := List.mem_singleton.mp hd
      exact (attributed_delivery o hl hpc).mpr (hp _ _ _ _ hl hpc)
  | sent ht hpc => exact ha.mono (List.subset_append_left _ _) rfl
  | datagram | control | stop | parsed | ended | found | missed | bound | inserted | resolved
  | arrived | broken | removed => exact ha.mono (fun _ => id) rfl

theorem fromFirstTarget_of_step {s s' : Relay} {a : Action} (o : Owned s)
    (hs : s.step a = some s') (ha : AllAttributed s') : s.FromFirstTarget a := by
  unfold FromFirstTarget
  split
  · intro l source payload packet hl hpc
    cases stepped hs with
    | broken hl' hpc' he => exact absurd rfl he
    | delivered hl' hpc' =>
      obtain rfl := Option.some.inj (hl.symm.trans hl')
      rw [hpc] at hpc'
      cases hpc'
      refine (attributed_delivery o hl hpc).mp (ha _ ?_)
      exact List.mem_append_right _ (List.mem_singleton.mpr rfl)
  · exact trivial

/-- **When responses are attributed to their senders.**  A run delivers, in all
the states it goes through, only responses that name their sender, exactly when
each of its replies passes on what came from the first target of the flow. -/
theorem attributed_iff {as : List Action} {s : Relay} (h : Runs.run step init as = some s) :
    Runs.Along step FromFirstTarget init as ↔
      ∀ bs t, bs <+: as → Runs.run step init bs = some t → AllAttributed t :=
  Runs.along_iff_prefix (fun _ _ _ o hs => o.step hs)
    (fun _ _ _ o ha hp hs => allAttributed_step o ha hp hs)
    (fun _ _ _ o _ hs ha => fromFirstTarget_of_step o hs ha) owned_init nofun h

theorem attributed_iff_echo : Runs.Along step FromFirstTarget init echoRun ↔
    ∀ bs t, bs <+: echoRun → Runs.run step init bs = some t → AllAttributed t :=
  attributed_iff (Option.some_get echoRun_runs).symm

/-- A client at 192.0.2.1 sends to 192.0.2.53 and to 198.51.100.7; only the
second answers. -/
def twoTargetsRun : List Action :=
  let client : SocketAddr := .v4 (.new 192 0 2 1) 40000
  let second : SocketAddr := .v4 (.new 198 51 100 7) 123
  [.datagram client (.ofBytes [0, 0, 0, 1, 192, 0, 2, 53, 0, 53, 7]), .task 0 .go, .task 0 .go,
    .task 0 (.bound true), .task 0 .go, .task 0 (.resolved fun _ => .ok []), .task 0 (.sent true),
    .datagram client (.ofBytes [0, 0, 0, 1, 198, 51, 100, 7, 0, 123, 8]), .task 1 .go,
    .task 1 .go, .task 1 (.resolved fun _ => .ok []), .task 1 (.sent true),
    .listener 0 (.received second (.ofBytes [9])), .listener 0 (.replied true)]

theorem twoTargetsRun_runs : (Runs.run step init twoTargetsRun).isSome = true := by decide

def twoTargetsEnd : Relay := (Runs.run step init twoTargetsRun).get twoTargetsRun_runs

/-- **The answer of the second target is delivered in the name of the first.** -/
theorem second_target_misattributed :
    Runs.run step init twoTargetsRun = some twoTargetsEnd ∧ ¬ AllAttributed twoTargetsEnd := by
  refine ⟨(Option.some_get twoTargetsRun_runs).symm, fun h => ?_⟩
  have hmem : (⟨⟨0, .v4 ⟨[198, 51, 100, 7], rfl⟩ 123, [9]⟩, .v4 ⟨[192, 0, 2, 1], rfl⟩ 40000,
      [0, 0, 0, 1, 192, 0, 2, 53, 0, 53, 9]⟩ : Delivery) ∈ twoTargetsEnd.delivered :=
    List.mem_singleton.mpr rfl
  obtain ⟨target, payload, hp, hn⟩ := h _ hmem
  have hparse : parseSocks5UdpPacket [0, 0, 0, 1, 192, 0, 2, 53, 0, 53, 9] =
      .ok (.ipv4 ⟨[192, 0, 2, 53], rfl⟩ 53, [9]) := rfl
  obtain ⟨rfl, -⟩ := Prod.mk.inj (Except.ok.inj (hparse.symm.trans hp))
  rcases hn with ⟨hip, -⟩ | ⟨x, hx, -, htarget, haddr⟩
  · exact absurd hip (by decide)
  · have hsent : ∀ y ∈ twoTargetsEnd.sent, y.target = .ipv4 ⟨[192, 0, 2, 53], rfl⟩ 53 →
        y.addr ≠ .v4 ⟨[198, 51, 100, 7], rfl⟩ 123 := by decide
    exact hsent x hx htarget haddr

end Relay

end Peregrine
