import Mathlib.Data.List.Forall2
import Peregrine.PlainText
import Peregrine.Upstream.HttpTunnel

/-!
# The route of a proxy chain

Who is at the other end of the stream while `ChainConnector::connect` works its
way through a chain?  A `Tour` keeps the answer next to what happens on the
stream: the peers so far, the last of them being the present one, and every
write with the entry it was made for and the peer it went to.  The world behind
the stream is an oracle, so it may do anything; `run_connect_eq_tour` says that
the tour only watches.

A `Direct` entry leaves the stream as it is, and the hop before it has already
asked for the final target.  So a proxy behind a `Direct` entry is greeted while
the target is at the other end: `onRoute_iff` says that a chain stays on its
route exactly when this never happens, `NoDetour`.  The invariant of the loop is
`Ready`.
-/

namespace Peregrine

open Prog (Oracle History)

/-! ### Tours -/

/-- The far end of the stream: dialled, or asked for in a handshake. -/
inductive Peer
  | dialled (addr : String)
  | asked (target : ConnectTarget)
  deriving DecidableEq

/-- The peer is the proxy configured at `addr`. -/
def Peer.At : Peer → String → Prop
  | .dialled a, addr => a = addr
  | .asked t, addr => parseAddrToTarget addr = .ok t

def Peer.Is : Peer → ConnectTarget → Prop
  | .dialled a, target => a = target.authority
  | .asked t, target => t = target

/-- A write, the entry it was made for and the peer it went to. -/
structure Written where
  config : UpstreamConfig
  peer : Option Peer
  bytes : List UInt8

structure Tour where
  history : History sysSig
  route : List Peer
  written : List Written

def Tour.start : Tour := ⟨[], [], []⟩

/-- What was written, of all that happened. -/
def writesOf (l : History sysSig) : List (List UInt8) :=
  l.filterMap fun e => match e.1 with
    | .inl (.writeAll bs) => some bs
    | _ => none

/-- The handshake for `config` has brought the history to `l`. -/
def Tour.record (s : Tour) (config : UpstreamConfig) (l : History sysSig) : Tour :=
  { s with
    history := l
    written := s.written ++
      (writesOf (l.drop s.history.length)).map fun bs => ⟨config, s.route.getLast?, bs⟩ }

/-- A successful handshake that asked for `target` makes it the peer; a direct
entry has asked for nothing. -/
def Tour.moveOn (s : Tour) : UpstreamConfig → ConnectTarget → Tour
  | .direct, _ => s
  | _, target => { s with route := s.route ++ [.asked target] }

def Tour.dial (s : Tour) (addr : String) (r : Except IoError Unit) : Tour :=
  { s with
    history := s.history ++ [⟨.inr (.tcpConnect addr), r⟩]
    route := match r with
      | .ok _ => s.route ++ [.dialled addr]
      | .error _ => s.route }

/-- The hops, watched. -/
def tourWorld (std : IpText) (ω : Oracle sysSig) : Prog.Handler hopSig Tour
  | .tcpConnect addr, s =>
    some (ω s.history (.inr (.tcpConnect addr)),
      s.dial addr (ω s.history (.inr (.tcpConnect addr))))
  | .handshake config target, s =>
    match Prog.run ω.handler (performProxyHandshake std config target) s.history with
    | .ret () l => some (.ok (), (s.record config l).moveOn config target)
    | .fail e l => some (.error e, s.record config l)
    | .stuck _ => none

/-! ### What is claimed of a chain -/

def proxyAddresses (chain : List UpstreamConfig) : List String :=
  chain.filterMap fun config => (extractProxyAddress config).toOption

/-- The stream has been at every proxy of the chain, in order, and is at the target. -/
def Visited (chain : List UpstreamConfig) (target : ConnectTarget) (route : List Peer) : Prop :=
  ∃ visits last, route = visits ++ [last] ∧
    List.Forall₂ Peer.At visits (proxyAddresses chain) ∧ last.Is target

/-- Everything was written to the proxy it was written for. -/
def Tour.Discreet (s : Tour) : Prop :=
  ∀ w ∈ s.written, ∃ addr peer, extractProxyAddress w.config = .ok addr ∧
    w.peer = some peer ∧ peer.At addr

/-- On the world `ω` the chain keeps to its route. -/
def OnRoute (std : IpText) (chain : List UpstreamConfig) (target : ConnectTarget)
    (ω : Oracle sysSig) : Prop :=
  (∀ s, Prog.run (tourWorld std ω) (connectHops chain target) .start = .ret () s →
    Visited chain target s.route) ∧
  (Prog.run (tourWorld std ω) (connectHops chain target) .start).world.Discreet

/-- An entry the loop can ask its way past: direct, or at an address it can parse. -/
def Passable (config : UpstreamConfig) : Prop :=
  config = .direct ∨
    ∃ addr t, extractProxyAddress config = .ok addr ∧ parseAddrToTarget addr = .ok t

/-- The loop can get through these entries: a proxy, and then passable ones. -/
def Gets (pre : List UpstreamConfig) : Prop :=
  ∃ first more addr, pre = first :: more ∧ extractProxyAddress first = .ok addr ∧
    ∀ config ∈ more, Passable config

/-- **No proxy that the loop gets to comes behind a direct entry**, unless it is
the target itself. -/
def NoDetour (chain : List UpstreamConfig) (target : ConnectTarget) : Prop :=
  ∀ pre config post addr asked, chain = pre ++ .direct :: config :: post → Gets pre →
    (∀ next ∈ post.head?, Passable next) → extractProxyAddress config = .ok addr →
    parseAddrToTarget addr = .ok asked → asked = target

/-! ### Hops -/

section Hops

variable {std : IpText} {ω : Oracle sysSig} {target : ConnectTarget}

theorem run_oracle_ne_stuck {α : Type} (p : Sys α) (l u : History sysSig) :
    Prog.run ω.handler p l ≠ .stuck u := by
  induction p generalizing l with
  | ret a => exact nofun
  | fail e => exact nofun
  | call o k ih => exact ih _ _

theorem history_grows {α : Type} (p : Sys α) (l : History sysSig) :
    l <+: (Prog.run ω.handler p l).world := by
  refine Prog.run_keeps List.prefix_refl (fun _ _ _ => List.IsPrefix.trans) ?_ p l
  intro o s x s' h
  cases h
  exact List.prefix_append _ _

/-- **The tour only watches**: what the connector does on the stream, in any
world, is what its hops do. -/
theorem run_connect_eq_tour (c : ChainConnector) (s : Tour) :
    Prog.run ω.handler (c.connect std target) s.history =
      (Prog.run (tourWorld std ω) (connectHops c.chain target) s).map Tour.history := by
  refine Prog.run_interp (fun o s => ?_) _ s
  cases o with
  | tcpConnect addr => exact ⟨_, _, rfl, rfl⟩
  | handshake config asked =>
    simp only [hopAction, tourWorld, Prog.run_attempt]
    cases hrun : Prog.run ω.handler (performProxyHandshake std config asked) s.history with
    | ret a l =>
      refine ⟨_, _, rfl, ?_⟩
      cases config <;> rfl
    | fail e l => exact ⟨_, _, rfl, rfl⟩
    | stuck l => exact absurd hrun (run_oracle_ne_stuck _ _ _)

/-- **What a hop does to the tour**: it records the writes of its handshake, and
moves on if that succeeds.  An entry without an address writes nothing, and a
nested chain does not succeed. -/
theorem run_hopHandshake (config : UpstreamConfig) (asked : ConnectTarget) (s : Tour) :
    ∃ l, (∀ e, extractProxyAddress config = .error e → l = s.history) ∧
      ((∃ e, Prog.run (tourWorld std ω) (hopHandshake config asked) s =
          .fail e (s.record config l)) ∨
       (config = .direct ∨ ∃ addr, extractProxyAddress config = .ok addr) ∧
        Prog.run (tourWorld std ω) (hopHandshake config asked) s =
          .ret () ((s.record config l).moveOn config asked)) := by
  cases hrun : Prog.run ω.handler (performProxyHandshake std config asked) s.history with
  | stuck l => exact absurd hrun (run_oracle_ne_stuck _ _ _)
  | fail e l =>
    have hstep : tourWorld std ω (.handshake config asked) s =
        some (.error e, s.record config l) := by
      simp only [tourWorld, hrun]
    refine ⟨l, fun e' he => ?_, Or.inl ⟨e, run_hopHandshake_error hstep⟩⟩
    cases config with
    | direct => cases hrun
    | chain c =>
      cases hrun
      rfl
    | http addr auth tls => cases he
    | socks5 addr auth tls => cases he
  | ret a l =>
    have hstep : tourWorld std ω (.handshake config asked) s =
        some (.ok (), (s.record config l).moveOn config asked) := by
      simp only [tourWorld, hrun]
    refine ⟨l, fun e' he => ?_, Or.inr ⟨?_, run_hopHandshake_ok hstep⟩⟩
    · cases config with
      | direct =>
        cases hrun
        rfl
      | chain c => cases hrun
      | http addr auth tls => cases he
      | socks5 addr auth tls => cases he
    · cases config with
      | direct => exact Or.inl rfl
      | chain c => cases hrun
      | http addr auth tls => exact Or.inr ⟨addr, rfl⟩
      | socks5 addr auth tls => exact Or.inr ⟨addr, rfl⟩

/-! ### The loop keeps to the route -/

/-- The loop has come to `config` with `pre` behind it and `rest` ahead: the
stream has been at the proxies of `pre`, and is where `config` wants it. -/
structure Ready (target : ConnectTarget) (pre : List UpstreamConfig) (config : UpstreamConfig)
    (rest : List UpstreamConfig) (s : Tour) (visits : List Peer) (peer : Peer) : Prop where
  route : s.route = visits ++ [peer]
  visited : List.Forall₂ Peer.At visits (proxyAddresses pre)
  gets : Gets (pre ++ [config])
  discreet : s.Discreet
  at_target : config = .direct → peer = .asked target
  at_proxy : ∀ addr, extractProxyAddress config = .ok addr →
    (∀ next ∈ rest.head?, Passable next) → peer.At addr

theorem passable_of_nextTarget {next : UpstreamConfig} {asked : ConnectTarget}
    (h : nextTarget target next = .ok asked) : Passable next := by
  cases next with
  | direct => exact Or.inl rfl
  | http addr auth tls => exact Or.inr ⟨addr, asked, rfl, h⟩
  | socks5 addr auth tls => exact Or.inr ⟨addr, asked, rfl, h⟩
  | chain c => cases h

theorem parse_of_nextTarget {next : UpstreamConfig} {asked : ConnectTarget} {addr : String}
    (h : nextTarget target next = .ok asked) (ha : extractProxyAddress next = .ok addr) :
    parseAddrToTarget addr = .ok asked := by
  cases next with
  | direct => cases ha
  | http a auth tls =>
    cases ha
    exact h
  | socks5 a auth tls =>
    cases ha
    exact h
  | chain c => cases ha

theorem Gets.snoc {pre : List UpstreamConfig} {config : UpstreamConfig} (h : Gets pre)
    (hc : Passable config) : Gets (pre ++ [config]) := by
  obtain ⟨first, more, addr, rfl, ha, hmore⟩ := h
  refine ⟨first, more ++ [config], addr, rfl, ha, fun c hm => ?_⟩
  rcases List.mem_append.mp hm with hm | hm
  · exact hmore c hm
  · obtain rfl := List.mem_singleton.mp hm
    exact hc

theorem Gets.of_direct {pre : List UpstreamConfig} (h : Gets (pre ++ [.direct])) : Gets pre := by
  obtain ⟨first, more, addr, heq, ha, hmore⟩ := h
  cases pre with
  | nil =>
    obtain ⟨rfl, -⟩ := List.cons.inj heq
    cases ha
  | cons c pre =>
    obtain ⟨rfl, rfl⟩ := List.cons.inj heq
    exact ⟨c, pre, addr, rfl, ha, fun x hx => hmore x (List.mem_append_left _ hx)⟩

theorem Tour.Discreet.record {s : Tour} {config : UpstreamConfig} {l : History sysSig}
    {visits : List Peer} {peer : Peer} (h : s.Discreet) (hr : s.route = visits ++ [peer])
    (hno : ∀ e, extractProxyAddress config = .error e → l = s.history)
    (hat : ∀ addr, extractProxyAddress config = .ok addr → peer.At addr) :
    (s.record config l).Discreet := by
  intro w hw
  rcases List.mem_append.mp hw with hw | hw
  · exact h w hw
  · obtain ⟨bs, hbs, rfl⟩ := List.mem_map.mp hw
    show ∃ addr p, extractProxyAddress config = .ok addr ∧ s.route.getLast? = some p ∧ p.At addr
    have hlast : s.route.getLast? = some peer := by
      rw [hr]
      exact List.getLast?_concat
    cases ha : extractProxyAddress config with
    | ok addr => exact ⟨addr, peer, rfl, hlast, hat addr ha⟩
    | error e =>
      rw [hno e ha, List.drop_length] at hbs
      cases hbs

theorem proxyAddresses_append (pre post : List UpstreamConfig) :
    proxyAddresses (pre ++ post) = proxyAddresses pre ++ proxyAddresses post :=
  List.filterMap_append

theorem Ready.moveOn {pre rest : List UpstreamConfig} {config : UpstreamConfig} {s : Tour}
    {visits : List Peer} {peer : Peer} {asked : ConnectTarget} {l : History sysSig}
    (h : Ready target pre config rest s visits peer)
    (hok : config = .direct ∨ ∃ addr, extractProxyAddress config = .ok addr)
    (hrest : ∀ next ∈ rest.head?, Passable next) :
    ∃ visits' peer', ((s.record config l).moveOn config asked).route = visits' ++ [peer'] ∧
      List.Forall₂ Peer.At visits' (proxyAddresses (pre ++ [config])) ∧
      (config = .direct → peer' = .asked target) ∧ (config ≠ .direct → peer' = .asked asked) := by
  rcases hok with rfl | ⟨addr, ha⟩
  · refine ⟨visits, peer, h.route, ?_, fun _ => h.at_target rfl, fun hne => absurd rfl hne⟩
    rw [proxyAddresses_append, show proxyAddresses [.direct] = [] from rfl, List.append_nil]
    exact h.visited
  · have hpeer := h.at_proxy addr ha hrest
    refine ⟨visits ++ [peer], .asked asked, ?_, ?_, fun hd => ?_, fun _ => rfl⟩
    · cases config with
      | direct => cases ha
      | http a auth tls => exact congrArg (· ++ [Peer.asked asked]) h.route
      | socks5 a auth tls => exact congrArg (· ++ [Peer.asked asked]) h.route
      | chain c => cases ha
    · rw [proxyAddresses_append]
      have hone : proxyAddresses [config] = [addr] := by
        rw [proxyAddresses, List.filterMap_cons, ha]
        rfl
      rw [hone]
      exact List.rel_append h.visited (List.Forall₂.cons hpeer List.Forall₂.nil)
    · rw [hd] at ha
      cases ha

theorem Tour.Discreet.moveOn {s : Tour} (h : s.Discreet) (config : UpstreamConfig)
    (asked : ConnectTarget) : (s.moveOn config asked).Discreet := by
  cases config <;> exact h

/-- **The loop keeps to the route**, by induction on the entries ahead. -/
theorem hopsFrom_onRoute {chain : List UpstreamConfig} (hd : NoDetour chain target)
    (rest : List UpstreamConfig) : ∀ (pre : List UpstreamConfig) (config : UpstreamConfig)
    (s : Tour) (visits : List Peer) (peer : Peer), chain = pre ++ config :: rest →
    Ready target pre config rest s visits peer →
    (∀ t, Prog.run (tourWorld std ω) (hopsFrom target (config :: rest)) s = .ret () t →
      Visited chain target t.route) ∧
    (Prog.run (tourWorld std ω) (hopsFrom target (config :: rest)) s).world.Discreet := by
  induction rest with
  | nil =>
    intro pre config s visits peer hchain hr
    obtain ⟨l, hno, hrun⟩ := @run_hopHandshake std ω config target s
    have hrec : (s.record config l).Discreet :=
      hr.discreet.record hr.route hno fun addr ha => hr.at_proxy addr ha nofun
    rw [hopsFrom]
    rcases hrun with ⟨e, hrun⟩ | ⟨hok, hrun⟩
    · rw [hrun]
      exact ⟨nofun, hrec⟩
    · rw [hrun]
      refine ⟨fun t ht => ?_, hrec.moveOn config target⟩
      cases ht
      obtain ⟨visits', peer', hroute, hvis, hdir, hask⟩ :=
        @Ready.moveOn _ _ _ _ _ _ _ target l hr hok nofun
      refine ⟨visits', peer', hroute, hchain ▸ hvis, ?_⟩
      by_cases hc : config = .direct
      · rw [hdir hc]
        rfl
      · rw [hask hc]
        rfl
  | cons next rest ih =>
    intro pre config s visits peer hchain hr
    rw [hopsFrom]
    cases hnt : nextTarget target next with
    | error e => exact ⟨nofun, hr.discreet⟩
    | ok asked =>
      have hpass : ∀ n ∈ (next :: rest).head?, Passable n := by
        intro n hn
        obtain rfl := Option.some.inj hn
        exact passable_of_nextTarget hnt
      obtain ⟨l, hno, hrun⟩ := @run_hopHandshake std ω config asked s
      have hrec : (s.record config l).Discreet :=
        hr.discreet.record hr.route hno fun addr ha => hr.at_proxy addr ha hpass
      rw [Prog.ofExcept_ok, Prog.ret_bind, Prog.run_bind]
      rcases hrun with ⟨e, hrun⟩ | ⟨hok, hrun⟩
      · rw [hrun]
        exact ⟨nofun, hrec⟩
      · rw [hrun]
        obtain ⟨visits', peer', hroute, hvis, hdir, hask⟩ :=
          @Ready.moveOn _ _ _ _ _ _ _ asked l hr hok hpass
        refine ih (pre ++ [config]) next _ visits' peer' (by rw [hchain]; simp) ⟨hroute, hvis,
          hr.gets.snoc (passable_of_nextTarget hnt), hrec.moveOn config asked, ?_, ?_⟩
        · rintro rfl
          obtain rfl : target = asked := Except.ok.inj hnt
          by_cases hc : config = .direct
          · exact hdir hc
          · exact hask hc
        · intro addr ha hrest
          have hparse := parse_of_nextTarget hnt ha
          by_cases hc : config = .direct
          · subst hc
            rw [hdir rfl, ← hd pre next rest addr asked hchain hr.gets.of_direct hrest ha hparse]
            exact hparse
          · rw [hask hc]
            exact hparse

/-! ### From the first entry -/

theorem run_hopConnect (failed addr : String) (s : Tour) :
    Prog.run (tourWorld std ω) (hopConnect failed addr) s = .ret () (s.dial addr (.ok ())) ∨
    ∃ e d, Prog.run (tourWorld std ω) (hopConnect failed addr) s =
      .fail e (s.dial addr (.error d)) := by
  have hcall : hopConnect failed addr = .call (.tcpConnect addr) fun r =>
      Prog.ofExcept (fun e => .upstream (failed ++ e.display)) r := rfl
  have hstep : tourWorld std ω (.tcpConnect addr) s =
      some (ω s.history (.inr (.tcpConnect addr)),
        s.dial addr (ω s.history (.inr (.tcpConnect addr)))) := rfl
  rw [hcall, Prog.run_call_some hstep]
  cases ω s.history (.inr (.tcpConnect addr)) with
  | ok u => exact Or.inl rfl
  | error d => exact Or.inr ⟨_, d, rfl⟩

theorem discreet_start : Tour.start.Discreet := nofun

theorem onRoute_of_noDetour {chain : List UpstreamConfig} (hd : NoDetour chain target) :
    OnRoute std chain target ω := by
  cases chain with
  | nil => exact ⟨nofun, discreet_start⟩
  | cons first rest =>
    rcases connectHops_cases target first rest with
      ⟨rfl, rfl⟩ | ⟨e, heq⟩ | ⟨addr, failed, ha, heq⟩
    · have hrun := @run_hopConnect std ω "Direct connection failed: " target.authority .start
      rw [OnRoute, show connectHops [.direct] target =
        hopConnect "Direct connection failed: " target.authority from rfl]
      rcases hrun with hrun | ⟨e, d, hrun⟩
      · rw [hrun]
        refine ⟨fun s hs => ?_, discreet_start⟩
        cases hs
        exact ⟨[], .dialled target.authority, rfl, .nil, rfl⟩
      · rw [hrun]
        exact ⟨nofun, discreet_start⟩
    · rw [OnRoute, heq]
      exact ⟨nofun, discreet_start⟩
    · rw [OnRoute, heq, Prog.run_bind]
      rcases @run_hopConnect std ω failed addr .start with hrun | ⟨e, d, hrun⟩
      · rw [hrun]
        refine hopsFrom_onRoute hd rest [] first _ [] (.dialled addr) rfl ⟨rfl, .nil,
          ⟨first, [], addr, rfl, ha, nofun⟩, discreet_start, ?_, ?_⟩
        · rintro rfl
          cases ha
        · intro addr' haddr _
          exact Except.ok.inj (ha.symm.trans haddr)
      · rw [hrun]
        exact ⟨nofun, discreet_start⟩

/-! ### A detour -/

theorem agreeable_handshake {config : UpstreamConfig} (asked : ConnectTarget)
    (h : config = .direct ∨ ∃ addr, extractProxyAddress config = .ok addr) (l : History sysSig) :
    ∃ l', Prog.run agreeable.handler (performProxyHandshake std config asked) l = .ret () l' := by
  cases config with
  | direct => exact ⟨l, rfl⟩
  | http addr auth tls => exact ⟨_, rfl⟩
  | socks5 addr auth tls =>
    cases auth with
    | none => exact ⟨_, rfl⟩
    | some cred => exact ⟨_, rfl⟩
  | chain c => rcases h with h | ⟨addr, h⟩ <;> cases h

theorem agreeable_hop {config : UpstreamConfig} (asked : ConnectTarget)
    (h : config = .direct ∨ ∃ addr, extractProxyAddress config = .ok addr) (s : Tour) :
    ∃ l, Prog.run (tourWorld std agreeable) (hopHandshake config asked) s =
      .ret () ((s.record config l).moveOn config asked) := by
  obtain ⟨l, hl⟩ := @agreeable_handshake std config asked h s.history
  have hstep : tourWorld std agreeable (.handshake config asked) s =
      some (.ok (), (s.record config l).moveOn config asked) := by
    simp only [tourWorld, hl]
  exact ⟨l, run_hopHandshake_ok hstep⟩

theorem written_start {α : Type} (p : Hops α) (s : Tour) :
    s.written <+: (Prog.run (tourWorld std ω) p s).world.written := by
  refine @Prog.run_keeps _ _ _ _ (tourWorld std ω) (fun s t => s.written <+: t.written)
    (fun _ => List.prefix_refl _) (fun _ _ _ => List.IsPrefix.trans) ?_ p s
  intro o s x s' h
  cases o with
  | tcpConnect addr =>
    cases h
    exact List.prefix_refl _
  | handshake config asked =>
    simp only [tourWorld] at h
    split at h
    · cases h
      cases config <;> exact List.prefix_append _ _
    · cases h
      exact List.prefix_append _ _
    · cases h

theorem first_write {config : UpstreamConfig} {addr : String} (asked : ConnectTarget)
    (ha : extractProxyAddress config = .ok addr) (l : History sysSig) :
    ∃ bs r, l ++ [⟨.inl (.writeAll bs), r⟩] <+:
      (Prog.run ω.handler (performProxyHandshake std config asked) l).world := by
  cases config with
  | direct => cases ha
  | http a auth tls => exact ⟨_, _, history_grows _ _⟩
  | socks5 a auth tls => exact ⟨_, _, history_grows _ _⟩
  | chain c => cases ha

/-- **A hop writes to whoever is there.** -/
theorem hop_writes {config : UpstreamConfig} {addr : String} (asked : ConnectTarget)
    (ha : extractProxyAddress config = .ok addr) (s : Tour) :
    ∃ w ∈ (Prog.run (tourWorld std ω) (hopHandshake config asked) s).world.written,
      w.config = config ∧ w.peer = s.route.getLast? := by
  obtain ⟨bs, r, hpre⟩ := @first_write std ω config addr asked ha s.history
  have hmem : ∀ l, s.history ++ [⟨.inl (.writeAll bs), r⟩] <+: l →
      (⟨config, s.route.getLast?, bs⟩ : Written) ∈ (s.record config l).written := by
    rintro l ⟨more, rfl⟩
    refine List.mem_append_right _ (List.mem_map.mpr ⟨bs, ?_, rfl⟩)
    rw [List.append_assoc, List.drop_left]
    exact List.mem_cons_self
  cases hrun : Prog.run ω.handler (performProxyHandshake std config asked) s.history with
  | stuck l => exact absurd hrun (run_oracle_ne_stuck _ _ _)
  | fail e l =>
    have hstep : tourWorld std ω (.handshake config asked) s =
        some (.error e, s.record config l) := by
      simp only [tourWorld, hrun]
    rw [hrun] at hpre
    rw [run_hopHandshake_error hstep]
    exact ⟨_, hmem l hpre, rfl, rfl⟩
  | ret a l =>
    have hstep : tourWorld std ω (.handshake config asked) s =
        some (.ok (), (s.record config l).moveOn config asked) := by
      simp only [tourWorld, hrun]
    rw [hrun] at hpre
    rw [run_hopHandshake_ok hstep]
    refine ⟨⟨config, s.route.getLast?, bs⟩, ?_, rfl, rfl⟩
    cases config <;> exact hmem l hpre

theorem moveOn_getLast {config : UpstreamConfig} {asked : ConnectTarget} {s : Tour}
    {l : History sysSig} (h : config = .direct → s.route.getLast? = some (.asked asked)) :
    ((s.record config l).moveOn config asked).route.getLast? = some (.asked asked) := by
  cases config with
  | direct => exact h rfl
  | http a auth tls => exact List.getLast?_concat
  | socks5 a auth tls => exact List.getLast?_concat
  | chain c => exact List.getLast?_concat

theorem ok_of_passable {config : UpstreamConfig} (h : Passable config) :
    config = .direct ∨ ∃ addr, extractProxyAddress config = .ok addr :=
  h.imp_right fun ⟨addr, _, ha, _⟩ => ⟨addr, ha⟩

theorem nextTarget_of_passable {next : UpstreamConfig} (h : Passable next) :
    ∃ asked, nextTarget target next = .ok asked := by
  rcases h with rfl | ⟨addr, t, ha, ht⟩
  · exact ⟨target, rfl⟩
  · cases next with
    | direct => exact ⟨target, rfl⟩
    | http a auth tls =>
      cases ha
      exact ⟨t, ht⟩
    | socks5 a auth tls =>
      cases ha
      exact ⟨t, ht⟩
    | chain c => cases ha

theorem agreeable_turn {config next : UpstreamConfig} {rest : List UpstreamConfig}
    {asked : ConnectTarget} (hnt : nextTarget target next = .ok asked)
    (h : config = .direct ∨ ∃ addr, extractProxyAddress config = .ok addr) (s : Tour) :
    ∃ l, Prog.run (tourWorld std agreeable) (hopsFrom target (config :: next :: rest)) s =
      Prog.run (tourWorld std agreeable) (hopsFrom target (next :: rest))
        ((s.record config l).moveOn config asked) := by
  obtain ⟨l, hl⟩ := @agreeable_hop std config asked h s
  refine ⟨l, ?_⟩
  rw [hopsFrom, hnt, Prog.ofExcept_ok, Prog.ret_bind, Prog.run_bind, hl]
  rfl

/-- **A proxy behind a direct entry is greeted at the target.** -/
theorem agreeable_detour {config : UpstreamConfig} {post : List UpstreamConfig} {addr : String}
    {asked : ConnectTarget} (hpost : ∀ next ∈ post.head?, Passable next)
    (ha : extractProxyAddress config = .ok addr) (hparse : parseAddrToTarget addr = .ok asked)
    (more : List UpstreamConfig) : ∀ (first : UpstreamConfig) (s : Tour),
    (first = .direct ∨ ∃ a, extractProxyAddress first = .ok a) →
    (first = .direct → s.route.getLast? = some (.asked target)) → (∀ c ∈ more, Passable c) →
    ∃ w ∈ (Prog.run (tourWorld std agreeable)
        (hopsFrom target (first :: (more ++ .direct :: config :: post))) s).world.written,
      w.config = config ∧ w.peer = some (.asked target) := by
  have hnext : ∃ a, nextTarget target config = .ok a :=
    nextTarget_of_passable (Or.inr ⟨addr, asked, ha, hparse⟩)
  induction more with
  | nil =>
    intro first s hok hdir _
    obtain ⟨l, hl⟩ := @agreeable_turn std target first .direct (config :: post) target rfl hok s
    obtain ⟨a, hnt⟩ := hnext
    obtain ⟨l', hl'⟩ := @agreeable_turn std target .direct config post a hnt (Or.inl rfl)
      ((s.record first l).moveOn first target)
    rw [List.nil_append, hl, hl']
    have hlast : ((((s.record first l).moveOn first target).record .direct l').moveOn
        .direct a).route.getLast? = some (.asked target) := moveOn_getLast hdir
    cases post with
    | nil =>
      obtain ⟨w, hw, hc, hp⟩ := @hop_writes std agreeable config addr target ha
        ((((s.record first l).moveOn first target).record .direct l').moveOn .direct a)
      exact ⟨w, hw, hc, hp.trans hlast⟩
    | cons next rest =>
      obtain ⟨b, hb⟩ := @nextTarget_of_passable target next (hpost next rfl)
      obtain ⟨w, hw, hc, hp⟩ := @hop_writes std agreeable config addr b ha
        ((((s.record first l).moveOn first target).record .direct l').moveOn .direct a)
      obtain ⟨l'', hl''⟩ := @agreeable_hop std config b (Or.inr ⟨addr, ha⟩)
        ((((s.record first l).moveOn first target).record .direct l').moveOn .direct a)
      rw [hopsFrom, hb, Prog.ofExcept_ok, Prog.ret_bind, Prog.run_bind]
      rw [hl''] at hw ⊢
      exact ⟨w, (written_start _ _).subset hw, hc, hp.trans hlast⟩
  | cons next more ih =>
    intro first s hok hdir hmore
    have hpass := hmore next List.mem_cons_self
    obtain ⟨b, hb⟩ := @nextTarget_of_passable target next hpass
    obtain ⟨l, hl⟩ := @agreeable_turn std target first next (more ++ .direct :: config :: post) b hb
      hok s
    rw [List.cons_append, hl]
    refine ih next _ (ok_of_passable hpass) ?_ fun c hc => hmore c (List.mem_cons_of_mem _ hc)
    rintro rfl
    obtain rfl : target = b := Except.ok.inj hb
    exact moveOn_getLast hdir

/-- In the agreeable world a detour gives the proxy's handshake to the target. -/
theorem not_discreet_of_detour {pre post : List UpstreamConfig} {config : UpstreamConfig}
    {addr : String} {asked : ConnectTarget} (hpre : Gets pre)
    (hpost : ∀ next ∈ post.head?, Passable next) (ha : extractProxyAddress config = .ok addr)
    (hparse : parseAddrToTarget addr = .ok asked) (hne : asked ≠ target) :
    ¬ (Prog.run (tourWorld std agreeable)
      (connectHops (pre ++ .direct :: config :: post) target) .start).world.Discreet := by
  intro hd
  obtain ⟨first, more, a, rfl, hfirst, hmore⟩ := hpre
  obtain ⟨failed, heq⟩ :=
    @connectHops_of_address target first (more ++ .direct :: config :: post) a hfirst
  have hdir : first = .direct → (Tour.start.dial a (.ok ())).route.getLast? =
      some (.asked target) := by
    rintro rfl
    cases hfirst
  obtain ⟨w, hw, hc, hp⟩ := @agreeable_detour std target config post addr asked hpost ha hparse
    more first (Tour.start.dial a (.ok ())) (Or.inr ⟨a, hfirst⟩) hdir hmore
  have hrun : Prog.run (tourWorld std agreeable)
      (connectHops (first :: more ++ .direct :: config :: post) target) .start =
      Prog.run (tourWorld std agreeable)
        (hopsFrom target (first :: (more ++ .direct :: config :: post)))
        (Tour.start.dial a (.ok ())) := by
    rw [List.cons_append, heq]
    rfl
  rw [hrun] at hd
  obtain ⟨addr', peer, haddr, hpeer, hat⟩ := hd w hw
  rw [hc, ha] at haddr
  cases haddr
  rw [hp] at hpeer
  cases hpeer
  exact hne (Except.ok.inj (hparse.symm.trans hat))

end Hops

/-- **A chain keeps to its route, whatever the world does, exactly when it has no
detour**: on success the stream has been at every proxy in order and is at the
target, and every handshake byte was written to the proxy it was for. -/
theorem chain_onRoute_iff (std : IpText) (chain : List UpstreamConfig) (target : ConnectTarget) :
    (∀ ω, OnRoute std chain target ω) ↔ NoDetour chain target := by
  constructor
  · intro hall pre config post addr asked hchain hpre hpost ha hparse
    by_contra hne
    subst hchain
    exact not_discreet_of_detour hpre hpost ha hparse hne (hall agreeable).2
  · exact fun hd ω => onRoute_of_noDetour hd

/-- **A direct entry between two proxies** hands the second one's credential to
the target. -/
theorem chain_detour_leaks_credential :
    ¬ OnRoute .plain [.http "10.0.0.2:3128" none none, .direct,
      .http "10.0.0.3:3128" (some ⟨"kestrel", "hover"⟩) none] ⟨"example.com", 443⟩ agreeable := by
  intro h
  have hpre : Gets [.http "10.0.0.2:3128" none none] :=
    ⟨_, [], "10.0.0.2:3128", rfl, rfl, nofun⟩
  have hparse : parseAddrToTarget "10.0.0.3:3128" = .ok ⟨"10.0.0.3", 3128⟩ :=
    parseAddrToTarget_authority ⟨"10.0.0.3", 3128⟩
  exact @not_discreet_of_detour .plain ⟨"example.com", 443⟩ _ []
    (.http "10.0.0.3:3128" (some ⟨"kestrel", "hover"⟩) none) "10.0.0.3:3128" _ hpre nofun rfl
    hparse (by decide) h.2

end Peregrine
