import Peregrine.Lib.FirstMatch
import Peregrine.Upstream.Chain
import Peregrine.Upstream.Line

/-!
# A chain of servers

The two ends of the repository against each other, any number of times over:
`upstream/chain.rs` goes through SOCKS5 proxies, and each of them is a server of
`protocol/socks5`.  The handshake with one of the servers goes through all the
servers before it, which by then only pass on what comes.

`leg_through` and `leg_stopped` are one handshake, on what
`socks5_client_and_server_agree` rests on, and `greet_through` is the loop of the
connector over them.  Since the schedule does not matter (`separate_line`), this
settles what every schedule leads to (`chain_of_servers`).
-/

namespace Peregrine

open Line (Channel Move)
open Network (State put)
open Prog (silent ofExcept)
open Runs (Reachable Terminal Settles)

/-! ### The chain -/

/-- An entry of the chain, and the server that listens at its address. -/
structure Hop where
  addr : String
  proxy : ConnectTarget
  /-- The address is a host and a port. -/
  parses : parseAddrToTarget addr = .ok proxy
  auth : Option UserCredential
  tls : Option Bool
  users : Option (List UserCredential)
  dial : String → Except IoError Unit

def Hop.entry (h : Hop) : UpstreamConfig := .socks5 h.addr h.auth h.tls

/-- A handshake of the chain: the server, and what it is asked for. -/
structure Leg where
  hop : Hop
  asked : ConnectTarget

/-- Every server is asked for the next one, and the last for the target. -/
def legs (target : ConnectTarget) : List Hop → List Leg
  | [] => []
  | h :: rest => ⟨h, (rest.head?.map Hop.proxy).getD target⟩ :: legs target rest

theorem length_legs (target : ConnectTarget) (hops : List Hop) :
    (legs target hops).length = hops.length := by
  induction hops with
  | nil => rfl
  | cons h rest ih => exact congrArg (· + 1) ih

theorem of_mem_legs {target : ConnectTarget} {hops : List Hop} {l : Leg}
    (h : l ∈ legs target hops) :
    l.hop ∈ hops ∧ (l.asked = target ∨ ∃ next ∈ hops.tail, l.asked = next.proxy) := by
  induction hops with
  | nil => cases h
  | cons first rest ih =>
    rcases List.mem_cons.mp h with rfl | h
    · refine ⟨List.mem_cons_self, ?_⟩
      cases rest with
      | nil => exact Or.inl rfl
      | cons next rest => exact Or.inr ⟨next, List.mem_cons_self, rfl⟩
    · obtain ⟨hhop, hasked⟩ := ih h
      refine ⟨List.mem_cons_of_mem first hhop, hasked.imp_right ?_⟩
      rintro ⟨next, hnext, heq⟩
      exact ⟨next, List.mem_of_mem_tail hnext, heq⟩

theorem legs_getElem? (target : ConnectTarget) (hops : List Hop) (i : ℕ) :
    ((legs target hops)[i]?).map Leg.hop = hops[i]? := by
  induction hops generalizing i with
  | nil => rfl
  | cons h rest ih =>
    cases i with
    | zero => rfl
    | succ i => exact ih i

section

variable (std : IpText)

/-- What the server of a leg dials. -/
def Leg.authority (l : Leg) : String := ((wireTarget std l.asked).connectTarget std).authority

/-- The server lets the client in, and gets through to what it is asked for. -/
def Leg.LetsThrough (l : Leg) : Prop :=
  Admits l.hop.users l.hop.auth ∧ l.hop.dial (l.authority std) = .ok ()

/-- The handshakes, one after the other. -/
def greet : List Leg → Sys Unit
  | [] => .ret ()
  | l :: rest => socks5Handshake std l.hop.auth l.asked >>= fun _ => greet rest

variable {std} {target : ConnectTarget}

theorem greet_append (pre post : List Leg) :
    greet std (pre ++ post) = greet std pre >>= fun _ => greet std post := by
  induction pre with
  | nil => rfl
  | cons l pre ih =>
    rw [List.cons_append, greet, greet, Prog.bind_assoc, ih]

theorem interp_hopHandshake {α : Type} (config : UpstreamConfig) (asked : ConnectTarget)
    (f : Unit → Hops α) :
    ((hopHandshake config asked >>= f).interp (hopAction std) : Sys α) =
      performProxyHandshake std config asked >>= fun u => (f u).interp (hopAction std) := by
  have hrun : ((hopHandshake config asked >>= f).interp (hopAction std) : Sys α) =
      (Prog.attempt (performProxyHandshake std config asked) : Sys (Except ProxyError Unit)) >>=
        fun r => ((ofExcept id r >>= f : Hops α).interp (hopAction std)) := rfl
  have hraise : ∀ r : Except ProxyError Unit, ((ofExcept id r >>= f : Hops α).interp
      (hopAction std) : Sys α) = ofExcept id r >>= fun u => (f u).interp (hopAction std) := by
    intro r
    cases r <;> rfl
  rw [hrun, funext hraise, Prog.attempt_bind_ofExcept]

/-- **The loop of the connector is the handshakes of the legs.** -/
theorem interp_hopsFrom (hops : List Hop) :
    (hopsFrom target (hops.map Hop.entry)).interp (hopAction std) =
      greet std (legs target hops) := by
  induction hops with
  | nil => rfl
  | cons h rest ih =>
    cases rest with
    | nil =>
      have hlast : hopsFrom target [h.entry] = hopHandshake h.entry target >>= Prog.ret :=
        (Prog.bind_ret _).symm
      show (hopsFrom target [h.entry]).interp (hopAction std) = _
      rw [hlast, interp_hopHandshake]
      rfl
    | cons next rest =>
      have hnext : nextTarget target next.entry = .ok next.proxy := next.parses
      have hloop : hopsFrom target (h.entry :: next.entry :: rest.map Hop.entry) =
          (ofExcept id (nextTarget target next.entry) >>= fun asked =>
            hopHandshake h.entry asked >>= fun _ =>
              hopsFrom target (next.entry :: rest.map Hop.entry)) := rfl
      show (hopsFrom target (h.entry :: next.entry :: rest.map Hop.entry)).interp _ = _
      rw [hloop, hnext, Prog.ofExcept_ok, Prog.ret_bind, interp_hopHandshake]
      refine congrArg (socks5Handshake std h.auth next.proxy >>= ·) (funext fun _ => ?_)
      exact ih

theorem connect_hops (h : Hop) (rest : List Hop) : ∃ failed : String,
    ChainConnector.connect std ⟨(h :: rest).map Hop.entry⟩ target =
      (sys (.tcpConnect h.addr) >>= fun r =>
        ofExcept (fun e => ProxyError.upstream (failed ++ e.display)) r >>= fun _ =>
          greet std (legs target (h :: rest))) := by
  obtain ⟨failed, heq⟩ := @connectHops_of_address target h.entry (rest.map Hop.entry) h.addr rfl
  refine ⟨failed, ?_⟩
  rw [ChainConnector.connect, List.map_cons, heq, Prog.interp_bind, ← interp_hopsFrom]
  have hconnect : (hopConnect failed h.addr).interp (hopAction std) =
      (sys (.tcpConnect h.addr) >>= fun r =>
        ofExcept (fun e => ProxyError.upstream (failed ++ e.display)) r) := by
    show Prog.bind (sys (.tcpConnect h.addr)) _ = _
    refine congrArg (Prog.bind (sys (.tcpConnect h.addr))) (funext fun r => ?_)
    cases r <;> rfl
  rw [hconnect, Prog.bind_assoc]
  rfl

end

/-! ### One leg -/

section Leg

variable {std : IpText} {l : Leg}

/-- The lengths that the protocol can carry. -/
structure Leg.Fits (l : Leg) : Prop where
  host : (utf8 l.asked.host).length ≤ 255
  auth : ∀ cred ∈ l.hop.auth, cred.Fits

/-- The client of a leg, and the server, before either has moved. -/
def Leg.meet (std : IpText) (l : Leg) : Meeting :=
  Peregrine.meet std ⟨l.hop.addr, l.hop.auth, false⟩ l.hop.users l.asked

theorem meet_through (hfits : l.Fits) (h : l.LetsThrough std) : ∃ cw sw,
    Reachable (meetStep l.hop.dial) (l.meet std) ⟨.ret (), sys .copyBidirectional >>= fun _ =>
      .ret (), cw, sw, [], [], (), [l.authority std]⟩ := by
  obtain ⟨cw, sw, hreq⟩ := @meet_admitted std ⟨l.hop.addr, l.hop.auth, false⟩ l.hop.users l.asked
    l.hop.dial hfits.auth h.1
  exact ⟨_, _, hreq.trans ((meet_dial hfits.host).trans (meet_served h.2))⟩

theorem meet_stopped (hfits : l.Fits) (h : ¬ l.LetsThrough std) : ∃ d e,
    Reachable (meetStep l.hop.dial) (l.meet std) d ∧ d.left = .fail e ∧ Ended d.right ∧
      d.rightUnread = [] ∧ (Admits l.hop.users l.hop.auth → d.rightEnv = [l.authority std]) ∧
      (¬ Admits l.hop.users l.hop.auth → d.rightEnv = []) := by
  by_cases hadm : Admits l.hop.users l.hop.auth
  · obtain ⟨cw, sw, hreq⟩ := @meet_admitted std ⟨l.hop.addr, l.hop.auth, false⟩ l.hop.users
      l.asked l.hop.dial hfits.auth hadm
    cases hd : l.hop.dial (l.authority std) with
    | ok u => exact absurd ⟨hadm, hd⟩ h
    | error e =>
      exact ⟨_, _, hreq.trans ((meet_dial hfits.host).trans (meet_refused hd)), rfl, .inl rfl, rfl,
        fun _ => rfl, fun hnot => absurd hadm hnot⟩
  · obtain ⟨list, hu⟩ : ∃ list, l.hop.users = some list := by
      cases hu : l.hop.users with
      | none =>
        rw [hu] at hadm
        exact absurd (fun _ h => by cases h) hadm
      | some list => exact ⟨list, rfl⟩
    rcases Option.eq_none_or_eq_some l.hop.auth with ha | ⟨cred, ha⟩
    · exact ⟨_, _, meet_method_rejected hu ha, rfl, .inr ⟨_, rfl⟩, rfl,
        fun h => absurd h hadm, fun _ => rfl⟩
    · have hlist : cred ∉ list := by
        intro hm
        refine hadm fun list' hl => ⟨cred, ha, ?_⟩
        obtain rfl := Option.some.inj (hu.symm.trans hl)
        exact hm
      have hmethod : wantedMethod l.hop.users = 0x02 → l.hop.auth.isSome := fun _ => by
        rw [ha]
        rfl
      exact ⟨_, _, (meet_method hmethod).trans
        (meet_credential_rejected hu ha (hfits.auth cred ha) hlist), rfl, .inr ⟨_, rfl⟩, rfl,
        fun h => absurd h hadm, fun _ => rfl⟩

variable {dial : ℕ → String → Except IoError Unit} {loc : ℕ → Station} {c : Channel → List Token}
  {k : ℕ} {f : Unit → Sys Unit} {log : List String}

/-- Before either has moved, the talk of client and server is the line. -/
theorem talk_meet (hclient : loc 0 = ⟨socks5Handshake std l.hop.auth l.asked >>= f, log⟩)
    (hserver : loc k = ⟨handleSocks5Inner std l.hop.users, []⟩) :
    talk k loc c f log (l.meet std) = ⟨loc, c⟩ := by
  refine State.ext ?_ ?_
  · show Function.update (Function.update loc 0 ⟨socks5Handshake std l.hop.auth l.asked >>= f, log⟩)
      k ⟨handleSocks5Inner std l.hop.users, []⟩ = loc
    rw [← hclient, ← hserver, Function.update_eq_self, Function.update_eq_self]
  · show put (put c (.right k) []) (.left 1) [] = c
    rw [Network.put_nil, Network.put_nil]

/-- **A leg that is let through**: the server passes on from now on. -/
theorem leg_through (hb : Between loc c k) (hf : (f ()).failed = false)
    (hclient : loc 0 = ⟨socks5Handshake std l.hop.auth l.asked >>= f, log⟩)
    (hserver : loc k = ⟨handleSocks5Inner std l.hop.users, []⟩) (hdial : dial k = l.hop.dial)
    (hfits : l.Fits) (h : l.LetsThrough std) : Reachable (line dial).step ⟨loc, c⟩
      ⟨Function.update (Function.update loc 0 ⟨f (), log⟩) k
        ⟨sys .copyBidirectional >>= fun _ => .ret (), [l.authority std]⟩, c⟩ := by
  obtain ⟨cw, sw, hmeet⟩ := meet_through hfits h
  rw [← hdial] at hmeet
  have htalk := @talk_reachable dial loc c k f log _ _ hb hf hmeet
  have hend : talk k loc c f log ⟨.ret (), sys .copyBidirectional >>= fun _ => .ret (), cw, sw, [],
      [], (), [l.authority std]⟩ = ⟨Function.update (Function.update loc 0 ⟨f (), log⟩) k
        ⟨sys .copyBidirectional >>= fun _ => .ret (), [l.authority std]⟩, c⟩ := by
    refine State.ext rfl ?_
    show put (put c (.right k) []) (.left 1) [] = c
    rw [Network.put_nil, Network.put_nil]
  rw [talk_meet hclient hserver, hend] at htalk
  exact htalk

/-- **A leg that is stopped**: the client and the server have both ended, and the
client's end has come to the server. -/
theorem leg_stopped (hb : Between loc c k) (hf : (f ()).failed = false)
    (hclient : loc 0 = ⟨socks5Handshake std l.hop.auth l.asked >>= f, log⟩)
    (hserver : loc k = ⟨handleSocks5Inner std l.hop.users, []⟩) (hdial : dial k = l.hop.dial)
    (hfits : l.Fits) (h : ¬ l.LetsThrough std) : ∃ e p dialled answer,
      Reachable (line dial).step ⟨loc, c⟩ ⟨Function.update (Function.update loc 0 ⟨.fail e, log⟩) k
        ⟨p, dialled⟩, put (put c (.right k) [none]) (.left 1) answer⟩ ∧ Ended p ∧
      (Admits l.hop.users l.hop.auth → dialled = [l.authority std]) ∧
      (¬ Admits l.hop.users l.hop.auth → dialled = []) := by
  obtain ⟨d, e, hmeet, hleft, hright, hread, hyes, hno⟩ := meet_stopped hfits h
  rw [← hdial] at hmeet
  have htalk := @talk_reachable dial loc c k f log _ _ hb hf hmeet
  rw [talk_meet hclient hserver, talk, hleft, hread] at htalk
  exact ⟨e, d.right, d.rightEnv, _, htalk, hright, hyes, hno⟩

end Leg

/-! ### The legs, one after the other -/

section Legs

variable {std : IpText} {dial : ℕ → String → Except IoError Unit} {loc : ℕ → Station}
  {c : Channel → List Token} {k : ℕ} {f : Unit → Sys Unit} {log : List String} {ls : List Leg}

/-- From station `k` on, the servers of these legs wait to be spoken to. -/
def Waiting (std : IpText) (dial : ℕ → String → Except IoError Unit) (loc : ℕ → Station) (k : ℕ)
    (ls : List Leg) : Prop :=
  ∀ i l, ls[i]? = some l →
    loc (k + i) = ⟨handleSocks5Inner std l.hop.users, []⟩ ∧ dial (k + i) = l.hop.dial

/-- The client has come to `p` with the servers from station `k` on behind it. -/
structure Through (std : IpText) (loc loc' : ℕ → Station) (k : ℕ) (ls : List Leg) (p : Sys Unit)
    (log : List String) : Prop where
  client : loc' 0 = ⟨p, log⟩
  passing : Passing loc' 1 (k + ls.length)
  dialled : ∀ i l, ls[i]? = some l → (loc' (k + i)).dialled = [l.authority std]
  others : ∀ j, j ≠ 0 → j < k ∨ k + ls.length ≤ j → loc' j = loc j

theorem greet_failed (ls : List Leg) (hf : (f ()).failed = false) :
    (greet std ls >>= f).failed = false := by
  cases ls with
  | nil => exact hf
  | cons l ls => rfl

/-- **The loop of the connector goes through every server that lets it.** -/
theorem greet_through (hf : (f ()).failed = false) (hk : 0 < k) (hpass : Passing loc 1 k)
    (hquiet : ∀ j, j < k + ls.length → c (.right j) = [] ∧ c (.left j) = [])
    (hwait : Waiting std dial loc k ls) (hclient : loc 0 = ⟨greet std ls >>= f, log⟩)
    (hfits : ∀ l ∈ ls, l.Fits) (h : ∀ l ∈ ls, l.LetsThrough std) : ∃ loc',
      Reachable (line dial).step ⟨loc, c⟩ ⟨loc', c⟩ ∧ Through std loc loc' k ls (f ()) log := by
  induction ls generalizing loc k with
  | nil => exact ⟨loc, .refl _, hclient, hpass, nofun, fun _ _ _ => rfl⟩
  | cons l ls ih =>
    have hlen : k + (l :: ls).length = k + 1 + ls.length := by
      rw [List.length_cons]
      omega
    rw [hlen] at hquiet
    have hb : Between loc c k :=
      ⟨hk, hpass, fun j hj => (hquiet j (by omega)).1, fun j hj => (hquiet j (by omega)).2⟩
    obtain ⟨hserver, hdial⟩ := hwait 0 l rfl
    rw [greet, Prog.bind_assoc] at hclient
    have hleg := leg_through hb (greet_failed ls hf) hclient hserver hdial
      (hfits l List.mem_cons_self) (h l List.mem_cons_self)
    let loc₁ := Function.update (Function.update loc 0 ⟨greet std ls >>= f, log⟩) k
      ⟨sys .copyBidirectional >>= fun _ => .ret (), [l.authority std]⟩
    have hother : ∀ j, j ≠ 0 → j ≠ k → loc₁ j = loc j := by
      intro j h0 hjk
      exact (Function.update_of_ne hjk _ _).trans (Function.update_of_ne h0 _ _)
    have hhere : loc₁ k = ⟨sys .copyBidirectional >>= fun _ => .ret (), [l.authority std]⟩ :=
      Function.update_self _ _ _
    have hpass₁ : Passing loc₁ 1 (k + 1) := by
      intro j hj hjk
      by_cases hjk' : j = k
      · subst hjk'
        rw [hhere]
        rfl
      · rw [hother j (by omega) hjk']
        exact hpass j hj (by omega)
    have hwait₁ : Waiting std dial loc₁ (k + 1) ls := by
      intro i m hm
      have hi : k + 1 + i = k + (i + 1) := by omega
      rw [hi, hother _ (by omega) (by omega)]
      exact hwait (i + 1) m hm
    have hclient₁ : loc₁ 0 = ⟨greet std ls >>= f, log⟩ :=
      (Function.update_of_ne (Nat.ne_of_lt hk) _ _).trans (Function.update_self _ _ _)
    obtain ⟨loc', hreach, hthrough⟩ := ih (Nat.succ_pos k) hpass₁ hquiet hwait₁ hclient₁
      (fun m hm => hfits m (List.mem_cons_of_mem l hm)) fun m hm => h m (List.mem_cons_of_mem l hm)
    refine ⟨loc', hleg.trans hreach, hthrough.client, ?_, ?_, ?_⟩
    · rw [hlen]
      exact hthrough.passing
    · intro i m hm
      cases i with
      | zero =>
        obtain rfl := Option.some.inj hm
        rw [Nat.add_zero, hthrough.others k (Nat.ne_of_gt hk) (Or.inl (Nat.lt_succ_self k)), hhere]
      | succ i =>
        have hi : k + (i + 1) = k + 1 + i := by omega
        rw [hi]
        exact hthrough.dialled i m hm
    · intro j h0 hj
      rw [hlen] at hj
      rw [hthrough.others j h0 (by omega), hother j h0 (by omega)]

end Legs

/-! ### Every schedule -/

/-- The client has dialled the first server; the servers have their own answers. -/
def dials (hops : List Hop) : ℕ → String → Except IoError Unit
  | 0 => fun _ => .ok ()
  | k + 1 => ((hops[k]?).map Hop.dial).getD fun _ => .ok ()

/-- The client, which writes `up` once it is through, the servers of the chain, and
behind them the target, which sends `down`. -/
def served (std : IpText) (hops : List Hop) (target : ConnectTarget) (up down : List UInt8) :
    State ℕ Channel Token Station where
  loc
    | 0 => ⟨ChainConnector.connect std ⟨hops.map Hop.entry⟩ target >>= fun _ => writeAll up, []⟩
    | k + 1 => ⟨((hops[k]?).map fun h => handleSocks5Inner std h.users).getD (.ret ()), []⟩
  chan := put (fun _ => []) (.left (hops.length + 1)) (down.map some)

/-- How the chain should end. -/
structure Served (std : IpText) (hops : List Hop) (target : ConnectTarget) (up down : List UInt8)
    (t : State ℕ Channel Token Station) : Prop where
  client_ended : Ended (t.loc 0).prog
  client_ok_iff : (t.loc 0).prog = .ret () ↔ ∀ l ∈ legs target hops, l.LetsThrough std
  dials_iff : ∀ i l, (legs target hops)[i]? = some l → ((t.loc (i + 1)).dialled ≠ [] ↔
    (∀ m ∈ (legs target hops).take i, m.LetsThrough std) ∧ Admits l.hop.users l.hop.auth)
  dials_next : ∀ i l, (legs target hops)[i]? = some l → ∀ addr ∈ (t.loc (i + 1)).dialled,
    (t.loc (i + 1)).dialled = [addr] ∧ ∃ t', Denotes std t' l.asked ∧ addr = t'.authority
  joined : (t.loc 0).prog = .ret () → t.chan = put (put (fun _ => []) (.right (hops.length + 1))
    (up.map some)) (.left 1) (down.map some)

section Served

variable {std : IpText} {dial : ℕ → String → Except IoError Unit} {loc : ℕ → Station}
  {c : Channel → List Token} {target : ConnectTarget} {hops : List Hop} {up down : List UInt8}

theorem quiet_served {ch : Channel} (h : ch ≠ .left (hops.length + 1)) :
    (served std hops target up down).chan ch = [] := by
  simp only [served, Network.put_of_ne h]

theorem client_goes {p p' : Sys Unit} {log log' : List String} {out : List UInt8}
    (hclient : loc 0 = ⟨p, log⟩) (hquiet : c (.left 1) = [])
    (hs : p.step (Wire.flat.sum (dialer (dial 0))) (⟨[], false, []⟩, log) =
      some (p', (⟨[], false, out⟩, log'))) (hp : p'.failed = false) :
    Reachable (line dial).step ⟨loc, c⟩
      ⟨Function.update loc 0 ⟨p', log'⟩, put c (.right 1) (out.map some)⟩ := by
  have hspeak : speak (dial 0) (loc 0) (c (.left 1)) = some (⟨p', log'⟩, [], out.map some) := by
    rw [hquiet, hclient]
    have hrun := @speak_spoken (dial 0) ⟨p, log⟩ [] false _ _ _ hs
    rw [hp] at hrun
    refine hrun.trans ?_
    simp only [spoken, List.map_nil, Bool.false_eq_true, if_false, List.append_nil]
  have hstep : (line dial).step ⟨loc, c⟩ (.go 0) =
      some ⟨Function.update loc 0 ⟨p', log'⟩, put c (.right 1) (out.map some)⟩ := by
    refine Network.step_eq_some.mpr ⟨_, hspeak, State.ext rfl ?_⟩
    show put (Function.update c (.left 1) []) (.right 1) _ = _
    rw [Network.update_eq_put hquiet, Network.put_nil]
  exact .of_step hstep

theorem client_dials (h : Hop) (rest : List Hop) :
    Reachable (line (dials (h :: rest))).step (served std (h :: rest) target up down)
      ⟨Function.update (served std (h :: rest) target up down).loc 0
        ⟨greet std (legs target (h :: rest)) >>= fun _ => writeAll up, [h.addr]⟩,
        (served std (h :: rest) target up down).chan⟩ := by
  obtain ⟨failed, heq⟩ := @connect_hops std target h rest
  have hne : Channel.left 1 ≠ .left ((h :: rest).length + 1) := by simp
  have hquiet : (served std (h :: rest) target up down).chan (.left 1) = [] := quiet_served hne
  have hgo := @client_goes (dials (h :: rest)) (served std (h :: rest) target up down).loc
    (served std (h :: rest) target up down).chan _
    (greet std (legs target (h :: rest)) >>= fun _ => writeAll up) [] [h.addr] [] rfl hquiet
    (by rw [heq]; rfl) (greet_failed _ rfl)
  rw [List.map_nil, Network.put_nil] at hgo
  exact hgo

theorem speak_of_ended {d : String → Except IoError Unit} {l : Station} {ts : List Token}
    (h : Ended l.prog) : speak d l ts = none := by
  obtain ⟨p, log⟩ := l
  rcases h with h | ⟨e, h⟩
  · obtain rfl : p = _ := h
    rfl
  · obtain rfl : p = _ := h
    rfl

theorem speak_served {d : String → Except IoError Unit} (k : ℕ) :
    speak d ((served std hops target up down).loc (k + 1)) [] = none := by
  simp only [served]
  cases hops[k]? with
  | none => rfl
  | some h => rfl

theorem not_copying_served (k : ℕ) :
    isCopying ((served std hops target up down).loc (k + 1)).prog = false := by
  simp only [served]
  cases hops[k]? with
  | none => rfl
  | some h => rfl

theorem waiting_served (l : Sys Unit) (log : List String) : Waiting std (dials hops)
    (Function.update (served std hops target up down).loc 0 ⟨l, log⟩) 1 (legs target hops) := by
  intro i m hm
  have hhop : hops[i]? = some m.hop := by
    rw [← legs_getElem? target hops i, hm, Option.map_some]
  have hi : 1 + i = i + 1 := Nat.add_comm 1 i
  rw [hi, Function.update_of_ne (Nat.succ_ne_zero i)]
  simp only [served, dials, hhop, Option.map_some, Option.getD_some, and_self]

/-- **Nothing can happen** where no program can go on and nothing is to be passed on. -/
theorem terminal_line {t : State ℕ Channel Token Station}
    (hgo : ∀ k, speak (dial k) (t.loc k) (t.chan (Line.ear k)) = none)
    (hpass : ∀ k, isCopying (t.loc k).prog = true →
      t.chan (.right k) = [] ∧ t.chan (.left (k + 1)) = []) : Terminal (line dial).step t := by
  have hnone : ∀ {l : Station} {ts : List Token}, (isCopying l.prog = true → ts = []) →
      passOn l ts = none := by
    intro l ts h
    unfold passOn
    split
    · rw [h ‹_›]
    · rfl
  intro a
  have hact : (line dial).act a (t.loc a.station) (t.chan a.src) = none := by
    cases a with
    | go k => exact hgo k
    | right k => exact hnone fun h => (hpass k h).1
    | left k => exact hnone fun h => (hpass k h).2
  show ((line dial).act a (t.loc a.station) (t.chan a.src)).map _ = none
  rw [hact, Option.map_none]

variable {first : Hop} {rest : List Hop}

/-- Where the client has dialled the first server. -/
def dialledLoc (std : IpText) (hops : List Hop) (target : ConnectTarget) (up down : List UInt8)
    (addr : String) : ℕ → Station :=
  Function.update (served std hops target up down).loc 0
    ⟨greet std (legs target hops) >>= fun _ => writeAll up, [addr]⟩

theorem not_copying_of_ended {p : Sys Unit} (h : Ended p) : isCopying p = false := by
  rcases h with rfl | ⟨e, rfl⟩ <;> rfl

theorem ended_served {k : ℕ} (h : hops.length ≤ k) :
    Ended ((served std hops target up down).loc (k + 1)).prog := by
  simp only [served, List.getElem?_eq_none h]
  exact Or.inl rfl

/-- **All servers let the client through.** -/
theorem chain_through (hops : List Hop) (hne : hops ≠ []) (addr : String)
    (hfits : ∀ l ∈ legs target hops, l.Fits) (h : ∀ l ∈ legs target hops, l.LetsThrough std) :
    ∃ t, Reachable (line (dials hops)).step
        ⟨dialledLoc std hops target up down addr, (served std hops target up down).chan⟩ t ∧
      Terminal (line (dials hops)).step t ∧ (t.loc 0).prog = .ret () ∧
      (∀ i l, (legs target hops)[i]? = some l → (t.loc (i + 1)).dialled = [l.authority std]) ∧
      t.chan = put (put (fun _ => []) (.right (hops.length + 1)) (up.map some)) (.left 1)
        (down.map some) := by
  have hlen := length_legs target hops
  have hpos : 0 < hops.length := List.length_pos_iff.mpr hne
  have hquiet : ∀ j, j < 1 + (legs target hops).length →
      (served std hops target up down).chan (.right j) = [] ∧
        (served std hops target up down).chan (.left j) = [] := by
    intro j hj
    rw [hlen] at hj
    refine ⟨quiet_served (Line.right_ne_left _ _), quiet_served ?_⟩
    simp only [ne_eq, Channel.left.injEq]
    omega
  obtain ⟨loc', hreach, hthrough⟩ := @greet_through std (dials hops)
    (dialledLoc std hops target up down addr) (served std hops target up down).chan 1
    (fun _ => writeAll up) [addr] (legs target hops) rfl Nat.one_pos (fun j _ _ => by omega) hquiet
    (waiting_served _ _) (Function.update_self _ _ _) hfits h
  let loc'' := Function.update loc' 0 ⟨.ret (), [addr]⟩
  have hother : ∀ j, loc'' (j + 1) = loc' (j + 1) :=
    fun j => Function.update_of_ne (Nat.succ_ne_zero j) _ _
  have hpassing : Passing loc'' 1 (hops.length + 1) := by
    intro j hj hjk
    obtain ⟨i, rfl⟩ : ∃ i, j = i + 1 := ⟨j - 1, by omega⟩
    rw [hother]
    exact hthrough.passing _ hj (by omega)
  -- what the client writes goes to the target
  have hwrite := @client_goes (dials hops) loc' (served std hops target up down).chan (writeAll up)
    (.ret ()) [addr] [addr] up hthrough.client (hquiet 1 (by omega)).2 rfl rfl
  have hup := @travel_right (dials hops) loc'' (served std hops target up down).chan 1
    (hops.length + 1) (by omega) hpassing (fun j _ hj => (hquiet j (by omega)).1) (up.map some)
  -- what the target has sent goes to the client
  have hdown := @travel_left (dials hops) loc'' (put (fun _ => []) (.right (hops.length + 1))
    (up.map some)) 1 (hops.length + 1) (by omega) hpassing
    (fun j _ _ => Network.put_of_ne (Line.right_ne_left _ _).symm) (down.map some)
  have hswap : put (served std hops target up down).chan (.right (hops.length + 1)) (up.map some) =
      put (put (fun _ => []) (.right (hops.length + 1)) (up.map some)) (.left (hops.length + 1))
        (down.map some) := Network.put_comm (Line.right_ne_left _ _).symm
  rw [hswap] at hup
  have hclient : (loc'' 0).prog = .ret () := congrArg Station.prog (Function.update_self 0 _ loc')
  have hends : ∀ k, 0 < k ∧ k < hops.length + 1 ∨ Ended (loc'' k).prog := by
    intro k
    cases k with
    | zero => exact Or.inr (Or.inl hclient)
    | succ k =>
      by_cases hk : k + 1 < hops.length + 1
      · exact Or.inl ⟨Nat.succ_pos k, hk⟩
      · rw [hother, hthrough.others (k + 1) (Nat.succ_ne_zero k) (Or.inr (by omega)), dialledLoc,
          Function.update_of_ne (Nat.succ_ne_zero k)]
        exact Or.inr (ended_served (by omega))
  refine ⟨⟨loc'', put (put (fun _ => []) (.right (hops.length + 1)) (up.map some)) (.left 1)
    (down.map some)⟩, hreach.trans (hwrite.trans (hup.trans hdown)), ?_, hclient, ?_, rfl⟩
  · refine terminal_line (fun k => ?_) fun k hcopy => ?_
    · rcases hends k with ⟨hk, hkn⟩ | hend
      · exact speak_of_copying (hpassing k hk hkn)
      · exact speak_of_ended hend
    · rcases hends k with ⟨hk, hkn⟩ | hend
      · have hright : Channel.right k ≠ .right (hops.length + 1) := by
          simpa using Nat.ne_of_lt hkn
        have hleft : Channel.left (k + 1) ≠ .left 1 := by simpa using Nat.ne_of_gt hk
        constructor
        · simp only [Network.put_of_ne (Line.right_ne_left k 1), Network.put_of_ne hright]
        · simp only [Network.put_of_ne hleft, Network.put_of_ne (Line.right_ne_left _ _).symm]
      · rw [not_copying_of_ended hend] at hcopy
        cases hcopy
  · intro i l hl
    show (loc'' (i + 1)).dialled = _
    rw [hother, Nat.add_comm i 1]
    exact hthrough.dialled i l hl

/-- **One of the servers does not**, and the client is told so. -/
theorem chain_stopped (hops : List Hop) (addr : String) {pre post : List Leg} {l : Leg}
    (hls : legs target hops = pre ++ l :: post) (hfits : ∀ m ∈ legs target hops, m.Fits)
    (hpre : ∀ m ∈ pre, m.LetsThrough std) (hl : ¬ l.LetsThrough std) :
    ∃ t e, Reachable (line (dials hops)).step
        ⟨dialledLoc std hops target up down addr, (served std hops target up down).chan⟩ t ∧
      Terminal (line (dials hops)).step t ∧ (t.loc 0).prog = .fail e ∧
      (∀ i m, pre[i]? = some m → (t.loc (i + 1)).dialled = [m.authority std]) ∧
      (Admits l.hop.users l.hop.auth → (t.loc (pre.length + 1)).dialled = [l.authority std]) ∧
      (¬ Admits l.hop.users l.hop.auth → (t.loc (pre.length + 1)).dialled = []) ∧
      ∀ i, pre.length < i → (t.loc (i + 1)).dialled = [] := by
  have hlen : pre.length < hops.length := by
    rw [← length_legs target hops, hls, List.length_append, List.length_cons]
    omega
  have hquiet : ∀ j, j < hops.length + 1 → (served std hops target up down).chan (.right j) = [] ∧
      (served std hops target up down).chan (.left j) = [] := by
    intro j hj
    refine ⟨quiet_served (Line.right_ne_left _ _), quiet_served ?_⟩
    simpa using Nat.ne_of_lt hj
  have hget : ∀ (i : ℕ) (m : Leg), pre[i]? = some m → (legs target hops)[i]? = some m := by
    intro i m hm
    rw [hls, List.getElem?_append_left (List.getElem?_eq_some_iff.mp hm).1]
    exact hm
  have hgetl : (legs target hops)[pre.length]? = some l := by
    rw [hls, List.getElem?_append_right (Nat.le_refl _), Nat.sub_self]
    rfl
  have hwait := @waiting_served std target hops up down (greet std (legs target hops) >>= fun _ =>
    writeAll up) [addr]
  let f : Unit → Sys Unit := fun _ => greet std post >>= fun _ => writeAll up
  let g : Unit → Sys Unit := fun _ => socks5Handshake std l.hop.auth l.asked >>= f
  have hclient : dialledLoc std hops target up down addr 0 = ⟨greet std pre >>= g, [addr]⟩ := by
    rw [dialledLoc, Function.update_self, hls, greet_append, Prog.bind_assoc]
    refine congrArg (Station.mk · [addr]) (congrArg (greet std pre >>= ·) (funext fun _ => ?_))
    exact Prog.bind_assoc _ _ _
  obtain ⟨loc', hreach, hthrough⟩ := @greet_through std (dials hops)
    (dialledLoc std hops target up down addr) (served std hops target up down).chan 1 g [addr] pre
    rfl Nat.one_pos (fun j _ _ => by omega) (fun j hj => hquiet j (by omega))
    (fun i m hm => hwait i m (hget i m hm)) hclient
    (fun m hm => hfits m (by rw [hls]; exact List.mem_append_left _ hm)) hpre
  -- the servers from here on have not been spoken to
  have hrest : ∀ j, pre.length ≤ j →
      loc' (j + 1) = (served std hops target up down).loc (j + 1) := by
    intro j hj
    rw [hthrough.others (j + 1) (Nat.succ_ne_zero j) (Or.inr (by omega)), dialledLoc,
      Function.update_of_ne (Nat.succ_ne_zero j)]
  obtain ⟨hserver, hdial⟩ := hwait pre.length l hgetl
  rw [Nat.add_comm 1] at hserver hdial
  rw [Function.update_of_ne (Nat.succ_ne_zero _), ← hrest pre.length (Nat.le_refl _)] at hserver
  have hpassing := hthrough.passing
  rw [Nat.add_comm 1] at hpassing
  have hb : Between loc' (served std hops target up down).chan (pre.length + 1) :=
    ⟨Nat.succ_pos _, hpassing, fun j hj => (hquiet j (by omega)).1,
      fun j hj => (hquiet j (by omega)).2⟩
  obtain ⟨e, p, dialled, answer, hstop, hended, hyes, hno⟩ := leg_stopped hb
    (greet_failed post rfl) hthrough.client hserver hdial
    (hfits l (by rw [hls]; exact List.mem_append_right _ List.mem_cons_self)) hl
  let loc'' := Function.update (Function.update loc' 0 ⟨.fail e, [addr]⟩) (pre.length + 1)
    ⟨p, dialled⟩
  have hhere : loc'' (pre.length + 1) = ⟨p, dialled⟩ := Function.update_self _ _ _
  have hfirst : loc'' 0 = ⟨.fail e, [addr]⟩ :=
    (Function.update_of_ne (Nat.succ_ne_zero _).symm _ _).trans (Function.update_self _ _ _)
  have hother : ∀ j, j ≠ pre.length → loc'' (j + 1) = loc' (j + 1) := by
    intro j hj
    have hne : j + 1 ≠ pre.length + 1 := by omega
    exact (Function.update_of_ne hne _ _).trans (Function.update_of_ne (Nat.succ_ne_zero j) _ _)
  have hends : ∀ k, (0 < k ∧ k < pre.length + 1) ∨ Ended (loc'' k).prog ∨
      ∃ j, k = j + 1 ∧ pre.length < j ∧ loc'' k = (served std hops target up down).loc (j + 1) := by
    intro k
    cases k with
    | zero => exact Or.inr (Or.inl (Or.inr ⟨e, congrArg Station.prog hfirst⟩))
    | succ j =>
      rcases Nat.lt_trichotomy j pre.length with hj | rfl | hj
      · exact Or.inl ⟨Nat.succ_pos j, Nat.succ_lt_succ hj⟩
      · rw [hhere]
        exact Or.inr (Or.inl hended)
      · exact Or.inr (Or.inr ⟨j, rfl, hj, (hother j (Nat.ne_of_gt hj)).trans
          (hrest j (Nat.le_of_lt hj))⟩)
  have hcopying : ∀ k, 0 < k → k < pre.length + 1 → isCopying (loc'' k).prog = true := by
    intro k hk hkn
    obtain ⟨j, rfl⟩ : ∃ j, k = j + 1 := ⟨k - 1, by omega⟩
    rw [hother j (by omega)]
    exact hpassing (j + 1) hk hkn
  refine ⟨_, e, hreach.trans hstop, ?_, congrArg Station.prog hfirst, ?_, ?_, ?_, ?_⟩
  · refine terminal_line (fun k => ?_) fun k hcopy => ?_
    · rcases hends k with ⟨hk, hkn⟩ | hend | ⟨j, rfl, hj, hloc⟩
      · exact speak_of_copying (hcopying k hk hkn)
      · exact speak_of_ended hend
      · have hne : Channel.right (j + 1) ≠ .right (pre.length + 1) := by
          simpa using Nat.ne_of_gt hj
        have hempty : put (put (served std hops target up down).chan (.right (pre.length + 1))
            [none]) (.left 1) answer (.right (j + 1)) = [] := by
          rw [Network.put_of_ne (Line.right_ne_left (j + 1) 1), Network.put_of_ne hne]
          exact quiet_served (Line.right_ne_left _ _)
        show speak _ (loc'' (j + 1)) (put (put (served std hops target up down).chan
          (.right (pre.length + 1)) [none]) (.left 1) answer (.right (j + 1))) = none
        rw [hempty, hloc]
        exact speak_served j
    · rcases hends k with ⟨hk, hkn⟩ | hend | ⟨j, rfl, hj, hloc⟩
      · have hright : Channel.right k ≠ .right (pre.length + 1) := by
          simpa using Nat.ne_of_lt hkn
        have hleft : Channel.left (k + 1) ≠ .left 1 := by simpa using Nat.ne_of_gt hk
        constructor
        · simp only [Network.put_of_ne (Line.right_ne_left k 1), Network.put_of_ne hright]
          exact (hquiet k (by omega)).1
        · simp only [Network.put_of_ne hleft, Network.put_of_ne (Line.right_ne_left _ _).symm]
          exact (hquiet (k + 1) (by omega)).2
      · have hnot := not_copying_of_ended hend
        rw [hnot] at hcopy
        cases hcopy
      · have hnot : isCopying (loc'' (j + 1)).prog = false := by
          rw [hloc]
          exact not_copying_served j
        rw [hnot] at hcopy
        cases hcopy
  · intro i m hm
    have hi : i < pre.length := (List.getElem?_eq_some_iff.mp hm).1
    show (loc'' (i + 1)).dialled = _
    rw [hother i (Nat.ne_of_lt hi), Nat.add_comm i 1]
    exact hthrough.dialled i m hm
  · intro hadm
    rw [← hyes hadm]
    exact congrArg Station.dialled hhere
  · intro hadm
    rw [← hno hadm]
    exact congrArg Station.dialled hhere
  · intro i hi
    show (loc'' (i + 1)).dialled = _
    rw [hother i (Nat.ne_of_gt hi), hrest i (Nat.le_of_lt hi)]
    rfl

/-- **A chain of SOCKS5 proxies works with the server of this repository at every
hop.**  Whatever the order in which the client, the servers and the streams move,
they come to the same end.  Server after server dials what the next one listens on,
up to the first that does not let the client in or cannot get through; the client
returns without an error exactly when there is no such server, and then what it
writes is all that comes to the target, and what the target sends is all that comes
to the client. -/
theorem chain_of_servers (hstd : std.Lawful) (first : Hop) (rest : List Hop)
    (target : ConnectTarget) (up down : List UInt8)
    (hauth : ∀ h ∈ first :: rest, ∀ cred ∈ h.auth, cred.Fits)
    (hhost : ∀ h ∈ rest, (utf8 h.proxy.host).length ≤ 255)
    (htarget : (utf8 target.host).length ≤ 255) :
    ∃ t, Settles (line (dials (first :: rest))).step (served std (first :: rest) target up down) t ∧
      Served std (first :: rest) target up down t := by
  have hfits : ∀ l ∈ legs target (first :: rest), l.Fits := by
    intro l hl
    obtain ⟨hhop, hasked⟩ := of_mem_legs hl
    refine ⟨?_, hauth l.hop hhop⟩
    rcases hasked with heq | ⟨next, hnext, heq⟩
    · rw [heq]
      exact htarget
    · rw [heq]
      exact hhost next hnext
  have hdials := @client_dials std target up down first rest
  have hnext : ∀ (l : Leg) (log : List String), log = [l.authority std] → ∀ addr ∈ log,
      log = [addr] ∧ ∃ t', Denotes std t' l.asked ∧ addr = t'.authority := by
    rintro l _ rfl addr haddr
    obtain rfl := List.mem_singleton.mp haddr
    exact ⟨rfl, _, denotes_wireTarget hstd, rfl⟩
  have hsettles : ∀ {t}, Reachable (line (dials (first :: rest))).step
      ⟨dialledLoc std (first :: rest) target up down first.addr,
        (served std (first :: rest) target up down).chan⟩ t →
      Terminal (line (dials (first :: rest))).step t →
      Settles (line (dials (first :: rest))).step (served std (first :: rest) target up down) t :=
    fun hreach hterm => Runs.settles separate_line.commutes hterm (hdials.trans hreach)
  by_cases hall : ∀ l ∈ legs target (first :: rest), l.LetsThrough std
  · obtain ⟨t, hreach, hterm, hok, hdialled, hchan⟩ := @chain_through std target up down
      (first :: rest) (List.cons_ne_nil _ _) first.addr hfits hall
    refine ⟨t, hsettles hreach hterm, Or.inl hok, ⟨fun _ => hall, fun _ => hok⟩, ?_, ?_,
      fun _ => hchan⟩
    · intro i l hl
      rw [hdialled i l hl]
      refine ⟨fun _ => ⟨fun m hm => hall m (List.mem_of_mem_take hm), ?_⟩,
        fun _ => List.cons_ne_nil _ _⟩
      exact (hall l (List.mem_of_getElem? hl)).1
    · intro i l hl
      exact hnext l _ (hdialled i l hl)
  · classical
    have hsome : ∃ l ∈ legs target (first :: rest), decide (¬ l.LetsThrough std) = true := by
      simpa using hall
    obtain ⟨pre, l, post, hls, hpre, hl⟩ := FirstMatch.exists_first hsome
    have hthrough : ∀ m ∈ pre, m.LetsThrough std := fun m hm => by simpa using hpre m hm
    have hgetl : (legs target (first :: rest))[pre.length]? = some l := by
      rw [hls, List.getElem?_append_right (Nat.le_refl _), Nat.sub_self]
      rfl
    have hbefore : ∀ {i : ℕ} {m : Leg}, i < pre.length →
        (legs target (first :: rest))[i]? = some m → pre[i]? = some m := by
      intro i m hi hm
      rw [hls, List.getElem?_append_left hi] at hm
      exact hm
    obtain ⟨t, e, hreach, hterm, hfail, hdone, hyes, hno, hnone⟩ := @chain_stopped std target up
      down (first :: rest) first.addr _ _ _ hls hfits hthrough (of_decide_eq_true hl)
    have hnot : (t.loc 0).prog ≠ .ret () := by
      rw [hfail]
      exact nofun
    refine ⟨t, hsettles hreach hterm, Or.inr ⟨e, hfail⟩,
      ⟨fun hok => absurd hok hnot, fun h => absurd h hall⟩, ?_, ?_, fun hok => absurd hok hnot⟩
    · intro i m hm
      rcases Nat.lt_trichotomy i pre.length with hi | rfl | hi
      · have hmpre := hbefore hi hm
        rw [hdone i m hmpre, hls, List.take_append_of_le_length (Nat.le_of_lt hi)]
        refine ⟨fun _ => ⟨fun x hx => hthrough x (List.mem_of_mem_take hx), ?_⟩,
          fun _ => List.cons_ne_nil _ _⟩
        exact (hthrough m (List.mem_of_getElem? hmpre)).1
      · obtain rfl := Option.some.inj (hgetl.symm.trans hm)
        rw [hls, List.take_left]
        by_cases hadm : Admits l.hop.users l.hop.auth
        · rw [hyes hadm]
          exact iff_of_true (List.cons_ne_nil _ _) ⟨hthrough, hadm⟩
        · rw [hno hadm]
          exact iff_of_false (fun h => h rfl) fun h => hadm h.2
      · rw [hnone i hi]
        have hmem : l ∈ (legs target (first :: rest)).take i :=
          List.mem_of_getElem? ((List.getElem?_take_of_lt hi).trans hgetl)
        exact iff_of_false (fun h => h rfl) fun h => absurd (h.1 l hmem) (of_decide_eq_true hl)
    · intro i m hm addr haddr
      rcases Nat.lt_trichotomy i pre.length with hi | rfl | hi
      · exact hnext m _ (hdone i m (hbefore hi hm)) addr haddr
      · obtain rfl := Option.some.inj (hgetl.symm.trans hm)
        by_cases hadm : Admits l.hop.users l.hop.auth
        · exact hnext l _ (hyes hadm) addr haddr
        · rw [hno hadm] at haddr
          cases haddr
      · rw [hnone i hi] at haddr
        cases haddr

def openHop : Hop where
  addr := "10.0.0.2:1080"
  proxy := ⟨"10.0.0.2", 1080⟩
  parses := by decide +kernel
  auth := none
  tls := none
  users := none
  dial := fun _ => .ok ()

def userHop : Hop where
  addr := "proxy.example.net:1081"
  proxy := ⟨"proxy.example.net", 1081⟩
  parses := by decide +kernel
  auth := some ⟨"peregrine", "falcon"⟩
  tls := none
  users := some [⟨"kestrel", "hover"⟩, ⟨"peregrine", "falcon"⟩]
  dial := fun _ => .ok ()

theorem chain_of_servers_two :
    (legs ⟨"127.0.0.1", 8080⟩ [openHop, userHop]).map Leg.asked =
      [⟨"proxy.example.net", 1081⟩, ⟨"127.0.0.1", 8080⟩] ∧
    ∃ t, Settles (line (dials [openHop, userHop])).step
        (served .plain [openHop, userHop] ⟨"127.0.0.1", 8080⟩ [1, 2, 3] [4, 5]) t ∧
      Served .plain [openHop, userHop] ⟨"127.0.0.1", 8080⟩ [1, 2, 3] [4, 5] t := by
  refine ⟨rfl, chain_of_servers IpText.plain_lawful openHop [userHop] _ _ _ ?_ ?_ (by decide)⟩
  · intro h hh cred hcred
    rcases List.mem_cons.mp hh with rfl | hh
    · cases hcred
    · obtain rfl := List.mem_singleton.mp hh
      obtain rfl := Option.some.inj hcred
      exact ⟨by decide, by decide⟩
  · intro h hh
    obtain rfl := List.mem_singleton.mp hh
    decide

end Served

end Peregrine
