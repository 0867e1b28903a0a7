import Peregrine.Upstream.ChainRoute
import Peregrine.Upstream.Router

/-!
# Is TLS used where it is configured?

A proxy with `tls: true` is to be spoken to inside TLS.  The two connectors for a
single proxy open the session before the first byte of their handshake; the
handshakes of `upstream/chain.rs` take the setting as an argument and do not look
at it.

`said` collects what is written for each proxy entry, together with all that had
happened on the stream before.  `tls_hops_iff` says for which configurations
everything is said inside TLS, and that a chain of one entry is the entry alone
exactly if that does not ask for TLS.
-/

namespace Peregrine

open Prog (Oracle History Calls)

/-! ### What is said to whom -/

/-- Bytes written for an entry, and what had happened on the stream before. -/
structure Utterance where
  config : UpstreamConfig
  before : History sysSig
  bytes : List UInt8

/-- The event of a TLS session with `host` being established. -/
def tlsEstablished (host : String) : (o : sysSig.Op) × sysSig.Ans o :=
  ⟨.inr (.tlsConnect host), .ok ()⟩

/-- If the entry asks for TLS, a session with its host had been established. -/
def Utterance.InTls (u : Utterance) : Prop :=
  u.config.tls = some true →
    ∃ addr, extractProxyAddress u.config = .ok addr ∧ tlsEstablished (extractHost addr) ∈ u.before

/-- The writes among the events of a handshake for `config`, after `before`. -/
def utterances (config : UpstreamConfig) : History sysSig → History sysSig → List Utterance
  | _, [] => []
  | before, e :: es =>
    (match e.1 with
      | .inl (.writeAll bs) => [⟨config, before, bs⟩]
      | _ => []) ++ utterances config (before ++ [e]) es

/-- The stream of a chain, watched. -/
structure Watch where
  history : History sysSig
  said : List Utterance

/-- The handshake for `config` has brought the history to `l`. -/
def Watch.record (s : Watch) (config : UpstreamConfig) (l : History sysSig) : Watch where
  history := l
  said := s.said ++ utterances config s.history (l.drop s.history.length)

/-- The hops of a chain, watched. -/
def watchWorld (std : IpText) (ω : Oracle sysSig) : Prog.Handler hopSig Watch
  | .tcpConnect addr, s =>
    some (ω s.history (.inr (.tcpConnect addr)), { s with
      history := s.history ++ [⟨.inr (.tcpConnect addr), ω s.history (.inr (.tcpConnect addr))⟩] })
  | .handshake config target, s =>
    match Prog.run ω.handler (performProxyHandshake std config target) s.history with
    | .ret () l => some (.ok (), s.record config l)
    | .fail e l => some (.error e, s.record config l)
    | .stuck _ => none

section

variable (std : IpText) (config : UpstreamConfig) (target : ConnectTarget) (ω : Oracle sysSig)

/-- What a run of the configured connector says to the proxies. -/
def said : List Utterance :=
  match config with
  | .chain chain =>
    (Prog.run (watchWorld std ω) (connectHops chain target) ⟨[], []⟩).world.said
  | config => utterances config [] (Prog.run ω.handler (config.connect std target) []).world

/-- Nothing is said outside TLS to a proxy that asks for it. -/
def SaidInTls : Prop := ∀ u ∈ said std config target ω, u.InTls

def ConnectFails : Prop := ∃ e l, Prog.run ω.handler (config.connect std target) [] = .fail e l

/-- Two configurations do the same on the stream, and succeed together. -/
def SameTowardsProxy (config' : UpstreamConfig) : Prop :=
  (Prog.run ω.handler (config.connect std target) []).world =
    (Prog.run ω.handler (config'.connect std target) []).world ∧
  (ConnectFails std config target ω ↔ ConnectFails std config' target ω)

end

variable {std : IpText} {ω : Oracle sysSig} {target : ConnectTarget}

/-- **The watch only watches.** -/
theorem run_connect_eq_watch (c : ChainConnector) (s : Watch) :
    Prog.run ω.handler (c.connect std target) s.history =
      (Prog.run (watchWorld std ω) (connectHops c.chain target) s).map Watch.history := by
  refine Prog.run_interp (fun o s => ?_) _ s
  cases o with
  | tcpConnect addr => exact ⟨_, _, rfl, rfl⟩
  | handshake config asked =>
    simp only [hopAction, watchWorld, Prog.run_attempt]
    cases hrun : Prog.run ω.handler (performProxyHandshake std config asked) s.history with
    | ret a l => exact ⟨_, _, rfl, rfl⟩
    | fail e l => exact ⟨_, _, rfl, rfl⟩
    | stuck l => exact absurd hrun (run_oracle_ne_stuck _ _ _)

theorem utterances_append (config : UpstreamConfig) (before l l' : History sysSig) :
    utterances config before (l ++ l') =
      utterances config before l ++ utterances config (before ++ l) l' := by
  induction l generalizing before with
  | nil => rw [List.nil_append, utterances, List.nil_append, List.append_nil]
  | cons e l ih =>
    rw [List.cons_append, utterances, utterances, ih, List.append_assoc, List.append_assoc]
    rfl

theorem of_mem_utterances {config : UpstreamConfig} {before l : History sysSig} {u : Utterance}
    (h : u ∈ utterances config before l) :
    u.config = config ∧ ∃ more, u.before = before ++ more ∧ more <+: l := by
  induction l generalizing before with
  | nil => cases h
  | cons e l ih =>
    rw [utterances] at h
    rcases List.mem_append.mp h with h | h
    · split at h
      · obtain rfl := List.mem_singleton.mp h
        exact ⟨rfl, [], (List.append_nil _).symm, List.nil_prefix⟩
      · cases h
    · obtain ⟨hc, more, hb, hm⟩ := ih h
      refine ⟨hc, e :: more, ?_, List.cons_prefix_cons.mpr ⟨rfl, hm⟩⟩
      rw [hb, List.append_assoc]
      rfl

theorem utterances_eq_nil {config : UpstreamConfig} {l : History sysSig}
    (h : ∀ e ∈ l, ∀ bs, e.1 ≠ .inl (.writeAll bs)) (before : History sysSig) :
    utterances config before l = [] := by
  induction l generalizing before with
  | nil => rfl
  | cons e l ih =>
    rw [utterances, ih fun e he => h e (List.mem_cons_of_mem _ he), List.append_nil]
    split
    · rename_i bs hbs
      exact absurd hbs (h e List.mem_cons_self bs)
    · rfl

/-! ### A proxy alone -/

/-- Operations before the handshake. -/
def NoWrite (o : sysSig.Op) : Prop := ∀ bs, o ≠ .inl (.writeAll bs)

theorem calls_secure (useTls : Bool) (addr : String) : Calls NoWrite (secure useTls addr) := by
  unfold secure
  split
  · refine (Calls.perform fun _ => nofun).bind fun valid => ?_
    refine (Calls.ensure _ _).bind fun _ => ?_
    exact (Calls.perform fun _ => nofun).bind fun r => .ofExcept _ r
  · trivial

/-- **A stream that was secured is secured.** -/
theorem established_of_secure {addr : String} {l l' : History sysSig} {u : Unit}
    (h : Prog.run ω.handler (secure true addr) l = .ret u l') :
    tlsEstablished (extractHost addr) ∈ l' := by
  change Prog.run ω.handler (wrapTls (extractHost addr)) l = .ret u l' at h
  obtain ⟨valid, l₁, -, h⟩ := Prog.run_bind_eq_ret.mp h
  obtain ⟨-, l₂, -, h⟩ := Prog.run_bind_eq_ret.mp h
  obtain ⟨r, l₃, hr, h⟩ := Prog.run_bind_eq_ret.mp h
  cases hr
  cases hω : ω l₂ (.inr (.tlsConnect (extractHost addr))) with
  | error e =>
    rw [hω] at h
    cases h
  | ok v =>
    rw [hω] at h
    cases h
    exact List.mem_append_right _ (List.mem_singleton.mpr rfl)

/-- **A connector that secures its stream first says everything inside TLS.** -/
theorem inTls_of_secured {config : UpstreamConfig} {addr : String} {failed : IoError → ProxyError}
    {p : Sys Unit} (ha : extractProxyAddress config = .ok addr) :
    ∀ u ∈ utterances config [] (Prog.run ω.handler (sys (.tcpConnect addr) >>= fun r =>
      Prog.ofExcept failed r >>= fun _ =>
        secure (config.tls.getD false) addr >>= fun _ => p) []).world, u.InTls := by
  have hassoc : (sys (.tcpConnect addr) >>= fun r => Prog.ofExcept failed r >>= fun _ =>
      secure (config.tls.getD false) addr >>= fun _ => p) =
      (sys (.tcpConnect addr) >>= fun r => Prog.ofExcept failed r >>= fun _ =>
        secure (config.tls.getD false) addr) >>= fun _ => p := by
    simp only [bind_assoc]
  have hcalls : Calls NoWrite (sys (.tcpConnect addr) >>= fun r =>
      Prog.ofExcept failed r >>= fun _ => secure (config.tls.getD false) addr) := by
    refine (Calls.perform fun _ => nofun).bind fun r => ?_
    exact (Calls.ofExcept _ r).bind fun _ => calls_secure _ _
  intro u hu htls
  rw [hassoc, Prog.run_bind] at hu
  have hquiet := hcalls.mem_history ω []
  cases hq : Prog.run ω.handler (sys (.tcpConnect addr) >>= fun r =>
      Prog.ofExcept failed r >>= fun _ => secure (config.tls.getD false) addr) [] with
  | stuck l => exact absurd hq (run_oracle_ne_stuck _ _ _)
  | fail e l =>
    rw [hq] at hu hquiet
    have hnil := @utterances_eq_nil config l
      (fun e he bs => ((hquiet e he).resolve_left List.not_mem_nil) bs) []
    change u ∈ utterances config [] l at hu
    rw [hnil] at hu
    cases hu
  | ret a l =>
    rw [hq] at hu hquiet
    have hnil := @utterances_eq_nil config l
      (fun e he bs => ((hquiet e he).resolve_left List.not_mem_nil) bs) []
    change u ∈ utterances config [] (Prog.run ω.handler p l).world at hu
    obtain ⟨more, hmore⟩ := @history_grows ω _ p l
    rw [← hmore, utterances_append, hnil, List.nil_append, List.nil_append] at hu
    obtain ⟨hconfig, said, hbefore, -⟩ := of_mem_utterances hu
    rw [hconfig] at htls ⊢
    rw [htls] at hq
    obtain ⟨r, l₁, -, hq⟩ := Prog.run_bind_eq_ret.mp hq
    obtain ⟨-, l₂, -, hq⟩ := Prog.run_bind_eq_ret.mp hq
    refine ⟨addr, ha, ?_⟩
    rw [hbefore]
    exact List.mem_append_left _ (established_of_secure hq)

theorem saidInTls_alone {config : UpstreamConfig} (h : ∀ chain, config ≠ .chain chain) :
    SaidInTls std config target ω := by
  cases config with
  | direct =>
    intro u hu htls
    have hc : u.config = .direct := (of_mem_utterances hu).1
    rw [hc] at htls
    cases htls
  | http addr auth tls => exact @inTls_of_secured ω (.http addr auth tls) addr _ _ rfl
  | socks5 addr auth tls => exact @inTls_of_secured ω (.socks5 addr auth tls) addr _ _ rfl
  | chain chain => exact absurd rfl (h chain)

/-! ### A chain -/

/-- The loop comes to the entry, and as far as its handshake. -/
def Greets (chain : List UpstreamConfig) (config : UpstreamConfig) : Prop :=
  ∃ pre post, chain = pre ++ config :: post ∧ Gets (pre ++ [config]) ∧
    ∀ next ∈ post.head?, Passable next

/-- The handshakes of a chain are for entries that the loop comes to. -/
def HopOp.ForEntryOf (chain : List UpstreamConfig) : HopOp → Prop
  | .tcpConnect _ => True
  | .handshake config _ => Greets chain config

theorem calls_hopHandshake {P : HopOp → Prop} {config : UpstreamConfig} {asked : ConnectTarget}
    (h : P (.handshake config asked)) : Calls P (hopHandshake config asked) :=
  (@Calls.perform hopSig ProxyError P _ h).bind fun r => .ofExcept _ r

theorem calls_hopsFrom {chain : List UpstreamConfig} (rest : List UpstreamConfig) :
    ∀ (pre : List UpstreamConfig) (config : UpstreamConfig), chain = pre ++ config :: rest →
      Gets (pre ++ [config]) →
      Calls (HopOp.ForEntryOf chain) (hopsFrom target (config :: rest)) := by
  induction rest with
  | nil =>
    intro pre config hchain hgets
    exact calls_hopHandshake ⟨pre, [], hchain, hgets, nofun⟩
  | cons next rest ih =>
    intro pre config hchain hgets
    rw [hopsFrom]
    cases hnt : nextTarget target next with
    | error e => trivial
    | ok asked =>
      have hpass := passable_of_nextTarget hnt
      have hgreets : Greets chain config := by
        refine ⟨pre, next :: rest, hchain, hgets, fun n hn => ?_⟩
        obtain rfl := Option.some.inj hn
        exact hpass
      refine Calls.bind (p := hopHandshake config asked) (calls_hopHandshake hgreets) fun _ => ?_
      exact ih (pre ++ [config]) next (by rw [hchain]; simp) (hgets.snoc hpass)

theorem calls_connectHops (chain : List UpstreamConfig) :
    Calls (HopOp.ForEntryOf chain) (connectHops chain target) := by
  have hdial : ∀ failed addr, Calls (HopOp.ForEntryOf chain) (hopConnect failed addr) :=
    fun failed addr => (@Calls.perform hopSig ProxyError _ (.tcpConnect addr) trivial).bind
      fun r => .ofExcept _ r
  cases chain with
  | nil => trivial
  | cons first rest =>
    rcases connectHops_cases target first rest with
      ⟨rfl, rfl⟩ | ⟨e, heq⟩ | ⟨addr, failed, ha, heq⟩
    · exact hdial _ _
    · rw [heq]
      trivial
    · rw [heq]
      refine Calls.bind (hdial failed addr) fun _ => ?_
      exact calls_hopsFrom rest [] first rfl ⟨first, [], addr, rfl, ha, nofun⟩

/-- The handshakes of a chain establish no TLS session. -/
def NoTls (o : sysSig.Op) : Prop := ∀ host, o ≠ .inr (.tlsConnect host)

theorem calls_performProxyHandshake (config : UpstreamConfig) (asked : ConnectTarget) :
    Calls NoTls (performProxyHandshake std config asked) := by
  cases config with
  | direct => trivial
  | http addr auth tls => exact calls_httpHandshake (fun _ => nofun) fun _ => nofun
  | socks5 addr auth tls =>
    exact calls_socks5Handshake (fun _ _ => nofun) (fun _ => nofun) (fun _ _ _ => nofun)
      fun _ => nofun
  | chain c => trivial

theorem watch_chain {chain : List UpstreamConfig} :
    (∀ e ∈ (Prog.run (watchWorld std ω) (connectHops chain target) ⟨[], []⟩).world.history,
      NoTls e.1) ∧
    ∀ u ∈ (Prog.run (watchWorld std ω) (connectHops chain target) ⟨[], []⟩).world.said,
      Greets chain u.config ∧ ∀ e ∈ u.before, NoTls e.1 := by
  refine @Calls.keeps _ _ _ _ (watchWorld std ω) (HopOp.ForEntryOf chain)
    (fun s => (∀ e ∈ s.history, NoTls e.1) ∧
      ∀ u ∈ s.said, Greets chain u.config ∧ ∀ e ∈ u.before, NoTls e.1)
    (connectHops chain target) (calls_connectHops chain) ?_ ⟨[], []⟩ ⟨nofun, nofun⟩
  intro o s x s' ho hx hs
  cases o with
  | tcpConnect addr =>
    cases hx
    refine ⟨fun e he => ?_, hs.2⟩
    rcases List.mem_append.mp he with he | he
    · exact hs.1 e he
    · obtain rfl := List.mem_singleton.mp he
      exact fun _ => nofun
  | handshake config asked =>
    have hall := (@calls_performProxyHandshake std config asked).mem_history ω s.history
    have hrecord : ∀ l, (∀ e ∈ l, e ∈ s.history ∨ NoTls e.1) →
        (∀ e ∈ (s.record config l).history, NoTls e.1) ∧
        ∀ u ∈ (s.record config l).said, Greets chain u.config ∧ ∀ e ∈ u.before, NoTls e.1 := by
      intro l hl
      have hquiet : ∀ e ∈ l, NoTls e.1 := fun e he => (hl e he).elim (hs.1 e) id
      refine ⟨hquiet, fun u hu => ?_⟩
      rcases List.mem_append.mp hu with hu | hu
      · exact hs.2 u hu
      · obtain ⟨hconfig, more, hbefore, hmore⟩ := of_mem_utterances hu
        rw [hconfig, hbefore]
        refine ⟨ho, fun e he => ?_⟩
        rcases List.mem_append.mp he with he | he
        · exact hs.1 e he
        · exact hquiet e (List.mem_of_mem_drop (hmore.subset he))
    simp only [watchWorld] at hx
    split at hx
    · rename_i l hrun
      cases hx
      rw [hrun] at hall
      exact hrecord l hall
    · rename_i e l hrun
      cases hx
      rw [hrun] at hall
      exact hrecord l hall
    · cases hx

/-- **A chain speaks to the entries it comes to, and never inside TLS.** -/
theorem said_chain {chain : List UpstreamConfig} :
    ∀ u ∈ said std (.chain chain) target ω, Greets chain u.config ∧
      ∀ host, tlsEstablished host ∉ u.before := by
  intro u hu
  obtain ⟨hgreets, hquiet⟩ := watch_chain.2 u hu
  exact ⟨hgreets, fun host hmem => hquiet _ hmem host rfl⟩

theorem history_chain {chain : List UpstreamConfig} (host : String) : tlsEstablished host ∉
    (Prog.run ω.handler (UpstreamConfig.connect std (.chain chain) target) []).world := by
  intro hmem
  have hwatch := @run_connect_eq_watch std ω target ⟨chain⟩ ⟨[], []⟩
  change tlsEstablished host ∈
    (Prog.run ω.handler (ChainConnector.connect std ⟨chain⟩ target) []).world at hmem
  rw [hwatch] at hmem
  have hquiet := (@watch_chain std ω target chain).1
  cases hrun : Prog.run (watchWorld std ω) (connectHops chain target) ⟨[], []⟩ <;>
  · rw [hrun] at hmem hquiet
    exact hquiet _ hmem host rfl

/-! ### A chain in the agreeable world -/

theorem said_start {α : Type} (p : Hops α) (s : Watch) :
    s.said <+: (Prog.run (watchWorld std ω) p s).world.said := by
  refine @Prog.run_keeps _ _ _ _ (watchWorld std ω) (fun s t => s.said <+: t.said)
    (fun _ => List.prefix_refl _) (fun _ _ _ => List.IsPrefix.trans) ?_ p s
  intro o s x s' h
  cases o with
  | tcpConnect addr =>
    cases h
    exact List.prefix_refl _
  | handshake config asked =>
    simp only [watchWorld] at h
    split at h
    · cases h
      exact List.prefix_append _ _
    · cases h
      exact List.prefix_append _ _
    · cases h

/-- An entry with an address is spoken to, if its hop succeeds. -/
def SpokenTo (config : UpstreamConfig) (s : Watch) : Prop :=
  ∀ addr, extractProxyAddress config = .ok addr → ∃ u ∈ s.said, u.config = config

theorem agreeable_watch_hop {config : UpstreamConfig} (asked : ConnectTarget)
    (h : config = .direct ∨ ∃ addr, extractProxyAddress config = .ok addr) (s : Watch) :
    ∃ t, Prog.run (watchWorld std agreeable) (hopHandshake config asked) s = .ret () t ∧
      SpokenTo config t := by
  obtain ⟨l, hl⟩ := @agreeable_handshake std config asked h s.history
  have hstep : watchWorld std agreeable (.handshake config asked) s =
      some (.ok (), s.record config l) := by
    simp only [watchWorld, hl]
  refine ⟨s.record config l, run_hopHandshake_ok hstep, fun addr ha => ?_⟩
  obtain ⟨bs, r, more, hmore⟩ := @first_write std agreeable config addr asked ha s.history
  rw [hl] at hmore
  change _ = l at hmore
  refine ⟨⟨config, s.history, bs⟩, List.mem_append_right _ ?_, rfl⟩
  rw [← hmore, List.append_assoc, List.drop_left]
  exact List.mem_cons_self

/-- **In the agreeable world every entry that the loop comes to is spoken to.** -/
theorem agreeable_hopsFrom {post : List UpstreamConfig} (hpost : ∀ next ∈ post.head?, Passable next)
    (more : List UpstreamConfig) : ∀ (config : UpstreamConfig) (s : Watch),
    (config = .direct ∨ ∃ addr, extractProxyAddress config = .ok addr) →
    (∀ c ∈ more, Passable c) →
    (∀ c ∈ config :: more, SpokenTo c (Prog.run (watchWorld std agreeable)
      (hopsFrom target (config :: (more ++ post))) s).world) ∧
    (post = [] → ∃ t, Prog.run (watchWorld std agreeable)
      (hopsFrom target (config :: (more ++ post))) s = .ret () t) := by
  have hturn : ∀ (config next : UpstreamConfig) (rest : List UpstreamConfig) (s : Watch),
      (config = .direct ∨ ∃ addr, extractProxyAddress config = .ok addr) → Passable next →
      ∃ t, Prog.run (watchWorld std agreeable) (hopsFrom target (config :: next :: rest)) s =
          Prog.run (watchWorld std agreeable) (hopsFrom target (next :: rest)) t ∧
        SpokenTo config (Prog.run (watchWorld std agreeable)
          (hopsFrom target (config :: next :: rest)) s).world := by
    intro config next rest s hok hpass
    obtain ⟨asked, hnt⟩ := @nextTarget_of_passable target next hpass
    obtain ⟨t, hrun, hspoken⟩ := @agreeable_watch_hop std config asked hok s
    have heq : Prog.run (watchWorld std agreeable) (hopsFrom target (config :: next :: rest)) s =
        Prog.run (watchWorld std agreeable) (hopsFrom target (next :: rest)) t := by
      rw [hopsFrom, hnt, Prog.ofExcept_ok, Prog.ret_bind, Prog.run_bind, hrun]
      rfl
    refine ⟨t, heq, fun addr ha => ?_⟩
    obtain ⟨u, hu, hc⟩ := hspoken addr ha
    rw [heq]
    exact ⟨u, (said_start _ _).subset hu, hc⟩
  induction more with
  | nil =>
    intro config s hok _
    rw [List.nil_append]
    cases post with
    | nil =>
      obtain ⟨t, hrun, hspoken⟩ := @agreeable_watch_hop std config target hok s
      rw [hopsFrom, hrun]
      exact ⟨List.forall_mem_singleton.mpr hspoken, fun _ => ⟨t, rfl⟩⟩
    | cons next rest =>
      obtain ⟨t, -, hspoken⟩ := hturn config next rest s hok (hpost next rfl)
      exact ⟨List.forall_mem_singleton.mpr hspoken, fun h => (by cases h)⟩
  | cons next more ih =>
    intro config s hok hmore
    have hpass := hmore next List.mem_cons_self
    obtain ⟨t, heq, hspoken⟩ := hturn config next (more ++ post) s hok hpass
    have hrest := ih next t (ok_of_passable hpass) fun c hc => hmore c (List.mem_cons_of_mem _ hc)
    rw [List.cons_append]
    refine ⟨List.forall_mem_cons.mpr ⟨hspoken, ?_⟩, ?_⟩
    · rw [heq]
      exact hrest.1
    · rw [heq]
      exact hrest.2

theorem agreeable_connectHops {pre post : List UpstreamConfig} (hgets : Gets pre)
    (hpost : ∀ next ∈ post.head?, Passable next) :
    (∀ c ∈ pre, SpokenTo c (Prog.run (watchWorld std agreeable)
      (connectHops (pre ++ post) target) ⟨[], []⟩).world) ∧
    (post = [] → ∃ t, Prog.run (watchWorld std agreeable)
      (connectHops (pre ++ post) target) ⟨[], []⟩ = .ret () t) := by
  obtain ⟨first, more, addr, rfl, ha, hmore⟩ := hgets
  obtain ⟨failed, heq⟩ := @connectHops_of_address target first (more ++ post) addr ha
  have hrun : Prog.run (watchWorld std agreeable) (connectHops (first :: more ++ post) target)
      ⟨[], []⟩ = Prog.run (watchWorld std agreeable) (hopsFrom target (first :: (more ++ post)))
        ⟨[⟨.inr (.tcpConnect addr), .ok ()⟩], []⟩ := by
    rw [List.cons_append, heq]
    rfl
  rw [hrun]
  exact agreeable_hopsFrom hpost more first _ (Or.inr ⟨addr, ha⟩) hmore

/-! ### Where TLS is used -/

theorem ends_hopsFrom (rest : List UpstreamConfig) : ∀ (pre : List UpstreamConfig)
    (config : UpstreamConfig), Gets (pre ++ [config]) →
    Prog.Ends (fun _ => Gets (pre ++ config :: rest)) (fun _ => True)
      (hopsFrom target (config :: rest)) := by
  have hhop : ∀ (config : UpstreamConfig) (asked : ConnectTarget),
      Prog.Ends (fun _ => True) (fun _ => True) (hopHandshake config asked) :=
    fun config asked => (Prog.Ends.perform _).bind fun r _ => .ofExcept r fun _ => trivial
  induction rest with
  | nil =>
    intro pre config hgets
    exact (hhop config target).mono fun _ _ => hgets
  | cons next rest ih =>
    intro pre config hgets
    rw [hopsFrom]
    cases hnt : nextTarget target next with
    | error e => trivial
    | ok asked =>
      have hrest := ih (pre ++ [config]) next (hgets.snoc (passable_of_nextTarget hnt))
      rw [List.append_assoc] at hrest
      exact (hhop config asked).bind fun _ _ => hrest

/-- **A chain that connects has been gone through.** -/
theorem ends_connectHops (chain : List UpstreamConfig) :
    Prog.Ends (fun _ => Gets chain ∨ chain = [.direct]) (fun _ => True)
      (connectHops chain target) := by
  cases chain with
  | nil => trivial
  | cons first rest =>
    have hdial : ∀ failed addr,
        Prog.Ends (fun _ => True) (fun _ => True) (hopConnect failed addr) :=
      fun failed addr => (Prog.Ends.perform _).bind fun r _ => .ofExcept r fun _ => trivial
    rcases connectHops_cases target first rest with
      ⟨rfl, rfl⟩ | ⟨e, heq⟩ | ⟨addr, failed, ha, heq⟩
    · exact (hdial _ _).mono fun _ _ => Or.inr rfl
    · rw [heq]
      trivial
    · rw [heq]
      refine (hdial failed addr).bind fun _ _ => ?_
      exact (ends_hopsFrom rest [] first ⟨first, [], addr, rfl, ha, nofun⟩).mono
        fun _ h => Or.inl h

theorem tls_of_address {config : UpstreamConfig} (h : config.tls = some true) :
    ∃ addr, extractProxyAddress config = .ok addr := by
  cases config with
  | direct => cases h
  | http addr auth tls => exact ⟨addr, rfl⟩
  | socks5 addr auth tls => exact ⟨addr, rfl⟩
  | chain c => cases h

/-- An entry that is spoken to in the agreeable world, and asks for TLS, is
spoken to outside it. -/
theorem not_saidInTls {chain : List UpstreamConfig} {c : UpstreamConfig} (htls : c.tls = some true)
    (hspoken : SpokenTo c (Prog.run (watchWorld std agreeable) (connectHops chain target)
      ⟨[], []⟩).world) : ¬ SaidInTls std (.chain chain) target agreeable := by
  intro hsaid
  obtain ⟨addr, ha⟩ := tls_of_address htls
  obtain ⟨u, hu, hc⟩ := hspoken addr ha
  obtain ⟨addr', -, hmem⟩ := hsaid u hu (by rw [hc, htls])
  exact (said_chain u hu).2 _ hmem

theorem connectFails_chain {chain : List UpstreamConfig} {t : Watch}
    (h : Prog.run (watchWorld std ω) (connectHops chain target) ⟨[], []⟩ = .ret () t) :
    ¬ ConnectFails std (.chain chain) target ω := by
  rintro ⟨e, l, hfail⟩
  have heq := @run_connect_eq_watch std ω target ⟨chain⟩ ⟨[], []⟩
  rw [h] at heq
  cases hfail.symm.trans heq

theorem run_alone {config : UpstreamConfig} {addr : String}
    (ha : extractProxyAddress config = .ok addr) (htls : config.tls ≠ some true) :
    ∃ failed : IoError → ProxyError, Prog.run ω.handler (config.connect std target) [] =
      Prog.run ω.handler (Prog.ofExcept failed (ω [] (.inr (.tcpConnect addr))) >>= fun _ =>
        performProxyHandshake std config target)
        [⟨.inr (.tcpConnect addr), ω [] (.inr (.tcpConnect addr))⟩] := by
  have hplain : ∀ tls : Option Bool, tls ≠ some true → tls.getD false = false := by
    intro tls h
    cases tls with
    | none => rfl
    | some b =>
      cases b with
      | false => rfl
      | true => exact absurd rfl h
  cases config with
  | direct => cases ha
  | http a auth tls =>
    cases ha
    refine ⟨fun e => .upstream
      ("Failed to connect to HTTP proxy " ++ addr ++ ": " ++ e.display), ?_⟩
    show Prog.run ω.handler (HttpProxyConnector.connect ⟨addr, auth, tls.getD false⟩ target) [] = _
    rw [hplain tls htls]
    rfl
  | socks5 a auth tls =>
    cases ha
    refine ⟨fun e => .upstream
      ("Failed to connect to SOCKS5 proxy " ++ addr ++ ": " ++ e.display), ?_⟩
    show Prog.run ω.handler
      (Socks5ProxyConnector.connect std ⟨addr, auth, tls.getD false⟩ target) [] = _
    rw [hplain tls htls]
    rfl
  | chain c => cases ha

theorem run_chain_of_one {config : UpstreamConfig} {addr : String}
    (ha : extractProxyAddress config = .ok addr) :
    ∃ failed : IoError → ProxyError,
      Prog.run ω.handler (UpstreamConfig.connect std (.chain [config]) target) [] =
        Prog.run ω.handler (Prog.ofExcept failed (ω [] (.inr (.tcpConnect addr))) >>= fun _ =>
          performProxyHandshake std config target)
          [⟨.inr (.tcpConnect addr), ω [] (.inr (.tcpConnect addr))⟩] := by
  obtain ⟨text, heq⟩ := @connectHops_of_address target config [] addr ha
  refine ⟨fun e => .upstream (text ++ e.display), ?_⟩
  have hwatch := @run_connect_eq_watch std ω target ⟨[config]⟩ ⟨[], []⟩
  refine hwatch.trans ?_
  have hconnect : hopConnect text addr = .call (.tcpConnect addr) fun r =>
      Prog.ofExcept (fun e => .upstream (text ++ e.display)) r := rfl
  rw [heq, hconnect, Prog.call_bind]
  have hstep : watchWorld std ω (.tcpConnect addr) ⟨[], []⟩ =
      some (ω [] (.inr (.tcpConnect addr)),
        ⟨[⟨.inr (.tcpConnect addr), ω [] (.inr (.tcpConnect addr))⟩], []⟩) := rfl
  rw [Prog.run_call_some hstep]
  cases ω [] (.inr (.tcpConnect addr)) with
  | error e => rfl
  | ok v =>
    rw [Prog.ofExcept_ok, Prog.ofExcept_ok, Prog.ret_bind, Prog.ret_bind, hopsFrom]
    cases hrun : Prog.run ω.handler (performProxyHandshake std config target)
        [⟨.inr (.tcpConnect addr), .ok v⟩] with
    | stuck l => exact absurd hrun (run_oracle_ne_stuck _ _ _)
    | fail e l =>
      have hstep : watchWorld std ω (.handshake config target)
          ⟨[⟨.inr (.tcpConnect addr), .ok v⟩], []⟩ =
          some (.error e, Watch.record ⟨[⟨.inr (.tcpConnect addr), .ok v⟩], []⟩ config l) := by
        simp only [watchWorld, hrun]
      rw [run_hopHandshake_error hstep]
      rfl
    | ret u l =>
      have hstep : watchWorld std ω (.handshake config target)
          ⟨[⟨.inr (.tcpConnect addr), .ok v⟩], []⟩ =
          some (.ok (), Watch.record ⟨[⟨.inr (.tcpConnect addr), .ok v⟩], []⟩ config l) := by
        simp only [watchWorld, hrun]
      rw [run_hopHandshake_ok hstep]
      rfl

/-- Unless it is for TLS, the chain of one entry is the entry. -/
theorem sameTowardsProxy {config : UpstreamConfig} {addr : String}
    (ha : extractProxyAddress config = .ok addr) (htls : config.tls ≠ some true) :
    SameTowardsProxy std config target ω (.chain [config]) := by
  obtain ⟨failed, halone⟩ := @run_alone std ω target config addr ha htls
  obtain ⟨failed', hchain⟩ := @run_chain_of_one std ω target config addr ha
  rw [SameTowardsProxy, ConnectFails, ConnectFails, halone, hchain]
  cases ω [] (.inr (.tcpConnect addr)) with
  | ok v => exact ⟨rfl, Iff.rfl⟩
  | error e => exact ⟨rfl, iff_of_true ⟨_, _, rfl⟩ ⟨_, _, rfl⟩⟩

theorem agreeable_establishes {config : UpstreamConfig} {addr : String}
    (ha : extractProxyAddress config = .ok addr) (htls : config.tls = some true) :
    tlsEstablished (extractHost addr) ∈
      (Prog.run agreeable.handler (config.connect std target) []).world := by
  cases config with
  | direct => cases ha
  | http a auth tls =>
    cases ha
    cases htls
    refine (@history_grows agreeable _ (httpHandshake auth target)
      [⟨.inr (.tcpConnect addr), .ok ()⟩, ⟨.inr (.serverName (extractHost addr)), true⟩,
        tlsEstablished (extractHost addr)]).subset ?_
    simp
  | socks5 a auth tls =>
    cases ha
    cases htls
    refine (@history_grows agreeable _ (socks5Handshake std auth target)
      [⟨.inr (.tcpConnect addr), .ok ()⟩, ⟨.inr (.serverName (extractHost addr)), true⟩,
        tlsEstablished (extractHost addr)]).subset ?_
    simp
  | chain c => cases ha

/-- **Where TLS is used.**  For a configuration and a target, over all runs of the
configured connector: everything said to a proxy that asks for TLS is said inside
TLS, or `connect` fails, exactly if no entry of a chain that can be gone through
asks for TLS; without leave to fail afterwards, exactly if no entry that the loop
comes to does.  And a chain of one proxy does what the proxy alone does exactly if
it does not ask for TLS. -/
theorem tls_hops_iff (std : IpText) (config : UpstreamConfig) (target : ConnectTarget) :
    ((∀ ω, SaidInTls std config target ω ∨ ConnectFails std config target ω) ↔
      ∀ chain, config = .chain chain → Gets chain → ∀ c ∈ chain, c.tls ≠ some true) ∧
    ((∀ ω, SaidInTls std config target ω) ↔
      ∀ chain, config = .chain chain → ∀ c, Greets chain c → c.tls ≠ some true) ∧
    (∀ addr, extractProxyAddress config = .ok addr →
      ((∀ ω, SameTowardsProxy std config target ω (.chain [config])) ↔
        config.tls ≠ some true)) := by
  refine ⟨⟨?_, ?_⟩, ⟨?_, ?_⟩, fun addr ha => ⟨fun h htls => ?_, fun htls ω =>
    sameTowardsProxy ha htls⟩⟩
  · rintro h chain rfl hgets c hc htls
    obtain ⟨hspoken, hret⟩ := @agreeable_connectHops std target chain [] hgets nofun
    rw [List.append_nil] at hspoken hret
    obtain ⟨t, hrun⟩ := hret rfl
    rcases h agreeable with hsaid | hfails
    · exact not_saidInTls htls (hspoken c hc) hsaid
    · exact connectFails_chain hrun hfails
  · intro h ω
    cases config with
    | direct => exact Or.inl (saidInTls_alone nofun)
    | http addr auth tls => exact Or.inl (saidInTls_alone nofun)
    | socks5 addr auth tls => exact Or.inl (saidInTls_alone nofun)
    | chain chain =>
      have hwatch := @run_connect_eq_watch std ω target ⟨chain⟩ ⟨[], []⟩
      cases hrun : Prog.run (watchWorld std ω) (connectHops chain target) ⟨[], []⟩ with
      | stuck t =>
        rw [hrun] at hwatch
        exact absurd hwatch (run_oracle_ne_stuck _ _ _)
      | fail e t =>
        rw [hrun] at hwatch
        exact Or.inr ⟨e, _, hwatch⟩
      | ret a t =>
        refine Or.inl fun u hu htls => absurd htls ?_
        obtain ⟨pre, post, hchain, -, -⟩ := (said_chain u hu).1
        have hmem : u.config ∈ chain := by
          rw [hchain]
          exact List.mem_append_right _ List.mem_cons_self
        rcases ((ends_connectHops chain).of_run ⟨[], []⟩).1 a t hrun with hgets | rfl
        · exact h chain rfl hgets u.config hmem
        · rw [List.mem_singleton.mp hmem]
          nofun
  · rintro h chain rfl c ⟨pre, post, rfl, hgets, hpost⟩ htls
    obtain ⟨hspoken, -⟩ := @agreeable_connectHops std target (pre ++ [c]) post hgets hpost
    have hsplit : pre ++ [c] ++ post = pre ++ c :: post := by simp
    rw [hsplit] at hspoken
    exact not_saidInTls htls (hspoken c (List.mem_append_right _ (List.mem_singleton.mpr rfl)))
      (h agreeable)
  · intro h ω
    cases config with
    | direct => exact saidInTls_alone nofun
    | http addr auth tls => exact saidInTls_alone nofun
    | socks5 addr auth tls => exact saidInTls_alone nofun
    | chain chain =>
      exact fun u hu htls => absurd htls (h chain rfl u.config (said_chain u hu).1)
  · have hmem := @agreeable_establishes std target config addr ha htls
    rw [(h agreeable).1] at hmem
    exact history_chain _ hmem

def tlsProxy : UpstreamConfig :=
  .http "10.0.0.2:3128" (some ⟨"kestrel", "hover"⟩) (some true)

/-- **A chain shows the credential in the clear**: alone, `tlsProxy` is spoken to
inside TLS; as a chain of one it is sent the request with the credential right
after the TCP connect, and `connect` succeeds. -/
theorem chain_shows_credential_in_the_clear :
    said .plain (.chain [tlsProxy]) ⟨"example.com", 443⟩ agreeable =
      [⟨tlsProxy, [⟨.inr (.tcpConnect "10.0.0.2:3128"), .ok ()⟩],
        utf8 (connectHead (some ⟨"kestrel", "hover"⟩) ⟨"example.com", 443⟩)⟩] ∧
    ¬ SaidInTls .plain (.chain [tlsProxy]) ⟨"example.com", 443⟩ agreeable ∧
    ¬ ConnectFails .plain (.chain [tlsProxy]) ⟨"example.com", 443⟩ agreeable := by
  obtain ⟨hspoken, hret⟩ := @agreeable_connectHops .plain ⟨"example.com", 443⟩ [tlsProxy] []
    ⟨tlsProxy, [], "10.0.0.2:3128", rfl, rfl, nofun⟩ nofun
  obtain ⟨t, hrun⟩ := hret rfl
  exact ⟨rfl, not_saidInTls rfl (hspoken tlsProxy (List.mem_singleton.mpr rfl)),
    connectFails_chain hrun⟩

end Peregrine
