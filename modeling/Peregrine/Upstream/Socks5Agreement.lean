import Peregrine.Lib.Duplex
import Peregrine.PlainText
import Peregrine.Protocol.Socks5.Accept
import Peregrine.Upstream.Socks5Proxy

/-!
# The SOCKS5 client and the SOCKS5 server agree

The client of `upstream/socks5_proxy.rs` at one end of a connection, the server
of `protocol/socks5` at the other, and between them bytes that arrive in order.
`meet` is the two before either has moved and `meetStep` what they can do; the
server's outbound connect is answered by an arbitrary `dial`.

The schedule does not matter (`Duplex.commutes`), so it is enough to follow one:
`meet_admitted` brings both ends through method and credential, `served` from
there through request and reply, and `meet_method_rejected` and
`meet_credential_rejected` are the two ways the server refuses.
-/

namespace Peregrine

open Prog (silent)
open Runs (Reachable Terminal Settles)

/-! ### What is to be agreed on -/

/-- `host'` is the same IP address as `host` where that is the text of one, and
the same string otherwise. -/
def SameHost (std : IpText) (host' host : String) : Prop :=
  match std.parseV4 host with
  | some ip => std.parseV4 host' = some ip
  | none =>
    match std.parseV6 host with
    | some ip => std.parseV6 host' = some ip
    | none => host' = host

/-- `t'` is the target `t`, written perhaps another way. -/
structure Denotes (std : IpText) (t' t : ConnectTarget) : Prop where
  host : SameHost std t'.host t.host
  port : t'.port = t.port

/-- The server's setting lets the client in. -/
def Admits (users : Option (List UserCredential)) (auth : Option UserCredential) : Prop :=
  ∀ list, users = some list → ∃ cred, auth = some cred ∧ cred ∈ list

/-- A credential that RFC 1929 can carry. -/
def UserCredential.Fits (cred : UserCredential) : Prop :=
  (utf8 cred.username).length ≤ 255 ∧ (utf8 cred.password).length ≤ 255

/-- The program has ended. -/
def Ended (p : Sys Unit) : Prop := p = .ret () ∨ ∃ e, p = .fail e

/-- The program is copying between the client and the target. -/
def Copying (p : Sys Unit) : Prop := ∃ k, p = .call (.inr .copyBidirectional) k

/-- Client and server, and the addresses the server has dialled. -/
abbrev Meeting := Duplex.State netSig netSig ProxyError ProxyError Unit Unit Unit (List String)

/-- The outbound connects are answered by `dial` and written down. -/
def dialer (dial : String → Except IoError Unit) : Prog.Handler netSig (List String)
  | .tcpConnect addr, dialled => some (dial addr, dialled ++ [addr])
  | _, _ => none

/-- One step of the client or of the server. -/
abbrev meetStep (dial : String → Except IoError Unit) : Meeting → Duplex.Side → Option Meeting :=
  Duplex.step (silent netSig) (dialer dial)

section Meet

variable (std : IpText) (client : Socks5ProxyConnector) (users : Option (List UserCredential))
  (target : ConnectTarget) (dial : String → Except IoError Unit)

/-- Both sides before either has moved. -/
def meet : Meeting where
  left := client.performSocks5Handshake std target
  right := handleSocks5Inner std users
  leftWrote := []
  rightWrote := []
  leftUnread := []
  rightUnread := []
  leftEnv := ()
  rightEnv := []

/-- How the two should end. -/
structure Agreed (t : Meeting) : Prop where
  client_ended : Ended t.left
  server_ended : Ended t.right ∨ Copying t.right
  reaches_handleConnect : t.rightEnv ≠ [] ↔ Admits users client.auth
  dials_target : ∀ addr ∈ t.rightEnv, t.rightEnv = [addr] ∧
    ∃ t', Denotes std t' target ∧ addr = t'.authority
  client_ok_iff : t.left = .ret () ↔
    (∃ addr ∈ t.rightEnv, dial addr = .ok ()) ∧ replyBytes 0x00 <:+ t.rightWrote
  tunnel_open : t.left = .ret () → Copying t.right ∧ t.leftUnread = [] ∧ t.rightUnread = []

end Meet

/-! ### The messages of the client -/

section Messages

variable {std : IpText} {target : ConnectTarget}

/-- The address type and address the client sends its target as. -/
def wireTarget (std : IpText) (target : ConnectTarget) : TargetAddr :=
  match std.parseV4 target.host with
  | some ip => .ipv4 ip target.port
  | none =>
    match std.parseV6 target.host with
    | some ip => .ipv6 ip target.port
    | none => .domain target.host target.port

theorem wireTarget_fits (h : (utf8 target.host).length ≤ 255) : (wireTarget std target).Fits := by
  unfold wireTarget
  split
  · exact trivial
  · split
    · exact trivial
    · show (utf8 target.host).length < 256
      omega

theorem addressBytes_eq : addressBytes std target.host ++ be16 target.port =
    (wireTarget std target).atyp :: (wireTarget std target).bytes := by
  unfold addressBytes wireTarget
  cases std.parseV4 target.host with
  | some ip => rfl
  | none =>
    cases std.parseV6 target.host with
    | some ip => rfl
    | none => rfl

theorem connectRequest_eq (h : (wireTarget std target).Fits) :
    connectRequest std target =
      RequestMessage.bytes ⟨.connect, 0x00, wireTarget std target, h⟩ := by
  rw [connectRequest, List.append_assoc, addressBytes_eq]
  rfl

/-- **What the server dials denotes what the client asked for.** -/
theorem denotes_wireTarget (hstd : std.Lawful) :
    Denotes std ((wireTarget std target).connectTarget std) target := by
  constructor
  · unfold SameHost wireTarget
    cases h4 : std.parseV4 target.host with
    | some ip => exact hstd.v4 ip
    | none =>
      cases h6 : std.parseV6 target.host with
      | some ip => exact hstd.v6 ip
      | none => rfl
  · unfold wireTarget
    cases std.parseV4 target.host with
    | some ip => rfl
    | none =>
      cases std.parseV6 target.host with
      | some ip => rfl
      | none => rfl

theorem offeredMethods_eq (auth : Option UserCredential) :
    ∃ g : Greeting, offeredMethods auth = g.bytes ∧
      (0x00 : UInt8) ∈ g.methods ∧ ((0x02 : UInt8) ∈ g.methods ↔ auth.isSome) := by
  cases auth with
  | none => exact ⟨⟨[0x00], by decide⟩, rfl, by decide, by decide⟩
  | some cred => exact ⟨⟨[0x00, 0x02], by decide⟩, rfl, by decide, by simp⟩

end Messages

/-! ### Method and credential -/

section Rounds

variable {std : IpText} {client : Socks5ProxyConnector} {users : Option (List UserCredential)}
  {target : ConnectTarget} {dial : String → Except IoError Unit}

/-- Client and server have come to the request, with nothing left to read. -/
def atRequest (std : IpText) (target : ConnectTarget) (clientWrote serverWrote : List UInt8) :
    Meeting where
  left := requestConnect std target
  right := readRequest >>= dispatch std
  leftWrote := clientWrote
  rightWrote := serverWrote
  leftUnread := []
  rightUnread := []
  leftEnv := ()
  rightEnv := []

theorem client_writes {bs : List UInt8} {f : Unit → Sys Unit} {s : Meeting}
    (hs : s.left = writeAll bs >>= f) :
    Reachable (meetStep dial) s
      { s with left := f (), leftWrote := s.leftWrote ++ bs, rightUnread := s.rightUnread ++ bs } :=
  Duplex.reachable_left_ret hs rfl

theorem client_reads {n : ℕ} (b : Bytes n) (rest : List UInt8) {f : Bytes n → Sys Unit}
    {s : Meeting} (hs : s.left = readExact n >>= f) (hu : s.leftUnread = b.bytes ++ rest) :
    Reachable (meetStep dial) s { s with left := f b, leftUnread := rest } := by
  have hrun : Prog.run (Wire.flat.sum (silent netSig)) (readExact n) (s.leftWire, s.leftEnv) =
      .ret b (⟨rest, s.right.failed, []⟩, s.leftEnv) := by
    rw [← Prog.bind_ret (readExact n)]
    exact Wire.run_readExact_eq_ret.mpr ⟨b, rest, hu, rfl⟩
  have hreach : Reachable (meetStep dial) s _ := Duplex.reachable_left_ret hs hrun
  simp only [Duplex.State.setLeft, List.append_nil] at hreach
  exact hreach

theorem server_runs {γ : Type} {p : Sys γ} {f : γ → Sys Unit} {a : γ} {rest : List UInt8}
    {log : List String} {s : Meeting} (hs : s.right = p >>= f)
    (hrun : Prog.run (Wire.flat.sum (dialer dial)) p (s.rightWire, s.rightEnv) =
      .ret a ({ s.rightWire with input := rest }, log)) :
    Reachable (meetStep dial) s { s with right := f a, rightUnread := rest, rightEnv := log } := by
  have hreach : Reachable (meetStep dial) s _ := Duplex.reachable_right_ret hs hrun
  simp only [Duplex.State.setRight, Duplex.State.rightWire, List.append_nil] at hreach
  exact hreach

theorem performSocks5Handshake_eq : client.performSocks5Handshake std target =
    (writeAll (offeredMethods client.auth) >>= fun _ => readExact 2 >>= fun resp =>
      Prog.ensure (resp.get 0 = 0x05) (.socks5 "Invalid SOCKS5 version from upstream") >>= fun _ =>
      authenticateUpstream client.auth (resp.get 1) >>= fun _ => requestConnect std target) := by
  simp only [Socks5ProxyConnector.performSocks5Handshake, socks5Handshake, offerMethods,
    Prog.bind_assoc, Prog.pure_eq, Prog.ret_bind]

/-- Both have sent their first message: the client its methods, the server the
one it selected. -/
def afterMethod (std : IpText) (client : Socks5ProxyConnector)
    (users : Option (List UserCredential)) (target : ConnectTarget) : Meeting where
  left := authenticateUpstream client.auth (wantedMethod users) >>= fun _ =>
    requestConnect std target
  right := authenticateIfRequired users (wantedMethod users) >>= fun _ =>
    readRequest >>= dispatch std
  leftWrote := offeredMethods client.auth
  rightWrote := [0x05, wantedMethod users]
  leftUnread := []
  rightUnread := []
  leftEnv := ()
  rightEnv := []

/-- The server selects the method it wants when the client offers it. -/
theorem meet_method (h : wantedMethod users = 0x02 → client.auth.isSome) :
    Reachable (meetStep dial) (meet std client users target)
      (afterMethod std client users target) := by
  obtain ⟨g, hg, h0, h2⟩ := offeredMethods_eq client.auth
  have hmem : wantedMethod users ∈ g.methods := by
    cases users with
    | none => exact h0
    | some list => exact h2.mpr (h rfl)
  refine (client_writes performSocks5Handshake_eq).trans ?_
  refine (Duplex.reachable_right_ret handleSocks5Inner_eq (run_negotiateMethod.mpr
    ⟨g, [], ?_, hmem, rfl, rfl, rfl⟩)).trans ?_
  · rw [← hg, List.append_nil]
    rfl
  · exact (client_reads ⟨[0x05, wantedMethod users], rfl⟩ [] rfl rfl).trans (.refl _)

theorem authenticateUpstream_eq {cred : UserCredential} (h : client.auth = some cred) :
    (authenticateUpstream client.auth 0x02 >>= fun _ => requestConnect std target) =
      (writeAll (authRequest cred) >>= fun _ => readExact 2 >>= fun authResp =>
        Prog.ensure (authResp.get 1 = 0x00) .authFailed >>= fun _ =>
        requestConnect std target) := by
  rw [h]
  show (presentCredential cred >>= fun _ => requestConnect std target) = _
  simp only [presentCredential, Prog.bind_assoc]

/-- The message a credential makes. -/
def credMessage (cred : UserCredential) (h : cred.Fits) : AuthMessage where
  username := cred.username
  password := cred.password
  username_fits := by have := h.1; omega
  password_fits := by have := h.2; omega

/-- **The credential is listed**: both sides go on to the request. -/
theorem meet_credential {list : List UserCredential} {cred : UserCredential}
    (hu : users = some list) (ha : client.auth = some cred) (hf : cred.Fits) (hm : cred ∈ list) :
    Reachable (meetStep dial) (afterMethod std client users target)
      (atRequest std target (offeredMethods client.auth ++ authRequest cred)
        [0x05, 0x02, 0x01, 0x00]) := by
  subst hu
  refine (client_writes (authenticateUpstream_eq ha)).trans ?_
  refine (Duplex.reachable_right_ret rfl (run_authenticateUser.mpr
    ⟨credMessage cred hf, [], (List.append_nil _).symm, hm, rfl, rfl⟩)).trans ?_
  exact (client_reads ⟨[0x01, 0x00], rfl⟩ [] rfl rfl).trans (.refl _)

theorem meet_no_users (hu : users = none) :
    Reachable (meetStep dial) (afterMethod std client users target)
      (atRequest std target (offeredMethods client.auth) [0x05, 0x00]) := by
  subst hu
  exact .refl _

/-- **A client that is let in gets to the request.** -/
theorem meet_admitted (hf : ∀ cred ∈ client.auth, cred.Fits) (h : Admits users client.auth) :
    ∃ cw sw, Reachable (meetStep dial) (meet std client users target)
      (atRequest std target cw sw) := by
  cases hu : users with
  | none =>
    refine ⟨_, _, (meet_method fun h2 => ?_).trans (meet_no_users rfl)⟩
    exact absurd h2 (by decide)
  | some list =>
    obtain ⟨cred, ha, hm⟩ := h list hu
    refine ⟨_, _, (meet_method fun _ => ?_).trans (meet_credential rfl ha (hf cred ha) hm)⟩
    rw [ha]
    rfl

/-! ### Request and reply -/

theorem requestConnect_eq : requestConnect std target =
    (writeAll (connectRequest std target) >>= fun _ => readExact 4 >>= fun replyHeader =>
      Prog.ensure (replyHeader.get 1 = 0x00) (.upstream
        ("SOCKS5 upstream CONNECT failed: " ++ replyMessage (replyHeader.get 1))) >>= fun _ =>
      skipBindAddress (replyHeader.get 3)) := rfl

theorem run_connect {t' : ConnectTarget} {w : Wire (List UInt8)} {log : List String} :
    Prog.run (Wire.flat.sum (dialer dial)) (Prog.attempt (DirectConnector.connect t') :
      Sys (Except ProxyError Unit)) (w, log) =
      .ret ((dial t'.authority).mapError .io) (w, log ++ [t'.authority]) := by
  have hrun : Prog.run (Wire.flat.sum (dialer dial)) (DirectConnector.connect t') (w, log) =
      Prog.run (Wire.flat.sum (dialer dial)) (Prog.ofExcept .io (dial t'.authority))
        (w, log ++ [t'.authority]) := rfl
  rw [Prog.run_attempt, hrun]
  cases dial t'.authority with
  | ok u => rfl
  | error e => rfl

/-- The request has arrived and the server has dialled. -/
def afterDial (std : IpText) (target : ConnectTarget) (dial : String → Except IoError Unit)
    (cw sw : List UInt8) : Meeting where
  left := readExact 4 >>= fun replyHeader =>
    Prog.ensure (replyHeader.get 1 = 0x00) (.upstream
      ("SOCKS5 upstream CONNECT failed: " ++ replyMessage (replyHeader.get 1))) >>= fun _ =>
    skipBindAddress (replyHeader.get 3)
  right := serveConnect ⟨.connect, wireTarget std target⟩
    ((dial ((wireTarget std target).connectTarget std).authority).mapError .io)
  leftWrote := cw ++ connectRequest std target
  rightWrote := sw
  leftUnread := []
  rightUnread := []
  leftEnv := ()
  rightEnv := [((wireTarget std target).connectTarget std).authority]

theorem meet_dial (hh : (utf8 target.host).length ≤ 255) {cw sw : List UInt8} :
    Reachable (meetStep dial) (atRequest std target cw sw) (afterDial std target dial cw sw) := by
  refine (client_writes requestConnect_eq).trans ?_
  refine (server_runs rfl (run_readRequest.mpr
    ⟨⟨.connect, 0x00, wireTarget std target, wireTarget_fits hh⟩, [], ?_, rfl, rfl, rfl⟩)).trans ?_
  · rw [← connectRequest_eq, List.append_nil]
    rfl
  have hserve : ∀ r : SocksRequest, handleConnect std r =
      (Prog.attempt (DirectConnector.connect (r.target.connectTarget std)) >>= serveConnect r) :=
    fun r => rfl
  exact (server_runs (hserve ⟨.connect, wireTarget std target⟩) run_connect).trans (.refl _)

theorem meet_served {cw sw : List UInt8}
    (hd : dial ((wireTarget std target).connectTarget std).authority = .ok ()) :
    Reachable (meetStep dial) (afterDial std target dial cw sw)
      { left := .ret ()
        right := sys .copyBidirectional >>= fun _ => .ret ()
        leftWrote := cw ++ connectRequest std target
        rightWrote := sw ++ replyBytes 0x00
        leftUnread := []
        rightUnread := []
        leftEnv := ()
        rightEnv := [((wireTarget std target).connectTarget std).authority] } := by
  have hright : (afterDial std target dial cw sw).right =
      (sendReply 0x00 ⟨.connect, wireTarget std target⟩ >>= fun _ =>
        sys .copyBidirectional >>= fun _ => .ret ()) := by
    rw [afterDial, hd]
    rfl
  refine (Duplex.reachable_right_ret hright rfl).trans ?_
  refine (client_reads ⟨[0x05, 0x00, 0x00, 0x01], rfl⟩ [0, 0, 0, 0, 0, 0] rfl rfl).trans ?_
  exact (client_reads ⟨[0, 0, 0, 0, 0, 0], rfl⟩ [] rfl rfl).trans (.refl _)

theorem meet_refused {cw sw : List UInt8} {e : IoError}
    (hd : dial ((wireTarget std target).connectTarget std).authority = .error e) :
    Reachable (meetStep dial) (afterDial std target dial cw sw)
      { left := .fail (.upstream "SOCKS5 upstream CONNECT failed: connection refused")
        right := .ret ()
        leftWrote := cw ++ connectRequest std target
        rightWrote := sw ++ replyBytes 0x05
        leftUnread := [0, 0, 0, 0, 0, 0]
        rightUnread := []
        leftEnv := ()
        rightEnv := [((wireTarget std target).connectTarget std).authority] } := by
  have hright : (afterDial std target dial cw sw).right =
      (sendReply 0x05 ⟨.connect, wireTarget std target⟩ >>= .ret) := by
    rw [afterDial, hd]
    exact (Prog.bind_ret _).symm
  refine (Duplex.reachable_right_ret hright rfl).trans ?_
  exact (client_reads ⟨[0x05, 0x05, 0x00, 0x01], rfl⟩ [0, 0, 0, 0, 0, 0] rfl rfl).trans (.refl _)

/-! ### The ways to be refused -/

/-- **No method in common**: the server wants a credential, the client has none. -/
theorem meet_method_rejected {list : List UserCredential} (hu : users = some list)
    (ha : client.auth = none) :
    Reachable (meetStep dial) (meet std client users target)
      { left := .fail (.socks5 "Upstream SOCKS5 proxy rejected all auth methods")
        right := .fail (.socks5 "No acceptable authentication method")
        leftWrote := [0x05, 0x01, 0x00]
        rightWrote := [0x05, 0xFF]
        leftUnread := []
        rightUnread := []
        leftEnv := ()
        rightEnv := [] } := by
  subst hu
  have hleft := @performSocks5Handshake_eq std client target
  rw [ha] at hleft
  refine (client_writes hleft).trans ?_
  refine (Duplex.reachable_right_fail handleSocks5Inner_eq rfl).trans ?_
  exact (client_reads ⟨[0x05, 0xFF], rfl⟩ [] rfl rfl).trans (.refl _)

/-- **The credential is not listed.** -/
theorem meet_credential_rejected {list : List UserCredential} {cred : UserCredential}
    (hu : users = some list) (ha : client.auth = some cred) (hf : cred.Fits) (hm : cred ∉ list) :
    Reachable (meetStep dial) (afterMethod std client users target)
      { left := .fail .authFailed
        right := .fail (.socks5 "Authentication failed")
        leftWrote := offeredMethods client.auth ++ authRequest cred
        rightWrote := [0x05, 0x02, 0x01, 0x01]
        leftUnread := []
        rightUnread := []
        leftEnv := ()
        rightEnv := [] } := by
  subst hu
  refine (client_writes (authenticateUpstream_eq ha)).trans ?_
  refine (Duplex.reachable_right_fail rfl (run_authenticateUser_reject
    (credMessage cred hf) [] (List.append_nil _).symm hm)).trans ?_
  exact (client_reads ⟨[0x01, 0x01], rfl⟩ [] rfl rfl).trans (.refl _)

/-! ### Every schedule -/

theorem terminal_of {t : Meeting} (hl : Ended t.left) (hr : Ended t.right ∨ Copying t.right) :
    Terminal (meetStep dial) t := by
  intro side
  cases side with
  | left =>
    show (t.left.step _ _).map _ = none
    rcases hl with h | ⟨e, h⟩ <;> rw [h] <;> rfl
  | right =>
    show (t.right.step _ _).map _ = none
    rcases hr with (h | ⟨e, h⟩) | ⟨k, h⟩ <;> rw [h] <;> rfl

/-- **The SOCKS5 client and server agree.**  Whatever the order in which the two
move, they come to the same end, after finitely many steps, with neither
waiting for bytes: the server dials exactly when its setting lets the client in,
what it dials denotes the client's target, the client returns without an error
exactly when the dial went through and the reply said so, and then no byte of
the handshake is left unread. -/
theorem socks5_client_and_server_agree (std : IpText) (hstd : std.Lawful)
    (client : Socks5ProxyConnector) (users : Option (List UserCredential))
    (target : ConnectTarget) (dial : String → Except IoError Unit)
    (hhost : (utf8 target.host).length ≤ 255) (hauth : ∀ cred ∈ client.auth, cred.Fits) :
    ∃ t, Settles (meetStep dial) (meet std client users target) t ∧
      Agreed std client users target dial t := by
  have hden : ∀ addr ∈ [((wireTarget std target).connectTarget std).authority],
      [((wireTarget std target).connectTarget std).authority] = [addr] ∧
        ∃ t', Denotes std t' target ∧ addr = t'.authority := by
    intro addr ha
    obtain rfl := List.mem_singleton.mp ha
    exact ⟨rfl, _, denotes_wireTarget hstd, rfl⟩
  have hsettle : ∀ {t : Meeting}, Reachable (meetStep dial) (meet std client users target) t →
      Agreed std client users target dial t → ∃ t, Settles (meetStep dial)
        (meet std client users target) t ∧ Agreed std client users target dial t := by
    intro t hr ha
    exact ⟨t, Runs.settles (Duplex.commutes _ _) (terminal_of ha.client_ended ha.server_ended) hr,
      ha⟩
  by_cases hadm : Admits users client.auth
  · obtain ⟨cw, sw, hreq⟩ := @meet_admitted std client users target dial hauth hadm
    have hdial := hreq.trans (meet_dial hhost)
    cases hd : dial ((wireTarget std target).connectTarget std).authority with
    | ok u =>
      refine hsettle (hdial.trans (meet_served hd)) ⟨.inl rfl, .inr ⟨_, rfl⟩, ?_, hden, ?_, ?_⟩
      · simp [hadm]
      · simp only [true_iff]
        exact ⟨⟨_, List.mem_singleton.mpr rfl, hd⟩, List.suffix_append _ _⟩
      · exact fun _ => ⟨⟨_, rfl⟩, rfl, rfl⟩
    | error e =>
      refine hsettle (hdial.trans (meet_refused hd)) ⟨.inr ⟨_, rfl⟩, .inl (.inl rfl), ?_, hden,
        ?_, nofun⟩
      · simp [hadm]
      · refine ⟨nofun, ?_⟩
        rintro ⟨⟨addr, ha, hok⟩, -⟩
        rw [List.mem_singleton.mp ha, hd] at hok
        cases hok
  · have hnone : ∀ {t : Meeting}, t.rightEnv = [] →
        (t.rightEnv ≠ [] ↔ Admits users client.auth) := by
      intro t ht
      simp [ht, hadm]
    obtain ⟨list, hu⟩ : ∃ list, users = some list := by
      cases users with
      | none => exact absurd (fun _ h => by cases h) hadm
      | some list => exact ⟨list, rfl⟩
    rcases Option.eq_none_or_eq_some client.auth with ha | ⟨cred, ha⟩
    · refine hsettle (meet_method_rejected hu ha) ⟨.inr ⟨_, rfl⟩, .inl (.inr ⟨_, rfl⟩),
        hnone rfl, nofun, ⟨nofun, ?_⟩, nofun⟩
      rintro ⟨⟨addr, hmem, -⟩, -⟩
      cases hmem
    · have hlist : cred ∉ list := by
        intro hm
        refine hadm fun list' hl => ⟨cred, ha, ?_⟩
        obtain rfl := Option.some.inj (hu.symm.trans hl)
        exact hm
      have hmethod : wantedMethod users = 0x02 → client.auth.isSome := fun _ => by
        rw [ha]
        rfl
      refine hsettle ((meet_method hmethod).trans
        (meet_credential_rejected hu ha (hauth cred ha) hlist))
        ⟨.inr ⟨_, rfl⟩, .inl (.inr ⟨_, rfl⟩), hnone rfl, nofun, ⟨nofun, ?_⟩, nofun⟩
      rintro ⟨⟨addr, hmem, -⟩, -⟩
      cases hmem

end Rounds

theorem socks5_client_and_server_agree_plain :
    ∃ t, Settles (meetStep fun _ => .ok ()) (meet .plain
        ⟨"10.0.0.2:1080", some ⟨"peregrine", "falcon"⟩, false⟩
        (some [⟨"kestrel", "hover"⟩, ⟨"peregrine", "falcon"⟩]) ⟨"127.0.0.1", 8080⟩) t ∧
      Agreed .plain ⟨"10.0.0.2:1080", some ⟨"peregrine", "falcon"⟩, false⟩
        (some [⟨"kestrel", "hover"⟩, ⟨"peregrine", "falcon"⟩]) ⟨"127.0.0.1", 8080⟩
        (fun _ => .ok ()) t :=
  socks5_client_and_server_agree .plain IpText.plain_lawful _ _ _ _ (by decide)
    fun cred h => by
      obtain rfl := Option.some.inj h
      exact ⟨by decide, by decide⟩

end Peregrine
