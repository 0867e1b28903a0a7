import Peregrine.PlainText
import Peregrine.Protocol.Socks5.Grammar
import Peregrine.Upstream.Chain

/-!
# What the SOCKS5 client takes for a connection

After its request the client is on the tunnel, so what it reads before has to be
the upstream's replies and nothing else.  `Granted` says what those are: the
method, the answer to the credential where one was asked for, and a reply with
its bind address.

The client reads more than that.  An `UpstreamReply` is what it takes for a
granted connection (`run_socks5Handshake`): it looks neither at the version in
front of the authentication status nor at the one in front of the reply code,
and behind an address type it does not know it reads no address at all.  A reply
where these three are as they should be is `Proper`; on every stream that does
not start with an improper one the client is in step
(`socks5_replies_in_step_iff`).
-/

namespace Peregrine

open Prog (ensure)

/-! ### Replies -/

/-- What follows the method: nothing, or the acceptance of the credential. -/
inductive Accepted (auth : Option UserCredential) : UInt8 → List UInt8 → Prop
  | noAuth : Accepted auth 0x00 []
  | credential (h : auth.isSome) : Accepted auth 0x02 [0x01, 0x00]

/-- The upstream grants the connection in the bytes `s` up to `rest`. -/
def Granted (auth : Option UserCredential) (s rest : List UInt8) : Prop :=
  ∃ m a rsv atyp bnd, Accepted auth m a ∧ AddressBytes atyp bnd ∧
    s = [0x05, m] ++ a ++ [0x05, 0x00, rsv, atyp] ++ bnd ++ rest

/-! ### What the client reads -/

/-- What the client reads behind the method. -/
inductive StatusRead (auth : Option UserCredential) : UInt8 → List UInt8 → Prop
  | noAuth : StatusRead auth 0x00 []
  | credential (version : UInt8) (h : auth.isSome) : StatusRead auth 0x02 [version, 0x00]

/-- What the client reads behind the address type. -/
inductive BindRead : UInt8 → List UInt8 → Prop
  | known {atyp : UInt8} {bnd : List UInt8} (h : AddressBytes atyp bnd) : BindRead atyp bnd
  | unknown {atyp : UInt8} (h1 : atyp ≠ 0x01) (h3 : atyp ≠ 0x03) (h4 : atyp ≠ 0x04) :
    BindRead atyp []

/-- Everything the client reads before it reports success. -/
structure UpstreamReply (auth : Option UserCredential) where
  method : UInt8
  status : List UInt8
  version : UInt8
  rsv : UInt8
  atyp : UInt8
  bnd : List UInt8
  statusRead : StatusRead auth method status
  bindRead : BindRead atyp bnd

namespace UpstreamReply

variable {auth : Option UserCredential}

def bytes (r : UpstreamReply auth) : List UInt8 :=
  [0x05, r.method] ++ r.status ++ [r.version, 0x00, r.rsv, r.atyp] ++ r.bnd

/-- The parts the client does not look at are as they should be. -/
structure Proper (r : UpstreamReply auth) : Prop where
  status : r.status = [] ∨ r.status = [0x01, 0x00]
  version : r.version = 0x05
  atyp : r.atyp = 0x01 ∨ r.atyp = 0x03 ∨ r.atyp = 0x04

end UpstreamReply

/-- **A proper reply grants the connection**, and nothing else does. -/
theorem granted_iff {auth : Option UserCredential} {s rest : List UInt8} :
    Granted auth s rest ↔ ∃ r : UpstreamReply auth, r.Proper ∧ s = r.bytes ++ rest := by
  constructor
  · rintro ⟨m, a, rsv, atyp, bnd, ha, hb, rfl⟩
    have hatyp : atyp = 0x01 ∨ atyp = 0x03 ∨ atyp = 0x04 := by
      cases hb with
      | ipv4 => exact Or.inl rfl
      | domain => exact Or.inr (Or.inl rfl)
      | ipv6 => exact Or.inr (Or.inr rfl)
    cases ha with
    | noAuth =>
      exact ⟨⟨_, [], 0x05, rsv, atyp, bnd, .noAuth, .known hb⟩, ⟨Or.inl rfl, rfl, hatyp⟩, rfl⟩
    | credential h =>
      exact ⟨⟨_, _, 0x05, rsv, atyp, bnd, .credential 0x01 h, .known hb⟩,
        ⟨Or.inr rfl, rfl, hatyp⟩, rfl⟩
  · rintro ⟨⟨m, a, version, rsv, atyp, bnd, ha, hb⟩, ⟨hstatus, hversion, hatyp⟩, rfl⟩
    obtain rfl : version = 0x05 := hversion
    have hbind : AddressBytes atyp bnd := by
      cases hb with
      | known h => exact h
      | unknown h1 h3 h4 =>
        rcases hatyp with h | h | h
        · exact absurd h h1
        · exact absurd h h3
        · exact absurd h h4
    have hacc : Accepted auth m a := by
      cases ha with
      | noAuth => exact .noAuth
      | credential version h =>
        rcases hstatus with hs | hs
        · cases hs
        · cases hs
          exact .credential h
    exact ⟨m, a, rsv, atyp, bnd, hacc, hbind, rfl⟩

/-! ### A reply is cut off in one way -/

theorem StatusRead.append_inj {auth : Option UserCredential} {m : UInt8}
    {a a' r r' : List UInt8} (ha : StatusRead auth m a) (ha' : StatusRead auth m a')
    (h : a ++ r = a' ++ r') : a = a' ∧ r = r' := by
  cases ha with
  | noAuth =>
    cases ha' with
    | noAuth => exact ⟨rfl, h⟩
  | credential version _ =>
    cases ha' with
    | credential version' _ => exact List.append_inj h rfl

theorem BindRead.append_inj {atyp : UInt8} {b b' r r' : List UInt8} (hb : BindRead atyp b)
    (hb' : BindRead atyp b') (h : b ++ r = b' ++ r') : b = b' ∧ r = r' := by
  cases hb with
  | unknown h1 h3 h4 =>
    cases hb' with
    | unknown => exact ⟨rfl, h⟩
    | known hk =>
      cases hk with
      | ipv4 => exact absurd rfl h1
      | domain => exact absurd rfl h3
      | ipv6 => exact absurd rfl h4
  | known hk =>
    cases hb' with
    | unknown h1 h3 h4 =>
      cases hk with
      | ipv4 => exact absurd rfl h1
      | domain => exact absurd rfl h3
      | ipv6 => exact absurd rfl h4
    | known hk' =>
      cases hk with
      | ipv4 hl =>
        cases hk' with
        | ipv4 hl' => exact List.append_inj h (hl.trans hl'.symm)
      | ipv6 hl =>
        cases hk' with
        | ipv6 hl' => exact List.append_inj h (hl.trans hl'.symm)
      | domain hl =>
        cases hk' with
        | domain hl' =>
          obtain ⟨rfl, ht⟩ := List.cons.inj h
          obtain ⟨rfl, hr⟩ := List.append_inj ht (hl.trans hl'.symm)
          exact ⟨rfl, hr⟩

theorem UpstreamReply.bytes_append_inj {auth : Option UserCredential} {r r' : UpstreamReply auth}
    {s s' : List UInt8} (h : r.bytes ++ s = r'.bytes ++ s') : r = r' ∧ s = s' := by
  obtain ⟨m, a, version, rsv, atyp, bnd, ha, hb⟩ := r
  obtain ⟨m', a', version', rsv', atyp', bnd', ha', hb'⟩ := r'
  simp only [bytes, List.cons_append, List.nil_append, List.append_assoc, List.cons.injEq,
    true_and] at h
  obtain ⟨rfl, htail⟩ := h
  obtain ⟨rfl, hreply⟩ := ha.append_inj ha' htail
  simp only [List.cons.injEq, true_and] at hreply
  obtain ⟨rfl, rfl, rfl, hbnd⟩ := hreply
  obtain ⟨rfl, rfl⟩ := hb.append_inj hb' hbnd
  exact ⟨rfl, rfl⟩

/-! ### The phases of the handshake -/

/-- What is written behind the greeting, for a method. -/
def credentialWritten (auth : Option UserCredential) (method : UInt8) : List UInt8 :=
  if method = 0x02 then (auth.map authRequest).getD [] else []

section Phases

variable {τ : Type} {env : Prog.Handler netSig τ} {std : IpText} {auth : Option UserCredential}
  {target : ConnectTarget} {w w' : Wire (List UInt8)} {t t' : τ}

/-- **The method** is the byte behind the version. -/
theorem run_offerMethods {m : UInt8} :
    Prog.run (Wire.flat.sum env) (offerMethods auth) (w, t) = .ret m (w', t') ↔
      ∃ rest, w.input = [0x05, m] ++ rest ∧
        w' = { w with input := rest, output := w.output ++ offeredMethods auth } ∧ t' = t := by
  simp only [offerMethods, writeAll, readExact, Wire.run_writeAll, Wire.run_readExact_eq_ret,
    Prog.run_ensure_eq_ret]
  constructor
  · rintro ⟨resp, rest, hw, hv, hr⟩
    obtain ⟨rfl, hw'⟩ := Prog.Outcome.ret.inj hr
    obtain ⟨rfl, rfl⟩ := Prod.mk.inj hw'
    refine ⟨rest, ?_, rfl, rfl⟩
    rw [hw, resp.eq_pair, hv]
  · rintro ⟨rest, hw, rfl, rfl⟩
    exact ⟨⟨[0x05, m], rfl⟩, rest, hw, rfl, rfl⟩

/-- **The answer to the credential** is read where the method asks for one; its
version is not looked at. -/
theorem run_authenticateUpstream {m : UInt8} :
    Prog.run (Wire.flat.sum env) (authenticateUpstream auth m) (w, t) = .ret () (w', t') ↔
      ∃ a rest, StatusRead auth m a ∧ w.input = a ++ rest ∧
        w' = { w with input := rest, output := w.output ++ credentialWritten auth m } ∧
        t' = t := by
  unfold authenticateUpstream
  by_cases h0 : m = 0x00
  · subst h0
    rw [if_pos rfl]
    constructor
    · intro hr
      obtain ⟨-, hw'⟩ := Prog.Outcome.ret.inj hr
      obtain ⟨rfl, rfl⟩ := Prod.mk.inj hw'
      refine ⟨[], w.input, .noAuth, rfl, ?_, rfl⟩
      rw [credentialWritten, if_neg (by decide), List.append_nil]
    · rintro ⟨a, rest, ⟨⟩, hw, rfl, rfl⟩
      rw [credentialWritten, if_neg (by decide), List.append_nil, show rest = w.input from hw.symm]
      rfl
  · rw [if_neg h0]
    by_cases h2 : m = 0x02
    · subst h2
      rw [if_pos rfl]
      cases auth with
      | none =>
        constructor
        · intro hr
          cases hr
        · rintro ⟨a, rest, ha, -⟩
          cases ha with
          | credential _ h => cases h
      | some cred =>
        simp only [presentCredential, writeAll, readExact, Wire.run_writeAll,
          Wire.run_readExact_eq_ret, Prog.run_ensure_last]
        constructor
        · rintro ⟨resp, rest, hw, hs, hw'⟩
          obtain ⟨rfl, rfl⟩ := Prod.mk.inj hw'
          refine ⟨_, rest, .credential (resp.get 0) rfl, ?_, rfl, rfl⟩
          rw [hw, resp.eq_pair, hs]
        · rintro ⟨a, rest, ha, hw, rfl, rfl⟩
          cases ha with
          | credential version _ => exact ⟨⟨[version, 0x00], rfl⟩, rest, hw, rfl, rfl⟩
    · rw [if_neg h2]
      constructor
      · intro hr
        split at hr
        · cases hr
        · cases hr
      · rintro ⟨a, rest, ha, -⟩
        cases ha with
        | noAuth => exact absurd rfl h0
        | credential => exact absurd rfl h2

theorem run_skip {n : ℕ} :
    Prog.run (Wire.flat.sum env) (readExact n >>= fun _ => .ret ()) (w, t) = .ret () (w', t') ↔
      ∃ bnd rest, bnd.length = n ∧ w.input = bnd ++ rest ∧ w' = { w with input := rest } ∧
        t' = t := by
  rw [readExact, Wire.run_readExact_eq_ret]
  constructor
  · rintro ⟨b, rest, hw, hr⟩
    obtain ⟨-, hw'⟩ := Prog.Outcome.ret.inj hr
    obtain ⟨rfl, rfl⟩ := Prod.mk.inj hw'
    exact ⟨b.bytes, rest, b.length_eq, hw, rfl, rfl⟩
  · rintro ⟨bnd, rest, hl, hw, rfl, rfl⟩
    exact ⟨⟨bnd, hl⟩, rest, hw, rfl⟩

/-- **The bind address** is read as its type says, and nothing is read for a
type that is not known. -/
theorem run_skipBindAddress {atyp : UInt8} :
    Prog.run (Wire.flat.sum env) (skipBindAddress atyp) (w, t) = .ret () (w', t') ↔
      ∃ bnd rest, BindRead atyp bnd ∧ w.input = bnd ++ rest ∧ w' = { w with input := rest } ∧
        t' = t := by
  unfold skipBindAddress
  split
  · refine run_skip.trans ?_
    constructor
    · rintro ⟨bnd, rest, hl, h⟩
      exact ⟨bnd, rest, .known (.ipv4 hl), h⟩
    · rintro ⟨bnd, rest, hb, h⟩
      cases hb with
      | known hk =>
        cases hk with
        | ipv4 hl => exact ⟨bnd, rest, hl, h⟩
      | unknown h1 => exact absurd rfl h1
  · rw [readExact, Wire.run_readExact_eq_ret]
    constructor
    · rintro ⟨len, rest, hw, hr⟩
      obtain ⟨bnd, rest', hl, hin, rfl, rfl⟩ := run_skip.mp hr
      refine ⟨len.get 0 :: bnd, rest', .known (.domain hl), ?_, rfl, rfl⟩
      simp only at hin
      rw [hw, hin, len.eq_single]
      rfl
    · rintro ⟨bnd, rest, hb, hw, rfl, rfl⟩
      cases hb with
      | known hk =>
        cases hk with
        | @domain len bnd hl =>
          exact ⟨⟨[len], rfl⟩, bnd ++ rest, hw, run_skip.mpr ⟨bnd, rest, hl, rfl, rfl, rfl⟩⟩
      | unknown _ h3 => exact absurd rfl h3
  · refine run_skip.trans ?_
    constructor
    · rintro ⟨bnd, rest, hl, h⟩
      exact ⟨bnd, rest, .known (.ipv6 hl), h⟩
    · rintro ⟨bnd, rest, hb, h⟩
      cases hb with
      | known hk =>
        cases hk with
        | ipv6 hl => exact ⟨bnd, rest, hl, h⟩
      | unknown _ _ h4 => exact absurd rfl h4
  · rename_i h1 h3 h4
    constructor
    · intro hr
      obtain ⟨-, hw'⟩ := Prog.Outcome.ret.inj hr
      obtain ⟨rfl, rfl⟩ := Prod.mk.inj hw'
      exact ⟨[], w.input, .unknown h1 h3 h4, rfl, rfl, rfl⟩
    · rintro ⟨bnd, rest, hb, hw, rfl, rfl⟩
      cases hb with
      | known hk =>
        cases hk with
        | ipv4 => exact absurd rfl h1
        | domain => exact absurd rfl h3
        | ipv6 => exact absurd rfl h4
      | unknown =>
        rw [show rest = w.input from hw.symm]
        rfl

/-- **The reply** is read up to its bind address; its version is not looked at. -/
theorem run_requestConnect :
    Prog.run (Wire.flat.sum env) (requestConnect std target) (w, t) = .ret () (w', t') ↔
      ∃ version rsv atyp bnd rest, BindRead atyp bnd ∧
        w.input = [version, 0x00, rsv, atyp] ++ bnd ++ rest ∧
        w' = { w with input := rest, output := w.output ++ connectRequest std target } ∧
        t' = t := by
  simp only [requestConnect, writeAll, readExact, Wire.run_writeAll, Wire.run_readExact_eq_ret,
    Prog.run_ensure_eq_ret]
  constructor
  · rintro ⟨header, r1, hw, hrep, hr⟩
    obtain ⟨bnd, rest, hb, hin, rfl, rfl⟩ := run_skipBindAddress.mp hr
    refine ⟨header.get 0, header.get 2, header.get 3, bnd, rest, hb, ?_, rfl, rfl⟩
    simp only at hin
    rw [hw, hin, header.eq_quad, hrep, List.append_assoc]
  · rintro ⟨version, rsv, atyp, bnd, rest, hb, hw, rfl, rfl⟩
    refine ⟨⟨[version, 0x00, rsv, atyp], rfl⟩, bnd ++ rest, ?_, rfl, ?_⟩
    · rw [hw, List.append_assoc]
    · exact run_skipBindAddress.mpr ⟨bnd, rest, hb, rfl, rfl, rfl⟩

/-- **The handshake succeeds on `UpstreamReply`s and on nothing else**, having
read the reply and written its three messages. -/
theorem run_socks5Handshake :
    Prog.run (Wire.flat.sum env) (socks5Handshake std auth target) (w, t) = .ret () (w', t') ↔
      ∃ (r : UpstreamReply auth) (rest : List UInt8), w.input = r.bytes ++ rest ∧
        w' = { w with input := rest,
                      output := w.output ++ offeredMethods auth ++
                        credentialWritten auth r.method ++ connectRequest std target } ∧
        t' = t := by
  rw [socks5Handshake, Prog.run_bind_eq_ret]
  constructor
  · rintro ⟨m, ⟨w1, t1⟩, h1, hr⟩
    obtain ⟨r1, hw1, rfl, rfl⟩ := run_offerMethods.mp h1
    obtain ⟨u, ⟨w2, t2⟩, h2, h3⟩ := Prog.run_bind_eq_ret.mp hr
    obtain ⟨a, r2, ha, hw2, rfl, rfl⟩ := run_authenticateUpstream.mp h2
    obtain ⟨version, rsv, atyp, bnd, rest, hb, hw3, rfl, rfl⟩ := run_requestConnect.mp h3
    refine ⟨⟨m, a, version, rsv, atyp, bnd, ha, hb⟩, rest, ?_, rfl, rfl⟩
    simp only at hw2 hw3
    rw [hw1, hw2, hw3, UpstreamReply.bytes]
    simp only [List.append_assoc]
  · rintro ⟨r, rest, hw, rfl, rfl⟩
    have hw1 : w.input = [0x05, r.method] ++
        (r.status ++ ([r.version, 0x00, r.rsv, r.atyp] ++ r.bnd ++ rest)) := by
      rw [hw, UpstreamReply.bytes]
      simp only [List.append_assoc]
    refine ⟨_, (_, _), run_offerMethods.mpr ⟨_, hw1, rfl, rfl⟩, ?_⟩
    refine Prog.run_bind_eq_ret.mpr ⟨(), (_, _),
      run_authenticateUpstream.mpr ⟨_, _, r.statusRead, rfl, rfl, rfl⟩, ?_⟩
    exact run_requestConnect.mpr ⟨_, _, _, _, rest, r.bindRead, rfl, rfl, rfl⟩

end Phases

/-! ### In step -/

/-- The handshake `p` succeeds where the connection is granted, with the tunnel
as the unread rest, and on any other stream it fails. -/
structure InStep (auth : Option UserCredential) (p : Sys Unit) (segs : List (List UInt8))
    (closed : Bool) : Prop where
  returns : ∀ rest, Wire.Returns p segs closed () rest ↔ Granted auth segs.flatten rest
  fails : closed = true → (∀ rest, ¬ Granted auth segs.flatten rest) → Wire.Fails p segs closed

theorem returns_socks5Handshake {std : IpText} {auth : Option UserCredential}
    {target : ConnectTarget} {segs : List (List UInt8)} {closed : Bool} {rest : List UInt8} :
    Wire.Returns (socks5Handshake std auth target) segs closed () rest ↔
      ∃ r : UpstreamReply auth, segs.flatten = r.bytes ++ rest := by
  rw [Wire.returns_iff_flat]
  constructor
  · rintro ⟨w, hw, rfl⟩
    obtain ⟨r, rest, hin, rfl, -⟩ := run_socks5Handshake.mp hw
    exact ⟨r, hin⟩
  · rintro ⟨r, hin⟩
    exact ⟨_, run_socks5Handshake.mpr ⟨r, rest, hin, rfl, rfl⟩, rfl⟩

theorem onStream_socks5Handshake (std : IpText) (auth : Option UserCredential)
    (target : ConnectTarget) : Wire.OnStream (socks5Handshake std auth target) :=
  calls_socks5Handshake (fun _ => rfl) rfl (fun _ _ => rfl) rfl

theorem inStep_iff {std : IpText} {auth : Option UserCredential} {target : ConnectTarget}
    {segs : List (List UInt8)} {closed : Bool} :
    InStep auth (socks5Handshake std auth target) segs closed ↔
      ∀ (r : UpstreamReply auth) (rest : List UInt8), segs.flatten = r.bytes ++ rest →
        r.Proper := by
  constructor
  · intro h r rest hs
    have hreturns := (h.returns rest).mp (returns_socks5Handshake.mpr ⟨r, hs⟩)
    obtain ⟨r', hp, hs'⟩ := granted_iff.mp hreturns
    obtain ⟨rfl, -⟩ := UpstreamReply.bytes_append_inj (hs.symm.trans hs')
    exact hp
  · intro h
    have hret : ∀ rest, Wire.Returns (socks5Handshake std auth target) segs closed () rest ↔
        Granted auth segs.flatten rest := by
      intro rest
      rw [returns_socks5Handshake, granted_iff]
      constructor
      · rintro ⟨r, hs⟩
        exact ⟨r, h r rest hs, hs⟩
      · rintro ⟨r, -, hs⟩
        exact ⟨r, hs⟩
    refine ⟨hret, ?_⟩
    intro hc hnone
    rcases @Wire.returns_or_fails _ _ _ _ segs closed (onStream_socks5Handshake std auth target) hc
      with ⟨⟨⟩, rest, hr⟩ | hf
    · exact absurd ((hret rest).mp hr) (hnone rest)
    · exact hf

/-- **The client is in step unless the reply is improper.**  Both handshakes
succeed exactly where the connection is granted, with exactly the tunnel unread,
and fail on every other stream, if and only if the stream does not start with
one of the replies they take for granted though it has another version in front
of the authentication status than 1, another version in front of the reply code
than 5, or a bind address of unknown type. -/
theorem socks5_replies_in_step_iff (std : IpText) (auth : Option UserCredential)
    (target : ConnectTarget) (segs : List (List UInt8)) (closed : Bool) :
    (∀ addr useTls, InStep auth
        (Socks5ProxyConnector.performSocks5Handshake std ⟨addr, auth, useTls⟩ target) segs closed ↔
      ∀ (r : UpstreamReply auth) (rest : List UInt8), segs.flatten = r.bytes ++ rest →
        r.Proper) ∧
    ∀ useTls, InStep auth (performSocks5Handshake std auth useTls target) segs closed ↔
      ∀ (r : UpstreamReply auth) (rest : List UInt8), segs.flatten = r.bytes ++ rest →
        r.Proper :=
  ⟨fun _ _ => inStep_iff, fun _ => inStep_iff⟩

/-- An upstream that answers the request with version 4 and address type 0: the
client takes the first bytes of a bind address for the tunnel's. -/
theorem socks5_reply_out_of_step :
    ¬ InStep none
      (Socks5ProxyConnector.performSocks5Handshake .plain ⟨"192.0.2.7:1080", none, false⟩
        ⟨"example.com", 443⟩) [[0x05, 0x00], [0x04, 0x00, 0x00, 0x00, 127, 0, 0, 1, 0, 80]]
      true := by
  intro h
  have hproper := inStep_iff.mp h
    ⟨0x00, [], 0x04, 0x00, 0x00, [], .noAuth, .unknown (by decide) (by decide) (by decide)⟩
    [127, 0, 0, 1, 0, 80] rfl
  exact absurd hproper.version (by decide)

end Peregrine
