import Peregrine.Protocol.Socks5.Grammar
import Peregrine.Protocol.Socks5.Session

/-!
# What the SOCKS5 server accepts

The handshake of `handle_socks5_inner` reads the grammar of `Grammar.lean` and
nothing else: on a stream it gets as far as dispatching a command exactly when
the stream starts with an `Opening`, and then it has read the opening and no
byte more.

One lemma per phase (`run_negotiateMethod`, `run_authenticateUser`,
`run_readRequest`) says when the phase returns and what it leaves; they are
stated for a stream whose segment boundaries are forgotten, which
`Wire.respects_flatten` allows.
-/

namespace Peregrine

open Prog (Ends silent)

section Phases

variable {τ : Type} {env : Prog.Handler netSig τ} {w w' : Wire (List UInt8)} {t t' : τ}

theorem run_readField {α : Type} {n : ℕ} {f : Bytes n → Sys α} {a : α} :
    Prog.run (Wire.flat.sum env) (readField n >>= f) (w, t) = .ret a (w', t') ↔
      ∃ (b : Bytes n) (rest : List UInt8), w.input = b.bytes ++ rest ∧
        Prog.run (Wire.flat.sum env) (f b) ({ w with input := rest }, t) = .ret a (w', t') :=
  Wire.run_readExactWithin_eq_ret

theorem selectMethod_ne {users : Option (List UserCredential)} {ms : List UInt8} :
    selectMethod users ms ≠ 0xFF ↔ wantedMethod users ∈ ms := by
  cases users with
  | none => by_cases h : (0x00 : UInt8) ∈ ms <;> simp [selectMethod, wantedMethod, h]
  | some l => by_cases h : (0x02 : UInt8) ∈ ms <;> simp [selectMethod, wantedMethod, h]

theorem selectMethod_of_mem {users : Option (List UserCredential)} {ms : List UInt8}
    (h : wantedMethod users ∈ ms) : selectMethod users ms = wantedMethod users := by
  cases users with
  | none => simpa [selectMethod, wantedMethod] using h
  | some l => simpa [selectMethod, wantedMethod] using h

/-- **Negotiation** returns when the client offers the wanted method, and has
then read the greeting. -/
theorem run_negotiateMethod {users : Option (List UserCredential)} {m : UInt8} :
    Prog.run (Wire.flat.sum env) (negotiateMethod users) (w, t) = .ret m (w', t') ↔
      ∃ (g : Greeting) (rest : List UInt8), w.input = g.bytes ++ rest ∧
        wantedMethod users ∈ g.methods ∧ m = wantedMethod users ∧
        w' = { w with input := rest, output := w.output ++ [0x05, m] } ∧ t' = t := by
  simp only [negotiateMethod, run_readField, Prog.run_ensure_eq_ret, writeAll, Wire.run_writeAll]
  constructor
  · rintro ⟨header, rest, hw, hv, methods, rest', rfl, hs, hr⟩
    obtain ⟨hm, hw'⟩ := Prog.Outcome.ret.inj hr
    obtain ⟨rfl, rfl⟩ := Prod.mk.inj hw'
    have hmem := selectMethod_ne.mp hs
    refine ⟨⟨methods.bytes, by rw [methods.length_eq]; exact (header.get 1).toNat_lt⟩, rest', ?_,
      hmem, ?_, ?_, rfl⟩
    · rw [hw, header.eq_pair, hv, Greeting.bytes, prefixed_eq]
      rfl
    · rw [← hm, selectMethod_of_mem hmem]
    · rw [← hm]
  · rintro ⟨g, rest, hw, hmem, rfl, rfl, rfl⟩
    have hlen := toNat_ofNat_length g.fits
    refine ⟨⟨[0x05, UInt8.ofNat g.methods.length], rfl⟩, g.methods ++ rest, hw, rfl,
      ⟨g.methods, hlen.symm⟩, rest, rfl, selectMethod_ne.mpr hmem, ?_⟩
    simp only [selectMethod_of_mem hmem]
    rfl

theorem run_utf8Field {α : Type} {msg : String} {bs : List UInt8} {f : String → Sys α} {a : α} :
    Prog.run (Wire.flat.sum env) (utf8Field msg bs >>= f) (w, t) = .ret a (w', t') ↔
      ∃ s, bs = utf8 s ∧ Prog.run (Wire.flat.sum env) (f s) (w, t) = .ret a (w', t') := by
  rw [utf8Field]
  cases h : fromUtf8 bs with
  | none =>
    constructor
    · intro hr
      cases hr
    · rintro ⟨s, rfl, -⟩
      rw [fromUtf8_utf8] at h
      cases h
  | some s =>
    have hb := fromUtf8_eq_some.mp h
    constructor
    · intro hr
      exact ⟨s, hb, hr⟩
    · rintro ⟨s', hs', hr⟩
      obtain rfl : s = s' := utf8_inj (hb.symm.trans hs')
      exact hr

/-- **Authentication** returns when the client presents a listed credential,
and has then read the message. -/
theorem run_authenticateUser {users : List UserCredential} :
    Prog.run (Wire.flat.sum env) (authenticateUser users) (w, t) = .ret () (w', t') ↔
      ∃ (m : AuthMessage) (rest : List UInt8), w.input = m.bytes ++ rest ∧
        ⟨m.username, m.password⟩ ∈ users ∧
        w' = { w with input := rest, output := w.output ++ [0x01, 0x00] } ∧ t' = t := by
  simp only [authenticateUser, run_readField, Prog.run_ensure_eq_ret, run_utf8Field, writeAll,
    Wire.run_writeAll, Prog.run_ensure_last, verifyCredentials_eq_true, Prod.mk.injEq]
  constructor
  · rintro ⟨ver, r1, hw, hv, ulen, r2, rfl, user, r3, rfl, plen, r4, rfl, pass, r5, rfl, u', hu,
      p', hp, hmem, rfl, rfl⟩
    have hul : (utf8 u').length < 256 := by
      rw [← hu, user.length_eq]
      exact (ulen.get 0).toNat_lt
    have hpl : (utf8 p').length < 256 := by
      rw [← hp, pass.length_eq]
      exact (plen.get 0).toNat_lt
    refine ⟨⟨u', p', hul, hpl⟩, r5, ?_, hmem, ?_, rfl⟩
    · rw [hw, ver.eq_single, ulen.eq_single, plen.eq_single, hv, AuthMessage.bytes, ← hu, ← hp,
        prefixed_eq, prefixed_eq]
      simp only [List.cons_append, List.nil_append, List.append_assoc]
    · rw [if_pos hmem]
  · rintro ⟨m, rest, hw, hmem, rfl, rfl⟩
    have hul := toNat_ofNat_length m.username_fits
    have hpl := toNat_ofNat_length m.password_fits
    refine ⟨⟨[0x01], rfl⟩, prefixed (utf8 m.username) ++ (prefixed (utf8 m.password) ++ rest), ?_,
      rfl, ⟨[UInt8.ofNat (utf8 m.username).length], rfl⟩,
      utf8 m.username ++ (prefixed (utf8 m.password) ++ rest), rfl, ⟨utf8 m.username, hul.symm⟩,
      prefixed (utf8 m.password) ++ rest, rfl,
      ⟨[UInt8.ofNat (utf8 m.password).length], rfl⟩, utf8 m.password ++ rest, rfl,
      ⟨utf8 m.password, hpl.symm⟩, rest, rfl, m.username, rfl, m.password, rfl, hmem, ?_, rfl⟩
    · rw [hw, AuthMessage.bytes]
      simp only [List.cons_append, List.nil_append, List.append_assoc]
    · rw [if_pos hmem]

theorem run_readField_append {α : Type} {n : ℕ} {f : Bytes n → Sys α} (b : Bytes n)
    (rest : List UInt8) (hw : w.input = b.bytes ++ rest) :
    Prog.run (Wire.flat.sum env) (readField n >>= f) (w, t) =
      Prog.run (Wire.flat.sum env) (f b) ({ w with input := rest }, t) := by
  rw [readField, Wire.run_readExactWithin, Wire.run_readExact, hw, Wire.cut_append]

theorem run_authenticateUser_reject {users : List UserCredential} (m : AuthMessage)
    (rest : List UInt8) (hw : w.input = m.bytes ++ rest)
    (hm : ⟨m.username, m.password⟩ ∉ users) :
    Prog.run (Wire.flat.sum env) (authenticateUser users) (w, t) =
      .fail (.socks5 "Authentication failed")
        ({ w with input := rest, output := w.output ++ [0x01, 0x01] }, t) := by
  have hul := toNat_ofNat_length m.username_fits
  have hpl := toNat_ofNat_length m.password_fits
  have hv : verifyCredentials m.username m.password users = false := by
    rw [← Bool.not_eq_true, verifyCredentials_eq_true]
    exact hm
  have hin : w.input = [0x01] ++ ([UInt8.ofNat (utf8 m.username).length] ++ (utf8 m.username ++
      ([UInt8.ofNat (utf8 m.password).length] ++ (utf8 m.password ++ rest)))) := by
    rw [hw, AuthMessage.bytes]
    simp only [prefixed, List.cons_append, List.nil_append, List.append_assoc]
  refine (run_readField_append ⟨[0x01], rfl⟩ _ hin).trans ?_
  refine (run_readField_append ⟨[UInt8.ofNat (utf8 m.username).length], rfl⟩ _ rfl).trans ?_
  refine (run_readField_append ⟨utf8 m.username, hul.symm⟩ _ rfl).trans ?_
  refine (run_readField_append ⟨[UInt8.ofNat (utf8 m.password).length], rfl⟩ _ rfl).trans ?_
  refine (run_readField_append ⟨utf8 m.password, hpl.symm⟩ _ rfl).trans ?_
  simp only [utf8Field, fromUtf8_utf8, Prog.ret_bind, hv, Bool.false_eq_true, if_false]
  rfl

theorem be16_portOf (b : Bytes 2) : be16 (portOf b) = b.bytes := by
  rw [portOf, be16_ofBe16, b.eq_pair]

theorem run_readAddress {n : ℕ} {mk : Bytes n → UInt16 → TargetAddr} {target : TargetAddr} :
    Prog.run (Wire.flat.sum env)
        (readField n >>= fun addr => readField 2 >>= fun port => .ret (mk addr (portOf port)))
        (w, t) = .ret target (w', t') ↔
      ∃ addr port rest, target = mk addr port ∧ w.input = addr.bytes ++ be16 port ++ rest ∧
        w' = { w with input := rest } ∧ t' = t := by
  simp only [run_readField]
  constructor
  · rintro ⟨addr, r1, hw, port, r2, rfl, hr⟩
    obtain ⟨rfl, hw'⟩ := Prog.Outcome.ret.inj hr
    obtain ⟨rfl, rfl⟩ := Prod.mk.inj hw'
    refine ⟨addr, portOf port, r2, rfl, ?_, rfl, rfl⟩
    rw [hw, be16_portOf, List.append_assoc]
  · rintro ⟨addr, port, rest, rfl, hw, rfl, rfl⟩
    refine ⟨addr, be16 port ++ rest, ?_, ⟨be16 port, rfl⟩, rest, rfl, ?_⟩
    · rw [hw, List.append_assoc]
    · rw [show portOf ⟨be16 port, rfl⟩ = port from ofBe16_be16 port]
      rfl

/-- **The address** of a request is read as it is written. -/
theorem run_readTarget {atyp : UInt8} {target : TargetAddr} :
    Prog.run (Wire.flat.sum env) (readTarget atyp) (w, t) = .ret target (w', t') ↔
      ∃ rest, atyp = target.atyp ∧ target.Fits ∧ w.input = target.bytes ++ rest ∧
        w' = { w with input := rest } ∧ t' = t := by
  unfold readTarget
  split
  · refine run_readAddress.trans ?_
    constructor
    · rintro ⟨addr, port, rest, rfl, hw, rfl, rfl⟩
      exact ⟨rest, rfl, trivial, hw, rfl, rfl⟩
    · rintro ⟨rest, ha, -, hw, rfl, rfl⟩
      cases target with
      | ipv4 addr port => exact ⟨addr, port, rest, rfl, hw, rfl, rfl⟩
      | domain => simp [TargetAddr.atyp] at ha
      | ipv6 => simp [TargetAddr.atyp] at ha
  · simp only [run_readField, run_utf8Field]
    constructor
    · rintro ⟨len, r1, hw, domain, r2, rfl, port, r3, rfl, name, hn, hr⟩
      obtain ⟨rfl, hw'⟩ := Prog.Outcome.ret.inj hr
      obtain ⟨rfl, rfl⟩ := Prod.mk.inj hw'
      refine ⟨r3, rfl, ?_, ?_, rfl, rfl⟩
      · rw [TargetAddr.Fits, ← hn, domain.length_eq]
        exact (len.get 0).toNat_lt
      · rw [hw, TargetAddr.bytes, be16_portOf, ← hn, prefixed_eq, len.eq_single]
        simp only [List.cons_append, List.nil_append, List.append_assoc]
    · rintro ⟨rest, ha, hf, hw, rfl, rfl⟩
      cases target with
      | domain name port =>
        have hlen := toNat_ofNat_length hf
        refine ⟨⟨[UInt8.ofNat (utf8 name).length], rfl⟩, utf8 name ++ (be16 port ++ rest), ?_,
          ⟨utf8 name, hlen.symm⟩, be16 port ++ rest, rfl, ⟨be16 port, rfl⟩, rest, rfl, name, rfl,
          ?_⟩
        · rw [hw, TargetAddr.bytes, List.append_assoc]
          rfl
        · rw [show portOf ⟨be16 port, rfl⟩ = port from ofBe16_be16 port]
          rfl
      | ipv4 => simp [TargetAddr.atyp] at ha
      | ipv6 => simp [TargetAddr.atyp] at ha
  · refine run_readAddress.trans ?_
    constructor
    · rintro ⟨addr, port, rest, rfl, hw, rfl, rfl⟩
      exact ⟨rest, rfl, trivial, hw, rfl, rfl⟩
    · rintro ⟨rest, ha, -, hw, rfl, rfl⟩
      cases target with
      | ipv6 addr port => exact ⟨addr, port, rest, rfl, hw, rfl, rfl⟩
      | domain => simp [TargetAddr.atyp] at ha
      | ipv4 => simp [TargetAddr.atyp] at ha
  · rename_i h1 h3 h4
    constructor
    · intro hr
      cases hr
    · rintro ⟨rest, ha, -⟩
      cases target with
      | ipv4 => exact absurd ha h1
      | domain => exact absurd ha h3
      | ipv6 => exact absurd ha h4

/-- **The request** is read as it is written, whatever its reserved byte. -/
theorem run_readRequest {req : SocksRequest} :
    Prog.run (Wire.flat.sum env) readRequest (w, t) = .ret req (w', t') ↔
      ∃ (r : RequestMessage) (rest : List UInt8), w.input = r.bytes ++ rest ∧ req = r.request ∧
        w' = { w with input := rest } ∧ t' = t := by
  simp only [readRequest, run_readField, Prog.run_ensure_eq_ret]
  constructor
  · rintro ⟨header, r1, hw, hv, hr⟩
    cases hc : SocksCommand.ofByte (header.get 1) with
    | none =>
      rw [hc] at hr
      cases hr
    | some c =>
      rw [hc] at hr
      obtain ⟨target, u, ht, hu⟩ := Prog.run_bind_eq_ret.mp hr
      obtain ⟨rest, ha, hf, hin, hw', ht'⟩ := run_readTarget.mp ht
      obtain ⟨rfl, rfl⟩ := Prog.Outcome.ret.inj hu
      refine ⟨⟨c, header.get 2, target, hf⟩, rest, ?_, rfl, hw', ht'⟩
      have hb := SocksCommand.ofByte_eq_some.mp hc
      simp only at hin
      rw [hw, hin, header.eq_quad, hv, hb, ha]
      rfl
  · rintro ⟨r, rest, hw, rfl, rfl, rfl⟩
    refine ⟨⟨[0x05, r.command.byte, r.rsv, r.target.atyp], rfl⟩, r.target.bytes ++ rest, hw, rfl,
      ?_⟩
    have hc : SocksCommand.ofByte
        (Bytes.get ⟨[0x05, r.command.byte, r.rsv, r.target.atyp], rfl⟩ 1) = some r.command :=
      SocksCommand.ofByte_eq_some.mpr rfl
    rw [hc]
    refine Prog.run_bind_eq_ret.mpr ⟨r.target, _,
      run_readTarget.mpr ⟨rest, rfl, r.fits, rfl, rfl, rfl⟩, ?_⟩
    rfl

/-- What the server writes while it authenticates a client. -/
def authReply (users : Option (List UserCredential)) : List UInt8 :=
  match users with
  | none => []
  | some _ => [0x01, 0x00]

theorem run_authenticateIfRequired {users : Option (List UserCredential)} :
    Prog.run (Wire.flat.sum env) (authenticateIfRequired users (wantedMethod users)) (w, t) =
        .ret () (w', t') ↔
      ∃ (a : List UInt8) (rest : List UInt8), Authenticates users a ∧ w.input = a ++ rest ∧
        w' = { w with input := rest, output := w.output ++ authReply users } ∧ t' = t := by
  cases users with
  | none =>
    constructor
    · intro hr
      obtain ⟨-, hw'⟩ := Prog.Outcome.ret.inj hr
      obtain ⟨rfl, rfl⟩ := Prod.mk.inj hw'
      refine ⟨[], w.input, .noUsers, rfl, ?_, rfl⟩
      rw [authReply, List.append_nil]
    · rintro ⟨a, rest, ⟨⟩, hw, rfl, rfl⟩
      rw [authReply, List.append_nil, show rest = w.input from hw.symm]
      rfl
  | some l =>
    constructor
    · intro hr
      obtain ⟨m, rest, hw, hm, hw', ht⟩ := run_authenticateUser.mp hr
      exact ⟨m.bytes, rest, .listed l m hm, hw, hw', ht⟩
    · rintro ⟨a, rest, ha, hw, hw', ht⟩
      cases ha with
      | listed _ m hm => exact run_authenticateUser.mpr ⟨m, rest, hw, hm, hw', ht⟩

/-- **The handshake returns on openings and on nothing else**, having read the
opening and written the replies of its phases. -/
theorem run_acceptRequest {users : Option (List UserCredential)} {req : SocksRequest} :
    Prog.run (Wire.flat.sum env) (acceptRequest users) (w, t) = .ret req (w', t') ↔
      ∃ (o : Opening users) (rest : List UInt8), w.input = o.bytes ++ rest ∧ req = o.request ∧
        w' = { w with input := rest,
                      output := w.output ++ [0x05, wantedMethod users] ++ authReply users } ∧
        t' = t := by
  rw [acceptRequest, Prog.run_bind_eq_ret]
  constructor
  · rintro ⟨m, ⟨w1, t1⟩, h1, hr⟩
    obtain ⟨g, r1, hw1, hoff, rfl, rfl, rfl⟩ := run_negotiateMethod.mp h1
    obtain ⟨u, ⟨w2, t2⟩, h2, h3⟩ := Prog.run_bind_eq_ret.mp hr
    obtain ⟨a, r2, ha, hw2, rfl, rfl⟩ := run_authenticateIfRequired.mp h2
    obtain ⟨r, rest, hw3, rfl, rfl, rfl⟩ := run_readRequest.mp h3
    refine ⟨⟨g, a, r, hoff, ha⟩, rest, ?_, rfl, rfl, rfl⟩
    simp only at hw2 hw3
    rw [hw1, hw2, hw3, Opening.bytes]
    simp only [List.append_assoc]
  · rintro ⟨o, rest, hw, rfl, rfl, rfl⟩
    have hw1 : w.input = o.greeting.bytes ++ (o.auth ++ (o.message.bytes ++ rest)) := by
      rw [hw, Opening.bytes]
      simp only [List.append_assoc]
    refine ⟨_, (_, _), run_negotiateMethod.mpr ⟨o.greeting, _, hw1, o.offers, rfl, rfl, rfl⟩, ?_⟩
    refine Prog.run_bind_eq_ret.mpr ⟨(), (_, _), run_authenticateIfRequired.mpr
      ⟨o.auth, _, o.authenticates, rfl, rfl, rfl⟩, ?_⟩
    exact run_readRequest.mpr ⟨o.message, rest, rfl, rfl, rfl, rfl⟩

end Phases

/-! ### Segments -/

/-- On the segments `segs`, after which the client may or may not have closed,
`handle_socks5_inner` gets as far as dispatching `req`, and `rest` has not been
read. -/
def ReachesDispatch (users : Option (List UserCredential)) (segs : List (List UInt8))
    (closed : Bool) (req : SocksRequest) (rest : List UInt8) : Prop :=
  ∃ w, Prog.run (Wire.segmented.sum (silent netSig)) (acceptRequest users)
      (⟨segs, closed, []⟩, ()) = .ret req (w, ()) ∧ w.input.flatten = rest

/-- **What `handle_socks5_inner` does from there** is to serve the command; where it does not
get there, it does not return. -/
theorem run_handleSocks5Inner (std : IpText) (users : Option (List UserCredential))
    (segs : List (List UInt8)) (closed : Bool) :
    (∃ req w, ReachesDispatch users segs closed req w.input.flatten ∧
      Prog.run (Wire.segmented.sum (silent netSig)) (handleSocks5Inner std users)
        (⟨segs, closed, []⟩, ()) =
          Prog.run (Wire.segmented.sum (silent netSig)) (dispatch std req) (w, ())) ∨
    (∀ req rest, ¬ ReachesDispatch users segs closed req rest) ∧
      ∀ x, Prog.run (Wire.segmented.sum (silent netSig)) (handleSocks5Inner std users)
        (⟨segs, closed, []⟩, ()) ≠ .ret () x := by
  rw [handleSocks5Inner, Prog.run_bind]
  cases haccept : Prog.run (Wire.segmented.sum (silent netSig)) (acceptRequest users)
      (⟨segs, closed, []⟩, ()) with
  | ret req x => exact Or.inl ⟨req, x.1, ⟨x.1, haccept, rfl⟩, rfl⟩
  | fail e x =>
    refine Or.inr ⟨?_, fun y hy => ?_⟩
    · rintro req rest ⟨w, hw, -⟩
      cases haccept.symm.trans hw
    · cases hy
  | stuck x =>
    refine Or.inr ⟨?_, fun y hy => ?_⟩
    · rintro req rest ⟨w, hw, -⟩
      cases haccept.symm.trans hw
    · cases hy

theorem reachesDispatch_iff_flat {users : Option (List UserCredential)}
    {segs : List (List UInt8)} {closed : Bool} {req : SocksRequest} {rest : List UInt8} :
    ReachesDispatch users segs closed req rest ↔
      ∃ w, Prog.run (Wire.flat.sum (silent netSig)) (acceptRequest users)
        (⟨segs.flatten, closed, []⟩, ()) = .ret req (w, ()) ∧ w.input = rest :=
  Wire.returns_iff_flat

theorem reachesDispatch_iff {users : Option (List UserCredential)} {segs : List (List UInt8)}
    {closed : Bool} {req : SocksRequest} {rest : List UInt8} :
    ReachesDispatch users segs closed req rest ↔
      ∃ o : Opening users, segs.flatten = o.bytes ++ rest ∧ o.request = req := by
  rw [reachesDispatch_iff_flat]
  constructor
  · rintro ⟨w, hw, rfl⟩
    obtain ⟨o, rest, hin, rfl, rfl, -⟩ := run_acceptRequest.mp hw
    exact ⟨o, hin, rfl⟩
  · rintro ⟨o, hin, rfl⟩
    exact ⟨_, run_acceptRequest.mpr ⟨o, rest, hin, rfl, rfl, rfl⟩, rfl⟩

/-! ### The branch without users -/

def noUsersConfigured : ProxyError := .socks5 "Authentication required but no users configured"

theorem prefixed_ne_noUsersConfigured {head : Char} {msg tail : String}
    (hm : msg.toList.head? = some head) (hh : head ≠ 'A') :
    ProxyError.socks5 (msg ++ tail) ≠ noUsersConfigured := by
  intro h
  have hl : (msg ++ tail).toList.head? = some 'A' := by
    rw [ProxyError.socks5.inj h]
    decide
  rw [String.toList_append, List.head?_append, hm, Option.some_or] at hl
  exact hh (Option.some.inj hl)

theorem ofLate_ne_noUsersConfigured (d : Late IoError) :
    ProxyError.ofLate d ≠ noUsersConfigured := by
  cases d with
  | elapsed => exact nofun
  | inner e => exact nofun

theorem ends_readField (n : ℕ) :
    Ends (fun _ => True) (· ≠ noUsersConfigured) (readField n) :=
  Wire.ends_readExactWithin ofLate_ne_noUsersConfigured

theorem ends_writeAll (bs : List UInt8) :
    Ends (fun _ => True) (· ≠ noUsersConfigured) (writeAll bs) :=
  Wire.ends_writeAll fun _ => nofun

theorem ends_utf8Field {msg : String} {bs : List UInt8}
    (hm : ProxyError.socks5 msg ≠ noUsersConfigured) :
    Ends (fun s => bs = utf8 s) (· ≠ noUsersConfigured) (utf8Field msg bs) := by
  rw [utf8Field]
  cases hs : fromUtf8 bs with
  | none => exact hm
  | some s => exact fromUtf8_eq_some.mp hs

theorem ends_negotiateMethod (users : Option (List UserCredential)) :
    Ends (fun m => m = 0x02 → users.isSome) (· ≠ noUsersConfigured) (negotiateMethod users) := by
  refine (ends_readField 2).bind fun header _ => ?_
  refine (Ends.ensure (by decide)).bind fun _ _ => ?_
  refine (ends_readField _).bind fun methods _ => ?_
  refine (ends_writeAll _).bind fun _ _ => ?_
  refine (Ends.ensure (by decide)).bind fun _ hs => ?_
  intro hm
  rw [selectMethod_of_mem (selectMethod_ne.mp hs), wantedMethod] at hm
  by_contra hu
  rw [if_neg hu] at hm
  exact absurd hm (by decide)

theorem ends_authenticateUser (users : List UserCredential) :
    Ends (fun _ => True) (· ≠ noUsersConfigured) (authenticateUser users) := by
  refine (ends_readField 1).bind fun ver _ => ?_
  refine (Ends.ensure (by decide)).bind fun _ _ => ?_
  refine (ends_readField 1).bind fun ulen _ => ?_
  refine (ends_readField _).bind fun username _ => ?_
  refine (ends_readField 1).bind fun plen _ => ?_
  refine (ends_readField _).bind fun password _ => ?_
  refine (ends_utf8Field (by decide)).bind fun u _ => ?_
  refine (ends_utf8Field (by decide)).bind fun p _ => ?_
  refine (ends_writeAll _).bind fun _ _ => ?_
  exact (Ends.ensure (by decide)).mono fun _ _ => trivial

theorem ends_readTarget (atyp : UInt8) :
    Ends TargetAddr.Fits (· ≠ noUsersConfigured) (readTarget atyp) := by
  unfold readTarget
  split
  · exact (ends_readField 4).bind fun _ _ => (ends_readField 2).bind fun _ _ => trivial
  · refine (ends_readField 1).bind fun len _ => ?_
    refine (ends_readField _).bind fun domain _ => ?_
    refine (ends_readField 2).bind fun port _ => ?_
    refine (ends_utf8Field (by decide)).bind fun name hname => ?_
    show (utf8 name).length < 256
    rw [← hname, domain.length_eq]
    exact (len.get 0).toNat_lt
  · exact (ends_readField 16).bind fun _ _ => (ends_readField 2).bind fun _ _ => trivial
  · exact prefixed_ne_noUsersConfigured rfl (by decide)

theorem ends_readRequest :
    Ends (·.target.Fits) (· ≠ noUsersConfigured) readRequest := by
  refine (ends_readField 4).bind fun header _ => ?_
  refine (Ends.ensure (by decide)).bind fun _ _ => ?_
  cases SocksCommand.ofByte (header.get 1) with
  | none => exact prefixed_ne_noUsersConfigured rfl (by decide)
  | some command => exact (ends_readTarget _).bind fun _ ht => ht

/-- **A request that is dispatched has a target that fits**, and no client, in
no world, is told that there are no users. -/
theorem ends_acceptRequest (users : Option (List UserCredential)) :
    Ends (·.target.Fits) (· ≠ noUsersConfigured) (acceptRequest users) := by
  refine (ends_negotiateMethod users).bind fun m hm => ?_
  have hauth : Ends (fun _ => True) (· ≠ noUsersConfigured) (authenticateIfRequired users m) := by
    unfold authenticateIfRequired
    split
    · rename_i h2
      cases users with
      | none => exact absurd (hm h2) (by decide)
      | some l => exact ends_authenticateUser l
    · exact trivial
  exact hauth.bind fun _ _ => ends_readRequest

/-! ### The handshake and its grammar -/

/-- Some part of `s` is a username/password message for an entry of `users`. -/
def PresentsListed (users : List UserCredential) (s : List UInt8) : Prop :=
  ∃ (m : AuthMessage) (before after : List UInt8),
    s = before ++ m.bytes ++ after ∧ ⟨m.username, m.password⟩ ∈ users

theorem Opening.presentsListed {users : List UserCredential} (o : Opening (some users))
    (rest : List UInt8) : PresentsListed users (o.bytes ++ rest) := by
  obtain ⟨g, a, r, ho, ha⟩ := o
  cases ha with
  | listed _ m hm =>
    refine ⟨m, g.bytes, r.bytes ++ rest, ?_, hm⟩
    simp only [Opening.bytes, List.append_assoc]

/-- **The server accepts its grammar.**  On every stream, however it is cut into
segments, the handshake gets to a command, a target and an unread rest exactly
when the stream is an opening for that command and target followed by that
rest.  The decomposition is the only one; with users configured the stream
presents a listed credential; and the branch for a missing list of users is
never taken, in whatever world the server runs. -/
theorem handshake_accepts_exactly_openings (users : Option (List UserCredential)) :
    (∀ segs closed req rest, ReachesDispatch users segs closed req rest ↔
      ∃ o : Opening users, segs.flatten = o.bytes ++ rest ∧ o.request = req) ∧
    (∀ (o o' : Opening users) rest rest', o.bytes ++ rest = o'.bytes ++ rest' →
      o = o' ∧ rest = rest') ∧
    (∀ list segs closed req rest, users = some list →
      ReachesDispatch users segs closed req rest → PresentsListed list segs.flatten) ∧
    ∀ (σ : Type) (world : Prog.Handler sysSig σ) (s s' : σ),
      Prog.run world (acceptRequest users) s ≠ .fail noUsersConfigured s' := by
  refine ⟨fun segs closed req rest => reachesDispatch_iff,
    fun o o' rest rest' h => Opening.bytes_append_inj h, ?_, ?_⟩
  · rintro list segs closed req rest rfl h
    obtain ⟨o, hs, -⟩ := reachesDispatch_iff.mp h
    rw [hs]
    exact o.presentsListed rest
  · intro σ world s s' hr
    exact ((ends_acceptRequest users).of_run s).2 _ _ hr rfl

end Peregrine
