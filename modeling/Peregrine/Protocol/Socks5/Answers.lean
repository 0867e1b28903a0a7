import Peregrine.PlainText
import Peregrine.Protocol.Socks5.Accept

/-!
# What the SOCKS5 server answers

Each message of a client calls for one answer: the greeting for the method, the
username/password message for a status, and the request for a reply, which has
to be on its way before the connection is closed or relayed.  `Answered` says
what the server has to have written, from the messages alone, and `Unanswered`
lists the messages it says nothing to: credentials and names that are not
UTF-8, commands and address types it does not know, and a UDP ASSOCIATE whose
socket cannot be opened.  `complete_messages_answered_iff` says these are all.

What the operating system answers is an `Outside`.  A relay that is not over yet
leaves the run where it started relaying, so what has been written by then was
written before.
-/

namespace Peregrine

open Prog (ensure Calls)

/-! ### The world outside the connection -/

/-- What the operating system answers a connection; a relay may go on for ever. -/
structure Outside where
  dial : String → Except IoError Unit
  bind : Except IoError Unit
  localAddr : Except IoError SocketAddr
  copied : Option (Except IoError Unit)
  relayed : Option (Except ProxyError Unit)

def Outside.handler (o : Outside) : Prog.Handler netSig Unit
  | .tcpConnect addr, t => some (o.dial addr, t)
  | .udpBind _, t => some (o.bind, t)
  | .localAddr, t => some (o.localAddr, t)
  | .copyBidirectional, t => o.copied.map (·, t)
  | .relayLoop, t => o.relayed.map (·, t)
  | _, _ => none

def Outside.Serves (o : Outside) (std : IpText) (req : SocksRequest) : Prop :=
  match req.command with
  | .connect => o.dial (req.target.connectTarget std).authority = .ok ()
  | .udpAssociate => o.bind = .ok () ∧ ∃ addr, o.localAddr = .ok addr
  | .bind => False

/-- What the server has written by the end of a run, or by where it waits. -/
def written {α : Type} (h : Prog.Handler sysSig (Wire (List UInt8) × Unit)) (p : Sys α)
    (w : Wire (List UInt8)) : List UInt8 :=
  (Prog.run h p (w, ())).world.1.output

/-! ### Messages and their answers -/

/-- The username/password message, whatever bytes it has for the two. -/
structure RawAuthMessage where
  username : List UInt8
  password : List UInt8
  username_fits : username.length < 256
  password_fits : password.length < 256

def RawAuthMessage.bytes (m : RawAuthMessage) : List UInt8 :=
  0x01 :: (prefixed m.username ++ prefixed m.password)

/-- A request, as far as it has to be read to be answered: an unsupported
command or address type needs no address. -/
inductive RequestBytes : List UInt8 → Prop
  | command {cmd rsv atyp : UInt8} (h : SocksCommand.ofByte cmd = none) :
    RequestBytes [0x05, cmd, rsv, atyp]
  | atyp {cmd rsv atyp : UInt8} {c : SocksCommand} (h : SocksCommand.ofByte cmd = some c)
    (h1 : atyp ≠ 0x01) (h3 : atyp ≠ 0x03) (h4 : atyp ≠ 0x04) : RequestBytes [0x05, cmd, rsv, atyp]
  | address {cmd rsv atyp : UInt8} {c : SocksCommand} {addr : List UInt8}
    (h : SocksCommand.ofByte cmd = some c) (ha : AddressBytes atyp addr) :
    RequestBytes ([0x05, cmd, rsv, atyp] ++ addr)

/-- Exactly one reply, which reports success only where that is so. -/
def IsReply (served : Prop) (out : List UInt8) : Prop :=
  ∃ rep atyp bnd, out = [0x05, rep, 0x00, atyp] ++ bnd ∧ AddressBytes atyp bnd ∧
    (rep = 0x00 → served)

section

variable (o : Outside) (std : IpText)

/-- The request in the stream is well formed, and its command is being served. -/
def ServesRequestOf (s : List UInt8) : Prop :=
  ∃ (m : RequestMessage) (rest : List UInt8), s = m.bytes ++ rest ∧ o.Serves std m.request

/-- A complete request is answered by one reply, and nothing else is. -/
structure RequestAnswered (s out : List UInt8) : Prop where
  complete : ∀ r rest, s = r ++ rest → RequestBytes r → IsReply (ServesRequestOf o std s) out
  partly : (¬ ∃ r rest, s = r ++ rest ∧ RequestBytes r) → out = []

/-- A complete username/password message is answered by one status, and the
request behind it only if that status is 0. -/
structure CredentialAnswered (list : List UserCredential) (s out : List UInt8) : Prop where
  complete : ∀ (m : RawAuthMessage) rest, s = m.bytes ++ rest →
    ∃ status out', out = [0x01, status] ++ out' ∧
      (status = 0x00 → (∃ cred ∈ list, utf8 cred.username = m.username ∧
        utf8 cred.password = m.password) ∧ RequestAnswered o std rest out') ∧
      (status ≠ 0x00 → out' = [])
  partly : (¬ ∃ (m : RawAuthMessage) (rest : List UInt8), s = m.bytes ++ rest) → out = []

/-- A complete greeting is answered by one method, and what the method asks for
behind it in turn. -/
structure Answered (users : Option (List UserCredential)) (s out : List UInt8) : Prop where
  complete : ∀ (g : Greeting) rest, s = g.bytes ++ rest →
    ∃ method out', out = [0x05, method] ++ out' ∧
      (method = 0x00 → RequestAnswered o std rest out') ∧
      (method = 0x02 → ∃ list, users = some list ∧ CredentialAnswered o std list rest out') ∧
      (method ≠ 0x00 → method ≠ 0x02 → out' = [])
  partly : (¬ ∃ (g : Greeting) (rest : List UInt8), s = g.bytes ++ rest) → out = []

/-! ### Messages without an answer -/

/-- A complete request to which nothing is said. -/
inductive UnansweredRequest : List UInt8 → Prop
  | command {cmd rsv atyp : UInt8} {rest : List UInt8} (h : SocksCommand.ofByte cmd = none) :
    UnansweredRequest ([0x05, cmd, rsv, atyp] ++ rest)
  | atyp {cmd rsv atyp : UInt8} {c : SocksCommand} {rest : List UInt8}
    (h : SocksCommand.ofByte cmd = some c) (h1 : atyp ≠ 0x01) (h3 : atyp ≠ 0x03)
    (h4 : atyp ≠ 0x04) : UnansweredRequest ([0x05, cmd, rsv, atyp] ++ rest)
  | domain {cmd rsv len : UInt8} {c : SocksCommand} {name port rest : List UInt8}
    (h : SocksCommand.ofByte cmd = some c) (hlen : name.length = len.toNat)
    (hport : port.length = 2) (hname : fromUtf8 name = none) :
    UnansweredRequest ([0x05, cmd, rsv, 0x03] ++ (len :: (name ++ port)) ++ rest)
  | relaySocket (m : RequestMessage) {rest : List UInt8} (h : m.command = .udpAssociate)
    (ho : ¬ o.Serves std m.request) : UnansweredRequest (m.bytes ++ rest)

/-- The server comes to a complete message to which it says nothing. -/
inductive Unanswered (users : Option (List UserCredential)) : List UInt8 → Prop
  | credential {list : List UserCredential} (hu : users = some list) (g : Greeting)
    (hoffer : 0x02 ∈ g.methods) (m : RawAuthMessage) {rest : List UInt8}
    (hm : fromUtf8 m.username = none ∨ fromUtf8 m.password = none) :
    Unanswered users (g.bytes ++ (m.bytes ++ rest))
  | request (g : Greeting) (hoffer : wantedMethod users ∈ g.methods) {auth : List UInt8}
    (ha : Authenticates users auth) {s : List UInt8} (h : UnansweredRequest o std s) :
    Unanswered users (g.bytes ++ (auth ++ s))

end

/-! ### Phases that write nothing -/

section Quiet

variable {α β : Type} {h : Prog.Handler netSig Unit} {w : Wire (List UInt8)}

/-- The run of `p` ends without a result, and nothing has been written. -/
def Quiet (h : Prog.Handler netSig Unit) (p : Sys α) (w : Wire (List UInt8)) : Prop :=
  written (Wire.flat.sum h) p w = w.output ∧
    ∀ a s, Prog.run (Wire.flat.sum h) p (w, ()) ≠ .ret a s

theorem Quiet.bind {p : Sys α} (hp : Quiet h p w) (f : α → Sys β) : Quiet h (p >>= f) w := by
  obtain ⟨hout, hret⟩ := hp
  rw [Quiet, written, Prog.run_bind]
  cases hrun : Prog.run (Wire.flat.sum h) p (w, ()) with
  | ret a s => exact absurd hrun (hret a s)
  | fail e s =>
    rw [written, hrun] at hout
    exact ⟨hout, fun _ _ hr => (by cases hr)⟩
  | stuck s =>
    rw [written, hrun] at hout
    exact ⟨hout, fun _ _ hr => (by cases hr)⟩

theorem written_eq_append (p : Sys α) (w : Wire (List UInt8)) :
    written (Wire.flat.sum h) p w =
      w.output ++ written (Wire.flat.sum h) p { w with output := [] } := by
  have hmap := Prog.run_map ((Wire.respects_output w.output).sum h) p ({ w with output := [] }, ())
  rw [List.append_nil] at hmap
  rw [written, show (w, ()) = ({ w with output := w.output }, ()) from rfl, hmap, written]
  cases Prog.run (Wire.flat.sum h) p ({ w with output := [] }, ()) <;> rfl

theorem written_bind_ret {p : Sys α} {f : α → Sys β} {a : α} {w' : Wire (List UInt8)}
    (hp : Prog.run (Wire.flat.sum h) p (w, ()) = .ret a (w', ())) :
    written (Wire.flat.sum h) (p >>= f) w = written (Wire.flat.sum h) (f a) w' := by
  rw [written, Prog.run_bind, hp]
  rfl

theorem written_bind_fail {p : Sys α} {f : α → Sys β} {e : ProxyError} {w' : Wire (List UInt8)}
    (hp : Prog.run (Wire.flat.sum h) p (w, ()) = .fail e (w', ())) :
    written (Wire.flat.sum h) (p >>= f) w = w'.output := by
  rw [written, Prog.run_bind, hp]
  rfl

theorem quiet_fail (e : ProxyError) : Quiet h (Prog.fail e : Sys α) w :=
  ⟨rfl, fun _ _ hr => (by cases hr)⟩

theorem quiet_readField {n : ℕ} {f : Bytes n → Sys α}
    (hf : ∀ (b : Bytes n) (rest : List UInt8), w.input = b.bytes ++ rest →
      Quiet h (f b) { w with input := rest }) : Quiet h (readField n >>= f) w := by
  rw [Quiet, written, readField, Wire.run_readExactWithin, Wire.run_readExact]
  cases hcut : Wire.cut n w.input with
  | some r => exact hf r.1 r.2 (Wire.cut_eq_some.mp hcut)
  | none =>
    simp only
    split
    · exact ⟨rfl, fun _ _ hr => (by cases hr)⟩
    · exact ⟨rfl, fun _ _ hr => (by cases hr)⟩

theorem quiet_ensure {c : Prop} [Decidable c] {e : ProxyError} {f : Unit → Sys α}
    (hf : c → Quiet h (f ()) w) : Quiet h (ensure c e >>= f) w := by
  unfold ensure
  by_cases hc : c
  · rw [if_pos hc]
    exact hf hc
  · rw [if_neg hc]
    exact quiet_fail e

theorem quiet_utf8Field {msg : String} {bs : List UInt8} {f : String → Sys α}
    (hf : ∀ s, bs = utf8 s → Quiet h (f s) w) : Quiet h (utf8Field msg bs >>= f) w := by
  rw [utf8Field]
  cases hs : fromUtf8 bs with
  | none => exact quiet_fail _
  | some s => exact hf s (fromUtf8_eq_some.mp hs)

/-- **Without a complete greeting** no method is written. -/
theorem quiet_negotiateMethod {users : Option (List UserCredential)}
    (hno : ∀ (g : Greeting) rest, w.input ≠ g.bytes ++ rest) :
    Quiet h (negotiateMethod users) w := by
  refine quiet_readField fun header r1 h1 => ?_
  refine quiet_ensure fun hv => ?_
  refine quiet_readField fun methods r2 h2 => ?_
  refine absurd ?_
    (hno ⟨methods.bytes, by rw [methods.length_eq]; exact (header.get 1).toNat_lt⟩ r2)
  simp only at h2
  rw [h1, h2, header.eq_pair, hv, Greeting.bytes, prefixed_eq]
  rfl

/-- **Without a complete credential in UTF-8** no status is written. -/
theorem quiet_authenticateUser {list : List UserCredential}
    (hno : ∀ (m : AuthMessage) rest, w.input ≠ m.bytes ++ rest) :
    Quiet h (authenticateUser list) w := by
  refine quiet_readField fun ver r1 h1 => ?_
  refine quiet_ensure fun hv => ?_
  refine quiet_readField fun ulen r2 h2 => ?_
  refine quiet_readField fun user r3 h3 => ?_
  refine quiet_readField fun plen r4 h4 => ?_
  refine quiet_readField fun pass r5 h5 => ?_
  refine quiet_utf8Field fun u hu => ?_
  refine quiet_utf8Field fun p hp => ?_
  have hul : (utf8 u).length < 256 := by
    rw [← hu, user.length_eq]
    exact (ulen.get 0).toNat_lt
  have hpl : (utf8 p).length < 256 := by
    rw [← hp, pass.length_eq]
    exact (plen.get 0).toNat_lt
  refine absurd ?_ (hno ⟨u, p, hul, hpl⟩ r5)
  simp only at h2 h3 h4 h5
  rw [h1, h2, h3, h4, h5, ver.eq_single, ulen.eq_single, plen.eq_single, hv, AuthMessage.bytes,
    ← hu, ← hp, prefixed_eq, prefixed_eq]
  simp only [List.cons_append, List.nil_append, List.append_assoc]

theorem written_readField {n : ℕ} {f : Bytes n → Sys α}
    (hf : ∀ (b : Bytes n) (rest : List UInt8),
      written (Wire.flat.sum h) (f b) { w with input := rest } = w.output) :
    written (Wire.flat.sum h) (readField n >>= f) w = w.output := by
  rw [written, readField, Wire.run_readExactWithin, Wire.run_readExact]
  cases Wire.cut n w.input with
  | some r => exact hf r.1 r.2
  | none =>
    simp only
    split <;> rfl

theorem written_readTarget (atyp : UInt8) :
    written (Wire.flat.sum h) (readTarget atyp) w = w.output := by
  unfold readTarget
  split
  · exact written_readField fun _ _ => written_readField fun _ _ => rfl
  · refine written_readField fun _ _ => written_readField fun domain _ => ?_
    refine written_readField fun _ _ => ?_
    rw [utf8Field]
    cases fromUtf8 domain.bytes <;> rfl
  · exact written_readField fun _ _ => written_readField fun _ _ => rfl
  · rfl

/-- **Without a complete request** that can be served nothing is written. -/
theorem quiet_readRequest (hno : ∀ (m : RequestMessage) rest, w.input ≠ m.bytes ++ rest) :
    Quiet h readRequest w := by
  refine quiet_readField fun header r1 h1 => ?_
  refine quiet_ensure fun hv => ?_
  cases hc : SocksCommand.ofByte (header.get 1) with
  | none => exact quiet_fail _
  | some c =>
    refine Quiet.bind ⟨written_readTarget _, fun target s hr => ?_⟩ _
    obtain ⟨w', t'⟩ := s
    obtain ⟨rest, ha, hf, hin, -, -⟩ := run_readTarget.mp hr
    refine hno ⟨c, header.get 2, target, hf⟩ rest ?_
    simp only at hin
    rw [h1, hin, header.eq_quad, hv, SocksCommand.ofByte_eq_some.mp hc, ha]
    rfl

end Quiet

/-! ### The request -/

section Request

variable {o : Outside} {std : IpText} {w : Wire (List UInt8)}

/-- What is said to a request that has been read. -/
def replyTo (o : Outside) (std : IpText) (req : SocksRequest) : List UInt8 :=
  match req.command with
  | .connect =>
    match o.dial (req.target.connectTarget std).authority with
    | .ok () => replyBytes 0x00
    | .error _ => replyBytes 0x05
  | .bind => replyBytes 0x07
  | .udpAssociate =>
    match o.bind, o.localAddr with
    | .ok (), .ok (.v4 ip port) => [0x05, 0x00, 0x00, 0x01] ++ ip.bytes ++ be16 port
    | .ok (), .ok (.v6 ip port _ _) => [0x05, 0x00, 0x00, 0x04] ++ ip.bytes ++ be16 port
    | _, _ => []

/-- **A request that is dispatched is replied to**, whatever becomes of the relay. -/
theorem written_dispatch (req : SocksRequest) :
    written (Wire.flat.sum o.handler) (dispatch std req) w = w.output ++ replyTo o std req := by
  obtain ⟨command, target⟩ := req
  cases command with
  | bind => rfl
  | connect =>
    show written (Wire.flat.sum o.handler)
      (Prog.attempt (DirectConnector.connect (target.connectTarget std)) >>=
        serveConnect ⟨.connect, target⟩) w = _
    rw [attempt_connect_bind, replyTo]
    show (Prog.run (Wire.flat.sum o.handler) (serveConnect ⟨.connect, target⟩
      ((o.dial (target.connectTarget std).authority).mapError .io)) (w, ())).world.1.output = _
    cases o.dial (target.connectTarget std).authority with
    | error e => rfl
    | ok u =>
      obtain ⟨dial, bind, localAddr, copied, relayed⟩ := o
      cases copied <;> rfl
  | udpAssociate =>
    obtain ⟨dial, bind, localAddr, copied, relayed⟩ := o
    cases bind with
    | error e => exact (List.append_nil _).symm
    | ok u =>
      cases localAddr with
      | error e => exact (List.append_nil _).symm
      | ok addr =>
        cases addr with
        | v4 ip port =>
          cases relayed with
          | none => rfl
          | some r => cases r <;> rfl
        | v6 ip port flowinfo scopeId =>
          cases relayed with
          | none => rfl
          | some r => cases r <;> rfl

theorem not_isReply_nil {served : Prop} : ¬ IsReply served [] := by
  rintro ⟨rep, atyp, bnd, h, -⟩
  cases h

theorem replyTo_of_not_serves {req : SocksRequest} (hcmd : req.command = .udpAssociate)
    (hs : ¬ o.Serves std req) : replyTo o std req = [] := by
  rw [Outside.Serves, hcmd] at hs
  rw [replyTo, hcmd]
  simp only
  cases hb : o.bind with
  | error e => rfl
  | ok u =>
    cases ha : o.localAddr with
    | error e => rfl
    | ok addr => exact absurd ⟨hb, addr, ha⟩ hs

/-- Every other request gets its reply, and the truth in it. -/
theorem isReply_replyTo {req : SocksRequest}
    (h : req.command = .udpAssociate → o.Serves std req) :
    IsReply (o.Serves std req) (replyTo o std req) := by
  have hrefused : ∀ rep : UInt8, rep ≠ 0x00 → IsReply (o.Serves std req) (replyBytes rep) :=
    fun rep hrep => ⟨rep, 0x01, [0, 0, 0, 0, 0, 0], rfl, .ipv4 rfl, fun h0 => absurd h0 hrep⟩
  cases hcmd : req.command with
  | bind =>
    rw [replyTo, hcmd]
    exact hrefused 0x07 (by decide)
  | connect =>
    rw [replyTo, hcmd]
    cases hdial : o.dial (req.target.connectTarget std).authority with
    | error e => exact hrefused 0x05 (by decide)
    | ok u =>
      refine ⟨0x00, 0x01, [0, 0, 0, 0, 0, 0], rfl, .ipv4 rfl, fun _ => ?_⟩
      rw [Outside.Serves, hcmd]
      exact hdial
  | udpAssociate =>
    have hs := h hcmd
    have hs' := hs
    rw [Outside.Serves, hcmd] at hs'
    obtain ⟨hb, addr, ha⟩ := hs'
    rw [replyTo, hcmd]
    simp only [hb, ha]
    cases addr with
    | v4 ip port =>
      exact ⟨0x00, 0x01, ip.bytes ++ be16 port, List.append_assoc _ _ _,
        .ipv4 (by rw [List.length_append, ip.length_eq, length_be16]), fun _ => hs⟩
    | v6 ip port flowinfo scopeId =>
      exact ⟨0x00, 0x04, ip.bytes ++ be16 port, List.append_assoc _ _ _,
        .ipv6 (by rw [List.length_append, ip.length_eq, length_be16]), fun _ => hs⟩

theorem written_request (m : RequestMessage) {rest : List UInt8}
    (hw : w.input = m.bytes ++ rest) :
    written (Wire.flat.sum o.handler) (readRequest >>= dispatch std) w =
      w.output ++ replyTo o std m.request := by
  have hread : Prog.run (Wire.flat.sum o.handler) readRequest (w, ()) =
      .ret m.request ({ w with input := rest }, ()) :=
    run_readRequest.mpr ⟨m, rest, hw, rfl, rfl, rfl⟩
  rw [written_bind_ret hread]
  exact written_dispatch (w := { w with input := rest }) m.request

/-! ### Complete requests -/

theorem addressBytes_bytes {t : TargetAddr} (h : t.Fits) : AddressBytes t.atyp t.bytes := by
  cases t with
  | ipv4 addr port => exact .ipv4 (by simp [TargetAddr.bytes, addr.length_eq])
  | ipv6 addr port => exact .ipv6 (by simp [TargetAddr.bytes, addr.length_eq])
  | domain name port =>
    refine .domain ?_
    show (utf8 name ++ be16 port).length = _
    rw [List.length_append, length_be16, toNat_ofNat_length h]

theorem requestBytes_message (m : RequestMessage) : RequestBytes m.bytes :=
  .address (SocksCommand.ofByte_eq_some.mpr rfl) (addressBytes_bytes m.fits)

/-- **A complete request is a message, or one of those without an answer.** -/
theorem RequestBytes.message_or_unanswered {r : List UInt8} (h : RequestBytes r)
    (rest : List UInt8) : (∃ (m : RequestMessage) (rest' : List UInt8),
      r ++ rest = m.bytes ++ rest') ∨ UnansweredRequest o std (r ++ rest) := by
  cases h with
  | command h => exact Or.inr (.command h)
  | atyp h h1 h3 h4 => exact Or.inr (.atyp h h1 h3 h4)
  | @address cmd rsv atyp c addr h ha =>
    obtain rfl := SocksCommand.ofByte_eq_some.mp h
    cases ha with
    | ipv4 hl =>
      have hcut := List.take_append_drop 4 addr
      have hport : (addr.drop 4).length = 2 := by rw [List.length_drop]; omega
      refine Or.inl ⟨⟨c, rsv, .ipv4 ⟨addr.take 4, by rw [List.length_take]; omega⟩
        (portOf ⟨addr.drop 4, hport⟩), trivial⟩, rest, ?_⟩
      rw [RequestMessage.bytes, TargetAddr.bytes, be16_portOf, hcut]
      rfl
    | ipv6 hl =>
      have hcut := List.take_append_drop 16 addr
      have hport : (addr.drop 16).length = 2 := by rw [List.length_drop]; omega
      refine Or.inl ⟨⟨c, rsv, .ipv6 ⟨addr.take 16, by rw [List.length_take]; omega⟩
        (portOf ⟨addr.drop 16, hport⟩), trivial⟩, rest, ?_⟩
      rw [RequestMessage.bytes, TargetAddr.bytes, be16_portOf, hcut]
      rfl
    | @domain len bs hl =>
      have hcut := List.take_append_drop len.toNat bs
      have hname : (bs.take len.toNat).length = len.toNat := by rw [List.length_take]; omega
      have hport : (bs.drop len.toNat).length = 2 := by rw [List.length_drop]; omega
      cases hutf : fromUtf8 (bs.take len.toNat) with
      | none =>
        refine Or.inr ?_
        have hun : UnansweredRequest o std ([0x05, c.byte, rsv, 0x03] ++
            (len :: (bs.take len.toNat ++ bs.drop len.toNat)) ++ rest) :=
          .domain h hname hport hutf
        rw [hcut] at hun
        exact hun
      | some name =>
        have hb := fromUtf8_eq_some.mp hutf
        have hfit : (utf8 name).length < 256 := by
          rw [← hb, hname]
          exact len.toNat_lt
        refine Or.inl ⟨⟨c, rsv, .domain name (portOf ⟨bs.drop len.toNat, hport⟩), hfit⟩, rest, ?_⟩
        have hbytes : prefixed (utf8 name) ++ bs.drop len.toNat = len :: bs := by
          rw [← hb, prefixed_eq len ⟨bs.take len.toNat, hname⟩, List.cons_append, hcut]
        rw [RequestMessage.bytes, TargetAddr.bytes, be16_portOf, hbytes]
        rfl

theorem UnansweredRequest.requestBytes {s : List UInt8} (h : UnansweredRequest o std s) :
    ∃ r rest, s = r ++ rest ∧ RequestBytes r := by
  cases h with
  | command h => exact ⟨_, _, rfl, .command h⟩
  | atyp h h1 h3 h4 => exact ⟨_, _, rfl, .atyp h h1 h3 h4⟩
  | domain h hlen hport _ =>
    exact ⟨_, _, rfl, .address h (.domain (by rw [List.length_append, hlen, hport]))⟩
  | relaySocket m _ _ => exact ⟨_, _, rfl, requestBytes_message m⟩

theorem UnansweredRequest.of_message {s : List UInt8} (h : UnansweredRequest o std s)
    {m : RequestMessage} {rest : List UInt8} (hs : s = m.bytes ++ rest) :
    m.command = .udpAssociate ∧ ¬ o.Serves std m.request := by
  have hheader : ∀ {cmd rsv atyp : UInt8} {tail : List UInt8},
      [0x05, cmd, rsv, atyp] ++ tail = m.bytes ++ rest →
        cmd = m.command.byte ∧ atyp = m.target.atyp ∧ tail = m.target.bytes ++ rest := by
    intro cmd rsv atyp tail heq
    simp only [RequestMessage.bytes, List.cons_append, List.nil_append, List.cons.injEq,
      true_and] at heq
    exact ⟨heq.1, heq.2.2.1, heq.2.2.2⟩
  cases h with
  | command h =>
    obtain ⟨rfl, -⟩ := hheader hs
    rw [SocksCommand.ofByte_eq_some.mpr rfl] at h
    cases h
  | atyp _ h1 h3 h4 =>
    obtain ⟨-, rfl, -⟩ := hheader hs
    cases ht : m.target with
    | ipv4 addr port => exact absurd (congrArg TargetAddr.atyp ht) h1
    | domain name port => exact absurd (congrArg TargetAddr.atyp ht) h3
    | ipv6 addr port => exact absurd (congrArg TargetAddr.atyp ht) h4
  | @domain cmd rsv len c name port rest' _ hlen hport hname =>
    rw [List.append_assoc] at hs
    obtain ⟨-, hatyp, htail⟩ := hheader hs
    have hfit := m.fits
    cases ht : m.target with
    | ipv4 addr port => rw [ht] at hatyp; cases hatyp
    | ipv6 addr port => rw [ht] at hatyp; cases hatyp
    | domain n p =>
      rw [ht] at htail hfit
      have hl : prefixed name = len :: name := prefixed_eq len ⟨name, hlen⟩
      have htail' : prefixed name ++ (port ++ rest') = prefixed (utf8 n) ++ (be16 p ++ rest) := by
        rw [hl]
        simpa only [TargetAddr.bytes, List.cons_append, List.append_assoc] using htail
      obtain ⟨rfl, -⟩ := prefixed_append_inj (by rw [hlen]; exact len.toNat_lt) hfit htail'
      rw [fromUtf8_utf8] at hname
      cases hname
  | relaySocket m' hcmd ho =>
    obtain ⟨rfl, -⟩ := RequestMessage.bytes_append_inj hs
    exact ⟨hcmd, ho⟩

/-- **The request phase answers all but the listed requests.** -/
theorem requestAnswered_iff {out : List UInt8}
    (hout : written (Wire.flat.sum o.handler) (readRequest >>= dispatch std) w =
      w.output ++ out) :
    RequestAnswered o std w.input out ↔ ¬ UnansweredRequest o std w.input := by
  by_cases hm : ∃ (m : RequestMessage) (rest : List UInt8), w.input = m.bytes ++ rest
  · obtain ⟨m, rest, hin⟩ := hm
    obtain rfl : replyTo o std m.request = out :=
      List.append_cancel_left ((written_request m hin).symm.trans hout)
    constructor
    · intro h hun
      obtain ⟨hcmd, hs⟩ := hun.of_message hin
      have hreply := h.complete m.bytes rest hin (requestBytes_message m)
      rw [replyTo_of_not_serves hcmd hs] at hreply
      exact not_isReply_nil hreply
    · intro h
      have hserves : m.command = .udpAssociate → o.Serves std m.request := by
        intro hcmd
        by_contra hs
        rw [hin] at h
        exact h (.relaySocket m hcmd hs)
      refine ⟨fun _ _ _ _ => ?_, fun hno => absurd ⟨_, _, hin, requestBytes_message m⟩ hno⟩
      obtain ⟨rep, atyp, bnd, hrep, hbnd, hserved⟩ := @isReply_replyTo o std m.request hserves
      exact ⟨rep, atyp, bnd, hrep, hbnd, fun h0 => ⟨m, rest, hin, hserved h0⟩⟩
  · have hquiet : Quiet o.handler readRequest w :=
      quiet_readRequest fun m rest hin => hm ⟨m, rest, hin⟩
    obtain rfl : [] = out := by
      have hsame := (hquiet.bind (dispatch std)).1.symm.trans hout
      exact (List.self_eq_append_right.mp hsame).symm
    constructor
    · intro h hun
      obtain ⟨r, rest, hin, hr⟩ := hun.requestBytes
      exact not_isReply_nil (h.complete r rest hin hr)
    · intro h
      refine ⟨fun r rest hin hr => ?_, fun _ => rfl⟩
      rcases @RequestBytes.message_or_unanswered o std r hr rest with ⟨m, rest', hmsg⟩ | hun
      · exact absurd ⟨m, rest', hin.trans hmsg⟩ hm
      · rw [← hin] at hun
        exact absurd hun h

end Request

/-! ### The credential -/

def AuthMessage.raw (m : AuthMessage) : RawAuthMessage :=
  ⟨utf8 m.username, utf8 m.password, m.username_fits, m.password_fits⟩

theorem RawAuthMessage.bytes_append_inj {m m' : RawAuthMessage} {r r' : List UInt8}
    (h : m.bytes ++ r = m'.bytes ++ r') : m = m' ∧ r = r' := by
  obtain ⟨hu, hp, hr⟩ := credential_append_inj m.username_fits m.password_fits m'.username_fits
    m'.password_fits h
  obtain ⟨u, p, hu1, hp1⟩ := m
  obtain ⟨u', p', hu2, hp2⟩ := m'
  obtain rfl : u = u' := hu
  obtain rfl : p = p' := hp
  exact ⟨rfl, hr⟩

theorem RawAuthMessage.text_or_not (m : RawAuthMessage) :
    (∃ m' : AuthMessage, m = m'.raw) ∨ fromUtf8 m.username = none ∨ fromUtf8 m.password = none := by
  cases hu : fromUtf8 m.username with
  | none => exact Or.inr (Or.inl rfl)
  | some u =>
    cases hp : fromUtf8 m.password with
    | none => exact Or.inr (Or.inr rfl)
    | some p =>
      obtain ⟨user, pass, hul, hpl⟩ := m
      obtain rfl : user = utf8 u := fromUtf8_eq_some.mp hu
      obtain rfl : pass = utf8 p := fromUtf8_eq_some.mp hp
      exact Or.inl ⟨⟨u, p, hul, hpl⟩, rfl⟩

section Credential

variable {o : Outside} {std : IpText} {w : Wire (List UInt8)} {list : List UserCredential}

/-- A complete credential that is not UTF-8, or a listed one in front of a
request without an answer. -/
def UnansweredCredential (o : Outside) (std : IpText) (list : List UserCredential)
    (s : List UInt8) : Prop :=
  (∃ (m : RawAuthMessage) (rest : List UInt8), s = m.bytes ++ rest ∧
    (fromUtf8 m.username = none ∨ fromUtf8 m.password = none)) ∨
  ∃ (m : AuthMessage) (rest : List UInt8), s = m.bytes ++ rest ∧
    ⟨m.username, m.password⟩ ∈ list ∧ UnansweredRequest o std rest

theorem AuthMessage.raw_utf8 (m : AuthMessage) :
    ¬ (fromUtf8 m.raw.username = none ∨ fromUtf8 m.raw.password = none) := by
  rintro (h | h)
  · rw [show fromUtf8 m.raw.username = some m.username from fromUtf8_utf8 _] at h
    cases h
  · rw [show fromUtf8 m.raw.password = some m.password from fromUtf8_utf8 _] at h
    cases h

/-- In front of a message in UTF-8, only what follows a listed one counts. -/
theorem unansweredCredential_iff {m : AuthMessage} {rest : List UInt8} :
    UnansweredCredential o std list (m.bytes ++ rest) ↔
      ⟨m.username, m.password⟩ ∈ list ∧ UnansweredRequest o std rest := by
  constructor
  · rintro (⟨m', rest', hs, hbad⟩ | ⟨m', rest', hs, hlisted, hun⟩)
    · obtain ⟨rfl, -⟩ := RawAuthMessage.bytes_append_inj (m := m.raw) hs
      exact absurd hbad m.raw_utf8
    · obtain ⟨rfl, rfl⟩ := AuthMessage.bytes_append_inj hs
      exact ⟨hlisted, hun⟩
  · rintro ⟨hlisted, hun⟩
    exact Or.inr ⟨m, rest, rfl, hlisted, hun⟩

/-- **The credential phase answers all but the listed messages.** -/
theorem credentialAnswered_iff {out : List UInt8}
    (hout : written (Wire.flat.sum o.handler)
      (authenticateUser list >>= fun _ => readRequest >>= dispatch std) w = w.output ++ out) :
    CredentialAnswered o std list w.input out ↔ ¬ UnansweredCredential o std list w.input := by
  by_cases hm : ∃ (m : AuthMessage) (rest : List UInt8), w.input = m.bytes ++ rest
  · obtain ⟨m, rest, hin⟩ := hm
    have hraw : ∀ (m' : RawAuthMessage) rest', w.input = m'.bytes ++ rest' →
        m' = m.raw ∧ rest' = rest := fun m' rest' h =>
      @RawAuthMessage.bytes_append_inj m' m.raw rest' rest (h.symm.trans hin)
    rw [hin, unansweredCredential_iff, ← hin]
    by_cases hlisted : ⟨m.username, m.password⟩ ∈ list
    · rw [written_bind_ret (run_authenticateUser.mpr ⟨m, rest, hin, hlisted, rfl, rfl⟩),
        written_eq_append, List.append_assoc, List.append_cancel_left_eq] at hout
      have hreq := @requestAnswered_iff o std ⟨rest, w.closed, []⟩ _ rfl
      rw [and_iff_right hlisted, ← hreq, ← hout]
      constructor
      · intro h
        obtain ⟨status, out', heq, hok, hno⟩ := h.complete m.raw rest hin
        obtain ⟨hpair, rfl⟩ := List.append_inj heq rfl
        exact (hok (List.cons.inj (List.cons.inj hpair).2).1.symm).2
      · intro h
        refine ⟨fun m' rest' hs => ?_, fun hno => absurd ⟨m.raw, rest, hin⟩ hno⟩
        obtain ⟨rfl, rfl⟩ := hraw m' rest' hs
        exact ⟨0x00, _, rfl, fun _ => ⟨⟨_, hlisted, rfl, rfl⟩, h⟩, fun h0 => absurd rfl h0⟩
    · rw [written_bind_fail (run_authenticateUser_reject m rest hin hlisted),
        List.append_cancel_left_eq] at hout
      refine iff_of_true ⟨fun m' rest' hs => ?_, fun hno => absurd ⟨m.raw, rest, hin⟩ hno⟩
        fun h => hlisted h.1
      exact ⟨0x01, [], hout.symm, fun h0 => absurd h0 (by decide), fun _ => rfl⟩
  · have hquiet : Quiet o.handler (authenticateUser list) w :=
      quiet_authenticateUser fun m rest hin => hm ⟨m, rest, hin⟩
    obtain rfl : [] = out := by
      have hsame := (hquiet.bind fun _ => readRequest >>= dispatch std).1.symm.trans hout
      exact (List.self_eq_append_right.mp hsame).symm
    constructor
    · rintro h (⟨m, rest, hs, -⟩ | ⟨m, rest, hs, -⟩)
      · obtain ⟨status, out', heq, -⟩ := h.complete m rest hs
        cases heq
      · exact hm ⟨m, rest, hs⟩
    · intro h
      refine ⟨fun m rest hs => ?_, fun _ => rfl⟩
      rcases m.text_or_not with ⟨m', rfl⟩ | hbad
      · exact absurd ⟨m', rest, hs⟩ hm
      · exact absurd (Or.inl ⟨m, rest, hs, hbad⟩) h

end Credential

/-! ### The greeting -/

section Session

variable {o : Outside} {std : IpText} {w : Wire (List UInt8)}
  {users : Option (List UserCredential)}

theorem run_negotiateMethod_reject {h : Prog.Handler netSig Unit} (g : Greeting)
    {rest : List UInt8} (hw : w.input = g.bytes ++ rest) (hno : wantedMethod users ∉ g.methods) :
    Prog.run (Wire.flat.sum h) (negotiateMethod users) (w, ()) =
      .fail (.socks5 "No acceptable authentication method")
        ({ w with input := rest, output := w.output ++ [0x05, 0xFF] }, ()) := by
  have hsel : selectMethod users g.methods = 0xFF := by
    by_contra hne
    exact hno (selectMethod_ne.mp hne)
  have hin : w.input = [0x05, UInt8.ofNat g.methods.length] ++ (g.methods ++ rest) := hw
  refine (run_readField_append ⟨[0x05, UInt8.ofNat g.methods.length], rfl⟩ _ hin).trans ?_
  refine (run_readField_append ⟨g.methods, (toNat_ofNat_length g.fits).symm⟩ _ rfl).trans ?_
  simp only [hsel]
  rfl

/-- What may come behind a greeting that offers the wanted method. -/
theorem unanswered_iff {g : Greeting} (hoffer : wantedMethod users ∈ g.methods)
    {s : List UInt8} : Unanswered o std users (g.bytes ++ s) ↔
      match users with
      | none => UnansweredRequest o std s
      | some list => UnansweredCredential o std list s := by
  cases users with
  | none =>
    constructor
    · intro h
      generalize hs : g.bytes ++ s = s' at h
      cases h with
      | credential hu => cases hu
      | request g' _ ha hun =>
        cases ha
        obtain ⟨-, rfl⟩ := Greeting.bytes_append_inj hs
        exact hun
    · intro h
      exact .request g hoffer .noUsers h
  | some list =>
    constructor
    · intro h
      generalize hs : g.bytes ++ s = s' at h
      cases h with
      | credential hu g' _ m hm =>
        obtain ⟨-, rfl⟩ := Greeting.bytes_append_inj hs
        exact Or.inl ⟨m, _, rfl, hm⟩
      | request g' _ ha hun =>
        obtain ⟨-, rfl⟩ := Greeting.bytes_append_inj hs
        cases ha with
        | listed _ m hm => exact Or.inr ⟨m, _, rfl, hm, hun⟩
    · rintro (⟨m, rest, rfl, hm⟩ | ⟨m, rest, rfl, hlisted, hun⟩)
      · exact .credential rfl g hoffer m hm
      · exact .request g hoffer (.listed list m hlisted) hun

theorem not_unanswered_of_refused {g : Greeting} (hno : wantedMethod users ∉ g.methods)
    {s : List UInt8} : ¬ Unanswered o std users (g.bytes ++ s) := by
  intro h
  generalize hs : g.bytes ++ s = s' at h
  cases h with
  | credential hu g' hoffer =>
    obtain ⟨rfl, -⟩ := Greeting.bytes_append_inj hs
    subst hu
    exact hno hoffer
  | request g' hoffer =>
    obtain ⟨rfl, -⟩ := Greeting.bytes_append_inj hs
    exact hno hoffer

theorem Unanswered.greeting {s : List UInt8} (h : Unanswered o std users s) :
    ∃ (g : Greeting) (rest : List UInt8), s = g.bytes ++ rest := by
  cases h with
  | credential _ g => exact ⟨g, _, rfl⟩
  | request g => exact ⟨g, _, rfl⟩

/-- **The session answers all but the listed messages.** -/
theorem answered_iff {out : List UInt8}
    (hout : written (Wire.flat.sum o.handler) (handleSocks5Inner std users) w = w.output ++ out) :
    Answered o std users w.input out ↔ ¬ Unanswered o std users w.input := by
  rw [handleSocks5Inner_eq] at hout
  by_cases hg : ∃ (g : Greeting) (rest : List UInt8), w.input = g.bytes ++ rest
  · obtain ⟨g, rest, hin⟩ := hg
    have hsame : ∀ (g' : Greeting) rest', w.input = g'.bytes ++ rest' → rest' = rest :=
      fun g' rest' h => (Greeting.bytes_append_inj (h.symm.trans hin)).2
    by_cases hoffer : wantedMethod users ∈ g.methods
    · rw [written_bind_ret (run_negotiateMethod.mpr ⟨g, rest, hin, hoffer, rfl, rfl, rfl⟩),
        written_eq_append, List.append_assoc, List.append_cancel_left_eq] at hout
      rw [hin, unanswered_iff hoffer, ← hin, ← hout]
      cases users with
      | none =>
        have hreq := @requestAnswered_iff o std ⟨rest, w.closed, []⟩ _ rfl
        refine Iff.trans ?_ hreq
        constructor
        · intro h
          obtain ⟨method, out', heq, hok, -⟩ := h.complete g rest hin
          obtain ⟨hpair, rfl⟩ := List.append_inj heq rfl
          exact hok (List.cons.inj (List.cons.inj hpair).2).1.symm
        · intro h
          refine ⟨fun g' rest' hs => ?_, fun hno => absurd ⟨g, rest, hin⟩ hno⟩
          obtain rfl := hsame g' rest' hs
          exact ⟨0x00, _, rfl, fun _ => h, fun h2 => absurd h2 (by decide),
            fun h0 => absurd rfl h0⟩
      | some list =>
        have hcred := @credentialAnswered_iff o std ⟨rest, w.closed, []⟩ list _ rfl
        refine Iff.trans ?_ hcred
        constructor
        · intro h
          obtain ⟨method, out', heq, -, hok, -⟩ := h.complete g rest hin
          obtain ⟨hpair, rfl⟩ := List.append_inj heq rfl
          obtain ⟨list', hl, h'⟩ := hok (List.cons.inj (List.cons.inj hpair).2).1.symm
          cases hl
          exact h'
        · intro h
          refine ⟨fun g' rest' hs => ?_, fun hno => absurd ⟨g, rest, hin⟩ hno⟩
          obtain rfl := hsame g' rest' hs
          exact ⟨0x02, _, rfl, fun h0 => absurd h0 (by decide), fun _ => ⟨list, rfl, h⟩,
            fun _ h2 => absurd rfl h2⟩
    · rw [written_bind_fail (run_negotiateMethod_reject g hin hoffer),
        List.append_cancel_left_eq] at hout
      refine iff_of_true ⟨fun g' rest' hs => ?_, fun hno => absurd ⟨g, rest, hin⟩ hno⟩ ?_
      · exact ⟨0xFF, [], hout.symm, fun h0 => absurd h0 (by decide),
          fun h2 => absurd h2 (by decide), fun _ _ => rfl⟩
      · rw [hin]
        exact not_unanswered_of_refused hoffer
  · have hquiet : Quiet o.handler (negotiateMethod users) w :=
      quiet_negotiateMethod fun g rest hin => hg ⟨g, rest, hin⟩
    obtain rfl : [] = out :=
      (List.self_eq_append_right.mp ((hquiet.bind _).1.symm.trans hout)).symm
    exact iff_of_true ⟨fun g rest hs => absurd ⟨g, rest, hs⟩ hg, fun _ => rfl⟩
      fun h => hg h.greeting

end Session

/-! ### Every complete message -/

/-- On those segments, after which the client may or may not have closed, the
server has written `out` when it has come to its end or waits. -/
def Writes (o : Outside) (std : IpText) (users : Option (List UserCredential))
    (segs : List (List UInt8)) (closed : Bool) (out : List UInt8) : Prop :=
  (Prog.run (Wire.segmented.sum o.handler) (handleSocks5Inner std users)
    (⟨segs, closed, []⟩, ())).world.1.output = out

theorem writes_iff_flat {o : Outside} {std : IpText} {users : Option (List UserCredential)}
    {segs : List (List UInt8)} {closed : Bool} {out : List UInt8} :
    Writes o std users segs closed out ↔
      written (Wire.flat.sum o.handler) (handleSocks5Inner std users)
        ⟨segs.flatten, closed, []⟩ = out := by
  have hmap : Prog.run (Wire.flat.sum o.handler) (handleSocks5Inner std users)
      (⟨segs.flatten, closed, []⟩, ()) = _ :=
    Prog.run_map (Wire.respects_flatten.sum o.handler) (handleSocks5Inner std users)
      (⟨segs, closed, []⟩, ())
  rw [Writes, written, hmap]
  cases Prog.run (Wire.segmented.sum o.handler) (handleSocks5Inner std users)
    (⟨segs, closed, []⟩, ()) <;> rfl

/-- **Which complete messages are answered.**  For every setting, every stream in
whatever segments and whatever the operating system answers: each complete
message that the server comes to has exactly one answer, as `Answered` says,
exactly if it does not come to a credential or a domain name that is not UTF-8, a
request with a command or an address type it does not know, or a UDP ASSOCIATE
for which it can open no socket. -/
theorem complete_messages_answered_iff (o : Outside) (std : IpText)
    (users : Option (List UserCredential)) (segs : List (List UInt8)) (closed : Bool) :
    (∃ out, Writes o std users segs closed out ∧ Answered o std users segs.flatten out) ↔
      ¬ Unanswered o std users segs.flatten := by
  have hiff := @answered_iff o std ⟨segs.flatten, closed, []⟩ users _ rfl
  constructor
  · rintro ⟨out, hw, h⟩
    rw [writes_iff_flat] at hw
    rw [← hw] at h
    exact hiff.mp h
  · intro h
    exact ⟨_, writes_iff_flat.mpr rfl, hiff.mpr h⟩

/-- Everything the operating system is asked for succeeds. -/
def Outside.willing : Outside where
  dial _ := .ok ()
  bind := .ok ()
  localAddr := .ok (.v4 (.new 127 0 0 1) 1080)
  copied := some (.ok ())
  relayed := some (.ok ())

/-- **A request with command 9 is dropped without a reply.** -/
theorem unknown_command_unanswered :
    ¬ ∃ out, Writes .willing .plain none [[0x05, 0x01, 0x00], [0x05, 0x09, 0x00, 0x01]] true out ∧
      Answered .willing .plain none [0x05, 0x01, 0x00, 0x05, 0x09, 0x00, 0x01] out := by
  rintro ⟨out, hw, h⟩
  rw [writes_iff_flat] at hw
  rw [← hw] at h
  have hun : Unanswered .willing .plain none [0x05, 0x01, 0x00, 0x05, 0x09, 0x00, 0x01] :=
    .request ⟨[0x00], by decide⟩ (by decide) .noUsers (@UnansweredRequest.command _ _ _ _ _ [] rfl)
  exact (answered_iff (w := ⟨[0x05, 0x01, 0x00, 0x05, 0x09, 0x00, 0x01], true, []⟩) rfl).mp h hun

end Peregrine
