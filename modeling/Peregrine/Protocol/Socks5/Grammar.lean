import Peregrine.Protocol.Socks5.Handshake

/-!
# The messages a SOCKS5 client may send

RFC 1928 and RFC 1929 as byte strings: the greeting, the username/password
message and the request.  `Opening users` is what a server with the setting
`users` accepts before it serves anything: a greeting that offers the method it
wants, the message that authenticates the client where it wants one, and a
request.  The lengths that have to fit in a byte are fields, so an `Opening` is
well formed by construction.

Each message ends where its own lengths say, so it can be cut off the front of
a stream in one way only; `Opening.bytes_append_inj` puts the three together.
-/

namespace Peregrine

structure Greeting where
  methods : List UInt8
  fits : methods.length < 256

def Greeting.bytes (g : Greeting) : List UInt8 := 0x05 :: prefixed g.methods

structure AuthMessage where
  username : String
  password : String
  username_fits : (utf8 username).length < 256
  password_fits : (utf8 password).length < 256

def AuthMessage.bytes (m : AuthMessage) : List UInt8 :=
  0x01 :: (prefixed (utf8 m.username) ++ prefixed (utf8 m.password))

def SocksCommand.byte : SocksCommand → UInt8
  | .connect => 0x01
  | .bind => 0x02
  | .udpAssociate => 0x03

def TargetAddr.atyp : TargetAddr → UInt8
  | .ipv4 .. => 0x01
  | .domain .. => 0x03
  | .ipv6 .. => 0x04

/-- Address and port as they follow the address type. -/
def TargetAddr.bytes : TargetAddr → List UInt8
  | .ipv4 addr port => addr.bytes ++ be16 port
  | .domain name port => prefixed (utf8 name) ++ be16 port
  | .ipv6 addr port => addr.bytes ++ be16 port

/-- A domain name has to fit its length byte. -/
def TargetAddr.Fits : TargetAddr → Prop
  | .domain name _ => (utf8 name).length < 256
  | _ => True

/-- Address and port as they follow the address type, whatever bytes a name has. -/
inductive AddressBytes : UInt8 → List UInt8 → Prop
  | ipv4 {bs : List UInt8} (h : bs.length = 6) : AddressBytes 0x01 bs
  | domain {len : UInt8} {bs : List UInt8} (h : bs.length = len.toNat + 2) :
    AddressBytes 0x03 (len :: bs)
  | ipv6 {bs : List UInt8} (h : bs.length = 18) : AddressBytes 0x04 bs

/-- A request as it is sent; the reserved byte may be anything. -/
structure RequestMessage where
  command : SocksCommand
  rsv : UInt8
  target : TargetAddr
  fits : target.Fits

def RequestMessage.bytes (r : RequestMessage) : List UInt8 :=
  [0x05, r.command.byte, r.rsv, r.target.atyp] ++ r.target.bytes

def RequestMessage.request (r : RequestMessage) : SocksRequest := ⟨r.command, r.target⟩

/-- The method the server selects under its setting. -/
def wantedMethod (users : Option (List UserCredential)) : UInt8 :=
  if users.isSome then 0x02 else 0x00

/-- What has to come between greeting and request: nothing without users, a
listed credential with users. -/
inductive Authenticates : Option (List UserCredential) → List UInt8 → Prop
  | noUsers : Authenticates none []
  | listed (users : List UserCredential) (m : AuthMessage)
      (h : ⟨m.username, m.password⟩ ∈ users) : Authenticates (some users) m.bytes

/-- Everything a client sends up to its request. -/
structure Opening (users : Option (List UserCredential)) where
  greeting : Greeting
  auth : List UInt8
  message : RequestMessage
  offers : wantedMethod users ∈ greeting.methods
  authenticates : Authenticates users auth

def Opening.bytes {users : Option (List UserCredential)} (o : Opening users) : List UInt8 :=
  o.greeting.bytes ++ o.auth ++ o.message.bytes

def Opening.request {users : Option (List UserCredential)} (o : Opening users) : SocksRequest :=
  o.message.request

/-! ### Each message is cut off in one way -/

theorem Greeting.bytes_append_inj {g g' : Greeting} {r r' : List UInt8}
    (h : g.bytes ++ r = g'.bytes ++ r') : g = g' ∧ r = r' := by
  obtain ⟨-, ht⟩ := List.cons.inj h
  obtain ⟨hm, hr⟩ := prefixed_append_inj g.fits g'.fits ht
  obtain ⟨ms, hms⟩ := g
  obtain ⟨ms', hms'⟩ := g'
  cases hm
  exact ⟨rfl, hr⟩

theorem credential_append_inj {u p u' p' r r' : List UInt8} (hu : u.length < 256)
    (hp : p.length < 256) (hu' : u'.length < 256) (hp' : p'.length < 256)
    (h : 0x01 :: (prefixed u ++ prefixed p) ++ r = 0x01 :: (prefixed u' ++ prefixed p') ++ r') :
    u = u' ∧ p = p' ∧ r = r' := by
  simp only [List.cons_append, List.append_assoc] at h
  obtain ⟨-, ht⟩ := List.cons.inj h
  obtain ⟨huu, ht'⟩ := prefixed_append_inj hu hu' ht
  exact ⟨huu, prefixed_append_inj hp hp' ht'⟩

theorem AuthMessage.bytes_append_inj {m m' : AuthMessage} {r r' : List UInt8}
    (h : m.bytes ++ r = m'.bytes ++ r') : m = m' ∧ r = r' := by
  obtain ⟨hu, hp, hr⟩ := credential_append_inj m.username_fits m.password_fits m'.username_fits
    m'.password_fits h
  obtain ⟨u, p, hu1, hp1⟩ := m
  obtain ⟨u', p', hu2, hp2⟩ := m'
  obtain rfl : u = u' := utf8_inj hu
  obtain rfl : p = p' := utf8_inj hp
  exact ⟨rfl, hr⟩

theorem SocksCommand.byte_inj {c c' : SocksCommand} (h : c.byte = c'.byte) : c = c' := by
  cases c <;> cases c' <;> first | rfl | exact absurd h (by decide)

theorem SocksCommand.ofByte_eq_some {b : UInt8} {c : SocksCommand} :
    SocksCommand.ofByte b = some c ↔ b = c.byte := by
  constructor
  · intro h
    unfold SocksCommand.ofByte at h
    split at h <;> cases h <;> rfl
  · rintro rfl
    cases c <;> rfl

theorem address_append_inj {n : ℕ} {addr addr' : Bytes n} {port port' : UInt16} {r r' : List UInt8}
    (h : addr.bytes ++ be16 port ++ r = addr'.bytes ++ be16 port' ++ r') :
    addr = addr' ∧ port = port' ∧ r = r' := by
  rw [List.append_assoc, List.append_assoc] at h
  obtain ⟨haddr, h⟩ := List.append_inj h (by rw [addr.length_eq, addr'.length_eq])
  obtain ⟨hport, hr⟩ := List.append_inj h rfl
  exact ⟨Bytes.ext haddr, be16_inj hport, hr⟩

theorem TargetAddr.bytes_append_inj {t t' : TargetAddr} {r r' : List UInt8} (ht : t.Fits)
    (ht' : t'.Fits) (ha : t.atyp = t'.atyp) (h : t.bytes ++ r = t'.bytes ++ r') :
    t = t' ∧ r = r' := by
  cases t with
  | ipv4 addr port =>
    cases t' with
    | ipv4 addr' port' =>
      obtain ⟨rfl, rfl, hr⟩ := address_append_inj h
      exact ⟨rfl, hr⟩
    | domain => simp [TargetAddr.atyp] at ha
    | ipv6 => simp [TargetAddr.atyp] at ha
  | domain name port =>
    cases t' with
    | domain name' port' =>
      simp only [TargetAddr.bytes, List.append_assoc] at h
      obtain ⟨h1, h2⟩ := prefixed_append_inj ht ht' h
      obtain ⟨h3, h4⟩ := List.append_inj h2 rfl
      obtain rfl : name = name' := utf8_inj h1
      obtain rfl : port = port' := be16_inj h3
      exact ⟨rfl, h4⟩
    | ipv4 => simp [TargetAddr.atyp] at ha
    | ipv6 => simp [TargetAddr.atyp] at ha
  | ipv6 addr port =>
    cases t' with
    | ipv6 addr' port' =>
      obtain ⟨rfl, rfl, hr⟩ := address_append_inj h
      exact ⟨rfl, hr⟩
    | ipv4 => simp [TargetAddr.atyp] at ha
    | domain => simp [TargetAddr.atyp] at ha

theorem RequestMessage.bytes_append_inj {m m' : RequestMessage} {r r' : List UInt8}
    (h : m.bytes ++ r = m'.bytes ++ r') : m = m' ∧ r = r' := by
  simp only [RequestMessage.bytes, List.cons_append, List.nil_append, List.cons.injEq,
    true_and] at h
  obtain ⟨hc, hv, ha, ht⟩ := h
  obtain ⟨htt, hr⟩ := TargetAddr.bytes_append_inj m.fits m'.fits ha ht
  obtain ⟨c, v, t, hf⟩ := m
  obtain ⟨c', v', t', hf'⟩ := m'
  obtain rfl : c = c' := SocksCommand.byte_inj hc
  obtain rfl : v = v' := hv
  obtain rfl : t = t' := htt
  exact ⟨rfl, hr⟩

theorem Authenticates.append_inj {users : Option (List UserCredential)} {a a' r r' : List UInt8}
    (ha : Authenticates users a) (ha' : Authenticates users a') (h : a ++ r = a' ++ r') :
    a = a' ∧ r = r' := by
  cases ha with
  | noUsers =>
    cases ha'
    exact ⟨rfl, h⟩
  | listed users m hm =>
    cases ha' with
    | listed _ m' hm' =>
      obtain ⟨rfl, hr⟩ := AuthMessage.bytes_append_inj h
      exact ⟨rfl, hr⟩

/-- **An opening is cut off the front of a stream in one way.** -/
theorem Opening.bytes_append_inj {users : Option (List UserCredential)} {o o' : Opening users}
    {r r' : List UInt8} (h : o.bytes ++ r = o'.bytes ++ r') : o = o' ∧ r = r' := by
  obtain ⟨g, a, m, ho, hau⟩ := o
  obtain ⟨g', a', m', ho', hau'⟩ := o'
  simp only [Opening.bytes, List.append_assoc] at h
  obtain ⟨rfl, h1⟩ := Greeting.bytes_append_inj h
  obtain ⟨rfl, h2⟩ := hau.append_inj hau' h1
  obtain ⟨rfl, h3⟩ := RequestMessage.bytes_append_inj h2
  exact ⟨rfl, h3⟩

end Peregrine
