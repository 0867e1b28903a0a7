import Peregrine.CoreText
import Peregrine.Lib.Authority
import Peregrine.Protocol.Forwarding
import Peregrine.Protocol.Socks5.Session
import Peregrine.Upstream.Tls

/-!
# What a CONNECT request asks for

The request to an HTTP proxy is put together from the text of the host as it is.
`AsksExactly` is what it should be: one request head, and the only one that the
bytes can be read as, with the host and the port for its authority, the same in
`Host`, and nothing else but the credential.

`asksExactly_connectHead` says which hosts are written so: those made of the
characters of a name, none of which the grammar gives another meaning to, and the
IP literals that have their brackets already.  `asks_as_told_iff` is the same for
the functions that send the request, whatever the world answers them.
-/

namespace Peregrine

open Authority (Host readHost readLiteral readPort Reads isNameByte)
open HttpHead (Field RequestHead isVisible)
open Prog (Oracle History Calls)

/-! ### What a request is to say -/

/-- What the text of a host means: an IPv6 address, with brackets or without, or
else a name. -/
def hostNamed (host : String) : Host :=
  match NetText.parseIpv6Addr host.toList with
  | some groups => .ipv6 groups
  | none => (readLiteral (utf8 host)).getD (.name (utf8 host))

/-- The field for the credential, where one is configured. -/
def authorizationFields : Option UserCredential → List (List UInt8 × List UInt8)
  | none => []
  | some auth =>
    [(utf8 "proxy-authorization", utf8 "Basic " ++ utf8 (basicCredentials auth))]

/-- The request is to connect to the target, and says nothing else. -/
structure AsksFor (head : RequestHead) (auth : Option UserCredential) (target : ConnectTarget) :
    Prop where
  method : head.method = utf8 "CONNECT"
  authority : Reads head.target (hostNamed target.host) target.port.toNat
  fields : (head.fields.map fun f => (f.name.map foldByte, f.content)).Perm
    ((utf8 "host", head.target) :: authorizationFields auth)

/-- **The specification of the bytes**: they are one head that asks for the
target, and cannot be read as another. -/
def AsksExactly (bs : List UInt8) (auth : Option UserCredential) (target : ConnectTarget) : Prop :=
  ∃ head : RequestHead, AsksFor head auth target ∧
    ∀ head' rest, bs = head'.bytes ++ rest ↔ head' = head ∧ rest = []

/-- What has been given to `write_all`. -/
def bytesWritten : History sysSig → List UInt8
  | [] => []
  | e :: es =>
    (match e.1 with
      | .inl (.writeAll bs) => bs
      | _ => []) ++ bytesWritten es

/-- The functions that send the request: both branches of the connector, and the chain. -/
inductive SendsConnect (auth : Option UserCredential) (target : ConnectTarget) : Sys Unit → Prop
  | connector (c : HttpProxyConnector) (hauth : c.auth = auth) :
    SendsConnect auth target (c.connect target)
  | chained (tls : Option Bool) :
    SendsConnect auth target (performHttpHandshake auth tls target)

/-- **The specification of the functions**: they fail and have written nothing, or
have written the request. -/
def AsksAsTold (p : Sys Unit) (auth : Option UserCredential) (target : ConnectTarget) : Prop :=
  ∀ ω : Oracle sysSig,
    (∃ e l, Prog.run ω.handler p [] = .fail e l ∧ bytesWritten l = []) ∨
      AsksExactly (bytesWritten (Prog.run ω.handler p []).world) auth target

/-- The host is made of the characters of a name, or is an IP literal in brackets. -/
def WrittenAsItIs (host : String) : Prop :=
  (∀ b ∈ utf8 host, isNameByte b = true) ∨ (readLiteral (utf8 host)).isSome = true

instance (host : String) : Decidable (WrittenAsItIs host) := inferInstanceAs (Decidable (_ ∨ _))

/-! ### Hosts -/

section Hosts

variable {host : String}

theorem utf8_of_ipv6 {groups : List ℕ} (h : NetText.parseIpv6Addr host.toList = some groups) :
    (∀ b ∈ utf8 host, NetText.Ipv6Char (Authority.toChar b)) ∧ 0x3A ∈ utf8 host := by
  obtain ⟨hchars, hcolon, -⟩ := NetText.parseIpv6Addr_spec h
  refine ⟨fun b hb => ?_, mem_utf8 (by decide) hcolon⟩
  have hmem := List.mem_map_of_mem (f := Authority.toChar) hb
  rw [Authority.map_toChar_utf8 fun c hc => (hchars c hc).ascii] at hmem
  exact hchars _ hmem

/-- **When a host, written as it is, is read as what it means.** -/
theorem readHost_utf8_iff : readHost (utf8 host) = some (hostNamed host) ↔ WrittenAsItIs host := by
  unfold hostNamed
  cases hv6 : NetText.parseIpv6Addr host.toList with
  | some groups =>
    -- an address without brackets is neither a name nor a literal
    obtain ⟨hchars, hcolon⟩ := utf8_of_ipv6 hv6
    have hliteral : readLiteral (utf8 host) = none := by
      refine Option.eq_none_iff_forall_ne_some.mpr fun h hh => ?_
      have hmem := List.mem_of_mem_head? (Authority.readLiteral_spec hh).1
      have hbracket := hchars _ hmem
      unfold NetText.Ipv6Char at hbracket
      exact absurd hbracket (by decide)
    constructor
    · intro h
      rw [readHost, hliteral, Option.none_or] at h
      obtain ⟨ns, -, hns⟩ := Option.map_eq_some_iff.mp h
      cases hns
    · rintro (hname | hsome)
      · exact absurd (hname _ hcolon) (by decide)
      · rw [hliteral] at hsome
        cases hsome
  | none =>
    simp only [readHost, WrittenAsItIs]
    cases hliteral : readLiteral (utf8 host) with
    | some h => simp
    | none =>
      simp only [Option.none_or, Option.getD_none, Option.isSome_none, Bool.false_eq_true,
        or_false, Option.map_eq_some_iff, Host.name.injEq, exists_eq_right]
      exact Authority.decode_eq_self_iff

theorem WrittenAsItIs.visible (h : WrittenAsItIs host) : ∀ b ∈ utf8 host, isVisible b = true := by
  rcases h with h | h
  · exact fun b hb => Authority.isVisible_of_isNameByte (h b hb)
  · obtain ⟨u, hu⟩ := Option.isSome_iff_exists.mp h
    exact (Authority.readLiteral_spec hu).2.1

/-- **What is before a blank does not mean the whole host**: it is too short for the
name, and an address has no blanks. -/
theorem readHost_before_blank {as name ds r : List UInt8} (hblank : utf8 host = as ++ 0x20 :: r)
    (hname : as = name ++ 0x3A :: ds) : readHost name ≠ some (hostNamed host) := by
  have hmem : 0x20 ∈ utf8 host := by
    rw [hblank]
    exact List.mem_append_right _ List.mem_cons_self
  have hlen : name.length < (utf8 host).length := by
    rw [hblank, hname]
    simp only [List.length_append, List.length_cons]
    omega
  unfold hostNamed
  intro hread
  cases hv6 : NetText.parseIpv6Addr host.toList with
  | some groups =>
    exact absurd (Authority.isVisible_of_ipv6Char ((utf8_of_ipv6 hv6).1 _ hmem)) (by decide)
  | none =>
    cases hliteral : readLiteral (utf8 host) with
    | some u => exact absurd ((Authority.readLiteral_spec hliteral).2.1 _ hmem) (by decide)
    | none =>
      rw [hv6, hliteral] at hread
      rcases Option.or_eq_some_iff.mp hread with hread | ⟨-, hread⟩
      · exact (Authority.readLiteral_spec hread).2.2 _ rfl
      · obtain ⟨ns, hns, heq⟩ := Option.map_eq_some_iff.mp hread
        cases heq
        rcases Authority.decode_spec _ _ hns with ⟨heq, -⟩ | hlt
        · rw [heq] at hlen
          exact absurd hlen (lt_irrefl _)
        · exact absurd (hlen.trans hlt) (lt_irrefl _)

end Hosts

/-! ### The bytes of a request -/

section Bytes

variable {auth : Option UserCredential} {target : ConnectTarget}

theorem readPort_toString (port : UInt16) :
    readPort (utf8 (toString port.toNat)) = some port.toNat := by
  have hascii : ∀ c ∈ (toString port.toNat).toList, c.toNat < 0x80 := by
    intro c hc
    rw [Text.toList_toString] at hc
    have hdigit := Nat.isDigit_of_mem_toDigits (by decide) (by decide) hc
    rw [Char.isDigit, Bool.and_eq_true, decide_eq_true_eq, decide_eq_true_eq] at hdigit
    exact Nat.lt_of_le_of_lt (UInt32.le_iff_toNat_le.mp hdigit.2) (by decide)
  rw [readPort, Authority.map_toChar_utf8 hascii]
  exact Text.parseNat_toString _

theorem reads_authority_iff : Reads (utf8 target.authority) (hostNamed target.host)
    target.port.toNat ↔ WrittenAsItIs target.host := by
  have hport := readPort_toString target.port
  rw [utf8_authority, Authority.reads_append_iff (Authority.readPort_spec hport),
    readHost_utf8_iff]
  exact and_iff_left hport

theorem visible_authority (h : WrittenAsItIs target.host) :
    ∀ b ∈ utf8 target.authority, isVisible b = true := by
  intro b hb
  rw [utf8_authority] at hb
  rcases List.mem_append.mp hb with hb | hb
  · exact h.visible b hb
  rcases List.mem_cons.mp hb with rfl | hb
  · decide
  · obtain ⟨hlow, hhigh⟩ := Authority.readPort_spec (readPort_toString target.port) b hb
    refine Bool.and_eq_true_iff.mpr ⟨decide_eq_true ?_, decide_eq_true ?_⟩
    · exact UInt8.le_trans (by decide : (0x21 : UInt8) ≤ 0x30) hlow
    · exact UInt8.le_trans hhigh (by decide : (0x39 : UInt8) ≤ 0x7E)

theorem utf8_connectHead_eq_block (auth : Option UserCredential) (target : ConnectTarget) :
    utf8 (connectHead auth target) = HttpHead.block
      ((utf8 "CONNECT" ++ 0x20 ::
          (utf8 target.authority ++ 0x20 :: (HttpHead.version ++ [0x31]))) ::
        (utf8 "Host" ++ 0x3A :: 0x20 :: utf8 target.authority) ::
        auth.toList.map fun a =>
          utf8 "Proxy-Authorization" ++ 0x3A :: 0x20 ::
            (utf8 "Basic " ++ utf8 (basicCredentials a))) := by
  have hstart : utf8 "CONNECT " = utf8 "CONNECT" ++ [0x20] := by decide +kernel
  have hmiddle : utf8 " HTTP/1.1\r\nHost: " =
      0x20 :: (HttpHead.version ++ [0x31]) ++ HttpHead.crlf ++ (utf8 "Host" ++ [0x3A, 0x20]) := by
    decide +kernel
  have hcrlf : utf8 "\r\n" = HttpHead.crlf := by decide +kernel
  have hauth : utf8 "Proxy-Authorization: Basic " =
      utf8 "Proxy-Authorization" ++ 0x3A :: 0x20 :: utf8 "Basic " := by decide +kernel
  rw [connectHead, utf8_append, utf8_append, utf8_append, utf8_append, utf8_append, utf8_append,
    hstart, hmiddle, hcrlf]
  cases auth with
  | none =>
    have hnone : utf8 (authorizationLine none) = [] := rfl
    rw [hnone]
    simp only [HttpHead.block, Option.toList_none, List.map_nil, List.append_assoc,
      List.cons_append, List.nil_append]
  | some a =>
    have hsome : utf8 (authorizationLine (some a)) =
        utf8 "Proxy-Authorization" ++ 0x3A :: 0x20 ::
          (utf8 "Basic " ++ utf8 (basicCredentials a)) ++ HttpHead.crlf := by
      refine (utf8_append _ _).trans ?_
      refine (congrArg (· ++ utf8 "\r\n") (utf8_append _ _)).trans ?_
      simp only [hauth, hcrlf, List.append_assoc, List.cons_append]
    rw [hsome]
    simp only [HttpHead.block, Option.toList_some, List.map_cons, List.map_nil, List.append_assoc,
      List.cons_append, List.nil_append]

theorem visible_basicCredentials (auth : UserCredential) :
    utf8 (basicCredentials auth) ≠ [] ∧
      ∀ b ∈ utf8 (basicCredentials auth), isVisible b = true := by
  have hall : ∀ c ∈ '=' :: Base64.alphabet,
      c.toNat < 0x80 ∧ isVisible (UInt8.ofNat c.toNat) = true :=
    forall_mem_of_all (by decide +kernel)
  have hmem := Base64.mem_encode (utf8 (auth.username ++ ":" ++ auth.password))
  rw [basicCredentials, utf8_ascii fun c hc => (hall c (hmem c hc)).1]
  constructor
  · intro hnil
    refine Base64.encode_ne_nil ?_ (List.map_eq_nil_iff.mp hnil)
    rw [utf8_append, utf8_append]
    simp [show utf8 ":" = [0x3A] from rfl]
  · intro b hb
    obtain ⟨c, hc, rfl⟩ := List.mem_map.mp hb
    exact (hall c (hmem c hc)).2

theorem isValueByte_of_isVisible {b : UInt8} (h : isVisible b = true) :
    HttpHead.isValueByte b = true := by
  rw [HttpHead.isValueByte, h]
  rfl

theorem exists_authorizationField (auth : UserCredential) : ∃ f : Field,
    f.line = utf8 "Proxy-Authorization" ++ 0x3A :: 0x20 ::
      (utf8 "Basic " ++ utf8 (basicCredentials auth)) ∧
    (f.name.map foldByte, f.content) =
      (utf8 "proxy-authorization", utf8 "Basic " ++ utf8 (basicCredentials auth)) ∧
    ∀ b ∈ f.value, HttpHead.isValueByte b = true := by
  obtain ⟨hne, hvisible⟩ := visible_basicCredentials auth
  have hscheme : ∀ b ∈ utf8 "Basic ", HttpHead.isValueByte b = true := by decide +kernel
  have hfold : (utf8 "Proxy-Authorization").map foldByte = utf8 "proxy-authorization" := by
    decide +kernel
  have hclean : ∀ b ∈ utf8 "Basic " ++ utf8 (basicCredentials auth),
      HttpHead.isValueByte b = true := by
    intro b hb
    rcases List.mem_append.mp hb with hb | hb
    · exact hscheme b hb
    · exact isValueByte_of_isVisible (hvisible b hb)
  have hlast : isVisible ((utf8 "Basic " ++ utf8 (basicCredentials auth)).getLast
      (List.append_ne_nil_of_right_ne_nil _ hne)) = true := by
    rw [List.getLast_append_of_ne_nil _ hne]
    exact hvisible _ (List.getLast_mem hne)
  obtain ⟨f, hname, hcontent, hline, hvalue⟩ := @HttpHead.exists_field (utf8 "Proxy-Authorization")
    _ (by decide +kernel) (by decide +kernel) _ hclean rfl hlast
  exact ⟨f, hline, by rw [hname, hcontent, hfold], hvalue⟩

theorem exists_hostField (h : WrittenAsItIs target.host) : ∃ f : Field,
    f.line = utf8 "Host" ++ 0x3A :: 0x20 :: utf8 target.authority ∧
    (f.name.map foldByte, f.content) = (utf8 "host", utf8 target.authority) ∧
    ∀ b ∈ f.value, HttpHead.isValueByte b = true := by
  have hvisible := visible_authority h
  have hne : utf8 target.authority ≠ [] := by
    rw [utf8_authority]
    simp
  have hfold : (utf8 "Host").map foldByte = utf8 "host" := by decide +kernel
  obtain ⟨f, hname, hcontent, hline, hvalue⟩ := @HttpHead.exists_field (utf8 "Host") _
    (by decide +kernel) (by decide +kernel) hne
    (fun b hb => isValueByte_of_isVisible (hvisible b hb))
    (hvisible _ (List.head_mem hne)) (hvisible _ (List.getLast_mem hne))
  exact ⟨f, hline, by rw [hname, hcontent, hfold], hvalue⟩

/-- **A host written as it is makes a request that asks for the target.** -/
theorem exists_head (h : WrittenAsItIs target.host) : ∃ head : RequestHead,
    head.bytes = utf8 (connectHead auth target) ∧ AsksFor head auth target := by
  obtain ⟨host, hline, hhost, hclean⟩ := exists_hostField h
  obtain ⟨fields, hlines, hentries, hfields⟩ : ∃ fields : List Field,
      fields.map Field.line = auth.toList.map (fun a => utf8 "Proxy-Authorization" ++ 0x3A ::
        0x20 :: (utf8 "Basic " ++ utf8 (basicCredentials a))) ∧
      (fields.map fun f => (f.name.map foldByte, f.content)) = authorizationFields auth ∧
      ∀ f ∈ fields, ∀ b ∈ f.value, HttpHead.isValueByte b = true := by
    cases auth with
    | none => exact ⟨[], rfl, rfl, nofun⟩
    | some a =>
      obtain ⟨f, hf, hentry, hvalue⟩ := exists_authorizationField a
      refine ⟨[f], congrArg (fun l => [l]) hf, congrArg (fun e => [e]) hentry, fun g hg => ?_⟩
      obtain rfl := List.mem_singleton.mp hg
      exact hvalue
  have hne : utf8 target.authority ≠ [] := by
    rw [utf8_authority]
    simp
  let head : RequestHead :=
    { method := utf8 "CONNECT"
      target := utf8 target.authority
      minor := 0x31
      fields := host :: fields
      method_ne := by decide +kernel
      method_token := by decide +kernel
      target_ne := hne
      target_visible := visible_authority h
      minor_digit := by decide
      clean := fun f hf => by
        rcases List.mem_cons.mp hf with rfl | hf
        · exact hclean
        · exact hfields f hf }
  refine ⟨head, ?_, rfl, reads_authority_iff.mpr h, ?_⟩
  · rw [utf8_connectHead_eq_block, ← hlines, ← hline]
    rfl
  · show ((host :: fields).map fun f => (f.name.map foldByte, f.content)).Perm _
    rw [List.map_cons, hhost, hentries]

/-- **A request that asks for the target has its host written as it is.** -/
theorem WrittenAsItIs.of_asksFor {head : RequestHead} (hasks : AsksFor head auth target)
    (hbytes : utf8 (connectHead auth target) = head.bytes) : WrittenAsItIs target.host := by
  have hblank : 0x20 ∉ head.target := fun hm => absurd (head.target_visible _ hm) (by decide)
  -- what follows the method begins with the target and a blank, on both sides
  obtain ⟨r, r', hline⟩ : ∃ r r',
      utf8 target.authority ++ 0x20 :: r = head.target ++ 0x20 :: r' := by
    rw [utf8_connectHead_eq_block, RequestHead.bytes, RequestHead.lines,
      RequestHead.requestLine, hasks.method] at hbytes
    simp only [HttpHead.block, List.append_assoc, List.cons_append] at hbytes
    exact ⟨_, _, (List.cons.inj (List.append_cancel_left hbytes)).2⟩
  have hdigits : 0x20 ∉ 0x3A :: utf8 (toString target.port.toNat) := by
    intro hm
    rcases List.mem_cons.mp hm with hm | hm
    · exact absurd hm (by decide)
    · exact absurd (Authority.readPort_spec (readPort_toString target.port) _ hm).1 (by decide)
  have hreads := hasks.authority
  by_cases hspace : 0x20 ∈ utf8 target.host
  · -- the target ends at the first blank of the host
    obtain ⟨as, bs, hhost, has⟩ := List.eq_append_cons_of_mem hspace
    rw [utf8_authority, hhost, List.append_assoc, List.append_assoc, List.cons_append] at hline
    obtain ⟨rfl, -⟩ := HttpHead.before_append_inj has hblank hline
    obtain ⟨name, ds, hname, hread, -⟩ := hreads
    exact absurd hread (readHost_before_blank hhost hname)
  · have hauthority : 0x20 ∉ utf8 target.authority := by
      rw [utf8_authority]
      intro hm
      rcases List.mem_append.mp hm with hm | hm
      · exact hspace hm
      · exact hdigits hm
    obtain ⟨heq, -⟩ := HttpHead.before_append_inj hauthority hblank hline
    rw [← heq] at hreads
    exact reads_authority_iff.mp hreads

/-- **The request asks for exactly what it should** when the host is written as it is. -/
theorem asksExactly_connectHead : AsksExactly (utf8 (connectHead auth target)) auth target ↔
    WrittenAsItIs target.host := by
  constructor
  · rintro ⟨head, hasks, hunique⟩
    have hbytes := (hunique head []).mpr ⟨rfl, rfl⟩
    rw [List.append_nil] at hbytes
    exact .of_asksFor hasks hbytes
  · intro h
    obtain ⟨head, hbytes, hasks⟩ := @exists_head auth target h
    refine ⟨head, hasks, fun head' rest => ?_⟩
    rw [← hbytes]
    exact RequestHead.bytes_eq_append_iff

end Bytes

/-! ### The functions that send it -/

section Runs

variable {ω : Oracle sysSig} {auth : Option UserCredential} {target : ConnectTarget}

theorem bytesWritten_append (l l' : History sysSig) :
    bytesWritten (l ++ l') = bytesWritten l ++ bytesWritten l' := by
  induction l with
  | nil => rfl
  | cons e l ih => rw [List.cons_append, bytesWritten, bytesWritten, ih, List.append_assoc]

theorem bytesWritten_of_calls {α : Type} {p : Sys α} (hp : Calls NoWrite p) (l : History sysSig) :
    bytesWritten (Prog.run ω.handler p l).world = bytesWritten l := by
  refine @Calls.keeps _ _ _ _ ω.handler NoWrite (fun s => bytesWritten s = bytesWritten l) p hp
    ?_ l rfl
  intro o s x s' ho hx hs
  cases hx
  have hnone : bytesWritten [⟨o, ω s o⟩] = [] := by
    rw [bytesWritten, bytesWritten, List.append_nil]
    split
    · rename_i bs hbs
      exact absurd hbs (ho bs)
    · rfl
  rw [bytesWritten_append, hs, hnone, List.append_nil]

/-- **The handshake writes the request**, whatever comes of it. -/
theorem bytesWritten_httpHandshake (l : History sysSig) :
    bytesWritten (Prog.run ω.handler (httpHandshake auth target) l).world =
      bytesWritten l ++ utf8 (connectHead auth target) := by
  have hread : Calls NoWrite readConnectResponse := by
    refine (Calls.perform fun _ => nofun).bind fun r => ?_
    exact (Calls.ofExcept _ r).bind fun buf => Calls.ensure _ _
  let request : sysSig.Op := .inl (.writeAll (utf8 (connectHead auth target)))
  have hrun : Prog.run ω.handler (httpHandshake auth target) l =
      Prog.run ω.handler (Prog.ofExcept .io (ω l request) >>= fun _ => readConnectResponse)
        (l ++ [⟨request, ω l request⟩]) := rfl
  rw [hrun, bytesWritten_of_calls ((Calls.ofExcept _ _).bind fun _ => hread), bytesWritten_append]
  exact congrArg _ (List.append_nil _)

theorem bytesWritten_of_reached {reach : Sys Unit} (hreach : Calls NoWrite reach)
    {l : History sysSig} (hrun : Prog.run ω.handler reach [] = .ret () l) :
    bytesWritten (Prog.run ω.handler (reach >>= fun _ => httpHandshake auth target) []).world =
      utf8 (connectHead auth target) := by
  have hnone := @bytesWritten_of_calls ω _ reach hreach []
  rw [hrun] at hnone
  rw [Prog.run_bind, hrun]
  exact (bytesWritten_httpHandshake l).trans (congrArg (· ++ _) hnone)

theorem fails_or_bytesWritten {reach : Sys Unit} (hreach : Calls NoWrite reach) :
    (∃ e l, Prog.run ω.handler (reach >>= fun _ => httpHandshake auth target) [] = .fail e l ∧
      bytesWritten l = []) ∨
    bytesWritten (Prog.run ω.handler (reach >>= fun _ => httpHandshake auth target) []).world =
      utf8 (connectHead auth target) := by
  have hnone := @bytesWritten_of_calls ω _ reach hreach []
  cases hrun : Prog.run ω.handler reach [] with
  | ret a l => exact Or.inr (bytesWritten_of_reached hreach hrun)
  | fail e l =>
    rw [hrun] at hnone
    exact Or.inl ⟨e, l, by rw [Prog.run_bind, hrun]; rfl, hnone⟩
  | stuck l => exact absurd hrun (run_oracle_ne_stuck _ _ _)

/-- **All of them reach the proxy without a write**, if the world agrees, and then
ask it. -/
theorem SendsConnect.exists_reach {p : Sys Unit} (hp : SendsConnect auth target p) :
    ∃ reach : Sys Unit, p = (reach >>= fun _ => httpHandshake auth target) ∧
      Calls NoWrite reach ∧ ∃ l, Prog.run agreeable.handler reach [] = .ret () l := by
  cases hp with
  | chained tls => exact ⟨.ret (), rfl, trivial, [], rfl⟩
  | connector c hauth =>
    subst hauth
    refine ⟨sys (.tcpConnect c.proxyAddr) >>= fun r => Prog.ofExcept (fun e => .upstream
      ("Failed to connect to HTTP proxy " ++ c.proxyAddr ++ ": " ++ e.display)) r >>= fun _ =>
        secure c.useTls c.proxyAddr, ?_, ?_, ?_⟩
    · simp only [bind_assoc]
      rfl
    · refine (Calls.perform fun _ => nofun).bind fun r => ?_
      exact (Calls.ofExcept _ r).bind fun _ => calls_secure _ _
    · simp only [secure]
      split
      · exact ⟨_, rfl⟩
      · exact ⟨_, rfl⟩

theorem SendsConnect.asksExactly {p : Sys Unit} (hp : SendsConnect auth target p)
    (h : AsksAsTold p auth target) :
    AsksExactly (utf8 (connectHead auth target)) auth target := by
  obtain ⟨reach, rfl, hreach, l, hl⟩ := hp.exists_reach
  have hagree := @bytesWritten_of_reached agreeable auth target reach hreach l hl
  rcases h agreeable with ⟨e, l, hrun, hnone⟩ | hasks
  · rw [hrun] at hagree
    have hempty : utf8 (connectHead auth target) = [] := hagree.symm.trans hnone
    rw [utf8_connectHead_eq_block, HttpHead.block] at hempty
    simp at hempty
  · rwa [hagree] at hasks

end Runs

/-- **When the request asks for the target as it should**: exactly if the host is
made of the characters of a name, or is an IP literal that has its brackets. -/
theorem asks_as_told_iff {auth : Option UserCredential} {target : ConnectTarget} {p : Sys Unit}
    (hp : SendsConnect auth target p) : AsksAsTold p auth target ↔ WrittenAsItIs target.host := by
  constructor
  · intro h
    exact asksExactly_connectHead.mp (hp.asksExactly h)
  · intro h ω
    obtain ⟨reach, rfl, hreach, -⟩ := hp.exists_reach
    rcases @fails_or_bytesWritten ω auth target reach hreach with hfail | hbytes
    · exact Or.inl hfail
    · rw [hbytes]
      exact Or.inr (asksExactly_connectHead.mpr h)

theorem asks_as_told_bracketed :
    AsksAsTold (HttpProxyConnector.connect ⟨"127.0.0.1:3128", some ⟨"user", "secret"⟩, true⟩
      ⟨"[::1]", 443⟩) (some ⟨"user", "secret"⟩) ⟨"[::1]", 443⟩ :=
  (asks_as_told_iff (.connector _ rfl)).mpr (by decide +kernel)

/-- **Two targets that a SOCKS5 client can name and no request asks for**: an IPv6
address, which is written without brackets, and a domain with a line break in it. -/
theorem unbracketed_and_broken :
    let ip : Ipv6Addr := ⟨[0, 0, 0, 0, 0, 0, 0, 0, 0, 0, 0, 0, 0, 0, 0, 1], rfl⟩
    ((TargetAddr.ipv6 ip 443).connectTarget .core = ⟨"::1", 443⟩ ∧
      ¬ AsksAsTold (performHttpHandshake none none ⟨"::1", 443⟩) none ⟨"::1", 443⟩) ∧
    (TargetAddr.domain "a\r\nb" 443).connectTarget .core = ⟨"a\r\nb", 443⟩ ∧
      ¬ AsksAsTold (performHttpHandshake none none ⟨"a\r\nb", 443⟩) none ⟨"a\r\nb", 443⟩ := by
  have hno : ∀ target : ConnectTarget, ¬ WrittenAsItIs target.host →
      ¬ AsksAsTold (performHttpHandshake none none target) none target :=
    fun target h hasks => h (asksExactly_connectHead.mp
      (SendsConnect.asksExactly (.chained none) hasks))
  intro ip
  refine ⟨⟨by decide +kernel, hno _ ?_⟩, rfl, hno _ ?_⟩
  · decide +kernel
  · decide +kernel

end Peregrine
