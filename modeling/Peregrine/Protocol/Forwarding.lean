import Mathlib.Data.List.DropRight
import Peregrine.Protocol.HttpHandler
import Peregrine.Upstream.Chain

/-!
# What the HTTP handler forwards

A request with an absolute URI names its origin twice, in the URI and in `Host`,
and its header fields are partly meant for the proxy alone.  `proxyRequest` dials
the host of the URI and sends one request there (`calls_proxyRequest_iff`).

* `origin_named_iff` says when that request names the origin it is sent to: the
  `Host` fields of the client are passed on as they are, and a missing port is
  taken for 80 whatever the scheme.
* `forwarded_headers_iff` says when exactly the fields of the connection are
  removed: the fixed set is, but not what a `Connection` field adds to it, and the
  header map brings the fields of one name together.

The fields of a request are listed as they came, and those that are sent as they go.
-/

namespace Peregrine

open Prog (Calls)

/-! ### Field values -/

/-- An ASCII letter in lower case. -/
def foldByte (b : UInt8) : UInt8 := if 0x41 ≤ b ∧ b ≤ 0x5A then b + 0x20 else b

/-- The members of a comma-separated list, without blanks around them and with
ASCII letters in lower case. -/
def listMembers (value : List UInt8) : List (List UInt8) :=
  let blank := fun b : UInt8 => b == 0x20 || b == 0x09
  (value.splitOn 0x2C).map fun member => ((member.dropWhile blank).rdropWhile blank).map foldByte

/-- The value of a `Host` field names a host and a port; `default` is the port
of a value without one. -/
inductive NamesOrigin (host : String) (port default : UInt16) : List UInt8 → Prop
  | bare {name : List UInt8} (hname : name.map foldByte = (utf8 host).map foldByte)
    (hport : port = default) : NamesOrigin host port default name
  | emptyPort {name : List UInt8} (hname : name.map foldByte = (utf8 host).map foldByte)
    (hport : port = default) : NamesOrigin host port default (name ++ [0x3A])
  | withPort {name : List UInt8} {digits : String}
    (hname : name.map foldByte = (utf8 host).map foldByte)
    (hport : Text.parseNat 10 digits.toList = some port.toNat) :
    NamesOrigin host port default (name ++ 0x3A :: utf8 digits)

theorem namesOrigin_authority (host : String) (port default : UInt16) :
    NamesOrigin host port default (utf8 (ConnectTarget.authority ⟨host, port⟩)) := by
  rw [utf8_authority]
  exact .withPort rfl (Text.parseNat_toString _)

theorem NamesOrigin.prefix_host {host : String} {port default : UInt16} {value : List UInt8}
    (h : NamesOrigin host port default value) :
    (utf8 host).map foldByte <+: value.map foldByte := by
  cases h with
  | bare hname _ => rw [hname]
  | emptyPort hname _ =>
    rw [List.map_append, hname]
    exact List.prefix_append _ _
  | withPort hname _ =>
    rw [List.map_append, hname]
    exact List.prefix_append _ _

theorem authority_inj {t t' : ConnectTarget} (h : t.authority = t'.authority) : t = t' := by
  have hparse := parseAddrToTarget_authority t
  rw [h, parseAddrToTarget_authority] at hparse
  exact (Except.ok.inj hparse).symm

namespace HttpHandler

/-! ### What is asked for -/

/-- **A forwarded request is dialled, sent and answered once.** -/
theorem calls_proxyRequest_iff {P : sysSig.Op → Prop} {req : HttpRequest} :
    Calls P (proxyRequest req) ↔ ∀ target, forwardTarget req = some target →
      P (.inr (.tcpConnect target.authority)) ∧ P (.inr .clientHandshake) ∧
      P (.inr (.sendRequest (forwardedReq req target))) ∧ P (.inr .collect) := by
  unfold proxyRequest
  cases ht : forwardTarget req with
  | none =>
    refine iff_of_true trivial fun target h => ?_
    cases h
  | some target =>
    simp only [Option.some.injEq, forall_eq']
    rw [attempt_connect_bind]
    constructor
    · rintro ⟨hdial, hrest⟩
      have hforward := hrest (.ok ())
      have hsend := (hforward.2 (.ok ())).2 (.ok ⟨200, []⟩)
      exact ⟨hdial, hforward.1, (hforward.2 (.ok ())).1, hsend.1⟩
    · rintro ⟨hdial, hclient, hsend, hcollect⟩
      refine ⟨hdial, fun r => ?_⟩
      cases r with
      | error e => trivial
      | ok u =>
        refine (calls_hyper rfl hclient).bind fun _ => ?_
        refine (calls_hyper rfl hsend).bind fun parts => ?_
        exact (calls_hyper rfl hcollect).bind fun body => trivial

/-! ### Host -/

def hostValues (headers : List Header) : List (List UInt8) :=
  (headers.filter (·.1 == "host")).map Prod.snd

/-- An operation of the handler goes to the origin and names it: a dial is one
to `host` and `port`, and a request has one `Host` that says so. -/
def NamesItsOrigin (host : String) (port default : UInt16) : sysSig.Op → Prop
  | .inr (.tcpConnect addr) => addr = ConnectTarget.authority ⟨host, port⟩
  | .inr (.sendRequest sent) =>
    ∃ value, hostValues sent.headers = [value] ∧ NamesOrigin host port default value
  | _ => True

/-- Whatever is forwarded names its origin, where `default` is the default port
of the scheme. -/
def OriginNamed (req : HttpRequest) (default : UInt16) : Prop :=
  ∀ host, req.uri.host = some host →
    Calls (NamesItsOrigin host (req.uri.port.getD default) default) (proxyRequest req)

theorem isHopByHop_host : isHopByHop "host" = false := by
  have hlower : "host".toLower = "host" := Text.toLower_eq_iff.mpr (by decide)
  rw [isHopByHop, hlower]
  decide

theorem filter_host_headerMap (headers : List Header) :
    (headerMap headers).filter (·.1 == "host") = headers.filter (·.1 == "host") := by
  rw [headerMap, Grouped.filter_grouped (· == "host")]
  exact Grouped.grouped_of_key fun h hmem => eq_of_beq (List.mem_filter.mp hmem).2

theorem hostValues_forwardedHeaders (req : HttpRequest) (target : ConnectTarget) :
    hostValues (forwardedHeaders req target) =
      if hostValues req.headers = [] then [utf8 target.authority] else hostValues req.headers := by
  have hkept : ((headerMap req.headers).filter fun h => !isHopByHop h.1).filter (·.1 == "host") =
      req.headers.filter (·.1 == "host") := by
    rw [List.filter_filter, ← filter_host_headerMap req.headers]
    refine List.filter_congr fun h _ => ?_
    cases hname : h.1 == "host" with
    | false => rfl
    | true =>
      rw [eq_of_beq hname, isHopByHop_host]
      rfl
  have hany : req.headers.any (·.1 == "host") = true ↔ hostValues req.headers ≠ [] := by
    rw [hostValues, ne_eq, List.map_eq_nil_iff, List.filter_eq_nil_iff, List.any_eq_true]
    simp only [not_forall, not_not, exists_prop]
  rw [forwardedHeaders]
  by_cases hhost : hostValues req.headers = []
  · rw [if_pos hhost, if_neg (fun h => hany.mp h hhost), hostValues, List.filter_append, hkept,
      List.map_append]
    rw [hostValues] at hhost
    rw [hhost]
    rfl
  · rw [if_neg hhost, if_pos (hany.mpr hhost), hostValues, hkept, hostValues]

theorem originNamed_iff {req : HttpRequest} {default : UInt16} :
    OriginNamed req default ↔ ∀ host, req.uri.host = some host →
      (req.uri.port = none → default = 80) ∧
      (hostValues req.headers = [] ∨ ∃ value, hostValues req.headers = [value] ∧
        NamesOrigin host (req.uri.port.getD default) default value) := by
  refine forall_congr' fun host => forall_congr' fun hhost => ?_
  have htarget : forwardTarget req = some ⟨host, req.uri.port.getD 80⟩ := by
    rw [forwardTarget, hhost]
    rfl
  rw [calls_proxyRequest_iff, htarget]
  simp only [Option.some.injEq, forall_eq', NamesItsOrigin, true_and, and_true, forwardedReq,
    hostValues_forwardedHeaders]
  have hport : ConnectTarget.authority ⟨host, req.uri.port.getD 80⟩ =
      ConnectTarget.authority ⟨host, req.uri.port.getD default⟩ ↔
      (req.uri.port = none → default = 80) := by
    constructor
    · intro h hnone
      have ht := authority_inj h
      rw [hnone] at ht
      exact (ConnectTarget.mk.inj ht).2.symm
    · intro h
      cases hp : req.uri.port with
      | none => rw [h hp]
      | some p => rfl
  rw [hport]
  refine and_congr_right fun hdefault => ?_
  by_cases hvalues : hostValues req.headers = []
  · rw [if_pos hvalues]
    refine iff_of_true ⟨_, rfl, ?_⟩ (Or.inl hvalues)
    rw [hport.mpr hdefault]
    exact namesOrigin_authority host _ _
  · rw [if_neg hvalues, or_iff_right hvalues]

/-- **When a forwarded request names its origin.**  For every request with an
absolute URI, whatever its scheme and the default ports of the schemes: what is
dialled is the host and port of the URI, and the one `Host` of what is sent names
them, exactly if the URI has a port or the default of its scheme is 80, and the
client sends no `Host`, or one and it names them. -/
theorem origin_named_iff (defaultPort : String → UInt16) (scheme : String) (req : HttpRequest) :
    OriginNamed req (defaultPort scheme) ↔ ∀ host, req.uri.host = some host →
      (req.uri.port = none → defaultPort scheme = 80) ∧
      (hostValues req.headers = [] ∨ ∃ value, hostValues req.headers = [value] ∧
        NamesOrigin host (req.uri.port.getD (defaultPort scheme)) (defaultPort scheme) value) :=
  originNamed_iff

/-- `GET http://a.example/` with the `Host` of another origin. -/
def otherHost : HttpRequest where
  method := "GET"
  uri := ⟨some "a.example", some "a.example", none, some "/"⟩
  version := .http11
  headers := [("host", utf8 "b.example")]
  body := []

/-- **A client's `Host` goes to another origin**: `a.example` is dialled, and
asked for `b.example`. -/
theorem host_of_client_is_forwarded : ¬ OriginNamed otherHost 80 := by
  intro h
  rcases (originNamed_iff.mp h "a.example" rfl).2 with hnil | ⟨value, hvalue, hnames⟩
  · cases hnil
  · have hv : utf8 "b.example" = value := (List.cons.inj hvalue).1
    rw [← hv] at hnames
    exact absurd hnames.prefix_host (by decide)

/-! ### Fields of the connection -/

/-- What the `Connection` fields list. -/
def connectionOptions (headers : List Header) : List (List UInt8) :=
  (headers.filter (Text.foldCase ·.1 == "connection".toList)).flatMap fun h => listMembers h.2

/-- A `Connection` field nominates the name. -/
def nominated (headers : List Header) (name : String) : Bool :=
  (connectionOptions headers).contains ((utf8 name).map foldByte)

/-- The fields of a request that are not for the connection alone, and `Host` if
it was absent. -/
def endToEnd (req : HttpRequest) (target : ConnectTarget) : List Header :=
  (req.headers.filter fun h => !(isHopByHop h.1 || nominated req.headers h.1)) ++
    if req.headers.any (·.1 == "host") then [] else [("host", utf8 target.authority)]

/-- A request is sent with exactly its end-to-end fields. -/
def SendsEndToEnd (req : HttpRequest) (target : ConnectTarget) : sysSig.Op → Prop
  | .inr (.sendRequest sent) => sent.headers = endToEnd req target
  | _ => True

/-- No request is sent with a `Proxy-Authorization`. -/
def WithholdsCredential : sysSig.Op → Prop
  | .inr (.sendRequest sent) => ∀ h ∈ sent.headers, Text.foldCase h.1 ≠ "proxy-authorization".toList
  | _ => True

theorem isHopByHop_proxyAuthorization {name : String}
    (h : Text.foldCase name = "proxy-authorization".toList) : isHopByHop name = true := by
  rw [isHopByHop, Text.toLower_eq_iff.mpr h]
  decide

theorem withholdsCredential (req : HttpRequest) :
    Calls WithholdsCredential (proxyRequest req) := by
  refine calls_proxyRequest_iff.mpr fun target _ => ⟨trivial, trivial, ?_, trivial⟩
  intro h hmem hname
  have hkept : h ∈ (headerMap req.headers).filter (fun h => !isHopByHop h.1) → False := fun hk => by
    have := (List.mem_filter.mp hk).2
    rw [isHopByHop_proxyAuthorization hname] at this
    cases this
  simp only [forwardedReq, forwardedHeaders] at hmem
  split at hmem
  · exact hkept hmem
  · rcases List.mem_append.mp hmem with hk | hhost
    · exact hkept hk
    · obtain rfl := List.mem_singleton.mp hhost
      have hne : Text.foldCase "host" ≠ "proxy-authorization".toList := by decide
      exact hne hname

theorem filter_headerMap (headers : List Header) :
    (headerMap headers).filter (fun h => !isHopByHop h.1) =
      headerMap (headers.filter fun h => !isHopByHop h.1) :=
  Grouped.filter_grouped (!isHopByHop ·)

/-- Nothing is nominated that is kept, and the map leaves what is kept in its order. -/
theorem forwardedHeaders_eq_endToEnd {req : HttpRequest} {target : ConnectTarget} :
    forwardedHeaders req target = endToEnd req target ↔
      (∀ h ∈ req.headers, nominated req.headers h.1 = true → isHopByHop h.1 = true) ∧
        Grouped.Together Prod.fst (req.headers.filter fun h => !isHopByHop h.1) := by
  have hsplit : forwardedHeaders req target =
      headerMap (req.headers.filter fun h => !isHopByHop h.1) ++
        if req.headers.any (·.1 == "host") then [] else [("host", utf8 target.authority)] := by
    rw [forwardedHeaders, filter_headerMap]
    split
    · rw [List.append_nil]
    · rfl
  rw [hsplit, endToEnd, List.append_cancel_right_eq, ← Grouped.grouped_eq_self_iff]
  have hend : (∀ h ∈ req.headers, nominated req.headers h.1 = true → isHopByHop h.1 = true) →
      (req.headers.filter fun h => !(isHopByHop h.1 || nominated req.headers h.1)) =
        req.headers.filter fun h => !isHopByHop h.1 := by
    intro hall
    refine List.filter_congr fun h hmem => ?_
    cases hnom : nominated req.headers h.1 with
    | false => rw [Bool.or_false]
    | true => rw [hall h hmem hnom, Bool.true_or]
  constructor
  · intro heq
    have hall : ∀ h ∈ req.headers, nominated req.headers h.1 = true → isHopByHop h.1 = true := by
      intro h hmem hnom
      by_contra hhop
      have hkept : h ∈ headerMap (req.headers.filter fun h => !isHopByHop h.1) :=
        Grouped.mem_grouped.mpr
          (List.mem_filter.mpr ⟨hmem, by rw [Bool.eq_false_iff.mpr hhop]; rfl⟩)
      rw [heq] at hkept
      have hdrop := (List.mem_filter.mp hkept).2
      rw [hnom, Bool.or_true] at hdrop
      cases hdrop
    exact ⟨hall, heq.trans (hend hall)⟩
  · rintro ⟨hall, htogether⟩
    exact Eq.trans htogether (hend hall).symm

/-- **When exactly the fields of the connection are removed.**  For every list of
header fields: what is sent upstream is the list without the fields of the fixed
set and without those a `Connection` field nominates, whatever their case, and
with `Host` if it was absent, exactly if each field that is nominated and present
belongs to the fixed set, and the fields of one name that do not belong to it stand
together.  A `Proxy-Authorization` is never sent. -/
theorem forwarded_headers_iff (req : HttpRequest) :
    ((∀ target, forwardTarget req = some target →
        Calls (SendsEndToEnd req target) (proxyRequest req)) ↔
      req.uri.host = none ∨
        (∀ h ∈ req.headers, nominated req.headers h.1 = true → isHopByHop h.1 = true) ∧
          Grouped.Together Prod.fst (req.headers.filter fun h => !isHopByHop h.1)) ∧
    Calls WithholdsCredential (proxyRequest req) := by
  refine ⟨?_, withholdsCredential req⟩
  cases hhost : req.uri.host with
  | none =>
    refine iff_of_true (fun target ht => ?_) (Or.inl rfl)
    rw [forwardTarget, hhost] at ht
    cases ht
  | some host =>
    have htarget : forwardTarget req = some ⟨host, req.uri.port.getD 80⟩ := by
      rw [forwardTarget, hhost]
      rfl
    rw [or_iff_right (Option.some_ne_none host), htarget]
    simp only [Option.some.injEq, forall_eq', calls_proxyRequest_iff, htarget]
    rw [← @forwardedHeaders_eq_endToEnd req ⟨host, req.uri.port.getD 80⟩]
    exact ⟨fun h => h.2.2.1, fun h => ⟨trivial, trivial, h, trivial⟩⟩

/-- A request that keeps `x-session` for its connection. -/
def nominatingSession : HttpRequest where
  method := "GET"
  uri := ⟨some "a.example", some "a.example", none, some "/"⟩
  version := .http11
  headers := [("host", utf8 "a.example"), ("connection", utf8 "close, X-Session"),
    ("x-session", utf8 "secret")]
  body := []

/-- **A nominated field reaches the origin.** -/
theorem nominated_field_is_forwarded :
    forwardTarget nominatingSession = some ⟨"a.example", 80⟩ ∧
    ¬ Calls (SendsEndToEnd nominatingSession ⟨"a.example", 80⟩)
      (proxyRequest nominatingSession) := by
  refine ⟨rfl, fun h => ?_⟩
  have hsent := (calls_proxyRequest_iff.mp h ⟨"a.example", 80⟩ rfl).2.2.1
  have heq : forwardedHeaders nominatingSession ⟨"a.example", 80⟩ =
      endToEnd nominatingSession ⟨"a.example", 80⟩ := hsent
  have hall := (forwardedHeaders_eq_endToEnd.mp heq).1 ("x-session", utf8 "secret")
    (by decide) (by decide)
  have hlower : "x-session".toLower = "x-session" := Text.toLower_eq_iff.mpr (by decide)
  rw [isHopByHop, hlower] at hall
  exact absurd hall (by decide)

end HttpHandler

end Peregrine
