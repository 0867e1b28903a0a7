import Peregrine.Upstream.ConnectRequest

/-!
# The two ends of Basic authentication

The credential that `upstream/http_proxy.rs` and the handshake of
`upstream/chain.rs` write, read by `check_proxy_auth`.  The writer joins username
and password with a colon and the reader cuts at the first one, so what arrives is
`UserCredential.atFirstColon`: the credential itself if its username has no colon,
and another one if it has (`atFirstColon_eq_self_iff`).

`carries_of_sent` is the way from the bytes on the connection to the header that
is checked.
-/

namespace Peregrine

open HttpHead (RequestHead)
open Prog (Oracle)

/-- The first `Proxy-Authorization` header has the value written for the credential. -/
def Carries (headers : List Header) (cred : UserCredential) : Prop :=
  (headers.find? (·.1 == "proxy-authorization")).map (·.2) =
    some (utf8 "Basic " ++ utf8 (basicCredentials cred))

instance (headers : List Header) (cred : UserCredential) : Decidable (Carries headers cred) :=
  inferInstanceAs (Decidable (_ = _))

/-- The headers of a head, as hyper hands them over. -/
def Received (head : RequestHead) (headers : List Header) : Prop :=
  headers.map (fun h => (utf8 h.1, h.2)) =
    head.fields.map fun f => (f.name.map foldByte, f.content)

/-- The credential cut where the first colon of `username:password` is. -/
def UserCredential.atFirstColon (cred : UserCredential) : UserCredential :=
  ((splitColon (cred.username ++ ":" ++ cred.password).toList).map fun cut =>
    UserCredential.mk (String.ofList cut.1) (String.ofList cut.2)).getD cred

section

variable {cred : UserCredential} {headers : List Header} {users : List UserCredential}

/-! ### What is read -/

theorem exists_splitColon (cred : UserCredential) : ∃ before after,
    splitColon (cred.username ++ ":" ++ cred.password).toList = some (before, after) ∧
      cred.atFirstColon = ⟨String.ofList before, String.ofList after⟩ := by
  have hmem : ':' ∈ (cred.username ++ ":" ++ cred.password).toList := by
    rw [String.toList_append, String.toList_append]
    exact List.mem_append_left _ (List.mem_append_right _ List.mem_cons_self)
  obtain ⟨before, after, htext, hcolon⟩ := List.eq_append_cons_of_mem hmem
  have hsplit := splitColon_eq_some.mpr ⟨hcolon, htext⟩
  refine ⟨before, after, hsplit, ?_⟩
  rw [UserCredential.atFirstColon, hsplit, Option.map_some, Option.getD_some]

theorem atFirstColon_eq_self_iff : cred.atFirstColon = cred ↔ ':' ∉ cred.username.toList := by
  obtain ⟨before, after, hsplit, heq⟩ := exists_splitColon cred
  constructor
  · intro h
    rw [← h, heq, String.toList_ofList]
    exact (splitColon_eq_some.mp hsplit).1
  · intro h
    have hown := splitColon_toList_eq_some.mpr
      ⟨h, Eq.refl (cred.username ++ ":" ++ cred.password)⟩
    rw [UserCredential.atFirstColon, hown, Option.map_some, Option.getD_some,
      String.ofList_toList, String.ofList_toList]

theorem trim_eq_self {cs : List Char} (hne : cs ≠ []) (hfirst : isWhitespace (cs.head hne) = false)
    (hlast : isWhitespace (cs.getLast hne) = false) : trim cs = cs := by
  have hdrop : cs.dropWhile isWhitespace = cs := by
    cases cs with
    | nil => rfl
    | cons c cs => exact List.dropWhile_cons_of_neg (by simpa using hfirst)
  have hrdrop : cs.rdropWhile isWhitespace = cs :=
    List.rdropWhile_eq_self_iff.mpr fun _ => by simpa using hlast
  rw [trim, hdrop]
  exact hrdrop

theorem mem_basicCredentials (cred : UserCredential) :
    ∀ c ∈ (basicCredentials cred).toList, c.toNat < 0x80 ∧ isWhitespace c = false := by
  have hall : ∀ c ∈ '=' :: Base64.alphabet, c.toNat < 0x80 ∧ isWhitespace c = false :=
    forall_mem_of_all (by decide +kernel)
  intro c hc
  rw [basicCredentials, String.toList_ofList] at hc
  exact hall c (Base64.mem_encode _ c hc)

theorem headerText_basic (cred : UserCredential) :
    HttpHandler.headerText (utf8 "Basic " ++ utf8 (basicCredentials cred)) =
      some ("Basic " ++ basicCredentials cred) := by
  have hscheme : ∀ c ∈ "Basic ".toList, c.toNat < 0x80 := forall_mem_of_all (by decide +kernel)
  have hascii : ∀ c ∈ ("Basic " ++ basicCredentials cred).toList, c.toNat < 0x80 := by
    intro c hc
    rw [String.toList_append] at hc
    rcases List.mem_append.mp hc with hc | hc
    · exact hscheme c hc
    · exact (mem_basicCredentials cred c hc).1
  have hclean : (utf8 "Basic " ++ utf8 (basicCredentials cred)).all
      (fun b => (32 ≤ b && b < 127) || b == 9) = true := by
    have hvisible : ∀ b : UInt8, HttpHead.isVisible b = true →
        ((32 ≤ b && b < 127) || b == 9) = true := forall_byte (by decide +kernel)
    rw [List.all_append, Bool.and_eq_true]
    refine ⟨by decide +kernel, List.all_eq_true.mpr fun b hb => ?_⟩
    exact hvisible b ((visible_basicCredentials cred).2 b hb)
  have htext := Authority.map_toChar_utf8 hascii
  rw [utf8_append] at htext
  rw [HttpHandler.headerText, if_pos hclean]
  refine congrArg some ((congrArg String.ofList htext).trans ?_)
  exact String.ofList_toList

theorem trim_basic (cred : UserCredential) : trim ("Basic " ++ basicCredentials cred).toList =
    "Basic ".toList ++ Base64.encode (utf8 (cred.username ++ ":" ++ cred.password)) := by
  have htext : (basicCredentials cred).toList =
      Base64.encode (utf8 (cred.username ++ ":" ++ cred.password)) := by
    rw [basicCredentials, String.toList_ofList]
  have hne : (basicCredentials cred).toList ≠ [] := by
    intro hnil
    rw [String.toList_eq_nil_iff] at hnil
    exact (visible_basicCredentials cred).1 (by rw [hnil]; rfl)
  rw [String.toList_append, ← htext]
  refine trim_eq_self (List.append_ne_nil_of_right_ne_nil _ hne) rfl ?_
  rw [List.getLast_append_of_ne_nil _ hne]
  exact (mem_basicCredentials cred _ (List.getLast_mem hne)).2

/-- **What arrives is the credential cut at the first colon.** -/
theorem checkProxyAuth_carries (h : Carries headers cred) :
    HttpHandler.checkProxyAuth headers users = true ↔ cred.atFirstColon ∈ users := by
  obtain ⟨before, after, hsplit, heq⟩ := exists_splitColon cred
  obtain ⟨entry, hfind, hvalue⟩ := Option.map_eq_some_iff.mp h
  have hparse := parseBasicAuth_encoded (trim_basic cred)
  rw [hsplit, Option.map_some] at hparse
  rw [HttpHandler.checkProxyAuth, hfind, Option.bind_some, hvalue, headerText_basic, heq]
  simp only [hparse]
  exact verifyCredentials_eq_true

/-! ### What is sent -/

variable {target : ConnectTarget}

theorem Carries.of_asksFor {head : RequestHead} (hasks : AsksFor head (some cred) target)
    (hreceived : Received head headers) : Carries headers cred := by
  have hperm := hasks.fields
  rw [← hreceived, authorizationFields] at hperm
  have hname : utf8 "proxy-authorization" ≠ utf8 "host" := by decide +kernel
  -- every header of that name has the value, and there is one
  have hvalue : ∀ entry ∈ headers, entry.1 = "proxy-authorization" →
      entry.2 = utf8 "Basic " ++ utf8 (basicCredentials cred) := by
    intro entry hmem hentry
    have hm := hperm.subset (List.mem_map_of_mem hmem)
    rcases List.mem_cons.mp hm with hm | hm
    · rw [hentry] at hm
      exact absurd (Prod.mk.inj hm).1 hname
    · exact (Prod.mk.inj (List.mem_singleton.mp hm)).2
  have hmem := hperm.symm.subset (List.mem_cons_of_mem _ List.mem_cons_self)
  obtain ⟨entry, hentry, heq⟩ := List.mem_map.mp hmem
  have hsome : (headers.find? (·.1 == "proxy-authorization")).isSome = true :=
    List.find?_isSome.mpr ⟨entry, hentry, beq_iff_eq.mpr (utf8_inj (Prod.mk.inj heq).1)⟩
  obtain ⟨found, hfound⟩ := Option.isSome_iff_exists.mp hsome
  have hfoundName : (found.1 == "proxy-authorization") = true := by
    simpa using List.find?_some hfound
  rw [Carries, hfound, Option.map_some]
  exact congrArg some (hvalue found (List.mem_of_find?_eq_some hfound) (beq_iff_eq.mp hfoundName))

/-- **The connector and the chain send the credential**: the request that either has
written, read as a head, carries it. -/
theorem carries_of_sent {p : Sys Unit} (hp : SendsConnect (some cred) target p)
    (hhost : WrittenAsItIs target.host) {ω : Oracle sysSig} {head : RequestHead}
    (hsent : bytesWritten (Prog.run ω.handler p []).world = head.bytes)
    (hreceived : Received head headers) : Carries headers cred := by
  have hne : head.bytes ≠ [] := by
    rw [RequestHead.bytes, RequestHead.lines, HttpHead.block]
    exact List.append_ne_nil_of_left_ne_nil (List.append_ne_nil_of_right_ne_nil _ (by decide)) _
  obtain ⟨reach, rfl, hreach, -⟩ := hp.exists_reach
  rcases @fails_or_bytesWritten ω (some cred) target reach hreach with ⟨e, l, hrun, hnone⟩ | hbytes
  · rw [hrun] at hsent
    exact absurd (hsent.symm.trans hnone) hne
  · obtain ⟨own, hown, hasks⟩ := @exists_head (some cred) target hhost
    rw [hbytes, ← hown, ← List.append_nil head.bytes] at hsent
    obtain ⟨rfl, -⟩ := RequestHead.bytes_eq_append_iff.mp hsent
    exact .of_asksFor hasks hreceived

end

/-! ### Agreement -/

/-- **When the two ends agree about a credential**: on all lists exactly if its
username has no colon, and otherwise on the lists that have both or neither of it
and what it is cut into. -/
theorem basic_ends_agree_iff (cred : UserCredential) :
    ((∀ users headers, Carries headers cred →
        (HttpHandler.checkProxyAuth headers users = true ↔ cred ∈ users)) ↔
      ':' ∉ cred.username.toList) ∧
    ∀ users headers, Carries headers cred →
      ((HttpHandler.checkProxyAuth headers users = true ↔ cred ∈ users) ↔
        ':' ∉ cred.username.toList ∨ (cred.atFirstColon ∈ users ↔ cred ∈ users)) := by
  refine ⟨⟨fun h => ?_, fun h users headers hcarries => ?_⟩, fun users headers hcarries => ?_⟩
  · -- the list that has only what the credential is cut into
    have hcarries : Carries
        [("proxy-authorization", utf8 "Basic " ++ utf8 (basicCredentials cred))] cred := rfl
    have hmem := (h [cred.atFirstColon] _ hcarries).mp
      ((checkProxyAuth_carries hcarries).mpr List.mem_cons_self)
    exact atFirstColon_eq_self_iff.mp (List.mem_singleton.mp hmem).symm
  · rw [checkProxyAuth_carries hcarries, atFirstColon_eq_self_iff.mpr h]
  · rw [checkProxyAuth_carries hcarries]
    constructor
    · exact Or.inr
    · rintro (h | h)
      · rw [atFirstColon_eq_self_iff.mpr h]
      · exact h

theorem basic_ends_agree_password :
    HttpHandler.checkProxyAuth
      [("proxy-authorization", utf8 "Basic " ++ utf8 (basicCredentials ⟨"user", "a:b"⟩))]
      [⟨"user", "a:b"⟩] = true :=
  ((basic_ends_agree_iff ⟨"user", "a:b"⟩).1.mpr (by decide +kernel) _ _ (by decide +kernel)).mpr
    List.mem_cons_self

/-- **A colon in a username**: the configured user is turned away, and let in where
another one is configured. -/
theorem colon_in_username :
    let cred : UserCredential := ⟨"a:b", "c"⟩
    let headers : List Header := [("proxy-authorization", utf8 "Basic YTpiOmM=")]
    Carries headers cred ∧
      (cred ∈ [cred] ∧ HttpHandler.checkProxyAuth headers [cred] = false) ∧
      cred ∉ [⟨"a", "b:c"⟩] ∧
      HttpHandler.checkProxyAuth headers [⟨"a", "b:c"⟩] = true := by
  decide +kernel

end Peregrine
