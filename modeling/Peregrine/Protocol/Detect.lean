import Peregrine.Lib.Bytes

/-!
# Which protocol a connection speaks

`protocol/detect.rs`: the first bytes of a connection decide whether it is
served as HTTP or as SOCKS5.

The two comparisons of the loop together say that the buffer and a method are
comparable as prefixes (`isHttpMethodPrefix_eq_true`).  Comparability passes to
shorter buffers, so more bytes only ever rule HTTP out (`detectProtocol_stable`).
-/

namespace Peregrine

inductive DetectedProtocol
  | http
  | socks5
  | unknown
  deriving DecidableEq

/-- `METHODS`: the methods that are recognised, each with its space. -/
def httpMethods : List (List UInt8) :=
  [utf8 "GET ", utf8 "POST ", utf8 "PUT ", utf8 "DELETE ", utf8 "HEAD ", utf8 "OPTIONS ",
    utf8 "PATCH ", utf8 "CONNECT ", utf8 "TRACE "]

/-- The buffer starts with a method, or is the start of one. -/
def isHttpMethodPrefix (buf : List UInt8) : Bool :=
  httpMethods.any fun method =>
    (method.length ≤ buf.length && buf.take method.length == method) ||
      (buf.length < method.length && buf.isPrefixOf method)

def detectProtocol (buf : List UInt8) : DetectedProtocol :=
  match buf with
  | [] => .unknown
  | b :: _ =>
    if b = 0x05 then .socks5
    else if isHttpMethodPrefix buf then .http
    else .unknown

/-! ### Methods -/

theorem httpMethod_length {m : List UInt8} (hm : m ∈ httpMethods) :
    0 < m.length ∧ m.length ≤ 8 :=
  forall_mem_of_all (p := fun m => 0 < m.length ∧ m.length ≤ 8) rfl m hm

theorem httpMethod_head {m : List UInt8} (hm : m ∈ httpMethods) : m.head? ≠ some 0x05 :=
  forall_mem_of_all (p := fun m => m.head? ≠ some 0x05) rfl m hm

/-! ### Prefixes -/

/-- One of the two begins with the other. -/
def PrefixComparable (buf method : List UInt8) : Prop := buf <+: method ∨ method <+: buf

theorem PrefixComparable.of_prefix {q b m : List UInt8} (hq : q <+: b)
    (h : PrefixComparable b m) : PrefixComparable q m := by
  rcases h with h | h
  · exact Or.inl (hq.trans h)
  · rcases Nat.le_total q.length m.length with hle | hle
    · exact Or.inl (List.prefix_of_prefix_length_le hq h hle)
    · exact Or.inr (List.prefix_of_prefix_length_le h hq hle)

theorem methodTest_eq_true {buf method : List UInt8} :
    ((decide (method.length ≤ buf.length) && buf.take method.length == method) ||
      (decide (buf.length < method.length) && buf.isPrefixOf method)) = true ↔
      PrefixComparable buf method := by
  rw [Bool.or_eq_true, Bool.and_eq_true, Bool.and_eq_true, decide_eq_true_iff,
    decide_eq_true_iff, beq_iff_eq, List.isPrefixOf_iff_prefix]
  constructor
  · rintro (⟨-, htake⟩ | ⟨-, hpre⟩)
    · exact Or.inr (htake ▸ List.take_prefix _ _)
    · exact Or.inl hpre
  · rintro (hpre | hpre)
    · rcases Nat.lt_or_ge buf.length method.length with hlt | hge
      · exact Or.inr ⟨hlt, hpre⟩
      · have heq : buf = method := hpre.eq_of_length_le hge
        exact Or.inl ⟨hge, by rw [heq, List.take_length]⟩
    · exact Or.inl ⟨hpre.length_le, (List.prefix_iff_eq_take.1 hpre).symm⟩

theorem isHttpMethodPrefix_eq_true {buf : List UInt8} :
    isHttpMethodPrefix buf = true ↔ ∃ m ∈ httpMethods, PrefixComparable buf m := by
  rw [isHttpMethodPrefix, List.any_eq_true]
  simp only [methodTest_eq_true]

theorem not_prefixComparable_socks {rest m : List UInt8} (hm : m ∈ httpMethods) :
    ¬ PrefixComparable (0x05 :: rest) m := by
  intro h
  cases m with
  | nil => exact absurd (httpMethod_length hm).1 (Nat.lt_irrefl 0)
  | cons c m =>
    refine httpMethod_head hm (congrArg some ?_)
    rcases h with h | h
    · exact (List.cons_prefix_cons.mp h).1.symm
    · exact (List.cons_prefix_cons.mp h).1

theorem detectProtocol_eq_socks5 {buf : List UInt8} :
    detectProtocol buf = .socks5 ↔ [0x05] <+: buf := by
  cases buf with
  | nil => simp [detectProtocol]
  | cons b rest =>
    rw [List.cons_prefix_cons, detectProtocol]
    by_cases hb : b = 0x05
    · simp [hb]
    · rw [if_neg hb]
      split <;> simp [Ne.symm hb]

theorem detectProtocol_eq_http {buf : List UInt8} (hne : buf ≠ []) :
    detectProtocol buf = .http ↔ ∃ m ∈ httpMethods, PrefixComparable buf m := by
  rw [← isHttpMethodPrefix_eq_true]
  cases buf with
  | nil => exact absurd rfl hne
  | cons b rest =>
    rw [detectProtocol]
    by_cases hb : b = 0x05
    · rw [if_pos hb, hb]
      constructor
      · intro h
        cases h
      · intro h
        obtain ⟨m, hm, hcmp⟩ := isHttpMethodPrefix_eq_true.1 h
        exact absurd hcmp (not_prefixComparable_socks hm)
    · rw [if_neg hb]
      split <;> simp [*]

/-- **Detection is stable under prefixes.**  A nonempty buffer is SOCKS5 exactly if
it starts with the version byte and HTTP exactly if it and some method are
comparable as prefixes; so a longer buffer agrees on SOCKS5, and can turn HTTP
into unknown but not the other way. -/
theorem detectProtocol_stable {b : List UInt8} (hb : b ≠ []) :
    (detectProtocol b = .socks5 ↔ [0x05] <+: b) ∧
      (detectProtocol b = .http ↔ ∃ m ∈ httpMethods, PrefixComparable b m) ∧
      ∀ q : List UInt8, q ≠ [] → q <+: b →
        (detectProtocol q = .socks5 ↔ detectProtocol b = .socks5) ∧
          (detectProtocol b = .http → detectProtocol q = .http) ∧
          (detectProtocol q = .unknown → detectProtocol b = .unknown) := by
  refine ⟨detectProtocol_eq_socks5, detectProtocol_eq_http hb, ?_⟩
  intro q hq hqb
  have hsocks : detectProtocol q = .socks5 ↔ detectProtocol b = .socks5 := by
    rw [detectProtocol_eq_socks5, detectProtocol_eq_socks5]
    constructor
    · exact fun h => h.trans hqb
    · intro h
      refine List.prefix_of_prefix_length_le h hqb ?_
      exact List.length_pos_of_ne_nil hq
  have hhttp : detectProtocol b = .http → detectProtocol q = .http := by
    rw [detectProtocol_eq_http hb, detectProtocol_eq_http hq]
    rintro ⟨m, hm, hcmp⟩
    exact ⟨m, hm, hcmp.of_prefix hqb⟩
  refine ⟨hsocks, hhttp, ?_⟩
  intro hunknown
  cases hd : detectProtocol b with
  | unknown => rfl
  | socks5 => cases hunknown.symm.trans (hsocks.2 hd)
  | http => cases hunknown.symm.trans (hhttp hd)

/-- One byte of a method is HTTP, and so far `GET /` is too. -/
theorem detectProtocol_stable_get :
    detectProtocol (utf8 "GET /") = .http ∧ detectProtocol (utf8 "G") = .http := by
  have hb : utf8 "GET /" ≠ [] := by decide +kernel
  have hq : utf8 "G" ≠ [] := by decide +kernel
  have hqb : utf8 "G" <+: utf8 "GET /" := by decide +kernel
  have hhttp : detectProtocol (utf8 "GET /") = .http := by decide +kernel
  exact ⟨hhttp, ((detectProtocol_stable hb).2.2 _ hq hqb).2.1 hhttp⟩

end Peregrine
