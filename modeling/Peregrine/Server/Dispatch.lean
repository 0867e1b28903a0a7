import Peregrine.Server.Permits

/-!
# Dispatch and segmentation

`handle_connection` peeks once, into a buffer of eight zero bytes, and hands the
whole buffer to `detect_protocol`, however many bytes there were.  So
`detect_protocol` never sees a short buffer, its rule for the beginning of a
method never applies, and a method is recognised only if the first segment has
all of it, with the space (`detect_firstLook`).

`dispatch_iff` says what this makes of a connection: SOCKS5 is always dispatched
to its handler, and HTTP exactly when the peek shows a whole method.
-/

namespace Peregrine

/-- The buffer of `handle_connection` after a peek of `n` bytes. -/
def firstLook (stream : List UInt8) (n : ℕ) : List UInt8 :=
  (stream.take n ++ List.replicate 8 0).take 8

theorem length_firstLook (stream : List UInt8) (n : ℕ) : (firstLook stream n).length = 8 := by
  rw [firstLook, List.length_take, List.length_append, List.length_replicate]
  omega

/-! ### Methods -/

theorem zero_not_mem_httpMethod {m : List UInt8} (hm : m ∈ httpMethods) : 0 ∉ m :=
  forall_mem_of_all (p := (0 ∉ ·)) rfl m hm

theorem isHttpMethodPrefix_firstLook (stream : List UInt8) (n : ℕ) :
    isHttpMethodPrefix (firstLook stream n) = true ↔
      ∃ m ∈ httpMethods, m <+: firstLook stream n := by
  rw [isHttpMethodPrefix, List.any_eq_true]
  refine exists_congr fun m => and_congr_right fun hm => ?_
  have hlen := (httpMethod_length hm).2
  rw [length_firstLook, Bool.or_eq_true, Bool.and_eq_true, Bool.and_eq_true]
  constructor
  · rintro (⟨-, h⟩ | ⟨h, -⟩)
    · exact List.prefix_iff_eq_take.mpr (eq_of_beq h).symm
    · exact absurd (of_decide_eq_true h) (by omega)
  · intro h
    refine Or.inl ⟨decide_eq_true hlen, ?_⟩
    rw [← List.prefix_iff_eq_take.mp h]
    exact beq_self_eq_true m

/-- **A method is seen exactly if the peek has all of it.** -/
theorem prefix_firstLook_iff {stream m : List UInt8} {n : ℕ} (hm : m ∈ httpMethods) :
    m <+: firstLook stream n ↔ m <+: stream.take n := by
  have hlen := (httpMethod_length hm).2
  rw [firstLook, List.prefix_take_iff]
  constructor
  · rintro ⟨h, -⟩
    rcases List.prefix_or_prefix_of_prefix h (List.prefix_append (stream.take n) _) with h' | h'
    · exact h'
    · -- the method would go on with a zero
      obtain ⟨rest, rfl⟩ := h'
      obtain ⟨more, hmore⟩ := h
      rw [List.append_assoc] at hmore
      have hzeros := List.append_cancel_left hmore
      cases rest with
      | nil =>
        rw [List.append_nil]
      | cons b rest =>
        rw [List.cons_append] at hzeros
        have hb : b = 0 := (List.cons.inj hzeros).1
        refine absurd ?_ (zero_not_mem_httpMethod hm)
        rw [hb]
        exact List.mem_append_right _ List.mem_cons_self
  · intro h
    exact ⟨h.trans (List.prefix_append _ _), hlen⟩

/-! ### The first bytes -/

/-- What a client that sends this stream speaks. -/
def Speaks (stream : List UInt8) : DetectedProtocol → Prop
  | .socks5 => stream.head? = some 0x05
  | .http => ∃ m ∈ httpMethods, m <+: stream
  | .unknown => False

theorem head_firstLook {stream : List UInt8} {n : ℕ} {b : UInt8} {rest : List UInt8}
    (hs : stream = b :: rest) (hn : 1 ≤ n) : ∃ rest', firstLook stream n = b :: rest' := by
  obtain ⟨n, rfl⟩ := Nat.exists_eq_add_of_le' hn
  subst hs
  exact ⟨_, rfl⟩

/-- **What `handle_connection` detects** in a peek of `n` bytes. -/
theorem detect_firstLook {stream : List UInt8} {n : ℕ} {p : DetectedProtocol}
    (hs : Speaks stream p) (hn : 1 ≤ n) :
    detectProtocol (firstLook stream n) = p ↔
      p = .socks5 ∨ ∃ m ∈ httpMethods, m <+: stream.take n := by
  cases p with
  | unknown => exact hs.elim
  | socks5 =>
    refine iff_of_true ?_ (Or.inl rfl)
    cases stream with
    | nil => cases hs
    | cons b rest =>
      cases hs
      obtain ⟨rest', hlook⟩ := head_firstLook rfl hn
      rw [hlook]
      rfl
  | http =>
    have hne : firstLook stream n ≠ [] := by
      intro hnil
      have hlen := length_firstLook stream n
      rw [hnil] at hlen
      cases hlen
    rw [detectProtocol_eq_http hne, ← isHttpMethodPrefix_eq_true, isHttpMethodPrefix_firstLook,
      or_iff_right fun h => (by cases h)]
    exact exists_congr fun m => and_congr_right fun hm => prefix_firstLook_iff hm

theorem detect_firstLook_http {stream : List UInt8} {n : ℕ} (hs : Speaks stream .http)
    (hn : 1 ≤ n) (hshort : ¬ ∃ m ∈ httpMethods, m <+: stream.take n) :
    detectProtocol (firstLook stream n) = .unknown := by
  have hhttp : detectProtocol (firstLook stream n) ≠ .http := by
    rw [Ne, detect_firstLook hs hn, or_iff_right fun h => (by cases h)]
    exact hshort
  have hsocks : detectProtocol (firstLook stream n) ≠ .socks5 := by
    intro h
    obtain ⟨m, hm, hprefix⟩ := hs
    cases m with
    | nil => exact absurd (httpMethod_length hm).1 (Nat.lt_irrefl 0)
    | cons c m =>
      obtain ⟨rest, rfl⟩ := hprefix
      obtain ⟨rest', hlook⟩ := head_firstLook (n := n) (List.cons_append ..) hn
      rw [hlook, detectProtocol_eq_socks5, List.cons_prefix_cons] at h
      exact httpMethod_head hm (congrArg some h.1.symm)
  cases hd : detectProtocol (firstLook stream n) with
  | http => exact absurd hd hhttp
  | socks5 => exact absurd hd hsocks
  | unknown => rfl

namespace Server

variable {std : IpText} {config : AppConfig} {s : Server} {c : ℕ} {conn : Conn}

/-- `handle_connection` goes on with the handler of the protocol. -/
def dispatchTo (s : Server) (c : ℕ) (conn : Conn) : DetectedProtocol → Server
  | .http => s.setConn c conn .http
  | .socks5 => s.setConn c conn (.accepting (acceptRequest none))
  | .unknown => s.close c conn

theorem dispatchTo_inj (hc : s.conns[c]? = some conn) {p q : DetectedProtocol} :
    s.dispatchTo c conn p = s.dispatchTo c conn q ↔ p = q := by
  constructor
  · intro h
    have hpc : ∀ p, ((s.dispatchTo c conn p).conns[c]?).map (·.pc) = some (match p with
        | .http => .http
        | .socks5 => .accepting (acceptRequest none)
        | .unknown => .closed) := by
      intro p
      cases p
      · exact congrArg (Option.map Conn.pc) (Table.getElem?_set_of_some hc)
      · exact congrArg (Option.map Conn.pc) (Table.getElem?_set_of_some hc)
      · exact congrArg (Option.map Conn.pc) (Table.getElem?_set_of_some hc)
    have heq := (hpc p).symm.trans ((congrArg (fun s : Server => (s.conns[c]?).map (·.pc)) h).trans
      (hpc q))
    cases p <;> cases q <;> first | rfl | cases heq
  · rintro rfl
    rfl

theorem step_peeked (hrun : s.runPc ≠ .ended) (hc : s.conns[c]? = some conn)
    (hpc : conn.pc = .peek) {stream : List UInt8} {n : ℕ} (hs : stream ≠ []) (hn : 1 ≤ n) :
    s.step std config (.conn c (.peeked (.ok (stream.take n)))) =
      some (s.dispatchTo c conn (detectProtocol (firstLook stream n))) := by
  have hne : stream.take n ≠ [] := by
    intro h
    rcases List.take_eq_nil_iff.mp h with h | h
    · omega
    · exact hs h
  rw [step, if_neg hrun]
  show (s.conns[c]?).bind _ = _
  rw [hc, Option.bind_some, hpc, firstLook]
  cases hbytes : stream.take n with
  | nil => exact absurd hbytes hne
  | cons b bytes =>
    show (match detectProtocol ((b :: bytes ++ List.replicate 8 0).take 8) with
      | .http => some (s.setConn c conn .http)
      | .socks5 => some (s.setConn c conn (.accepting (acceptRequest none)))
      | .unknown => some (s.close c conn)) = _
    cases detectProtocol ((b :: bytes ++ List.replicate 8 0).take 8) <;> rfl

/-- **When dispatch depends on segmentation.**  A connection whose client speaks
`p` goes to the handler of `p`, after a first peek of `n` bytes, exactly if `p` is
SOCKS5 or the peek shows the whole method; and two peeks of one stream have the
same outcome exactly if `p` is SOCKS5, or both show the whole method, or neither
does. -/
theorem dispatch_iff (hrun : s.runPc ≠ .ended) (hc : s.conns[c]? = some conn)
    (hpc : conn.pc = .peek) {stream : List UInt8} {p : DetectedProtocol}
    (hs : Speaks stream p) :
    (∀ n, 1 ≤ n → (s.step std config (.conn c (.peeked (.ok (stream.take n)))) =
        some (s.dispatchTo c conn p) ↔
      p = .socks5 ∨ ∃ m ∈ httpMethods, m <+: stream.take n)) ∧
    (∀ n n', 1 ≤ n → 1 ≤ n' →
      (s.step std config (.conn c (.peeked (.ok (stream.take n)))) =
          s.step std config (.conn c (.peeked (.ok (stream.take n')))) ↔
        p = .socks5 ∨ ((∃ m ∈ httpMethods, m <+: stream.take n) ↔
          ∃ m ∈ httpMethods, m <+: stream.take n'))) := by
  have hne : stream ≠ [] := by
    rintro rfl
    cases p with
    | socks5 => cases hs
    | http =>
      obtain ⟨m, hm, hprefix⟩ := hs
      have := (httpMethod_length hm).1
      rw [List.prefix_nil.mp hprefix] at this
      cases this
    | unknown => exact hs
  constructor
  · intro n hn
    rw [step_peeked hrun hc hpc hne hn, Option.some.injEq, dispatchTo_inj hc,
      detect_firstLook hs hn]
  · intro n n' hn hn'
    rw [step_peeked hrun hc hpc hne hn, step_peeked hrun hc hpc hne hn', Option.some.injEq,
      dispatchTo_inj hc]
    cases p with
    | socks5 =>
      refine iff_of_true ?_ (Or.inl rfl)
      rw [(detect_firstLook hs hn).mpr (Or.inl rfl), (detect_firstLook hs hn').mpr (Or.inl rfl)]
    | unknown => exact hs.elim
    | http =>
      rw [or_iff_right fun h => (by cases h)]
      by_cases hwhole : ∃ m ∈ httpMethods, m <+: stream.take n
      · rw [(detect_firstLook hs hn).mpr (Or.inr hwhole), eq_comm, detect_firstLook hs hn',
          or_iff_right fun h => (by cases h)]
        exact ⟨fun h => iff_of_true hwhole h, fun h => h.mp hwhole⟩
      · rw [detect_firstLook_http hs hn hwhole]
        by_cases hwhole' : ∃ m ∈ httpMethods, m <+: stream.take n'
        · rw [(detect_firstLook hs hn').mpr (Or.inr hwhole')]
          exact iff_of_false (fun h => (by cases h)) fun h => hwhole (h.mpr hwhole')
        · rw [detect_firstLook_http hs hn' hwhole']
          exact iff_of_true rfl (iff_of_false hwhole hwhole')

def freshConn : Server := (init smallConfig).letIn (clientAddr 40000) false

theorem dispatch_iff_get :
    (∀ n, 1 ≤ n → (freshConn.step .plain smallConfig
        (.conn 0 (.peeked (.ok ((utf8 "GET / HTTP/1.1\r\n").take n)))) =
        some (freshConn.dispatchTo 0 ⟨clientAddr 40000, true, .peek⟩ .http) ↔
      DetectedProtocol.http = .socks5 ∨
        ∃ m ∈ httpMethods, m <+: (utf8 "GET / HTTP/1.1\r\n").take n)) ∧
    (∀ n n', 1 ≤ n → 1 ≤ n' →
      (freshConn.step .plain smallConfig
          (.conn 0 (.peeked (.ok ((utf8 "GET / HTTP/1.1\r\n").take n)))) =
        freshConn.step .plain smallConfig
          (.conn 0 (.peeked (.ok ((utf8 "GET / HTTP/1.1\r\n").take n')))) ↔
        DetectedProtocol.http = .socks5 ∨
          ((∃ m ∈ httpMethods, m <+: (utf8 "GET / HTTP/1.1\r\n").take n) ↔
            ∃ m ∈ httpMethods, m <+: (utf8 "GET / HTTP/1.1\r\n").take n'))) :=
  dispatch_iff (by decide) rfl rfl ⟨utf8 "GET ", List.mem_cons_self, ⟨_, rfl⟩⟩

/-- **A method in two segments is no method**: of the bytes `GET / HTTP/1.1` the
peek shows two, and the connection is closed; with eight it is served. -/
theorem get_in_two_segments_closed :
    Speaks (utf8 "GET / HTTP/1.1\r\n") .http ∧
    Runs.run (step .plain smallConfig) (init smallConfig)
      [.loop 0 .go, .loop 0 (.accepted (.ok (clientAddr 40000))), .loop 0 .go] =
        some (freshConn.setLoop 0 ⟨false, .top⟩ .top) ∧
    (∃ s, (freshConn.setLoop 0 ⟨false, .top⟩ .top).step .plain smallConfig
        (.conn 0 (.peeked (.ok ((utf8 "GET / HTTP/1.1\r\n").take 2)))) = some s ∧
      s.conns[0]?.map (·.pc.isClosed) = some true) ∧
    ∃ s, (freshConn.setLoop 0 ⟨false, .top⟩ .top).step .plain smallConfig
        (.conn 0 (.peeked (.ok ((utf8 "GET / HTTP/1.1\r\n").take 8)))) = some s ∧
      s.conns[0]?.map (·.pc.isClosed) = some false :=
  ⟨⟨utf8 "GET ", List.mem_cons_self, ⟨_, rfl⟩⟩, rfl, ⟨_, rfl, rfl⟩, ⟨_, rfl, rfl⟩⟩

end Server

end Peregrine
