import Peregrine.Lib.HttpHead
import Peregrine.Upstream.Chain

/-!
# Where an HTTP tunnel starts

The CONNECT client reads once, at most 4096 bytes, and takes what it got for
the response head.  How much that is depends on how the bytes arrive, so the
outcome does too.  `AsSpecified` is what the exchange should do on a stream cut
into segments: succeed exactly when the stream starts with a head of status 200,
and leave exactly what follows the head.

`asSpecified_iff` says when it does: the first read delivers the head and
nothing else, or there is no such head and the first read does not look like
one.  `everySplit_iff` is the same for a stream over all the ways to cut it.
-/

namespace Peregrine

open HttpHead

/-! ### The upstream proxy -/

/-- One read of at most `cap` bytes: from the first segment, or nothing at the end. -/
def readSome (cap : ℕ) (w : Wire (List (List UInt8))) :
    Option (List UInt8 × Wire (List (List UInt8))) :=
  match w.input with
  | seg :: segs =>
    if seg.length ≤ cap then some (seg, { w with input := segs })
    else some (seg.take cap, { w with input := seg.drop cap :: segs })
  | [] => if w.closed then some ([], w) else none

/-- An upstream proxy that can be reached and whose bytes arrive in segments. -/
def upstreamWorld : Prog.Handler sysSig (Wire (List (List UInt8)))
  | .inl o, w => Wire.segmented o w
  | .inr (.read cap), w => (readSome cap w).map fun r => (.ok r.1, r.2)
  | .inr (.tcpConnect _), w => some (.ok (), w)
  | .inr (.serverName _), w => some (true, w)
  | .inr (.tlsConnect _), w => some (.ok (), w)
  | .inr _, _ => none

/-- Against an upstream that sends `segs`, `p` succeeds and leaves `rest` unread. -/
def Establishes (p : Sys Unit) (segs : List (List UInt8)) (closed : Bool) (rest : List UInt8) :
    Prop :=
  ∃ w, Prog.run upstreamWorld p ⟨segs, closed, []⟩ = .ret () w ∧ w.input.flatten = rest

/-- What `p` returns; `none` when it waits for ever. -/
def resultOn (p : Sys Unit) (segs : List (List UInt8)) (closed : Bool) :
    Option (Except ProxyError Unit) :=
  match Prog.run upstreamWorld p ⟨segs, closed, []⟩ with
  | .ret () _ => some (.ok ())
  | .fail e _ => some (.error e)
  | .stuck _ => none

/-- `bs` starts with a complete head of status 200, which `rest` follows. -/
def HeadThen (bs rest : List UInt8) : Prop :=
  ∃ h : ResponseHead, h.status = [0x32, 0x30, 0x30] ∧ bs = h.bytes ++ rest

/-- **The specification**: `p` succeeds on a head of status 200 and leaves what
follows it. -/
def AsSpecified (p : Sys Unit) (segs : List (List UInt8)) (closed : Bool) : Prop :=
  ∀ rest, Establishes p segs closed rest ↔ HeadThen segs.flatten rest

/-- The functions that do the exchange: both branches of the connector, and the chain. -/
inductive ConnectsOverHttp : Sys Unit → Prop
  | connector (c : HttpProxyConnector) (target : ConnectTarget) :
    ConnectsOverHttp (c.connect target)
  | chained (auth : Option UserCredential) (tls : Option Bool) (target : ConnectTarget) :
    ConnectsOverHttp (performHttpHandshake auth tls target)

/-! ### What the exchange does -/

/-- What the one read delivers. -/
def firstRead (segs : List (List UInt8)) : List UInt8 := (segs.headD []).take 4096

/-- `HTTP/1.1 200` or `HTTP/1.0 200`. -/
def LooksConnected (bs : List UInt8) : Prop :=
  version ++ [0x31, 0x20, 0x32, 0x30, 0x30] <+: bs ∨
    version ++ [0x30, 0x20, 0x32, 0x30, 0x30] <+: bs

instance (bs : List UInt8) : Decidable (LooksConnected bs) :=
  inferInstanceAs (Decidable (_ ∨ _))

theorem isConnected_lossy (bs : List UInt8) :
    isConnected (lossy bs) = true ↔ LooksConnected bs := by
  have h1 := @prefix_lossy (version ++ [0x31, 0x20, 0x32, 0x30, 0x30]) (forall_mem_of_all rfl) bs
  have h0 := @prefix_lossy (version ++ [0x30, 0x20, 0x32, 0x30, 0x30]) (forall_mem_of_all rfl) bs
  rw [isConnected, Bool.or_eq_true, List.isPrefixOf_iff_prefix, List.isPrefixOf_iff_prefix,
    LooksConnected, ← h1, ← h0]
  rfl

theorem flatten_readSome {segs : List (List UInt8)} {closed : Bool} {out c : List UInt8}
    {w : Wire (List (List UInt8))} (h : readSome 4096 ⟨segs, closed, out⟩ = some (c, w)) :
    c = firstRead segs ∧ segs.flatten = c ++ w.input.flatten := by
  cases segs with
  | nil =>
    cases closed with
    | true =>
      cases h
      exact ⟨rfl, rfl⟩
    | false => cases h
  | cons seg segs =>
    rw [readSome] at h
    simp only at h
    split at h
    · rename_i hlen
      cases h
      exact ⟨(List.take_of_length_le hlen).symm, rfl⟩
    · cases h
      refine ⟨rfl, ?_⟩
      simp only [List.flatten_cons, ← List.append_assoc, List.take_append_drop]

theorem readSome_eq_none {segs : List (List UInt8)} {closed : Bool} {out : List UInt8} :
    readSome 4096 ⟨segs, closed, out⟩ = none ↔ segs = [] ∧ closed = false := by
  cases segs with
  | nil => cases closed <;> simp [readSome]
  | cons seg segs =>
    rw [readSome]
    simp only [reduceCtorEq, false_and, iff_false]
    split <;> exact nofun

/-- The error for a response that does not look like success. -/
def connectFailed (bs : List UInt8) : ProxyError :=
  .upstream ("HTTP proxy CONNECT failed: " ++ firstLine (lossy bs))

theorem run_readConnectResponse (w : Wire (List (List UInt8))) :
    Prog.run upstreamWorld readConnectResponse w =
      match readSome 4096 w with
      | none => .stuck w
      | some (c, w') =>
        if LooksConnected c then .ret () w' else .fail (connectFailed c) w' := by
  have hcall : (readConnectResponse : Sys Unit) = .call (.inr (.read 4096)) fun x =>
      Prog.ofExcept .io x >>= fun buf =>
        Prog.ensure (isConnected (lossy buf) = true) (connectFailed buf) := rfl
  rw [hcall]
  cases hread : readSome 4096 w with
  | none =>
    have hnone : upstreamWorld (.inr (.read 4096)) w = none := by
      simp only [upstreamWorld, hread, Option.map_none]
    rw [Prog.run_call_none hnone]
  | some r =>
    have hsome : upstreamWorld (.inr (.read 4096)) w = some (.ok r.1, r.2) := by
      simp only [upstreamWorld, hread, Option.map_some]
    rw [Prog.run_call_some hsome]
    simp only [Prog.ofExcept_ok, Prog.ret_bind, Prog.ensure, isConnected_lossy]
    split <;> rfl

theorem run_connects {p : Sys Unit} (hp : ConnectsOverHttp p) (segs : List (List UInt8))
    (closed : Bool) : ∃ out, Prog.run upstreamWorld p ⟨segs, closed, []⟩ =
      Prog.run upstreamWorld readConnectResponse ⟨segs, closed, out⟩ := by
  cases hp with
  | connector c target =>
    refine ⟨utf8 (connectHead c.auth target), ?_⟩
    have hconnect : Prog.run upstreamWorld (c.connect target) ⟨segs, closed, []⟩ =
        Prog.run upstreamWorld (secure c.useTls c.proxyAddr >>= fun _ =>
          httpHandshake c.auth target) ⟨segs, closed, []⟩ := rfl
    rw [hconnect, secure]
    split <;> rfl
  | chained auth tls target => exact ⟨utf8 (connectHead auth target), rfl⟩

/-- **The exchange succeeds on what looks like success**, and leaves what the
read left. -/
theorem establishes_iff {p : Sys Unit} (hp : ConnectsOverHttp p) {segs : List (List UInt8)}
    {closed : Bool} {rest : List UInt8} : Establishes p segs closed rest ↔
      LooksConnected (firstRead segs) ∧ segs.flatten = firstRead segs ++ rest := by
  obtain ⟨out, hrun⟩ := run_connects hp segs closed
  rw [Establishes, hrun, run_readConnectResponse]
  cases hread : readSome 4096 ⟨segs, closed, out⟩ with
  | none =>
    obtain ⟨rfl, -⟩ := readSome_eq_none.mp hread
    constructor
    · rintro ⟨w, hw, -⟩
      cases hw
    · rintro ⟨hlook, -⟩
      exact absurd hlook (by decide)
  | some r =>
    obtain ⟨c, w'⟩ := r
    obtain ⟨rfl, hflat⟩ := flatten_readSome hread
    simp only
    split
    · rename_i hlook
      constructor
      · rintro ⟨w, hw, rfl⟩
        cases hw
        exact ⟨hlook, hflat⟩
      · rintro ⟨-, hrest⟩
        exact ⟨w', rfl, List.append_cancel_left (hflat.symm.trans hrest)⟩
    · rename_i hlook
      constructor
      · rintro ⟨w, hw, -⟩
        cases hw
      · rintro ⟨h, -⟩
        exact absurd h hlook

theorem resultOn_eq {p : Sys Unit} (hp : ConnectsOverHttp p) {segs : List (List UInt8)}
    {closed : Bool} : resultOn p segs closed =
      if segs = [] ∧ closed = false then none
      else if LooksConnected (firstRead segs) then some (.ok ())
      else some (.error (connectFailed (firstRead segs))) := by
  obtain ⟨out, hrun⟩ := run_connects hp segs closed
  rw [resultOn, hrun, run_readConnectResponse]
  cases hread : readSome 4096 ⟨segs, closed, out⟩ with
  | none => rw [if_pos (readSome_eq_none.mp hread)]
  | some r =>
    obtain ⟨c, w'⟩ := r
    obtain ⟨rfl, -⟩ := flatten_readSome hread
    rw [if_neg fun h => by rw [readSome_eq_none.mpr h] at hread; cases hread]
    by_cases hlook : LooksConnected (firstRead segs)
    · simp only [if_pos hlook]
    · simp only [if_neg hlook]

/-! ### Heads and what looks like one -/

theorem HeadThen.unique {bs rest rest' : List UInt8} (h : HeadThen bs rest)
    (h' : HeadThen bs rest') : rest = rest' := by
  obtain ⟨a, -, rfl⟩ := h
  obtain ⟨b, -, hb⟩ := h'
  exact (ResponseHead.bytes_append_inj hb).2

theorem head_bytes_eq (h : ResponseHead) :
    ∃ t, h.bytes = version ++ [h.minor, 0x20] ++ h.status ++ t ∧ t ≠ [] := by
  refine ⟨reasonBytes h.reason ++ crlf ++ block (h.fields.map Field.line), ?_, by simp [crlf]⟩
  simp only [ResponseHead.bytes, ResponseHead.lines, block, ResponseHead.statusLine,
    List.append_assoc]

theorem looksConnected_head {h : ResponseHead} (hs : h.status = [0x32, 0x30, 0x30])
    (rest : List UInt8) :
    LooksConnected (h.bytes ++ rest) ↔ h.minor = 0x31 ∨ h.minor = 0x30 := by
  obtain ⟨t, ht, -⟩ := head_bytes_eq h
  rw [ht, hs, LooksConnected]
  simp [version, List.cons_prefix_cons, eq_comm]

theorem looksConnected_of_start {as bs : List UInt8} (h : as <+: bs) (ha : LooksConnected as) :
    LooksConnected bs := ha.imp (·.trans h) (·.trans h)

theorem looksConnected_take {bs : List UInt8} (h : LooksConnected bs) :
    LooksConnected (bs.take 4096) := by
  have htake : ∀ {as : List UInt8}, as <+: bs → as.length ≤ 4096 → as <+: bs.take 4096 := by
    rintro as ⟨t, rfl⟩ hlen
    rw [List.take_append, List.take_of_length_le hlen]
    exact List.prefix_append _ _
  exact h.imp (htake · (by decide)) (htake · (by decide))

theorem firstRead_prefix (segs : List (List UInt8)) : firstRead segs <+: segs.flatten := by
  cases segs with
  | nil => exact List.nil_prefix
  | cons seg segs => exact (List.take_prefix _ _).trans (List.prefix_append _ _)

/-! ### One way to cut a stream -/

/-- The first read delivers the head, of version 1.0 or 1.1, and nothing else;
or there is no head and what it delivers does not look like one. -/
def StartsClean (segs : List (List UInt8)) : Prop :=
  (∃ h : ResponseHead, h.status = [0x32, 0x30, 0x30] ∧ (h.minor = 0x31 ∨ h.minor = 0x30) ∧
    firstRead segs = h.bytes) ∨
  ((∀ rest, ¬ HeadThen segs.flatten rest) ∧ ¬ LooksConnected (firstRead segs))

/-- **The exchange is as specified when the first read is the head**, or when
there is no head and it does not look like one. -/
theorem asSpecified_iff {p : Sys Unit} (hp : ConnectsOverHttp p) (segs : List (List UInt8))
    (closed : Bool) : AsSpecified p segs closed ↔ StartsClean segs := by
  obtain ⟨tail, htail⟩ := firstRead_prefix segs
  constructor
  · intro hspec
    by_cases hhead : ∃ rest, HeadThen segs.flatten rest
    · obtain ⟨rest, hrest⟩ := hhead
      obtain ⟨hlook, hflat⟩ := (establishes_iff hp).mp ((hspec rest).mpr hrest)
      obtain ⟨h, hs, hh⟩ := hrest
      have hfirst : firstRead segs = h.bytes := List.append_cancel_right (hflat.symm.trans hh)
      refine Or.inl ⟨h, hs, (looksConnected_head hs []).mp ?_, hfirst⟩
      rw [List.append_nil, ← hfirst]
      exact hlook
    · refine Or.inr ⟨fun rest hr => hhead ⟨rest, hr⟩, fun hlook => hhead ⟨tail, ?_⟩⟩
      exact (hspec tail).mp ((establishes_iff hp).mpr ⟨hlook, htail.symm⟩)
  · rintro (⟨h, hs, hm, hfirst⟩ | ⟨hno, hlook⟩) rest
    · have hlook : LooksConnected (firstRead segs) := by
        rw [hfirst, ← List.append_nil h.bytes]
        exact (looksConnected_head hs []).mpr hm
      rw [establishes_iff hp]
      constructor
      · rintro ⟨-, hflat⟩
        exact ⟨h, hs, by rw [hflat, hfirst]⟩
      · intro hrest
        have htl : HeadThen segs.flatten tail := ⟨h, hs, by rw [← htail, hfirst]⟩
        exact ⟨hlook, by rw [hrest.unique htl, htail]⟩
    · rw [establishes_iff hp]
      constructor
      · rintro ⟨h, -⟩
        exact absurd h hlook
      · intro hrest
        exact absurd hrest (hno rest)

/-! ### All the ways to cut it -/

/-- The reads deliver `bs`, something each time. -/
structure SplitsInto (segs : List (List UInt8)) (bs : List UInt8) : Prop where
  flatten : segs.flatten = bs
  nonempty : [] ∉ segs

/-- The exchange is as specified however `bs` is cut, and returns the same. -/
def AsSpecifiedOnAll (p : Sys Unit) (bs : List UInt8) (closed : Bool) : Prop :=
  (∀ segs, SplitsInto segs bs → AsSpecified p segs closed) ∧
  ∀ segs segs', SplitsInto segs bs → SplitsInto segs' bs →
    resultOn p segs closed = resultOn p segs' closed

/-- There is no head in `bs` and nothing that looks like one, and every first
read of it shows the same first line. -/
def NeverConnected (bs : List UInt8) : Prop :=
  (∀ rest, ¬ HeadThen bs rest) ∧ ¬ LooksConnected bs ∧
  ∀ n, 0 < n → n ≤ 4096 → n ≤ bs.length →
    firstLine (lossy (bs.take n)) = firstLine (lossy (bs.take 1))

theorem splitsInto_take {bs : List UInt8} {n : ℕ} (h0 : 0 < n) (hn : n ≤ bs.length) :
    ∃ segs, SplitsInto segs bs ∧ segs.headD [] = bs.take n := by
  have hne : bs.take n ≠ [] := by
    intro h
    have := congrArg List.length h
    rw [List.length_take, List.length_nil] at this
    omega
  by_cases hd : bs.drop n = []
  · have htake : bs.take n = bs := List.take_of_length_le (List.drop_eq_nil_iff.mp hd)
    refine ⟨[bs], ⟨by simp, ?_⟩, htake.symm⟩
    rw [List.mem_singleton, ← htake]
    exact Ne.symm hne
  · refine ⟨[bs.take n, bs.drop n], ⟨by simp, ?_⟩, rfl⟩
    intro hm
    rcases List.mem_cons.mp hm with hm | hm
    · exact hne hm.symm
    · exact hd (List.mem_singleton.mp hm).symm

theorem exists_firstRead {bs : List UInt8} {n : ℕ} (h0 : 0 < n) (hn : n ≤ 4096)
    (hlen : n ≤ bs.length) : ∃ segs, SplitsInto segs bs ∧ firstRead segs = bs.take n := by
  obtain ⟨segs, hsplit, hfirst⟩ := splitsInto_take h0 hlen
  refine ⟨segs, hsplit, ?_⟩
  rw [firstRead, hfirst, List.take_take, Nat.min_eq_right hn]

theorem SplitsInto.ne_nil {segs : List (List UInt8)} {bs : List UInt8} (h : SplitsInto segs bs)
    (hne : bs ≠ []) : segs ≠ [] := by
  rintro rfl
  exact hne h.flatten.symm

theorem SplitsInto.eq_nil {segs : List (List UInt8)} (h : SplitsInto segs []) : segs = [] := by
  cases segs with
  | nil => rfl
  | cons seg segs =>
    have hflat := h.flatten
    rw [List.flatten_cons, List.append_eq_nil_iff] at hflat
    exact absurd (hflat.1 ▸ List.mem_cons_self) h.nonempty

theorem firstRead_eq_take {segs : List (List UInt8)} {bs : List UInt8} (h : SplitsInto segs bs)
    (hne : bs ≠ []) :
    ∃ n, 0 < n ∧ n ≤ 4096 ∧ n ≤ bs.length ∧ firstRead segs = bs.take n := by
  obtain ⟨rfl, hempty⟩ := h
  cases segs with
  | nil => exact absurd rfl hne
  | cons seg segs =>
    have hseg : 0 < seg.length := by
      rw [List.length_pos_iff]
      rintro rfl
      exact hempty List.mem_cons_self
    refine ⟨min 4096 seg.length, by omega, by omega, ?_, ?_⟩
    · rw [List.flatten_cons, List.length_append]
      omega
    · rw [List.flatten_cons, List.take_append_of_le_length (by omega)]
      show seg.take 4096 = _
      rw [← List.take_take, List.take_length]

theorem one_lt_head_length (h : ResponseHead) : 1 < h.bytes.length := by
  obtain ⟨t, ht, -⟩ := head_bytes_eq h
  rw [ht]
  simp only [List.length_append, version, List.length_cons]
  omega

theorem not_headThen_of_asSpecified {p : Sys Unit} (hp : ConnectsOverHttp p) {bs : List UInt8}
    {closed : Bool} (hall : ∀ segs, SplitsInto segs bs → AsSpecified p segs closed)
    (rest : List UInt8) : ¬ HeadThen bs rest := by
  intro hhead
  obtain ⟨h, hs, rfl⟩ := hhead
  have hlen := one_lt_head_length h
  obtain ⟨segs, hsplit, hfirst⟩ := @exists_firstRead (h.bytes ++ rest) 1 (by omega) (by omega)
    (by rw [List.length_append]; omega)
  have hread : (firstRead segs).length ≤ 1 := by
    rw [hfirst, List.length_take]
    omega
  rcases (asSpecified_iff hp segs closed).mp (hall segs hsplit) with ⟨h', -, -, heq⟩ | ⟨hno, -⟩
  · have := one_lt_head_length h'
    rw [heq] at hread
    omega
  · exact hno rest ⟨h, hs, hsplit.flatten⟩

theorem not_looksConnected_of_asSpecified {p : Sys Unit} (hp : ConnectsOverHttp p)
    {bs : List UInt8} {closed : Bool}
    (hall : ∀ segs, SplitsInto segs bs → AsSpecified p segs closed) {segs : List (List UInt8)}
    (hsplit : SplitsInto segs bs) : ¬ LooksConnected (firstRead segs) := by
  rcases (asSpecified_iff hp segs closed).mp (hall segs hsplit) with ⟨h, hs, -, heq⟩ | ⟨-, hq⟩
  · obtain ⟨tail, htail⟩ := firstRead_prefix segs
    have hno := not_headThen_of_asSpecified hp hall tail
    exact absurd ⟨h, hs, by rw [← hsplit.flatten, ← htail, heq]⟩ hno
  · exact hq

theorem resultOn_of_not_looksConnected {p : Sys Unit} (hp : ConnectsOverHttp p)
    {segs : List (List UInt8)} {closed : Bool} (hne : segs ≠ [])
    (hlook : ¬ LooksConnected (firstRead segs)) :
    resultOn p segs closed = some (.error (connectFailed (firstRead segs))) := by
  rw [resultOn_eq hp, if_neg fun h => hne h.1, if_neg hlook]

theorem connectFailed_inj {as bs : List UInt8} :
    connectFailed as = connectFailed bs ↔ firstLine (lossy as) = firstLine (lossy bs) := by
  constructor
  · intro h
    exact String.append_right_inj _ |>.mp (ProxyError.upstream.inj h)
  · intro h
    rw [connectFailed, h, connectFailed]

theorem neverConnected_of_asSpecifiedOnAll {p : Sys Unit} (hp : ConnectsOverHttp p)
    {bs : List UInt8} {closed : Bool} (h : AsSpecifiedOnAll p bs closed) : NeverConnected bs := by
  obtain ⟨hall, hsame⟩ := h
  refine ⟨not_headThen_of_asSpecified hp hall, ?_, ?_⟩
  · intro hlook
    have hlen : 0 < bs.length := by
      rw [List.length_pos_iff]
      rintro rfl
      exact absurd hlook (by decide)
    -- The whole stream in one segment.
    obtain ⟨segs, hsplit, hfirst⟩ := splitsInto_take hlen le_rfl
    refine not_looksConnected_of_asSpecified hp hall hsplit ?_
    rw [firstRead, hfirst, List.take_length]
    exact looksConnected_take hlook
  · intro n h0 hn hlen
    have hne : bs ≠ [] := List.length_pos_iff.mp (by omega)
    obtain ⟨segs, hsplit, hread⟩ := exists_firstRead h0 hn hlen
    obtain ⟨segs', hsplit', hread'⟩ := @exists_firstRead bs 1 (by omega) (by omega) (by omega)
    have hquiet := not_looksConnected_of_asSpecified hp hall hsplit
    have hquiet' := not_looksConnected_of_asSpecified hp hall hsplit'
    have heq := hsame segs segs' hsplit hsplit'
    rw [resultOn_of_not_looksConnected hp (hsplit.ne_nil hne) hquiet,
      resultOn_of_not_looksConnected hp (hsplit'.ne_nil hne) hquiet', hread, hread'] at heq
    exact connectFailed_inj.mp (Except.error.inj (Option.some.inj heq))

/-- What never connects shows the first line of its first byte. -/
theorem NeverConnected.firstLine_eq {bs : List UInt8} (h : NeverConnected bs) (hne : bs ≠ [])
    {segs : List (List UInt8)} (hsplit : SplitsInto segs bs) :
    firstLine (lossy (firstRead segs)) = firstLine (lossy (bs.take 1)) := by
  obtain ⟨n, h0, hn, hlen, hread⟩ := firstRead_eq_take hsplit hne
  rw [hread]
  exact h.2.2 n h0 hn hlen

theorem asSpecifiedOnAll_of_neverConnected {p : Sys Unit} (hp : ConnectsOverHttp p)
    {bs : List UInt8} {closed : Bool} (h : NeverConnected bs) : AsSpecifiedOnAll p bs closed := by
  have hquiet : ∀ segs, SplitsInto segs bs → ¬ LooksConnected (firstRead segs) := by
    intro segs hsplit hl
    exact h.2.1 (looksConnected_of_start (hsplit.flatten ▸ firstRead_prefix segs) hl)
  refine ⟨fun segs hsplit => ?_, fun segs segs' hsplit hsplit' => ?_⟩
  · refine (asSpecified_iff hp segs closed).mpr (Or.inr ⟨?_, hquiet segs hsplit⟩)
    rw [hsplit.flatten]
    exact h.1
  · by_cases hbs : bs = []
    · subst hbs
      rw [hsplit.eq_nil, hsplit'.eq_nil]
    · have hline := (h.firstLine_eq hbs hsplit).trans (h.firstLine_eq hbs hsplit').symm
      rw [resultOn_of_not_looksConnected hp (hsplit.ne_nil hbs) (hquiet segs hsplit),
        resultOn_of_not_looksConnected hp (hsplit'.ne_nil hbs) (hquiet segs' hsplit'),
        connectFailed_inj.mpr hline]

/-- **The exchange is as specified on every way to cut a stream exactly when
the stream never connects**, and shows one first line however it is cut. -/
theorem asSpecifiedOnAll_iff {p : Sys Unit} (hp : ConnectsOverHttp p) (bs : List UInt8)
    (closed : Bool) : AsSpecifiedOnAll p bs closed ↔ NeverConnected bs :=
  ⟨neverConnected_of_asSpecifiedOnAll hp, asSpecifiedOnAll_of_neverConnected hp⟩

/-- **When the outcome is as specified.**  On one way to cut the upstream's
bytes: when the first read is a head of version 1.0 or 1.1 and nothing else, or
there is no head and the first read does not look like one.  On every way to cut
them: when they never connect. -/
theorem http_tunnel_starts_after_head_iff {p : Sys Unit} (hp : ConnectsOverHttp p) :
    (∀ segs closed, AsSpecified p segs closed ↔ StartsClean segs) ∧
    ∀ bs closed, AsSpecifiedOnAll p bs closed ↔ NeverConnected bs :=
  ⟨asSpecified_iff hp, asSpecifiedOnAll_iff hp⟩

theorem http_tunnel_starts_after_head_iff_direct :
    (∀ segs closed, AsSpecified
      (HttpProxyConnector.connect ⟨"10.0.0.2:3128", none, false⟩ ⟨"example.com", 22⟩) segs closed ↔
        StartsClean segs) ∧
    ∀ bs closed, AsSpecifiedOnAll
      (HttpProxyConnector.connect ⟨"10.0.0.2:3128", none, false⟩ ⟨"example.com", 22⟩) bs closed ↔
        NeverConnected bs :=
  http_tunnel_starts_after_head_iff (.connector ⟨"10.0.0.2:3128", none, false⟩ ⟨"example.com", 22⟩)

def okHead : ResponseHead where
  minor := 0x31
  status := [0x32, 0x30, 0x30]
  reason := some [0x4F, 0x4B]
  fields := []
  minor_digit := by decide
  status_length := by decide
  status_digits := List.all_eq_true.mp rfl
  reason_plain := by
    intro r hr
    obtain rfl := Option.some.inj hr
    decide

/-- **A head in two reads is refused, and what comes along with a head in one
read is lost.** -/
theorem http_tunnel_depends_on_reads :
    let p := HttpProxyConnector.connect ⟨"10.0.0.2:3128", none, false⟩ ⟨"example.com", 22⟩
    let banner : List UInt8 := [0x53, 0x53, 0x48]
    HeadThen okHead.bytes [] ∧
    ¬ Establishes p [okHead.bytes.take 6, okHead.bytes.drop 6] false [] ∧
    ¬ AsSpecifiedOnAll p okHead.bytes false ∧
    HeadThen (okHead.bytes ++ banner) banner ∧
    Establishes p [okHead.bytes ++ banner] false [] := by
  have hp := ConnectsOverHttp.connector ⟨"10.0.0.2:3128", none, false⟩ ⟨"example.com", 22⟩
  have hhead : HeadThen okHead.bytes [] := ⟨okHead, rfl, (List.append_nil _).symm⟩
  refine ⟨hhead, fun h => ?_, fun h => ?_, ⟨okHead, rfl, rfl⟩, ?_⟩
  · exact absurd ((establishes_iff hp).mp h).1 (by decide)
  · exact not_headThen_of_asSpecified hp h.1 [] hhead
  · exact (establishes_iff hp).mpr ⟨by decide, by decide⟩

end Peregrine
