import Peregrine.Lib.NetText

/-!
# Printing IP addresses

How the Rust standard library prints IP addresses: octets between dots, and
groups between colons, where the longest run of zeros is left out and an address
that stands for an IPv4 address ends in that.

What is printed is read back: `parseIpv4Addr_showIpv4Addr` and
`parseIpv6Addr_showIpv6Addr`.
-/

namespace NetText

/-! ### Numbers -/

theorem toDigit_digitChar {b : ℕ} (hb : b ≤ 16) {d : ℕ} (hd : d < b) :
    toDigit b d.digitChar = some d := by
  have h16 : ∀ d < 16, toDigit 16 (Nat.digitChar d) = some d := by decide
  have h := h16 d (by omega)
  unfold toDigit at h ⊢
  simp only at h ⊢
  split_ifs at h ⊢ <;> first | exact h | exact absurd (Option.some.inj h) (by omega)

theorem toDigits_spec {b : ℕ} (hb : 1 < b) (hb' : b ≤ 16) (n : ℕ) :
    (∀ c ∈ Nat.toDigits b n, isDigit b c = true) ∧ valueFrom b 0 (Nat.toDigits b n) = n ∧
      ((Nat.toDigits b n).head? = some '0' → n = 0) := by
  have hdigit : ∀ d < b, isDigit b (Nat.digitChar d) = true := by
    intro d hd
    rw [isDigit, toDigit_digitChar hb' hd]
    rfl
  induction n using Nat.strongRecOn with
  | ind n ih =>
    by_cases hn : n < b
    · rw [Nat.toDigits_of_lt_base hn]
      refine ⟨fun c hc => ?_, ?_, fun hhead => ?_⟩
      · rw [List.mem_singleton.mp hc]
        exact hdigit n hn
      · simp only [valueFrom, List.foldl_cons, List.foldl_nil, toDigit_digitChar hb' hn,
          Option.getD_some]
        omega
      · have hzero : ∀ d < 16, Nat.digitChar d = '0' → d = 0 := by decide
        exact hzero n (by omega) (Option.some.inj hhead)
    · have hmod := Nat.mod_lt n (by omega : b > 0)
      obtain ⟨hd, hv, hz⟩ := ih (n / b) (Nat.div_lt_self (by omega) hb)
      rw [Nat.toDigits_of_base_le hb (by omega)]
      refine ⟨fun c hc => ?_, ?_, fun hhead => ?_⟩
      · rcases List.mem_append.mp hc with hc | hc
        · exact hd c hc
        · rw [List.mem_singleton.mp hc]
          exact hdigit _ hmod
      · unfold valueFrom at hv ⊢
        rw [List.foldl_append, hv]
        simp only [List.foldl_cons, List.foldl_nil, toDigit_digitChar hb' hmod, Option.getD_some]
        rw [Nat.mul_comm, Nat.div_add_mod]
      · rw [List.head?_append_of_ne_nil _ Nat.toDigits_ne_nil] at hhead
        have hpos := Nat.div_pos (by omega : b ≤ n) (by omega)
        have := hz hhead
        omega

/-- **A number is read back as printed.** -/
theorem numeral_toDigits {b : ℕ} (hb : 1 < b) (hb' : b ≤ 16) {k : ℕ} (hk : 0 < k)
    (allowZeroPrefix : Bool) {bound n : ℕ} (hn : n < bound) (hlen : bound ≤ b ^ k) :
    Numeral b (some k) allowZeroPrefix bound (Nat.toDigits b n) n := by
  obtain ⟨hd, hv, hz⟩ := toDigits_spec hb hb' n
  refine ⟨Nat.toDigits_ne_nil, hd, fun m hm => ?_, fun _ hhead => ?_, hv, hn⟩
  · cases hm
    exact (Nat.length_toDigits_le_iff hb hk).mpr (by omega)
  · rw [hz hhead, Nat.toDigits_zero]
    exact le_rfl

/-! ### IPv4 addresses -/

/-- Numbers between dots, from the `i`th on. -/
def showOctets : ℕ → List ℕ → List Char
  | _, [] => []
  | i, n :: ns => (if 0 < i then ['.'] else []) ++ Nat.toDigits 10 n ++ showOctets (i + 1) ns

/-- `Ipv4Addr`'s `Display`. -/
def showIpv4Addr (octets : List ℕ) : List Char := showOctets 0 octets

theorem dotted_showOctets {ns : List ℕ} (h : ∀ n ∈ ns, n < 256) (i : ℕ) :
    Dotted i (showOctets i ns) ns := by
  induction ns generalizing i with
  | nil => exact .nil i
  | cons n ns ih =>
    have hn := numeral_toDigits (by decide) (by decide) (by decide : 0 < 3) false
      (h n List.mem_cons_self) (by decide : 256 ≤ 10 ^ 3)
    exact .cons hn (ih (fun k hk => h k (List.mem_cons_of_mem n hk)) (i + 1))

/-- **An IPv4 address is read back as printed.** -/
theorem parseIpv4Addr_showIpv4Addr {ns : List ℕ} (hlen : ns.length = 4) (h : ∀ n ∈ ns, n < 256) :
    parseIpv4Addr (showIpv4Addr ns) = some ns :=
  parseIpv4Addr_eq_some.mpr ⟨dotted_showOctets h 0, hlen⟩

/-! ### IPv6 addresses -/

/-- Groups between colons, from the `i`th on. -/
def showGroups : ℕ → List ℕ → List Char
  | _, [] => []
  | i, g :: gs => (if 0 < i then [':'] else []) ++ Nat.toDigits 16 g ++ showGroups (i + 1) gs

/-- The longest run of zeros, by its start and length: `i` groups have been looked
at, and `current` is the run they end in. -/
def zeroSpan : ℕ → ℕ × ℕ → ℕ × ℕ → List ℕ → ℕ × ℕ
  | _, _, longest, [] => longest
  | i, current, longest, g :: gs =>
    if g = 0 then
      let current := (if current.2 = 0 then i else current.1, current.2 + 1)
      zeroSpan (i + 1) current (if longest.2 < current.2 then current else longest) gs
    else zeroSpan (i + 1) (0, 0) longest gs

/-- `Ipv6Addr`'s `Display`. -/
def showIpv6Addr (groups : List ℕ) : List Char :=
  match groups with
  | [0, 0, 0, 0, 0, 0xFFFF, g, h] =>
    "::ffff:".toList ++ showIpv4Addr [g / 256, g % 256, h / 256, h % 256]
  | groups =>
    let zeroes := zeroSpan 0 (0, 0) (0, 0) groups
    if 1 < zeroes.2 then
      showGroups 0 (groups.take zeroes.1) ++ ':' :: ':' ::
        showGroups 0 (groups.drop (zeroes.1 + zeroes.2))
    else showGroups 0 groups

/-- The groups of a run are zeros. -/
def ZeroRun (gs : List ℕ) (run : ℕ × ℕ) : Prop :=
  ∀ k, run.1 ≤ k → k < run.1 + run.2 → gs[k]? = some 0

/-- **What is found is a run of zeros.** -/
theorem zeroRun_zeroSpan {all gs : List ℕ} {i : ℕ} {current longest : ℕ × ℕ}
    (hgs : gs = all.drop i) (hcur : ZeroRun all current)
    (hend : current.2 = 0 ∨ current.1 + current.2 = i) (hlong : ZeroRun all longest) :
    ZeroRun all (zeroSpan i current longest gs) := by
  induction gs generalizing i current longest with
  | nil => exact hlong
  | cons g gs ih =>
    have hg : all[i]? = some g := by
      rw [← Nat.add_zero i, ← List.getElem?_drop, ← hgs]
      rfl
    have hnext : gs = all.drop (i + 1) := by
      rw [← List.drop_drop, ← hgs]
      rfl
    rw [zeroSpan]
    split
    · rename_i hzero
      subst hzero
      -- the run goes on with this group
      have hrun : ZeroRun all (if current.2 = 0 then i else current.1, current.2 + 1) := by
        intro k hk hk'
        simp only at hk hk'
        split at hk
        · rename_i hempty
          rw [if_pos hempty] at hk'
          obtain rfl : k = i := by omega
          exact hg
        · rename_i hempty
          rw [if_neg hempty] at hk'
          by_cases hki : k = i
          · rw [hki]
            exact hg
          · exact hcur k hk (by omega)
      refine ih hnext hrun (Or.inr ?_) ?_
      · simp only
        split <;> omega
      · by_cases hlonger : longest.2 < current.2 + 1
        · rw [if_pos hlonger]
          exact hrun
        · rw [if_neg hlonger]
          exact hlong
    · exact ih hnext (fun k hk hk' => by omega) (Or.inl rfl) hlong

theorem ZeroRun.cut {gs : List ℕ} {run : ℕ × ℕ} (h : ZeroRun gs run) (hlen : 0 < run.2) :
    run.1 + run.2 ≤ gs.length ∧
      gs.take run.1 ++ List.replicate run.2 0 ++ gs.drop (run.1 + run.2) = gs := by
  have hle : run.1 + run.2 ≤ gs.length := by
    have hlast := h (run.1 + run.2 - 1) (by omega) (by omega)
    have := (List.getElem?_eq_some_iff.mp hlast).1
    omega
  have hzeros : (gs.drop run.1).take run.2 = List.replicate run.2 0 := by
    refine List.ext_getElem? fun k => ?_
    rw [List.getElem?_replicate, List.getElem?_take]
    split
    · rw [List.getElem?_drop]
      exact h (run.1 + k) (by omega) (by omega)
    · rfl
  refine ⟨hle, ?_⟩
  rw [← hzeros, List.append_assoc, ← List.drop_drop, List.take_append_drop, List.take_append_drop]

/-- A text that groups are not read from: nothing, or two colons. -/
def EndsGroups (cs : List Char) : Prop := cs = [] ∨ ∃ rest, cs = ':' :: ':' :: rest

theorem EndsGroups.noDigit {cs : List Char} (h : EndsGroups cs) : NoDigit 16 cs := by
  rcases h with rfl | ⟨rest, rfl⟩
  · exact nofun
  · intro c hc
    cases hc
    decide

theorem readNumber_of_noDigit {radix : ℕ} {maxDigits : Option ℕ} {allowZeroPrefix : Bool}
    {bound : ℕ} {cs : List Char} (h : NoDigit radix cs) :
    readNumber radix maxDigits allowZeroPrefix bound cs = none := by
  have hnil : cs.takeWhile (isDigit radix) = [] := by
    cases cs with
    | nil => rfl
    | cons c cs =>
      have hc : isDigit radix c = false := h c rfl
      exact List.takeWhile_cons_of_neg (by simp [hc])
  rw [readNumber, if_pos hnil]

theorem readIpv4Addr_eq_none {ds rest : List Char} (hds : '.' ∉ ds)
    (hrest : ∀ c ∈ rest.head?, c ≠ '.' ∧ isDigit 10 c = false) :
    readIpv4Addr (ds ++ rest) = none := by
  refine Option.eq_none_iff_forall_ne_some.mpr ?_
  rintro ⟨ns, rest'⟩ h
  obtain ⟨es, heq, hdot, hlen, -⟩ := readIpv4Addr_eq_some.mp h
  -- the first number and the dot behind it
  obtain ⟨d₁, x, hes, hd₁⟩ : ∃ d₁ x, es = d₁ ++ '.' :: x ∧ ∀ c ∈ d₁, isDigit 10 c = true := by
    cases hdot with
    | nil => cases hlen
    | @cons _ n d₁ cs ns hn hs =>
      cases hs with
      | nil => cases hlen
      | @cons _ n' d₂ cs ns hn' hs =>
        refine ⟨d₁, d₂ ++ cs, ?_, hn.digits⟩
        rw [if_neg (Nat.lt_irrefl 0), if_pos (Nat.succ_pos 0)]
        rfl
  rw [hes, List.append_assoc, List.cons_append] at heq
  rcases List.append_eq_append_iff.mp heq with ⟨a, ha, hr⟩ | ⟨a, ha, hr⟩
  · cases a with
    | nil =>
      rw [List.nil_append] at hr
      exact (hrest '.' (by rw [hr]; rfl)).1 rfl
    | cons c a =>
      have hc := hd₁ c (by rw [ha]; exact List.mem_append_right _ List.mem_cons_self)
      have hno := (hrest c (by rw [hr]; rfl)).2
      rw [hc] at hno
      cases hno
  · cases a with
    | nil =>
      rw [List.nil_append] at hr
      exact (hrest '.' (by rw [← hr]; rfl)).1 rfl
    | cons c a =>
      obtain rfl := (List.cons.inj hr).1
      exact hds (by rw [ha]; exact List.mem_append_right _ List.mem_cons_self)

theorem head_showGroups {i : ℕ} {gs : List ℕ} {rest : List Char} (hrest : EndsGroups rest) :
    ∀ c ∈ (showGroups (i + 1) gs ++ rest).head?, c = ':' := by
  cases gs with
  | nil =>
    rcases hrest with rfl | ⟨rest, rfl⟩
    · exact nofun
    · intro c hc
      cases hc
      rfl
  | cons g gs =>
    intro c hc
    cases hc
    rfl

theorem readSeparator_sep {α : Type} {sep : Char} {i : ℕ} {inner : Reader α} {ds : List Char} :
    readSeparator sep i inner ((if 0 < i then [sep] else []) ++ ds) = inner ds := by
  unfold readSeparator
  by_cases hi : 0 < i
  · rw [if_pos hi, if_pos hi, List.singleton_append, readGivenChar, if_pos rfl, Option.bind_some]
  · rw [if_neg hi, if_neg hi, List.nil_append]

theorem readSeparator_endsGroups {α : Type} {i : ℕ} {inner : Reader α} {rest : List Char}
    (hinner : ∀ cs, NoDigit 16 cs → inner cs = none) (h : EndsGroups rest) :
    readSeparator ':' i inner rest = none := by
  unfold readSeparator
  by_cases hi : 0 < i
  · rw [if_pos hi]
    rcases h with rfl | ⟨rest, rfl⟩
    · rfl
    · rw [readGivenChar, if_pos rfl, Option.bind_some]
      refine hinner _ fun c hc => ?_
      cases hc
      decide
  · rw [if_neg hi]
    exact hinner rest h.noDigit

theorem readIpv4Addr_of_noDigit {cs : List Char} (h : NoDigit 16 cs) : readIpv4Addr cs = none := by
  have h10 : NoDigit 10 cs := by
    intro c hc
    by_contra hdigit
    have := isDigit_mono (by decide : 10 ≤ 16) (Bool.eq_true_of_not_eq_false hdigit)
    rw [h c hc] at this
    cases this
  rw [readIpv4Addr, readOctets, readSeparator, if_neg (Nat.lt_irrefl 0), readNumber_of_noDigit h10]
  rfl

theorem readIpv4Addr_group {g : ℕ} {rest : List Char} (hrest : ∀ c ∈ rest.head?, c = ':') :
    readIpv4Addr (Nat.toDigits 16 g ++ rest) = none := by
  refine readIpv4Addr_eq_none (fun hdot => ?_) fun c hc => ?_
  · have := (toDigits_spec (by decide) (le_refl 16) g).1 '.' hdot
    rw [isDigit_dot] at this
    cases this
  · rw [hrest c hc]
    decide

/-- **Groups are read back as printed.** -/
theorem readGroups_showGroups {gs : List ℕ} {n i : ℕ} {rest : List Char} (hlen : gs.length ≤ n)
    (hgs : ∀ g ∈ gs, g < 65536) (hrest : EndsGroups rest) :
    readGroups n i (showGroups i gs ++ rest) = (gs, false, rest) := by
  induction gs generalizing n i with
  | nil =>
    rw [showGroups, List.nil_append]
    cases n with
    | zero => rfl
    | succ n =>
      have hv4 := @readSeparator_endsGroups _ i readIpv4Addr rest
        (fun cs hcs => readIpv4Addr_of_noDigit hcs) hrest
      have hgroup := @readSeparator_endsGroups _ i (readNumber 16 (some 4) true 65536) rest
        (fun cs hcs => readNumber_of_noDigit hcs) hrest
      rw [readGroups, hv4, hgroup, ite_self]
  | cons g gs ih =>
    obtain ⟨n, rfl⟩ : ∃ m, n = m + 1 := ⟨n - 1, by rw [List.length_cons] at hlen; omega⟩
    have htail := @head_showGroups i gs rest hrest
    have hnum := numeral_toDigits (by decide) (le_refl 16) (by decide : 0 < 4) true
      (hgs g List.mem_cons_self) (by decide : 65536 ≤ 16 ^ 4)
    have hread : readNumber 16 (some 4) true 65536
        (Nat.toDigits 16 g ++ (showGroups (i + 1) gs ++ rest)) =
          some (g, showGroups (i + 1) gs ++ rest) := by
      refine readNumber_eq_some.mpr ⟨_, rfl, hnum, fun c hc => ?_⟩
      rw [htail c hc]
      decide
    rw [showGroups, List.append_assoc, List.append_assoc, readGroups, readSeparator_sep,
      readSeparator_sep, readIpv4Addr_group htail, hread, ite_self]
    simp only
    rw [ih (by rw [List.length_cons] at hlen; omega)
      (fun k hk => hgs k (List.mem_cons_of_mem g hk))]

theorem readIpv6Addr_elided {as bs : List ℕ} (hlen : as.length + bs.length < 8)
    (ha : ∀ g ∈ as, g < 65536) {text rest : List Char} {v4 : Bool}
    (hb : readGroups (8 - (as.length + 1)) 0 text = (bs, v4, rest)) :
    readIpv6Addr (showGroups 0 as ++ ':' :: ':' :: text) =
      some (as ++ List.replicate (8 - as.length - bs.length) 0 ++ bs, rest) := by
  have hhead := @readGroups_showGroups as 8 0 (':' :: ':' :: text) (by omega) ha
    (Or.inr ⟨text, rfl⟩)
  unfold readIpv6Addr
  simp only [hhead]
  rw [if_neg (by omega)]
  simp only [Bool.false_eq_true, if_false, readGivenChar, if_true, Option.bind_some,
    Option.map_some, hb]

theorem readGroups_embedded {n g : ℕ} {ns : List ℕ} (hn : 2 < n) (hg : g < 65536)
    (hlen : ns.length = 4) (hns : ∀ k ∈ ns, k < 256) :
    readGroups n 0 (Nat.toDigits 16 g ++ ':' :: showIpv4Addr ns) = (g :: pairs ns, true, []) := by
  obtain ⟨n, rfl⟩ : ∃ m, n = m + 2 := ⟨n - 2, by omega⟩
  have hnum := numeral_toDigits (by decide) (le_refl 16) (by decide : 0 < 4) true hg
    (by decide : 65536 ≤ 16 ^ 4)
  have hread : readNumber 16 (some 4) true 65536 (Nat.toDigits 16 g ++ ':' :: showIpv4Addr ns) =
      some (g, ':' :: showIpv4Addr ns) := by
    refine readNumber_eq_some.mpr ⟨_, rfl, hnum, fun c hc => ?_⟩
    cases hc
    decide
  have hnone : readIpv4Addr (Nat.toDigits 16 g ++ ':' :: showIpv4Addr ns) = none :=
    readIpv4Addr_group fun c hc => by
      cases hc
      rfl
  have hip : readIpv4Addr (showIpv4Addr ns) = some (ns, []) := parse_eq_some.mp (by
    have hparse := parseIpv4Addr_showIpv4Addr hlen hns
    unfold parseIpv4Addr at hparse
    split at hparse
    · cases hparse
    · exact hparse)
  have hsep : readSeparator ':' 1 readIpv4Addr (':' :: showIpv4Addr ns) = some (ns, []) :=
    (@readSeparator_sep _ ':' 1 readIpv4Addr (showIpv4Addr ns)).trans hip
  have hfirst : ∀ {α : Type} (inner : Reader α) (cs : List Char),
      readSeparator ':' 0 inner cs = inner cs := fun _ _ => rfl
  rw [readGroups, hfirst, hfirst, hnone, hread, ite_self]
  simp only [Nat.zero_add]
  rw [readGroups, if_pos (by omega), hsep]

theorem readGroups_showGroups_end {gs : List ℕ} {n : ℕ} (hlen : gs.length ≤ n)
    (hgs : ∀ g ∈ gs, g < 65536) : readGroups n 0 (showGroups 0 gs) = (gs, false, []) := by
  have h := @readGroups_showGroups gs n 0 [] hlen hgs (Or.inl rfl)
  rw [List.append_nil] at h
  exact h

/-- **An IPv6 address is read back as printed.** -/
theorem parseIpv6Addr_showIpv6Addr {gs : List ℕ} (hlen : gs.length = 8)
    (hgs : ∀ g ∈ gs, g < 65536) : parseIpv6Addr (showIpv6Addr gs) = some gs := by
  refine parse_eq_some.mpr ?_
  unfold showIpv6Addr
  split
  · rename_i g h
    have hg : g < 65536 := hgs g (by simp)
    have hh : h < 65536 := hgs h (by simp)
    have hoctets : ∀ k ∈ [g / 256, g % 256, h / 256, h % 256], k < 256 := by
      simp only [List.mem_cons, List.not_mem_nil, or_false]
      rintro k (rfl | rfl | rfl | rfl) <;> omega
    have hpairs : pairs [g / 256, g % 256, h / 256, h % 256] = [g, h] := by
      simp only [pairs, List.cons.injEq, and_true]
      omega
    have htail := @readGroups_embedded 7 0xFFFF _ (by decide) (by decide) rfl hoctets
    rw [hpairs] at htail
    refine @readIpv6Addr_elided [] [0xFFFF, g, h] ?_ (fun k hk => absurd hk List.not_mem_nil) _ _ _
      htail
    simp only [List.length_cons, List.length_nil]
    omega
  · simp only
    split
    · rename_i hrun
      obtain ⟨hle, hcut⟩ := (@zeroRun_zeroSpan gs gs 0 (0, 0) (0, 0) rfl (fun k _ hk => by omega)
        (Or.inl rfl) fun k _ hk => by omega).cut (by omega)
      generalize zeroSpan 0 (0, 0) (0, 0) gs = run at hrun hle hcut
      have hta : (gs.take run.1).length = run.1 := by
        rw [List.length_take]
        omega
      have hdb : (gs.drop (run.1 + run.2)).length = 8 - (run.1 + run.2) := by
        rw [List.length_drop, hlen]
      have htail := @readGroups_showGroups_end (gs.drop (run.1 + run.2))
        (8 - ((gs.take run.1).length + 1)) (by omega) fun g hg => hgs g (List.mem_of_mem_drop hg)
      rw [readIpv6Addr_elided (by omega) (fun g hg => hgs g (List.mem_of_mem_take hg)) htail]
      refine congrArg some (Prod.ext ?_ rfl)
      have hzeros : 8 - (gs.take run.1).length - (gs.drop (run.1 + run.2)).length = run.2 := by
        omega
      rw [hzeros]
      exact hcut
    · have hhead := @readGroups_showGroups_end gs 8 (by omega) hgs
      unfold readIpv6Addr
      simp only [hhead]
      rw [if_pos hlen]

end NetText
