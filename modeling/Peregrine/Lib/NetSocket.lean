import Peregrine.Lib.NetFormat

/-!
# Addresses with something behind them

A reader takes the same off a text whatever stands behind a character that it
never reads (`StopsAt`).  An IPv6 address ends at a closing bracket in this way
(`stopsAt_readIpv6Addr`), so what is an IP address alone is one inside a socket
address too: `parseSocketAddr_of_v4` and `parseSocketAddr_of_v6` put an address
and a port together, as `parseSocketAddr_v4` and `parseSocketAddr_v6` take them
apart.
-/

namespace NetText

variable {α : Type} {stop : Char}

/-- The reader does not look at what comes behind `stop`. -/
def StopsAt (stop : Char) (r : Reader α) : Prop :=
  ∀ cs rest, r (cs ++ stop :: rest) = (r cs).map fun x => (x.1, x.2 ++ stop :: rest)

theorem stopsAt_readGivenChar {c : Char} (hc : stop ≠ c) : StopsAt stop (readGivenChar c) := by
  intro cs rest
  cases cs with
  | nil => exact if_neg hc
  | cons d ds =>
    simp only [List.cons_append, readGivenChar]
    by_cases hd : d = c
    · rw [if_pos hd, if_pos hd]
      rfl
    · rw [if_neg hd, if_neg hd]
      rfl

theorem stopsAt_readSeparator {sep : Char} {i : ℕ} {inner : Reader α} (hsep : stop ≠ sep)
    (h : StopsAt stop inner) : StopsAt stop (readSeparator sep i inner) := by
  intro cs rest
  unfold readSeparator
  by_cases hi : 0 < i
  · rw [if_pos hi, if_pos hi, stopsAt_readGivenChar hsep cs rest]
    cases readGivenChar sep cs with
    | none => rfl
    | some r => exact h r.2 rest
  · rw [if_neg hi, if_neg hi]
    exact h cs rest

theorem span_stop {p : Char → Bool} (hp : p stop = false) (cs rest : List Char) :
    (cs ++ stop :: rest).takeWhile p = cs.takeWhile p ∧
      (cs ++ stop :: rest).dropWhile p = cs.dropWhile p ++ stop :: rest := by
  induction cs with
  | nil => simp [hp]
  | cons c cs ih =>
    cases hc : p c with
    | false => simp [hc]
    | true => simpa [hc] using ih

theorem stopsAt_readNumber {radix bound : ℕ} {maxDigits : Option ℕ} {allowZeroPrefix : Bool}
    (h : isDigit radix stop = false) :
    StopsAt stop (readNumber radix maxDigits allowZeroPrefix bound) := by
  intro cs rest
  obtain ⟨htake, hdrop⟩ := span_stop h cs rest
  unfold readNumber
  simp only [htake, hdrop]
  split_ifs <;> rfl

theorem stopsAt_readOctets (hdigit : isDigit 10 stop = false) (hdot : stop ≠ '.') (n i : ℕ) :
    StopsAt stop (readOctets n i) := by
  induction n generalizing i with
  | zero =>
    intro cs rest
    rfl
  | succ n ih =>
    intro cs rest
    have hread : StopsAt stop (readSeparator '.' i (readNumber 10 (some 3) false 256)) :=
      stopsAt_readSeparator hdot (stopsAt_readNumber hdigit)
    simp only [readOctets]
    rw [hread cs rest]
    cases readSeparator '.' i (readNumber 10 (some 3) false 256) cs with
    | none => rfl
    | some r =>
      simp only [Option.map_some, Option.bind_some]
      rw [ih (i + 1) r.2 rest]
      cases readOctets n (i + 1) r.2 <;> rfl

theorem stopsAt_readIpv4Addr (hdigit : isDigit 10 stop = false) (hdot : stop ≠ '.') :
    StopsAt stop readIpv4Addr :=
  stopsAt_readOctets hdigit hdot 4 0

/-- A character that no IPv6 address has in it. -/
structure OutsideIpv6 (stop : Char) : Prop where
  hex : isDigit 16 stop = false
  colon : stop ≠ ':'
  dot : stop ≠ '.'

theorem OutsideIpv6.decimal (h : OutsideIpv6 stop) : isDigit 10 stop = false := by
  cases hd : isDigit 10 stop with
  | false => rfl
  | true => exact absurd ((isDigit_mono (by decide) hd).symm.trans h.hex) (by decide)

theorem readGroups_stop (h : OutsideIpv6 stop) (n i : ℕ) (cs rest : List Char) :
    readGroups n i (cs ++ stop :: rest) =
      ((readGroups n i cs).1, (readGroups n i cs).2.1,
        (readGroups n i cs).2.2 ++ stop :: rest) := by
  induction n generalizing i cs with
  | zero => rfl
  | succ n ih =>
    have hv4 : (if 0 < n then readSeparator ':' i readIpv4Addr (cs ++ stop :: rest) else none) =
        (if 0 < n then readSeparator ':' i readIpv4Addr cs else none).map fun x =>
          (x.1, x.2 ++ stop :: rest) := by
      by_cases hn : 0 < n
      · rw [if_pos hn, if_pos hn]
        exact stopsAt_readSeparator h.colon (stopsAt_readIpv4Addr h.decimal h.dot) cs rest
      · rw [if_neg hn, if_neg hn]
        rfl
    have hgroup : StopsAt stop (readSeparator ':' i (readNumber 16 (some 4) true 65536)) :=
      stopsAt_readSeparator h.colon (stopsAt_readNumber h.hex)
    simp only [readGroups]
    rw [hv4, hgroup cs rest]
    cases (if 0 < n then readSeparator ':' i readIpv4Addr cs else none) with
    | some r => rfl
    | none =>
      cases readSeparator ':' i (readNumber 16 (some 4) true 65536) cs with
      | none => rfl
      | some r =>
        simp only [Option.map_none, Option.map_some]
        rw [ih (i + 1) r.2]

theorem stopsAt_readIpv6Addr (h : OutsideIpv6 stop) : StopsAt stop readIpv6Addr := by
  intro cs rest
  have hcolon : StopsAt stop (readGivenChar ':') := stopsAt_readGivenChar h.colon
  unfold readIpv6Addr
  simp only [readGroups_stop h 8 0 cs rest]
  by_cases hall : (readGroups 8 0 cs).1.length = 8
  · rw [if_pos hall, if_pos hall]
    rfl
  · rw [if_neg hall, if_neg hall]
    by_cases hv4 : (readGroups 8 0 cs).2.1 = true
    · rw [if_pos hv4, if_pos hv4]
      rfl
    · rw [if_neg hv4, if_neg hv4, hcolon]
      cases readGivenChar ':' (readGroups 8 0 cs).2.2 with
      | none => rfl
      | some r =>
        simp only [Option.map_some, Option.bind_some]
        rw [hcolon]
        cases readGivenChar ':' r.2 with
        | none => rfl
        | some r' =>
          simp only [Option.map_some]
          rw [readGroups_stop h]

/-! ### An address and a port -/

theorem readPort_of_numeral {ds : List Char} {port : ℕ} (h : Numeral 10 none true 65536 ds port) :
    readPort (':' :: ds) = some (port, []) := by
  have hds := readNumber_eq_some.mpr ⟨ds, (List.append_nil ds).symm, h, nofun⟩
  rw [readPort, readGivenChar, if_pos rfl, Option.bind_some]
  exact hds

theorem parseSocketAddr_of_v4 {ds ps : List Char} {octets : List ℕ} {port : ℕ}
    (h : parseIpv4Addr ds = some octets) (hport : Numeral 10 none true 65536 ps port) :
    parseSocketAddr (ds ++ ':' :: ps) = some (.v4 octets port) := by
  obtain ⟨hdot, hlen⟩ := parseIpv4Addr_eq_some.mp h
  have hip : readIpv4Addr (ds ++ ':' :: ps) = some (octets, ':' :: ps) := by
    refine readIpv4Addr_eq_some.mpr ⟨ds, rfl, hdot, hlen, fun c hc => ?_⟩
    cases hc
    decide
  apply parse_eq_some.mpr
  rw [readSocketAddrV4, hip, Option.bind_some, readPort_of_numeral hport]
  rfl

theorem parseSocketAddr_of_v6 {ds ps : List Char} {gs : List ℕ} {port : ℕ}
    (h : parseIpv6Addr ds = some gs) (hport : Numeral 10 none true 65536 ps port) :
    parseSocketAddr ('[' :: ds ++ ']' :: ':' :: ps) = some (.v6 gs 0 port) := by
  have hip : readIpv6Addr (ds ++ ']' :: ':' :: ps) = some (gs, ']' :: ':' :: ps) := by
    rw [stopsAt_readIpv6Addr ⟨by decide, by decide, by decide⟩, parse_eq_some.mp h]
    rfl
  have hv4 : readSocketAddrV4 ('[' :: ds ++ ']' :: ':' :: ps) = none := by
    -- an IPv4 address does not begin with a bracket
    rw [readSocketAddrV4, readIpv4Addr_of_noDigit, Option.bind_none]
    intro c hc
    cases hc
    decide
  have hscope : readScopeId (']' :: ':' :: ps) = none := rfl
  apply parse_eq_some.mpr
  rw [hv4, Option.none_or, readSocketAddrV6, List.cons_append, readGivenChar, if_pos rfl,
    Option.bind_some, hip, Option.bind_some]
  simp only [hscope, Option.getD_none]
  rw [readGivenChar, if_pos rfl, Option.bind_some, readPort_of_numeral hport]
  rfl

end NetText
