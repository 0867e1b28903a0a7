import Mathlib.Computability.RegularExpressions
import Peregrine.Lib.Bytes

/-!
# Globs

A glob is read into a regular expression over bytes (`parse`): `?` is one byte,
`*` any bytes, `**` between separators any directories, `[..]` one byte of a set,
`{a,b}` one of several globs, and a backslash takes the next character as it is.
The reader takes one character at a time (`State.feed`), and fails on a class, a
group or an escape that is not closed, on a `}` that closes nothing and on a
range from a greater character to a smaller one.

* `parse_plain`: text without metacharacters matches itself and nothing else.
* `length_lt_of_parse`: **metacharacters other than wildcards cost length**. What
  such a glob matches is shorter than the glob, so it does not match itself.
-/

namespace Glob

/-! ### Regular expressions over bytes -/

/-- One after the other. -/
def word (bytes : List UInt8) : RegularExpression UInt8 := (bytes.map .char).prod

/-- One of the bytes. -/
def oneOf (bytes : List UInt8) : RegularExpression UInt8 := (bytes.map .char).sum

def allBytes : List UInt8 := (List.range 256).map UInt8.ofNat

def anyByte : RegularExpression UInt8 := oneOf allBytes

def anyBytes : RegularExpression UInt8 := .star anyByte

def slash : RegularExpression UInt8 := word (String.utf8EncodeChar '/')

theorem matches'_prod_append (rs rs' : List (RegularExpression UInt8)) :
    (rs ++ rs').prod.matches' = rs.prod.matches' * rs'.prod.matches' := by
  induction rs with
  | nil => exact (one_mul _).symm
  | cons r rs ih =>
    show r.matches' * (rs ++ rs').prod.matches' = _
    rw [ih, ← mul_assoc]
    rfl

theorem mem_prod_map {α : Type*} {f : α → RegularExpression UInt8} {g : α → List UInt8}
    (h : ∀ a w, w ∈ (f a).matches' ↔ w = g a) {as : List α} {w : List UInt8} :
    w ∈ (as.map f).prod.matches' ↔ w = as.flatMap g := by
  induction as generalizing w with
  | nil => exact Language.mem_one w
  | cons a as ih =>
    show w ∈ (f a).matches' * (as.map f).prod.matches' ↔ _
    rw [List.flatMap_cons]
    constructor
    · intro hw
      obtain ⟨u, hu, v, hv, rfl⟩ := Language.mem_mul.mp hw
      rw [(h a u).mp hu, ih.mp hv]
    · rintro rfl
      exact Language.mem_mul.mpr ⟨_, (h a _).mpr rfl, _, ih.mpr rfl, rfl⟩

theorem mem_word {bytes w : List UInt8} : w ∈ (word bytes).matches' ↔ w = bytes := by
  have hchar : ∀ b w, w ∈ (RegularExpression.char b : RegularExpression UInt8).matches' ↔
      w = [b] := fun b w => Set.mem_singleton_iff
  rw [word, mem_prod_map hchar, List.flatMap_singleton']

theorem exists_of_mem_sum {rs : List (RegularExpression UInt8)} {w : List UInt8}
    (h : w ∈ rs.sum.matches') : ∃ r ∈ rs, w ∈ r.matches' := by
  induction rs with
  | nil => exact absurd h (Language.notMem_zero w)
  | cons r rs ih =>
    rcases (Language.mem_add _ _ _).mp h with h | h
    · exact ⟨r, List.mem_cons_self, h⟩
    · obtain ⟨r', hr', hw⟩ := ih h
      exact ⟨r', List.mem_cons_of_mem r hr', hw⟩

theorem length_of_mem_oneOf {bytes w : List UInt8} (h : w ∈ (oneOf bytes).matches') :
    w.length = 1 := by
  obtain ⟨r, hr, hw⟩ := exists_of_mem_sum h
  obtain ⟨b, -, rfl⟩ := List.mem_map.mp hr
  rw [Set.mem_singleton_iff.mp hw]
  rfl

/-! ### Tokens -/

/-- The bytes a range of characters stands for once its ends are written as bytes. -/
def rangeBytes (range : Char × Char) : List UInt8 :=
  let lo := String.utf8EncodeChar range.1
  let hi := String.utf8EncodeChar range.2
  if range.1 = range.2 then lo
  else lo.dropLast ++ (allBytes.filter fun b => lo.getLastD 0 ≤ b && b ≤ hi.headD 0) ++ hi.tail

def classBytes (negated : Bool) (ranges : List (Char × Char)) : List UInt8 :=
  allBytes.filter fun b => (ranges.flatMap rangeBytes).contains b != negated

/-- A piece of a glob. -/
inductive Token
  | literal (c : Char)
  | any
  | zeroOrMore
  | recursivePrefix
  | recursiveSuffix
  | recursiveZeroOrMore
  | cls (negated : Bool) (ranges : List (Char × Char))
  | alternates (parts : List (RegularExpression UInt8))

/-- What the token is written as; a group without alternatives is not written. -/
def Token.re? : Token → Option (RegularExpression UInt8)
  | .literal c => some (word (String.utf8EncodeChar c))
  | .any => some anyByte
  | .zeroOrMore => some anyBytes
  | .recursivePrefix => some (1 + slash + anyBytes * slash)
  | .recursiveSuffix => some (slash * anyBytes)
  | .recursiveZeroOrMore => some (slash + slash * anyBytes * slash)
  | .cls negated ranges => some (oneOf (classBytes negated ranges))
  | .alternates parts => if parts.isEmpty then none else some parts.sum

/-- The tokens of a branch, the last one first, as they are written. -/
def pieces (branch : List Token) : List (RegularExpression UInt8) :=
  branch.reverse.filterMap Token.re?

/-- The alternatives of a group, without those that are empty. -/
def Token.group (branches : List (List Token)) : Token :=
  .alternates (branches.filterMap fun branch =>
    if (pieces branch).isEmpty then none else some (pieces branch).prod)

/-! ### Reading a glob -/

inductive Mode
  | text
  | escape
  /-- Behind one `*`, and the character before it. -/
  | star (before : Option Char)
  /-- Behind `**`, and the character before it. -/
  | stars (before : Option Char)
  | bracket
  | cls (negated first inRange : Bool) (ranges : List (Char × Char))

/-- The tokens of the branch, the last one first; for every group around it the
branch before the group and the alternatives that are complete; the last
character read. -/
structure State where
  branch : List Token
  outer : List (List Token × List (List Token))
  prev : Option Char
  mode : Mode

namespace State

def init : State := ⟨[], [], none, .text⟩

def push (s : State) (t : Token) : State := { s with branch := t :: s.branch, mode := .text }

/-- One character outside of a class. -/
def text (s : State) (c : Char) : Option State :=
  if c = '?' then some (s.push .any)
  else if c = '*' then some { s with mode := .star s.prev }
  else if c = '[' then some { s with mode := .bracket }
  else if c = '{' then
    some { s with branch := [], outer := (s.branch, []) :: s.outer, mode := .text }
  else if c = '}' then match s.outer with
    | [] => none
    | (before, alts) :: outer => some
      { s with branch := .group (alts.reverse ++ [s.branch]) :: before, outer, mode := .text }
  else if c = ',' then match s.outer with
    | [] => some (s.push (.literal ','))
    | (before, alts) :: outer => some
      { s with branch := [], outer := (before, s.branch :: alts) :: outer, mode := .text }
  else if c = '\\' then some { s with mode := .escape }
  else some (s.push (.literal c))

/-- One character of a class.  A `]` at its start is a member, and so is a `-` at
its start or its end. -/
def item (s : State) (negated first inRange : Bool) (ranges : List (Char × Char)) (c : Char) :
    Option State :=
  if c = ']' ∧ first = false then
    some (s.push (.cls negated (if inRange then ('-', '-') :: ranges else ranges)))
  else if c = '-' ∧ first = false ∧ inRange = false then
    some { s with mode := .cls negated false true ranges }
  else match inRange, ranges with
    | true, (lo, _) :: ranges =>
      if c < lo then none else some { s with mode := .cls negated false false ((lo, c) :: ranges) }
    | _, ranges => some { s with mode := .cls negated false false ((c, c) :: ranges) }

/-- `**` between separators, in place of the separator before it. -/
def recursive (s : State) (t : Token) : State :=
  match s.branch with
  | .recursivePrefix :: _ | .recursiveSuffix :: _ => { s with mode := .text }
  | branch => { s with branch := t :: branch.tail, mode := .text }

/-- `**` from the characters around it, and whether it takes the one behind it. -/
def closeStars (s : State) (before next : Option Char) : State × Bool :=
  let two := (s.push .zeroOrMore).push .zeroOrMore
  if s.branch.isEmpty then
    if next = none ∨ next = some '/' then (s.push .recursivePrefix, true) else (two, false)
  else if before ≠ some '/' ∧ (s.outer.isEmpty ∨ before ≠ some ',' ∧ before ≠ some '{') then
    (two, false)
  else if next = some '/' then (s.recursive .recursiveZeroOrMore, true)
  else if next = none ∨ (s.outer.isEmpty = false ∧ (next = some ',' ∨ next = some '}')) then
    (s.recursive .recursiveSuffix, false)
  else (two, false)

def read (s : State) (c : Char) : Option State :=
  match s.mode with
  | .text => s.text c
  | .escape => some (s.push (.literal c))
  | .star before =>
    if c = '*' then some { s with mode := .stars before } else (s.push .zeroOrMore).text c
  | .stars before =>
    let (s, taken) := s.closeStars before (some c)
    if taken then some s else s.text c
  | .bracket =>
    if c = '!' ∨ c = '^' then some { s with mode := .cls true true false [] }
    else s.item false true false [] c
  | .cls negated first inRange ranges => s.item negated first inRange ranges c

def feed (s : State) (c : Char) : Option State := (s.read c).map fun s => { s with prev := some c }

/-- The glob, if no group is open.  `**` alone matches everything. -/
def close (s : State) : Option (RegularExpression UInt8) :=
  match s.outer, s.branch with
  | [], [.recursivePrefix] => some anyBytes
  | [], branch => some (pieces branch).prod
  | _ :: _, _ => none

def finish (s : State) : Option (RegularExpression UInt8) :=
  match s.mode with
  | .text => s.close
  | .star _ => (s.push .zeroOrMore).close
  | .stars before => (s.closeStars before none).1.close
  | _ => none

end State

def parse (glob : List Char) : Option (RegularExpression UInt8) :=
  (glob.foldlM State.feed .init).bind State.finish

example : (parse "a/**/[!x]".toList).any (·.rmatch (utf8 "a/y")) = true := by
  decide +kernel

theorem State.close_of_notMem {s : State} (houter : s.outer = [])
    (h : Token.recursivePrefix ∉ s.branch) : s.close = some (pieces s.branch).prod := by
  rw [close, houter]
  split
  · rename_i hbranch
    exact absurd (hbranch ▸ List.mem_cons_self) h
  · rfl
  · rename_i hcons
    cases hcons

/-! ### Plain text -/

/-- The characters that do not always stand for themselves; a comma, a `]`, a `!`
and a `-` mean something only where one of these came before. -/
def metachars : List Char := ['?', '*', '[', '{', '}', '\\']

def encode (cs : List Char) : List UInt8 := cs.flatMap String.utf8EncodeChar

theorem State.feed_plain {c : Char} (h : c ∉ metachars) (branch : List Token)
    (prev : Option Char) :
    State.feed ⟨branch, [], prev, .text⟩ c = some ⟨.literal c :: branch, [], some c, .text⟩ := by
  have hne : ∀ m ∈ metachars, c ≠ m := by
    rintro m hm rfl
    exact h hm
  have htext : State.text ⟨branch, [], prev, .text⟩ c =
      some (State.push ⟨branch, [], prev, .text⟩ (.literal c)) := by
    rw [State.text, if_neg (hne '?' (by decide)), if_neg (hne '*' (by decide)),
      if_neg (hne '[' (by decide)), if_neg (hne '{' (by decide)), if_neg (hne '}' (by decide))]
    split
    · rename_i hcomma
      rw [hcomma]
    · rw [if_neg (hne '\\' (by decide))]
  rw [State.feed, State.read, htext]
  rfl

theorem State.run_plain {cs : List Char} (h : ∀ c ∈ cs, c ∉ metachars) (branch : List Token)
    (prev : Option Char) : ∃ prev', cs.foldlM State.feed ⟨branch, [], prev, .text⟩ =
      some ⟨(cs.map Token.literal).reverse ++ branch, [], prev', .text⟩ := by
  induction cs generalizing branch prev with
  | nil => exact ⟨prev, rfl⟩
  | cons c cs ih =>
    obtain ⟨prev', hrun⟩ :=
      ih (fun x hx => h x (List.mem_cons_of_mem c hx)) (.literal c :: branch) (some c)
    refine ⟨prev', ?_⟩
    rw [List.foldlM_cons, State.feed_plain (h c List.mem_cons_self)]
    simpa using hrun

theorem pieces_literals (cs : List Char) : pieces (cs.map Token.literal).reverse =
    cs.map fun c => word (String.utf8EncodeChar c) := by
  rw [pieces, List.reverse_reverse, List.filterMap_map, ← List.filterMap_eq_map]
  rfl

/-- **Text without metacharacters matches itself and nothing else.** -/
theorem parse_plain {cs : List Char} (h : ∀ c ∈ cs, c ∉ metachars) :
    ∃ re, parse cs = some re ∧ ∀ w, w ∈ re.matches' ↔ w = encode cs := by
  obtain ⟨prev, hrun⟩ := State.run_plain h [] none
  have hclose : State.close ⟨(cs.map Token.literal).reverse ++ [], [], prev, .text⟩ =
      some (pieces (cs.map Token.literal).reverse).prod := by
    rw [List.append_nil]
    refine State.close_of_notMem rfl fun hmem => ?_
    obtain ⟨c, -, hc⟩ := List.mem_map.mp (List.mem_reverse.mp hmem)
    cases hc
  refine ⟨(pieces (cs.map Token.literal).reverse).prod, ?_, fun w => ?_⟩
  · rw [parse, State.init, hrun, Option.bind_some]
    exact hclose
  · rw [pieces_literals, encode]
    exact mem_prod_map fun c w => mem_word

/-! ### Length -/

/-- No word matched by the token is longer than `n` bytes; wildcards have no bound. -/
def Token.Within : Token → ℕ → Prop
  | .literal c, n => c.utf8Size ≤ n
  | .cls _ _, n => 1 ≤ n
  | .alternates parts, n => ∀ r ∈ parts, ∀ w ∈ r.matches', w.length ≤ n
  | _, _ => False

/-- Bounds of the tokens of a branch that add up to at most `n`. -/
def Within : List Token → ℕ → Prop
  | [], _ => True
  | t :: ts, n => ∃ k m, t.Within k ∧ Within ts m ∧ k + m ≤ n

theorem Within.mono {ts : List Token} {n n' : ℕ} (h : Within ts n) (hn : n ≤ n') :
    Within ts n' := by
  cases ts with
  | nil => trivial
  | cons t ts =>
    obtain ⟨k, m, ht, hts, hkm⟩ := h
    exact ⟨k, m, ht, hts, hkm.trans hn⟩

theorem Within.notMem {ts : List Token} {n : ℕ} (h : Within ts n) :
    Token.recursivePrefix ∉ ts := by
  induction ts generalizing n with
  | nil => exact List.not_mem_nil
  | cons t ts ih =>
    obtain ⟨k, m, ht, hts, -⟩ := h
    intro hmem
    rcases List.mem_cons.mp hmem with rfl | hmem
    · exact ht
    · exact ih hts hmem

theorem Token.length_le_of_within {t : Token} {n : ℕ} (h : t.Within n)
    {r : RegularExpression UInt8} (hr : t.re? = some r) {w : List UInt8} (hw : w ∈ r.matches') :
    w.length ≤ n := by
  cases t with
  | literal c =>
    cases hr
    rw [mem_word.mp hw, String.length_utf8EncodeChar]
    exact h
  | cls negated ranges =>
    cases hr
    rw [length_of_mem_oneOf hw]
    exact h
  | alternates parts =>
    rw [Token.re?] at hr
    split at hr
    · cases hr
    · cases hr
      obtain ⟨r, hr, hw⟩ := exists_of_mem_sum hw
      exact h r hr w hw
  | any => exact h.elim
  | zeroOrMore => exact h.elim
  | recursivePrefix => exact h.elim
  | recursiveSuffix => exact h.elim
  | recursiveZeroOrMore => exact h.elim

theorem pieces_cons (t : Token) (ts : List Token) :
    pieces (t :: ts) = pieces ts ++ t.re?.toList := by
  rw [pieces, List.reverse_cons, List.filterMap_append, ← pieces]
  cases ht : t.re? <;> simp [ht]

/-- **What a branch matches is within its bound.** -/
theorem length_le_of_within {ts : List Token} {n : ℕ} (h : Within ts n) {w : List UInt8}
    (hw : w ∈ (pieces ts).prod.matches') : w.length ≤ n := by
  induction ts generalizing n w with
  | nil =>
    rw [(Language.mem_one w).mp hw]
    exact Nat.zero_le n
  | cons t ts ih =>
    obtain ⟨k, m, ht, hts, hkm⟩ := h
    rw [pieces_cons, matches'_prod_append] at hw
    obtain ⟨u, hu, v, hv, rfl⟩ := Language.mem_mul.mp hw
    have hvk : v.length ≤ k := by
      cases hre : t.re? with
      | none =>
        rw [hre] at hv
        rw [(Language.mem_one v).mp hv]
        exact Nat.zero_le k
      | some r =>
        rw [hre] at hv
        have hone : ([r] : List (RegularExpression UInt8)).prod.matches' = r.matches' :=
          mul_one r.matches'
        exact Token.length_le_of_within ht hre (hone ▸ hv)
    have hum := ih hts hu
    rw [List.length_append]
    omega

theorem within_group {branches : List (List Token)} {n : ℕ}
    (h : ∀ branch ∈ branches, Within branch n) : (Token.group branches).Within n := by
  intro r hr w hw
  obtain ⟨branch, hbranch, hpart⟩ := List.mem_filterMap.mp hr
  split at hpart
  · cases hpart
  · cases hpart
    exact length_le_of_within (h branch hbranch) hw

/-- The bounds of the branch and of the groups around it add up to at most `n`. -/
def Bounded : List Token → List (List Token × List (List Token)) → ℕ → Prop
  | branch, [], n => Within branch n
  | branch, (before, alts) :: outer, n => ∃ k m, Bounded before outer k ∧
      (∀ alt ∈ branch :: alts, Within alt m) ∧ k + m ≤ n

theorem Bounded.push {branch : List Token} {outer : List (List Token × List (List Token))}
    {n k : ℕ} {t : Token} (h : Bounded branch outer n) (ht : t.Within k) :
    Bounded (t :: branch) outer (n + k) := by
  cases outer with
  | nil => exact ⟨k, n, ht, h, (Nat.add_comm k n).le⟩
  | cons group outer =>
    obtain ⟨j, m, hbefore, halts, hjm⟩ := h
    refine ⟨j, m + k, hbefore, ?_, by omega⟩
    rw [List.forall_mem_cons] at halts ⊢
    exact ⟨⟨k, m, ht, halts.1, (Nat.add_comm k m).le⟩,
      fun alt halt => (halts.2 alt halt).mono (Nat.le_add_right m k)⟩

namespace State

/-- After `c` bytes, what is read matches at most `n ≤ c` bytes; fewer than `c` as
soon as a metacharacter has been seen.  There has been no wildcard. -/
def Short (s : State) (seen : Prop) (c : ℕ) : Prop :=
  ∃ n, Bounded s.branch s.outer n ∧ match s.mode with
    | .text => n ≤ c ∧ (seen → n < c)
    | .star _ | .stars _ => False
    | .escape | .bracket | .cls .. => n < c

variable {s s' : State} {seen : Prop} {n c : ℕ} {x : Char}

theorem short_push_literal (h : Bounded s.branch s.outer n) (hn : n ≤ c) (hseen : seen → n < c) :
    (s.push (.literal x)).Short seen (c + x.utf8Size) :=
  ⟨n + x.utf8Size, h.push (t := .literal x) (Nat.le_refl _), by omega, fun hs => by
    have := hseen hs
    omega⟩

theorem short_of_text (h : Bounded s.branch s.outer n) (hn : n ≤ c) (hseen : seen → n < c)
    (hany : x ≠ '?') (hstar : x ≠ '*') (hx : s.text x = some s') :
    s'.Short (seen ∨ x ∈ metachars) (c + x.utf8Size) := by
  have hpos := x.utf8Size_pos
  have hlt : n < c + x.utf8Size := by omega
  rw [text, if_neg hany, if_neg hstar] at hx
  split at hx
  · cases hx
    exact ⟨n, h, hlt⟩
  split at hx
  · -- the group is empty so far
    cases hx
    refine ⟨n, ⟨n, 0, h, ?_, Nat.le_refl n⟩, hlt.le, fun _ => hlt⟩
    exact List.forall_mem_singleton.mpr trivial
  split at hx
  · split at hx
    · cases hx
    · rename_i before alts outer houter
      cases hx
      rw [houter] at h
      obtain ⟨k, m, hbefore, halts, hkm⟩ := h
      have hgroup : (Token.group (alts.reverse ++ [s.branch])).Within m := by
        refine within_group fun alt halt => halts alt ?_
        rcases List.mem_append.mp halt with halt | halt
        · exact List.mem_cons_of_mem _ (List.mem_reverse.mp halt)
        · exact List.mem_cons.mpr (Or.inl (List.mem_singleton.mp halt))
      exact ⟨k + m, hbefore.push hgroup, by omega, fun _ => by omega⟩
  split at hx
  · rename_i hcomma
    split at hx
    · cases hx
      have hliteral : x ∉ metachars := by
        rw [hcomma]
        decide
      rw [← hcomma]
      exact short_push_literal h hn fun hs => hseen (Or.resolve_right hs hliteral)
    · rename_i before alts outer houter
      cases hx
      rw [houter] at h
      obtain ⟨k, m, hbefore, halts, hkm⟩ := h
      refine ⟨n, ⟨k, m, hbefore, ?_, hkm⟩, hlt.le, fun _ => hlt⟩
      exact List.forall_mem_cons.mpr ⟨trivial, halts⟩
  split at hx
  · cases hx
    exact ⟨n, h, hlt⟩
  · rename_i hbracket hopen hclose hcomma hescape
    cases hx
    have hliteral : x ∉ metachars := by
      simp [metachars, hany, hstar, hbracket, hopen, hclose, hescape]
    exact short_push_literal h hn fun hs => hseen (Or.resolve_right hs hliteral)

theorem short_of_item {negated first inRange : Bool} {ranges : List (Char × Char)}
    (h : Bounded s.branch s.outer n) (hn : n < c)
    (hx : s.item negated first inRange ranges x = some s') : s'.Short seen (c + x.utf8Size) := by
  have hpos := x.utf8Size_pos
  have hlt : n < c + x.utf8Size := by omega
  unfold item at hx
  split at hx
  · cases hx
    exact ⟨n + 1, h.push (t := .cls _ _) (Nat.le_refl 1), by omega, fun _ => by omega⟩
  split at hx
  · cases hx
    exact ⟨n, h, hlt⟩
  split at hx
  · split at hx
    · cases hx
    · cases hx
      exact ⟨n, h, hlt⟩
  · cases hx
    exact ⟨n, h, hlt⟩

theorem short_of_feed (h : s.Short seen c) (hany : x ≠ '?') (hstar : x ≠ '*')
    (hx : s.feed x = some s') : s'.Short (seen ∨ x ∈ metachars) (c + x.utf8Size) := by
  obtain ⟨t, ht, rfl⟩ := Option.map_eq_some_iff.mp hx
  show t.Short _ _
  obtain ⟨n, hbound, hmode⟩ := h
  rw [read] at ht
  cases hs : s.mode with
  | text =>
    rw [hs] at hmode ht
    exact short_of_text hbound hmode.1 hmode.2 hany hstar ht
  | escape =>
    rw [hs] at hmode ht
    cases ht
    exact short_push_literal hbound (Nat.le_of_lt hmode) fun _ => hmode
  | star before =>
    rw [hs] at hmode
    exact hmode.elim
  | stars before =>
    rw [hs] at hmode
    exact hmode.elim
  | bracket =>
    rw [hs] at hmode ht
    dsimp only at ht
    split at ht
    · cases ht
      exact ⟨n, hbound, Nat.lt_add_right _ hmode⟩
    · exact short_of_item hbound hmode ht
  | cls negated first inRange ranges =>
    rw [hs] at hmode ht
    exact short_of_item hbound hmode ht

theorem short_of_run {cs : List Char} (h : s.Short seen c) (hany : '?' ∉ cs) (hstar : '*' ∉ cs)
    (hrun : cs.foldlM feed s = some s') :
    s'.Short (seen ∨ ∃ x ∈ cs, x ∈ metachars) (c + (encode cs).length) := by
  induction cs generalizing s seen c with
  | nil =>
    cases hrun
    simpa [encode] using h
  | cons x cs ih =>
    rw [List.foldlM_cons] at hrun
    obtain ⟨t, ht, hrun⟩ := Option.bind_eq_some_iff.mp hrun
    rw [List.mem_cons, not_or] at hany hstar
    have hstep := short_of_feed h (Ne.symm hany.1) (Ne.symm hstar.1) ht
    have hlen : c + (encode (x :: cs)).length = c + x.utf8Size + (encode cs).length := by
      rw [encode, List.flatMap_cons, List.length_append, String.length_utf8EncodeChar, ← encode]
      omega
    rw [hlen, List.exists_mem_cons_iff, ← or_assoc]
    exact ih hstep hany.2 hstar.2 hrun

end State

/-- **Metacharacters other than wildcards cost length**: what the glob matches is
shorter than the glob. -/
theorem length_lt_of_parse {cs : List Char} (hany : '?' ∉ cs) (hstar : '*' ∉ cs)
    (hmeta : ∃ x ∈ cs, x ∈ metachars) {re : RegularExpression UInt8} (h : parse cs = some re)
    {w : List UInt8} (hw : w ∈ re.matches') : w.length < (encode cs).length := by
  obtain ⟨s, hrun, hfinish⟩ := Option.bind_eq_some_iff.mp h
  have hinit : State.init.Short False 0 := ⟨0, trivial, Nat.le_refl 0, False.elim⟩
  obtain ⟨n, hbound, hmode⟩ := State.short_of_run hinit hany hstar hrun
  rw [State.finish] at hfinish
  split at hfinish
  · rename_i hs
    rw [hs, Nat.zero_add] at hmode
    have houter : s.outer = [] := by
      rw [State.close] at hfinish
      split at hfinish
      · assumption
      · assumption
      · cases hfinish
    rw [houter] at hbound
    have hbound : Within s.branch n := hbound
    rw [State.close_of_notMem houter hbound.notMem] at hfinish
    cases hfinish
    exact (length_le_of_within hbound hw).trans_lt (hmode.2 (Or.inr hmeta))
  · rename_i hs
    rw [hs] at hmode
    exact hmode.elim
  · rename_i hs
    rw [hs] at hmode
    exact hmode.elim
  · cases hfinish

end Glob
