import Peregrine.Lib.Bytes
import Peregrine.Lib.Prog

/-!
# Byte streams and exact reads

What a program can do with one end of a connection: read exactly `n` bytes,
with or without a deadline, and write all of a buffer.  `Wire ι` is the world of
such a program: input not read yet, whether the peer has closed its side, and
everything written so far.

The input comes in two forms.  A `Wire (List (List UInt8))` holds it as the
successive segments the reads happen to return, and `fill` is the loop that
collects `n` bytes from them.  A `Wire (List UInt8)` has forgotten the
boundaries.  `respects_flatten` says forgetting them respects every answer, so
by `Prog.run_map` a program made of exact reads cannot tell two segmentations
of one stream apart.

`run_readExact_eq_ret` and its companions are the rules a parser is verified
with: a read returns exactly when the input starts with that many bytes.
-/

/-- What can go wrong with a connection. -/
inductive IoError
  | unexpectedEof
  | other (msg : String)
  deriving DecidableEq

def IoError.display : IoError → String
  | .unexpectedEof => "early eof"
  | .other msg => msg

/-- What an operation under a deadline can end in. -/
inductive Late (δ : Type)
  | elapsed
  | inner (d : δ)
  deriving DecidableEq

inductive StreamOp
  /-- Read exactly `n` bytes. -/
  | readExact (n : ℕ)
  /-- Read exactly `n` bytes within `secs` seconds. -/
  | readExactWithin (secs n : ℕ)
  /-- Write the whole buffer. -/
  | writeAll (bs : List UInt8)

abbrev StreamOp.Ans : StreamOp → Type
  | readExact n => Except IoError (Bytes n)
  | readExactWithin _ n => Except (Late IoError) (Bytes n)
  | writeAll _ => Except IoError Unit

abbrev streamSig : Sig := ⟨StreamOp, StreamOp.Ans⟩

/-- One end of a connection: what the peer sent and was not read yet, whether
the peer has closed, and what was written. -/
structure Wire (ι : Type) where
  input : ι
  closed : Bool
  output : List UInt8
  deriving DecidableEq

namespace Wire

variable {ι κ : Type}

/-- Look at the input through `f`. -/
def mapInput (f : ι → κ) (w : Wire ι) : Wire κ :=
  { input := f w.input, closed := w.closed, output := w.output }

/-- Take exactly `n` bytes off the front, if there are that many. -/
def cut (n : ℕ) (bs : List UInt8) : Option (Bytes n × List UInt8) :=
  if h : n ≤ bs.length then
    some (⟨bs.take n, by rw [List.length_take]; omega⟩, bs.drop n)
  else none

/-- Collect `n` bytes from successive reads: a segment that is too short is used
up and the loop goes on, one that is long enough keeps its rest. -/
def fill : (n : ℕ) → List (List UInt8) → Option (Bytes n × List (List UInt8))
  | 0, segs => some (⟨[], rfl⟩, segs)
  | _ + 1, [] => none
  | n + 1, seg :: segs =>
    if h : n + 1 < seg.length then
      some (⟨seg.take (n + 1), by rw [List.length_take]; omega⟩, seg.drop (n + 1) :: segs)
    else
      (fill (n + 1 - seg.length) segs).map fun r =>
        (⟨seg ++ r.1.bytes, by rw [List.length_append, r.1.length_eq]; omega⟩, r.2)

theorem cut_eq_some {n : ℕ} {bs rest : List UInt8} {b : Bytes n} :
    cut n bs = some (b, rest) ↔ bs = b.bytes ++ rest := by
  constructor
  · intro h
    rw [cut] at h
    split at h
    · obtain ⟨rfl, rfl⟩ := Prod.mk.inj (Option.some.inj h)
      exact (List.take_append_drop n bs).symm
    · cases h
  · rintro rfl
    have hn : n ≤ (b.bytes ++ rest).length := by rw [List.length_append, b.length_eq]; omega
    rw [cut, dif_pos hn]
    have ht : (b.bytes ++ rest).take n = b.bytes := List.take_left' b.length_eq
    have hd : (b.bytes ++ rest).drop n = rest := List.drop_left' b.length_eq
    simp only [ht, hd]

theorem cut_eq_none {n : ℕ} {bs : List UInt8} : cut n bs = none ↔ bs.length < n := by
  rw [cut]
  split
  · simp only [reduceCtorEq, false_iff]
    omega
  · simp only [true_iff]
    omega

theorem cut_append {n : ℕ} (b : Bytes n) (rest : List UInt8) :
    cut n (b.bytes ++ rest) = some (b, rest) := cut_eq_some.mpr rfl

/-- **Collecting from segments is cutting their concatenation.** -/
theorem cut_flatten (n : ℕ) (segs : List (List UInt8)) :
    cut n segs.flatten = (fill n segs).map fun r => (r.1, r.2.flatten) := by
  induction segs generalizing n with
  | nil =>
    cases n with
    | zero => rfl
    | succ n => rfl
  | cons seg segs ih =>
    cases n with
    | zero =>
      rw [fill, Option.map_some]
      exact cut_eq_some.mpr rfl
    | succ n =>
      rw [fill, List.flatten_cons]
      split
      · rw [Option.map_some]
        apply cut_eq_some.mpr
        simp only [List.flatten_cons]
        rw [← List.append_assoc, List.take_append_drop]
      · rename_i hlen
        rw [Option.map_map]
        have hi := ih (n + 1 - seg.length)
        cases hf : fill (n + 1 - seg.length) segs with
        | none =>
          rw [hf, Option.map_none, cut_eq_none] at hi
          rw [Option.map_none, cut_eq_none, List.length_append]
          omega
        | some r =>
          rw [hf, Option.map_some, cut_eq_some] at hi
          rw [Option.map_some, cut_eq_some]
          simp only [Function.comp_apply]
          rw [List.append_assoc, ← hi]

/-! ### Answering the operations -/

/-- What an exact read answers: the bytes if they are there, an error if they
are not and the peer has closed, nothing as long as they may still come. -/
def readWith {n : ℕ} (taken : Option (Bytes n × ι)) (drained : ι) (w : Wire ι) :
    Option (Except IoError (Bytes n) × Wire ι) :=
  match taken with
  | some (b, rest) => some (.ok b, { w with input := rest })
  | none => if w.closed then some (.error .unexpectedEof, { w with input := drained }) else none

/-- The answers of a connection on which writes succeed and deadlines do not
elapse, for a way `take` of taking bytes off the input. -/
def handle (take : (n : ℕ) → ι → Option (Bytes n × ι)) (drained : ι) :
    Prog.Handler streamSig (Wire ι)
  | .readExact n, w => readWith (take n w.input) drained w
  | .readExactWithin _ n, w =>
    (readWith (take n w.input) drained w).map fun r => (r.1.mapError .inner, r.2)
  | .writeAll bs, w => some (.ok (), { w with output := w.output ++ bs })

/-- Input as successive segments. -/
def segmented : Prog.Handler streamSig (Wire (List (List UInt8))) := handle fill []

def flat : Prog.Handler streamSig (Wire (List UInt8)) := handle cut []

theorem readWith_flatten {n : ℕ} (w : Wire (List (List UInt8))) :
    readWith (cut n w.input.flatten) [] (w.mapInput List.flatten) =
      (readWith (fill n w.input) [] w).map fun r => (r.1, r.2.mapInput List.flatten) := by
  rw [cut_flatten]
  cases fill n w.input with
  | some r => rfl
  | none =>
    cases hc : w.closed with
    | true => simp [readWith, mapInput, hc]
    | false => simp [readWith, mapInput, hc]

/-- **Forgetting the segment boundaries respects every answer.** -/
theorem respects_flatten : Prog.Respects segmented flat (mapInput List.flatten) := by
  intro o w
  cases o with
  | readExact n => exact readWith_flatten w
  | readExactWithin secs n =>
    show (readWith (cut n w.input.flatten) [] (w.mapInput List.flatten)).map _ = _
    rw [readWith_flatten]
    show _ = ((readWith (fill n w.input) [] w).map _).map _
    rw [Option.map_map, Option.map_map]
    rfl
  | writeAll bs => rfl

theorem respects_output (o : List UInt8) :
    Prog.Respects flat flat fun w => { w with output := o ++ w.output } := by
  intro op w
  have hread : ∀ n, readWith (cut n w.input) [] { w with output := o ++ w.output } =
      (readWith (cut n w.input) [] w).map fun r =>
        (r.1, { r.2 with output := o ++ r.2.output }) := by
    intro n
    cases cut n w.input with
    | some r => rfl
    | none => cases hc : w.closed <;> simp [readWith, hc]
  cases op with
  | readExact n => exact hread n
  | readExactWithin secs n =>
    show (readWith (cut n w.input) [] { w with output := o ++ w.output }).map _ = _
    rw [hread]
    show _ = ((readWith (cut n w.input) [] w).map _).map _
    rw [Option.map_map, Option.map_map]
    rfl
  | writeAll bs =>
    show some (_, { w with output := o ++ w.output ++ bs }) = _
    rw [List.append_assoc]
    rfl

theorem flat_closed {op : StreamOp} {w w' : Wire (List UInt8)} {x : op.Ans}
    (h : flat op w = some (x, w')) : w'.closed = w.closed := by
  have hread : ∀ {n : ℕ} {y : Except IoError (Bytes n)},
      readWith (cut n w.input) [] w = some (y, w') → w'.closed = w.closed := by
    intro n y hy
    unfold readWith at hy
    split at hy
    · cases hy
      rfl
    · split at hy
      · cases hy
        rfl
      · cases hy
  cases op with
  | readExact n => exact hread h
  | readExactWithin secs n =>
    obtain ⟨r, hr, hx⟩ := Option.map_eq_some_iff.mp h
    obtain ⟨-, rfl⟩ := Prod.mk.inj hx
    exact hread hr
  | writeAll bs =>
    cases h
    rfl

theorem readWith_frame {n : ℕ} {i o : List UInt8} {y : Except IoError (Bytes n)}
    {w' : Wire (List UInt8)} (h : readWith (cut n i) [] ⟨i, false, o⟩ = some (y, w')) :
    ∃ i', w' = ⟨i', false, o⟩ ∧
      ∀ j c o₂, readWith (cut n (i ++ j)) [] ⟨i ++ j, c, o₂⟩ = some (y, ⟨i' ++ j, c, o₂⟩) := by
  cases hcut : cut n i with
  | none =>
    rw [hcut] at h
    cases h
  | some r =>
    rw [hcut] at h
    cases h
    refine ⟨r.2, rfl, fun j c o₂ => ?_⟩
    have hj : cut n (i ++ j) = some (r.1, r.2 ++ j) := by
      rw [cut_eq_some.mp hcut, List.append_assoc]
      exact cut_append _ _
    rw [hj]
    rfl

/-- **An operation reads at the front and writes at the back**: it goes the same
way when more input is waiting and other output was written before. -/
theorem flat_frame {op : StreamOp} {i o : List UInt8} {x : op.Ans} {w' : Wire (List UInt8)}
    (h : flat op ⟨i, false, o⟩ = some (x, w')) : ∃ i' written, w' = ⟨i', false, o ++ written⟩ ∧
      ∀ j c o₂, flat op ⟨i ++ j, c, o₂⟩ = some (x, ⟨i' ++ j, c, o₂ ++ written⟩) := by
  cases op with
  | readExact n =>
    obtain ⟨i', rfl, hf⟩ := readWith_frame h
    refine ⟨i', [], by rw [List.append_nil], fun j c o₂ => ?_⟩
    rw [List.append_nil]
    exact hf j c o₂
  | readExactWithin secs n =>
    obtain ⟨r, hr, hx⟩ := Option.map_eq_some_iff.mp h
    obtain ⟨rfl, rfl⟩ := Prod.mk.inj hx
    obtain ⟨i', hi', hf⟩ := readWith_frame hr
    refine ⟨i', [], by rw [hi', List.append_nil], fun j c o₂ => ?_⟩
    rw [List.append_nil]
    exact Option.map_eq_some_iff.mpr ⟨_, hf j c o₂, rfl⟩
  | writeAll bs =>
    cases h
    exact ⟨i, bs, rfl, fun j c o₂ => rfl⟩

/-! ### Reading and writing in a program -/

variable {T : Sig} {ε α τ : Type}

def readExact (g : IoError → ε) (n : ℕ) : Prog (streamSig.sum T) ε (Bytes n) :=
  @Prog.perform (streamSig.sum T) ε (.inl (.readExact n)) >>= Prog.ofExcept g

def readExactWithin (g : Late IoError → ε) (secs n : ℕ) : Prog (streamSig.sum T) ε (Bytes n) :=
  @Prog.perform (streamSig.sum T) ε (.inl (.readExactWithin secs n)) >>= Prog.ofExcept g

def writeAll (g : IoError → ε) (bs : List UInt8) : Prog (streamSig.sum T) ε Unit :=
  @Prog.perform (streamSig.sum T) ε (.inl (.writeAll bs)) >>= Prog.ofExcept g

theorem ends_readExactWithin {E : ε → Prop} {g : Late IoError → ε} {secs n : ℕ}
    (hg : ∀ d, E (g d)) : Prog.Ends (fun _ => True) E
      (readExactWithin g secs n : Prog (streamSig.sum T) ε (Bytes n)) :=
  (Prog.Ends.perform _).bind fun r _ => .ofExcept r hg

theorem ends_writeAll {E : ε → Prop} {g : IoError → ε} {bs : List UInt8} (hg : ∀ d, E (g d)) :
    Prog.Ends (fun _ => True) E (writeAll g bs : Prog (streamSig.sum T) ε Unit) :=
  (Prog.Ends.perform _).bind fun r _ => .ofExcept r hg

theorem calls_readExact {P : (streamSig.sum T).Op → Prop} {g : IoError → ε} {n : ℕ}
    (h : P (.inl (.readExact n))) :
    Prog.Calls P (readExact g n : Prog (streamSig.sum T) ε (Bytes n)) :=
  (Prog.Calls.perform h).bind fun r => .ofExcept _ r

theorem calls_writeAll {P : (streamSig.sum T).Op → Prop} {g : IoError → ε} {bs : List UInt8}
    (h : P (.inl (.writeAll bs))) :
    Prog.Calls P (writeAll g bs : Prog (streamSig.sum T) ε Unit) :=
  (Prog.Calls.perform h).bind fun r => .ofExcept _ r

section Rules

variable {env : Prog.Handler T τ} {w w' : Wire (List UInt8)} {t t' : τ} {a : α} {e : ε} {n : ℕ}

/-- **An exact read** goes on with the first `n` bytes, fails when the peer has
closed before sending them, and otherwise waits. -/
theorem run_readExact (g : IoError → ε) (f : Bytes n → Prog (streamSig.sum T) ε α) :
    Prog.run (flat.sum env) (readExact g n >>= f) (w, t) =
      match cut n w.input with
      | some (b, rest) => Prog.run (flat.sum env) (f b) ({ w with input := rest }, t)
      | none => if w.closed then .fail (g .unexpectedEof) ({ w with input := [] }, t)
        else .stuck (w, t) := by
  show Prog.run (flat.sum env) (.call (.inl (.readExact n)) fun x => Prog.ofExcept g x >>= f)
    (w, t) = _
  cases hcut : cut n w.input with
  | some r =>
    have hh : flat.sum env (.inl (.readExact n)) (w, t) =
        some (.ok r.1, { w with input := r.2 }, t) := by
      simp only [Prog.Handler.sum, flat, handle, readWith, hcut, Option.map_some]
    rw [Prog.run_call_some hh]
    rfl
  | none =>
    by_cases hc : w.closed = true
    · have hh : flat.sum env (.inl (.readExact n)) (w, t) =
          some (.error .unexpectedEof, { w with input := [] }, t) := by
        simp only [Prog.Handler.sum, flat, handle, readWith, hcut, hc, if_true, Option.map_some]
      rw [Prog.run_call_some hh]
      simp only [hc, if_true]
      rfl
    · have hh : flat.sum env (.inl (.readExact n)) (w, t) = none := by
        simp only [Prog.Handler.sum, flat, handle, readWith, hcut, hc]
        rfl
      rw [Prog.run_call_none hh]
      simp only [hc]
      rfl

theorem run_readExactWithin (g : Late IoError → ε) (secs : ℕ)
    (f : Bytes n → Prog (streamSig.sum T) ε α) :
    Prog.run (flat.sum env) (readExactWithin g secs n >>= f) (w, t) =
      Prog.run (flat.sum env) (readExact (g ∘ .inner) n >>= f) (w, t) := by
  rw [run_readExact]
  show Prog.run (flat.sum env)
    (.call (.inl (.readExactWithin secs n)) fun x => Prog.ofExcept g x >>= f) (w, t) = _
  cases hcut : cut n w.input with
  | some r =>
    have hh : flat.sum env (.inl (.readExactWithin secs n)) (w, t) =
        some (.ok r.1, { w with input := r.2 }, t) := by
      simp only [Prog.Handler.sum, flat, handle, readWith, hcut, Option.map_some]
      rfl
    rw [Prog.run_call_some hh]
    rfl
  | none =>
    by_cases hc : w.closed = true
    · have hh : flat.sum env (.inl (.readExactWithin secs n)) (w, t) =
          some (.error (.inner .unexpectedEof), { w with input := [] }, t) := by
        simp only [Prog.Handler.sum, flat, handle, readWith, hcut, hc, if_true, Option.map_some]
        rfl
      rw [Prog.run_call_some hh]
      simp only [hc, if_true]
      rfl
    · have hh : flat.sum env (.inl (.readExactWithin secs n)) (w, t) = none := by
        simp only [Prog.Handler.sum, flat, handle, readWith, hcut, hc]
        rfl
      rw [Prog.run_call_none hh]
      simp only [hc]
      rfl

/-- **An exact read returns** when the input starts with `n` bytes and the rest
of the program, given them, returns. -/
theorem run_readExact_eq_ret {g : IoError → ε} {f : Bytes n → Prog (streamSig.sum T) ε α} :
    Prog.run (flat.sum env) (readExact g n >>= f) (w, t) = .ret a (w', t') ↔
      ∃ (b : Bytes n) (rest : List UInt8), w.input = b.bytes ++ rest ∧
        Prog.run (flat.sum env) (f b) ({ w with input := rest }, t) = .ret a (w', t') := by
  rw [run_readExact]
  cases hcut : cut n w.input with
  | some r =>
    have hw := cut_eq_some.mp hcut
    constructor
    · intro h
      exact ⟨r.1, r.2, hw, h⟩
    · rintro ⟨b, rest, hb, h⟩
      obtain ⟨rfl, rfl⟩ := Prod.mk.inj (Option.some.inj (hcut.symm.trans (cut_eq_some.mpr hb)))
      exact h
  | none =>
    constructor
    · intro h
      simp only at h
      split at h
      · cases h
      · cases h
    · rintro ⟨b, rest, hb, -⟩
      rw [cut_eq_some.mpr hb] at hcut
      cases hcut

theorem run_readExactWithin_eq_ret {g : Late IoError → ε} {secs : ℕ}
    {f : Bytes n → Prog (streamSig.sum T) ε α} :
    Prog.run (flat.sum env) (readExactWithin g secs n >>= f) (w, t) = .ret a (w', t') ↔
      ∃ (b : Bytes n) (rest : List UInt8), w.input = b.bytes ++ rest ∧
        Prog.run (flat.sum env) (f b) ({ w with input := rest }, t) = .ret a (w', t') := by
  rw [run_readExactWithin, run_readExact_eq_ret]

/-- **A write goes through.** -/
@[simp] theorem run_writeAll (g : IoError → ε) (bs : List UInt8)
    (f : Unit → Prog (streamSig.sum T) ε α) :
    Prog.run (flat.sum env) (writeAll g bs >>= f) (w, t) =
      Prog.run (flat.sum env) (f ()) ({ w with output := w.output ++ bs }, t) := rfl

end Rules

/-! ### What a program makes of a stream -/

section Streams

variable {p : Prog (streamSig.sum T) ε α} {segs : List (List UInt8)} {closed : Bool}

/-- On the segments `segs`, after which the peer may or may not have closed, `p`
returns `a`, and `rest` has not been read. -/
def Returns (p : Prog (streamSig.sum T) ε α) (segs : List (List UInt8)) (closed : Bool) (a : α)
    (rest : List UInt8) : Prop :=
  ∃ w, Prog.run (segmented.sum (Prog.silent T)) p (⟨segs, closed, []⟩, ()) = .ret a (w, ()) ∧
    w.input.flatten = rest

def Fails (p : Prog (streamSig.sum T) ε α) (segs : List (List UInt8)) (closed : Bool) : Prop :=
  ∃ e w, Prog.run (segmented.sum (Prog.silent T)) p (⟨segs, closed, []⟩, ()) = .fail e (w, ())

/-- All `p` ever asks for are operations on its stream. -/
def OnStream (p : Prog (streamSig.sum T) ε α) : Prop :=
  @Prog.Calls (streamSig.sum T) ε α (fun o => Sum.isLeft o = true) p

theorem run_flatten (p : Prog (streamSig.sum T) ε α) (segs : List (List UInt8)) (closed : Bool) :
    Prog.run (flat.sum (Prog.silent T)) p (⟨segs.flatten, closed, []⟩, ()) =
      (Prog.run (segmented.sum (Prog.silent T)) p (⟨segs, closed, []⟩, ())).map
        fun s => (s.1.mapInput List.flatten, s.2) :=
  Prog.run_map (respects_flatten.sum (Prog.silent T)) p (⟨segs, closed, []⟩, ())

/-- **What a program of exact reads returns does not depend on the segments.** -/
theorem returns_iff_flat {a : α} {rest : List UInt8} :
    Returns p segs closed a rest ↔
      ∃ w, Prog.run (flat.sum (Prog.silent T)) p (⟨segs.flatten, closed, []⟩, ()) = .ret a (w, ()) ∧
        w.input = rest := by
  rw [run_flatten]
  constructor
  · rintro ⟨w, hw, hr⟩
    exact ⟨w.mapInput List.flatten, by rw [hw]; rfl, hr⟩
  · rintro ⟨w, hw, hr⟩
    cases hrun : Prog.run (segmented.sum (Prog.silent T)) p (⟨segs, closed, []⟩, ()) with
    | ret b s =>
      rw [hrun] at hw
      obtain ⟨rfl, hs⟩ := Prog.Outcome.ret.inj hw
      obtain ⟨rfl, -⟩ := Prod.mk.inj hs
      exact ⟨s.1, hrun, hr⟩
    | fail e s =>
      rw [hrun] at hw
      cases hw
    | stuck s =>
      rw [hrun] at hw
      cases hw

theorem segmented_answers {o : StreamOp} {w : Wire (List (List UInt8))} (hw : w.closed = true) :
    ∃ r, segmented o w = some r ∧ r.2.closed = true := by
  have hread : ∀ n, ∃ r, readWith (fill n w.input) [] w = some r ∧ r.2.closed = true := by
    intro n
    cases hf : fill n w.input with
    | some r => exact ⟨_, rfl, hw⟩
    | none => exact ⟨_, if_pos hw, hw⟩
  cases o with
  | readExact n => exact hread n
  | readExactWithin secs n =>
    obtain ⟨r, hr, hc⟩ := hread n
    exact ⟨_, Option.map_eq_some_iff.mpr ⟨r, hr, rfl⟩, hc⟩
  | writeAll bs => exact ⟨_, rfl, hw⟩

/-- **On a closed stream a program that asks for nothing else comes to an end.** -/
theorem returns_or_fails (hp : OnStream p) (hc : closed = true) :
    (∃ a rest, Returns p segs closed a rest) ∨ Fails p segs closed := by
  have hend : ∀ (q : Prog (streamSig.sum T) ε α) (w : Wire (List (List UInt8))),
      OnStream q → w.closed = true →
      (∃ a w', Prog.run (segmented.sum (Prog.silent T)) q (w, ()) = .ret a (w', ())) ∨
      ∃ e w', Prog.run (segmented.sum (Prog.silent T)) q (w, ()) = .fail e (w', ()) := by
    intro q
    induction q with
    | ret a =>
      intro w _ _
      exact Or.inl ⟨a, w, rfl⟩
    | fail e =>
      intro w _ _
      exact Or.inr ⟨e, w, rfl⟩
    | call o k ih =>
      intro w hq hw
      cases o with
      | inl o =>
        obtain ⟨r, hr, hr'⟩ := segmented_answers (o := o) hw
        have hh : segmented.sum (Prog.silent T) (.inl o) (w, ()) = some (r.1, r.2, ()) := by
          simp only [Prog.Handler.sum, hr, Option.map_some]
        rw [Prog.run_call_some hh]
        exact ih r.1 r.2 (hq.2 r.1) hr'
      | inr o => exact absurd hq.1 Bool.false_ne_true
  rcases hend p ⟨segs, closed, []⟩ hp hc with ⟨a, w, h⟩ | ⟨e, w, h⟩
  · exact Or.inl ⟨a, w.input.flatten, w, h, rfl⟩
  · exact Or.inr ⟨e, w, h⟩

end Streams

end Wire
