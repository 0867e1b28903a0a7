import Peregrine.Lib.Network
import Peregrine.Upstream.Socks5Agreement

/-!
# Proxies in a row

A client, a SOCKS5 server that it is connected to, a server that this one has
connected to for it, and so on.  The stations of a `line` are numbered, the client
is 0, and station `k` hears from its left on `right k` and from its right on
`left (k + 1)`.  Each of them runs its program, and a server whose program has
come to `copy_bidirectional` passes on whatever comes, in either direction.

A stream ends when the program at its other end fails, so what travels on it is
bytes and perhaps an end (`Token`).  No deadline elapses here, and the client has its
connection to station 1.

What two ends of one connection do (`meetStep`), the client and station `k` do
with the stations between them passing on (`talk_reachable`).
-/

namespace Peregrine

open Network (State put)
open Prog (silent)
open Runs (Reachable)

/-- A byte of a stream, or its end. -/
abbrev Token := Option UInt8

/-- The bytes before the end. -/
def heard : List Token → List UInt8
  | some b :: ts => b :: heard ts
  | _ => []

/-- What is left from the end on. -/
def unheard : List Token → List Token
  | some _ :: ts => unheard ts
  | ts => ts

/-- Bytes, and the end if the stream is over. -/
def spoken (bs : List UInt8) (eof : Bool) : List Token := bs.map some ++ if eof then [none] else []

section Tokens

variable (ts us : List Token) (bs cs : List UInt8)

theorem heard_append_unheard : (heard ts).map some ++ unheard ts = ts := by
  induction ts with
  | nil => rfl
  | cons t ts ih =>
    cases t with
    | none => rfl
    | some b => exact congrArg (some b :: ·) ih

theorem heard_map_append : heard (bs.map some ++ us) = bs ++ heard us := by
  induction bs with
  | nil => rfl
  | cons b bs ih => exact congrArg (b :: ·) ih

theorem unheard_map_append : unheard (bs.map some ++ us) = unheard us := by
  induction bs with
  | nil => rfl
  | cons b bs ih => exact ih

variable {bs}

theorem heard_spoken (eof : Bool) : heard (spoken bs eof) = bs := by
  rw [spoken, heard_map_append]
  cases eof <;> exact List.append_nil bs

theorem unheard_spoken (eof : Bool) : unheard (spoken bs eof) = if eof then [none] else [] := by
  rw [spoken, unheard_map_append]
  cases eof <;> rfl

theorem spoken_append (eof : Bool) : spoken bs false ++ spoken cs eof = spoken (bs ++ cs) eof := by
  simp only [spoken, List.map_append, Bool.false_eq_true, if_false, List.append_nil,
    List.append_assoc]

theorem heard_append_of_ne (h : unheard ts ≠ []) : heard (ts ++ us) = heard ts ∧
    unheard (ts ++ us) = unheard ts ++ us := by
  induction ts with
  | nil => exact absurd rfl h
  | cons t ts ih =>
    cases t with
    | none => exact ⟨rfl, rfl⟩
    | some b =>
      obtain ⟨hheard, hunheard⟩ := ih h
      exact ⟨congrArg (b :: ·) hheard, hunheard⟩

theorem heard_append_of_eq (h : unheard ts = []) : heard (ts ++ us) = heard ts ++ heard us ∧
    unheard (ts ++ us) = unheard us := by
  have hts := heard_append_unheard ts
  rw [h, List.append_nil] at hts
  constructor
  · conv_lhs => rw [← hts]
    exact heard_map_append _ _
  · conv_lhs => rw [← hts]
    exact unheard_map_append _ _

end Tokens

/-! ### Stations -/

/-- The program at a station, and the addresses it has dialled. -/
structure Station where
  prog : Sys Unit
  dialled : List String

def isCopying : Sys Unit → Bool
  | .call (.inr .copyBidirectional) _ => true
  | _ => false

/-- The program goes on by one operation, on the stream to its left. -/
def speak (dial : String → Except IoError Unit) (l : Station) (ts : List Token) :
    Option (Station × List Token × List Token) :=
  (l.prog.step (Wire.flat.sum (dialer dial))
      (⟨heard ts, !(unheard ts).isEmpty, []⟩, l.dialled)).map fun r =>
    (⟨r.1, r.2.2⟩, r.2.1.input.map some ++ unheard ts, spoken r.2.1.output r.1.failed)

/-- `copy_bidirectional` passes on what comes next. -/
def passOn (l : Station) (ts : List Token) : Option (Station × List Token × List Token) :=
  if isCopying l.prog then
    match ts with
    | t :: ts => some (l, ts, [t])
    | [] => none
  else none

section Stations

variable {dial : String → Except IoError Unit} {l l' : Station} {ts ts' x : List Token}

theorem speak_frame (h : speak dial l ts = some (l', ts', x)) (us : List Token) :
    speak dial l (ts ++ us) = some (l', ts' ++ us, x) := by
  obtain ⟨⟨p, w, log⟩, hp, heq⟩ := Option.map_eq_some_iff.mp h
  cases heq
  by_cases hend : unheard ts = []
  · obtain ⟨hheard, hunheard⟩ := heard_append_of_eq ts us hend
    rw [hend] at hp
    obtain ⟨i, y, log', hw, hframe⟩ := Duplex.step_frame hp
    obtain ⟨rfl, rfl⟩ := Prod.mk.inj hw
    refine Option.map_eq_some_iff.mpr
      ⟨(p, (⟨i ++ heard us, !(unheard us).isEmpty, y⟩, log)), ?_, ?_⟩
    · rw [hheard, hunheard]
      exact hframe _ _ []
    · show (_, (i ++ heard us).map some ++ unheard (ts ++ us), _) = _
      rw [hunheard, hend, List.map_append, List.append_assoc, heard_append_unheard,
        List.append_nil]
      rfl
  · obtain ⟨hheard, hunheard⟩ := heard_append_of_ne ts us hend
    refine Option.map_eq_some_iff.mpr ⟨(p, (w, log)), ?_, ?_⟩
    · have hover : (!(unheard ts ++ us).isEmpty) = !(unheard ts).isEmpty := by
        cases hts : unheard ts with
        | nil => exact absurd hts hend
        | cons t rest => rfl
      rw [hheard, hunheard, hover]
      exact hp
    · show (_, w.input.map some ++ unheard (ts ++ us), _) = _
      rw [hunheard, List.append_assoc]

theorem speak_spoken {bs : List UInt8} {eof : Bool} {p : Sys Unit} {w : Wire (List UInt8)}
    {log : List String} (h : l.prog.step (Wire.flat.sum (dialer dial))
      (⟨bs, eof, []⟩, l.dialled) = some (p, (w, log))) :
    speak dial l (spoken bs eof) =
      some (⟨p, log⟩, spoken w.input eof, spoken w.output p.failed) := by
  have heof : (!(unheard (spoken bs eof)).isEmpty) = eof := by
    rw [unheard_spoken]
    cases eof <;> rfl
  refine Option.map_eq_some_iff.mpr ⟨(p, (w, log)), ?_, ?_⟩
  · rw [heard_spoken, heof]
    exact h
  · rw [unheard_spoken]
    rfl

theorem passOn_eq_some {r : Station × List Token × List Token} (h : passOn l ts = some r) :
    isCopying l.prog = true ∧ r.1 = l ∧ ∃ t rest, ts = t :: rest ∧ r.2 = (rest, [t]) := by
  unfold passOn at h
  split at h
  · split at h
    · cases h
      exact ⟨‹_›, rfl, _, _, rfl, rfl⟩
    · cases h
  · cases h

theorem passOn_frame (h : passOn l ts = some (l', ts', x)) (us : List Token) :
    passOn l (ts ++ us) = some (l', ts' ++ us, x) := by
  obtain ⟨hcopy, hl, t, rest, rfl, hr⟩ := passOn_eq_some h
  obtain rfl : l' = l := hl
  obtain ⟨rfl, rfl⟩ := Prod.mk.inj hr
  rw [List.cons_append, passOn, if_pos hcopy]

theorem speak_of_copying (h : isCopying l.prog = true) : speak dial l ts = none := by
  obtain ⟨p, log⟩ := l
  unfold isCopying at h
  split at h
  · rename_i k hk
    obtain rfl : p = _ := hk
    rfl
  · cases h

end Stations

/-! ### The line -/

namespace Line

inductive Channel
  | right (k : ℕ)
  | left (k : ℕ)
  deriving DecidableEq

/-- What a station can do: go on with its program, or pass on to either side. -/
inductive Move
  | go (k : ℕ)
  | right (k : ℕ)
  | left (k : ℕ)

theorem right_ne_left (j k : ℕ) : Channel.right j ≠ .left k := nofun

/-- The stream that the program of a station reads. -/
def ear : ℕ → Channel
  | 0 => .left 1
  | k + 1 => .right (k + 1)

/-- The stream that the program of a station writes. -/
def mouth : ℕ → Channel
  | 0 => .right 1
  | k + 1 => .left (k + 1)

def Move.station : Move → ℕ
  | .go k | .right k | .left k => k

def Move.src : Move → Channel
  | .go k => ear k
  | .right k => .right k
  | .left k => .left (k + 1)

def Move.dst : Move → Channel
  | .go k => mouth k
  | .right k => .right (k + 1)
  | .left k => .left k

end Line

open Line

/-- **The line**, in which the outbound connects of station `k` are answered by `dial k`. -/
def line (dial : ℕ → String → Except IoError Unit) : Network ℕ Channel Move Token Station where
  proc := Move.station
  src := Move.src
  dst := Move.dst
  act
    | .go k => speak (dial k)
    | .right _ => passOn
    | .left _ => passOn

section Line

variable {dial : ℕ → String → Except IoError Unit}

theorem ends_ne {a b : Move} (h : a.station ≠ b.station) : a.src ≠ b.src ∧ a.dst ≠ b.dst := by
  rcases a with ⟨_ | j⟩ | j | j <;> rcases b with ⟨_ | k⟩ | k | k <;>
    simp_all [Move.station, Move.src, Move.dst, ear, mouth] <;> omega

theorem separate_line : (line dial).Separate where
  frame := by
    intro a l l' ts ts' x h us
    cases a with
    | go k => exact speak_frame h us
    | right k => exact passOn_frame h us
    | left k => exact passOn_frame h us
  apart := by
    intro a b l m ts us r r' hab ha hb hlm
    by_cases hproc : a.station = b.station
    · obtain rfl := hlm hproc
      -- a station that passes on does not go on with its program
      have hnot : ∀ {k ts us r r'}, speak (dial k) l ts = some r →
          passOn l us = some r' → False := by
        intro k ts us r r' hs hp
        rw [speak_of_copying (passOn_eq_some hp).1] at hs
        cases hs
      cases a with
      | go j =>
        cases b with
        | go k => exact absurd (congrArg Move.go hproc) hab
        | right k => exact (hnot ha hb).elim
        | left k => exact (hnot ha hb).elim
      | right j =>
        cases b with
        | go k => exact (hnot hb ha).elim
        | right k => exact absurd (congrArg Move.right hproc) hab
        | left k =>
          exact ⟨nofun, nofun, fun _ => ⟨(passOn_eq_some ha).2.1, (passOn_eq_some hb).2.1⟩⟩
      | left j =>
        cases b with
        | go k => exact (hnot hb ha).elim
        | right k =>
          exact ⟨nofun, nofun, fun _ => ⟨(passOn_eq_some ha).2.1, (passOn_eq_some hb).2.1⟩⟩
        | left k => exact absurd (congrArg Move.left hproc) hab
    · obtain ⟨hsrc, hdst⟩ := ends_ne hproc
      exact ⟨hsrc, hdst, fun h => absurd h hproc⟩

/-! ### What passes through -/

theorem pass {loc : ℕ → Station} {c : Channel → List Token} {a : Move}
    (ha : ∀ l ts, (line dial).act a l ts = passOn l ts)
    (hcopy : isCopying (loc a.station).prog = true) (hne : a.src ≠ a.dst) (hquiet : c a.src = [])
    (x : List Token) :
    Reachable (line dial).step ⟨loc, put c a.src x⟩ ⟨loc, put c a.dst x⟩ := by
  induction x generalizing c with
  | nil =>
    rw [Network.put_nil, Network.put_nil]
    exact .refl _
  | cons t x ih =>
    have hact : (line dial).act a (loc a.station) (put c a.src (t :: x) a.src) =
        some (loc a.station, x, [t]) := by
      rw [ha, Network.put_self, hquiet, List.nil_append, passOn, if_pos hcopy]
    have hstep : (line dial).step ⟨loc, put c a.src (t :: x)⟩ a =
        some ⟨loc, put (put c a.dst [t]) a.src x⟩ := by
      refine Network.step_eq_some.mpr ⟨_, hact, Network.State.ext ?_ ?_⟩
      · exact Function.update_eq_self _ _
      · show put (Function.update (put c a.src (t :: x)) a.src x) a.dst [t] =
          put (put c a.dst [t]) a.src x
        rw [Network.update_put_self, Network.update_eq_put hquiet, Network.put_comm hne]
    have hrest := @ih (put c a.dst [t]) ((Network.put_of_ne hne).trans hquiet)
    rw [Network.put_put] at hrest
    exact (Reachable.of_step hstep).trans hrest

/-- The stations from `i` on and before `k` pass on. -/
def Passing (loc : ℕ → Station) (i k : ℕ) : Prop :=
  ∀ j, i ≤ j → j < k → isCopying (loc j).prog = true

variable {loc : ℕ → Station} {c : Channel → List Token} {i k : ℕ}

theorem travel_right (hik : i ≤ k) (hpass : Passing loc i k)
    (hquiet : ∀ j, i ≤ j → j < k → c (.right j) = []) (x : List Token) :
    Reachable (line dial).step ⟨loc, put c (.right i) x⟩ ⟨loc, put c (.right k) x⟩ := by
  induction k, hik using Nat.le_induction with
  | base => exact .refl _
  | succ k hik ih =>
    have hfirst := ih (fun j hj hjk => hpass j hj (Nat.lt_succ_of_lt hjk))
      fun j hj hjk => hquiet j hj (Nat.lt_succ_of_lt hjk)
    have hne : (Move.right k).src ≠ (Move.right k).dst := by
      simp [Move.src, Move.dst]
    exact hfirst.trans (pass (a := .right k) (fun _ _ => rfl) (hpass k hik (Nat.lt_succ_self k))
      hne (hquiet k hik (Nat.lt_succ_self k)) x)

theorem travel_left (hik : i ≤ k) (hpass : Passing loc i k)
    (hquiet : ∀ j, i < j → j ≤ k → c (.left j) = []) (x : List Token) :
    Reachable (line dial).step ⟨loc, put c (.left k) x⟩ ⟨loc, put c (.left i) x⟩ := by
  induction k, hik using Nat.le_induction with
  | base => exact .refl _
  | succ k hik ih =>
    have hrest := ih (fun j hj hjk => hpass j hj (Nat.lt_succ_of_lt hjk))
      fun j hj hjk => hquiet j hj (Nat.le_succ_of_le hjk)
    have hne : (Move.left k).src ≠ (Move.left k).dst := by
      simp [Move.src, Move.dst]
    exact (pass (a := .left k) (fun _ _ => rfl) (hpass k hik (Nat.lt_succ_self k)) hne
      (hquiet (k + 1) (Nat.lt_succ_of_le hik) (Nat.le_refl _)) x).trans hrest

/-! ### The client and one of the servers -/

/-- Client and station `k` in the middle of what they say to each other, which the
client does before `f`. -/
def talk (k : ℕ) (loc : ℕ → Station) (c : Channel → List Token) (f : Unit → Sys Unit)
    (log : List String) (d : Meeting) : State ℕ Channel Token Station where
  loc := Function.update (Function.update loc 0 ⟨d.left >>= f, log⟩) k ⟨d.right, d.rightEnv⟩
  chan := put (put c (.right k) (spoken d.rightUnread d.left.failed)) (.left 1)
    (spoken d.leftUnread d.right.failed)

theorem step_bind {f : Unit → Sys Unit} {p p' : Sys Unit} {w : Wire (List UInt8)}
    {w' : Wire (List UInt8) × Unit} {h : String → Except IoError Unit} {log : List String}
    (hs : p.step (Wire.flat.sum (silent netSig)) (w, ()) = some (p', w')) :
    (p >>= f).step (Wire.flat.sum (dialer h)) (w, log) = some (p' >>= f, (w'.1, log)) := by
  cases p with
  | ret a => cases hs
  | fail e => cases hs
  | call o k =>
    obtain ⟨r, hr, heq⟩ := Option.map_eq_some_iff.mp hs
    obtain ⟨rfl, rfl⟩ := Prod.mk.inj heq
    cases o with
    | inr o => cases hr
    | inl o =>
      obtain ⟨y, hy, rfl⟩ := Option.map_eq_some_iff.mp hr
      rw [Prog.call_bind, Prog.step]
      refine Option.map_eq_some_iff.mpr ⟨(y.1, (y.2, log)), ?_, rfl⟩
      exact Option.map_eq_some_iff.mpr ⟨y, hy, rfl⟩

theorem failed_bind {f : Unit → Sys Unit} (hf : (f ()).failed = false) (p : Sys Unit) :
    (p >>= f).failed = p.failed := by
  cases p with
  | ret a => exact hf
  | fail e => rfl
  | call o k => rfl

/-- What a talk takes place in: the stations between pass on, and all is quiet there. -/
structure Between (loc : ℕ → Station) (c : Channel → List Token) (k : ℕ) : Prop where
  pos : 0 < k
  passing : Passing loc 1 k
  right : ∀ j, j ≤ k → c (.right j) = []
  left : ∀ j, j ≤ k → c (.left j) = []

section Talk

variable {f : Unit → Sys Unit} {log : List String} {d d' : Meeting}

theorem Between.talk_passing (h : Between loc c k) : Passing (talk k loc c f log d).loc 1 k := by
  intro j hj hjk
  have hk : j ≠ k := Nat.ne_of_lt hjk
  have h0 : j ≠ 0 := Nat.ne_of_gt hj
  show isCopying (Function.update (Function.update loc 0 _) k _ j).prog = true
  rw [Function.update_of_ne hk, Function.update_of_ne h0]
  exact h.passing j hj hjk

theorem Between.left_chan (h : Between loc c k) (x : List Token) :
    put c (.right k) x (.left 1) = [] :=
  (Network.put_of_ne (right_ne_left k 1).symm).trans (h.left 1 h.pos)

theorem talk_left_chan (h : Between loc c k) :
    (talk k loc c f log d).chan (.left 1) = spoken d.leftUnread d.right.failed := by
  simp only [talk, Network.put_self, h.left_chan, List.nil_append]

theorem talk_right_chan (h : Between loc c k) :
    (talk k loc c f log d).chan (.right k) = spoken d.rightUnread d.left.failed := by
  simp only [talk, Network.put_of_ne (right_ne_left k 1), Network.put_self,
    h.right k (Nat.le_refl k), List.nil_append]

theorem talk_left (h : Between loc c k) (hf : (f ()).failed = false)
    (hs : meetStep (dial k) d .left = some d') :
    Reachable (line dial).step (talk k loc c f log d) (talk k loc c f log d') := by
  obtain ⟨⟨p, w, u⟩, hp, rfl⟩ := Option.map_eq_some_iff.mp hs
  have hopen := Duplex.failed_of_step hp
  have hk : k ≠ 0 := Nat.ne_of_gt h.pos
  have hloc : (talk k loc c f log d).loc 0 = ⟨d.left >>= f, log⟩ := by
    show Function.update (Function.update loc 0 _) k _ 0 = _
    rw [Function.update_of_ne hk.symm, Function.update_self]
  have hspeak : speak (dial 0) ((talk k loc c f log d).loc 0)
      ((talk k loc c f log d).chan (.left 1)) =
        some (⟨p >>= f, log⟩, spoken w.input d.right.failed, spoken w.output p.failed) := by
    rw [talk_left_chan h, hloc, ← failed_bind hf p]
    exact speak_spoken (step_bind hp)
  -- what the client has written travels to the station
  let read := put (put c (.right k) (spoken d.rightUnread d.left.failed)) (.left 1)
    (spoken w.input d.right.failed)
  have hstep : (line dial).step (talk k loc c f log d) (.go 0) =
      some ⟨(talk k loc c f log (d.setLeft p (w, u))).loc,
        put read (.right 1) (spoken w.output p.failed)⟩ := by
    refine Network.step_eq_some.mpr ⟨_, hspeak, Network.State.ext ?_ ?_⟩
    · show Function.update (Function.update (Function.update loc 0 _) k _) 0 _ =
        Function.update (Function.update loc 0 _) k _
      rw [Function.update_comm hk, Function.update_idem]
      rfl
    · show put (Function.update (put (put c (.right k) _) (.left 1) _) (.left 1) _) (.right 1) _ =
        put (put (put c (.right k) _) (.left 1) _) (.right 1) _
      rw [Network.update_put_self, Network.update_eq_put (h.left_chan _)]
  have hquiet : ∀ j, 1 ≤ j → j < k → read (.right j) = [] := by
    intro j hj hjk
    have hne : Channel.right j ≠ .right k := by simpa using Nat.ne_of_lt hjk
    exact (Network.put_of_ne (right_ne_left j 1)).trans
      ((Network.put_of_ne hne).trans (h.right j (Nat.le_of_lt hjk)))
  have hend : put read (.right k) (spoken w.output p.failed) =
      (talk k loc c f log (d.setLeft p (w, u))).chan := by
    show put (put (put c (.right k) (spoken d.rightUnread d.left.failed)) (.left 1) _)
      (.right k) _ =
      put (put c (.right k) (spoken (d.rightUnread ++ w.output) p.failed)) (.left 1) _
    rw [Network.put_comm (right_ne_left k 1).symm, Network.put_put, hopen, spoken_append]
    rfl
  have htravel := @travel_right dial (talk k loc c f log (d.setLeft p (w, u))).loc read 1 k h.pos
    h.talk_passing hquiet (spoken w.output p.failed)
  rw [hend] at htravel
  exact (Reachable.of_step hstep).trans htravel

theorem talk_right (h : Between loc c k) (hs : meetStep (dial k) d .right = some d') :
    Reachable (line dial).step (talk k loc c f log d) (talk k loc c f log d') := by
  obtain ⟨⟨p, w, env⟩, hp, rfl⟩ := Option.map_eq_some_iff.mp hs
  have hopen := Duplex.failed_of_step hp
  obtain ⟨m, rfl⟩ : ∃ m, k = m + 1 := ⟨k - 1, (Nat.succ_pred_eq_of_pos h.pos).symm⟩
  have hloc : (talk (m + 1) loc c f log d).loc (m + 1) = ⟨d.right, d.rightEnv⟩ :=
    Function.update_self _ _ _
  have hspeak : speak (dial (m + 1)) ((talk (m + 1) loc c f log d).loc (m + 1))
      ((talk (m + 1) loc c f log d).chan (.right (m + 1))) =
        some (⟨p, env⟩, spoken w.input d.left.failed, spoken w.output p.failed) := by
    rw [talk_right_chan h, hloc]
    exact speak_spoken hp
  -- what the station has written travels to the client
  let read := put (put c (.right (m + 1)) (spoken w.input d.left.failed)) (.left 1)
    (spoken d.leftUnread d.right.failed)
  have hstep : (line dial).step (talk (m + 1) loc c f log d) (.go (m + 1)) =
      some ⟨(talk (m + 1) loc c f log (d.setRight p (w, env))).loc,
        put read (.left (m + 1)) (spoken w.output p.failed)⟩ := by
    refine Network.step_eq_some.mpr ⟨_, hspeak, Network.State.ext ?_ ?_⟩
    · show Function.update (Function.update (Function.update loc 0 _) (m + 1) _) (m + 1) _ =
        Function.update (Function.update loc 0 _) (m + 1) _
      rw [Function.update_idem]
      rfl
    · show put (Function.update (put (put c (.right (m + 1)) _) (.left 1) _) (.right (m + 1)) _)
          (.left (m + 1)) _ = put (put (put c (.right (m + 1)) _) (.left 1) _) (.left (m + 1)) _
      have hempty : put c (.left 1) (spoken d.leftUnread d.right.failed) (.right (m + 1)) = [] :=
        (Network.put_of_ne (right_ne_left (m + 1) 1)).trans (h.right _ (Nat.le_refl _))
      rw [Network.put_comm (right_ne_left (m + 1) 1), Network.update_put_self,
        Network.update_eq_put hempty, Network.put_comm (right_ne_left (m + 1) 1).symm]
  have hquiet : ∀ j, 1 < j → j ≤ m + 1 → read (.left j) = [] := by
    intro j hj hjk
    have hne : Channel.left j ≠ .left 1 := by simpa using Nat.ne_of_gt hj
    exact (Network.put_of_ne hne).trans
      ((Network.put_of_ne (right_ne_left _ j).symm).trans (h.left j hjk))
  have hend : put read (.left 1) (spoken w.output p.failed) =
      (talk (m + 1) loc c f log (d.setRight p (w, env))).chan := by
    show put (put (put c _ _) (.left 1) (spoken d.leftUnread d.right.failed)) (.left 1) _ =
      put (put c (.right (m + 1)) _) (.left 1) (spoken (d.leftUnread ++ w.output) p.failed)
    rw [Network.put_put, hopen, spoken_append]
    rfl
  have htravel := @travel_left dial (talk (m + 1) loc c f log (d.setRight p (w, env))).loc read 1
    (m + 1) h.pos h.talk_passing hquiet (spoken w.output p.failed)
  rw [hend] at htravel
  exact (Reachable.of_step hstep).trans htravel

/-- **What two ends can come to, the client and the station can come to.** -/
theorem talk_reachable (h : Between loc c k) (hf : (f ()).failed = false)
    (hd : Reachable (meetStep (dial k)) d d') :
    Reachable (line dial).step (talk k loc c f log d) (talk k loc c f log d') := by
  obtain ⟨as, has⟩ := hd
  induction as generalizing d with
  | nil =>
    cases has
    exact .refl _
  | cons a as ih =>
    obtain ⟨e, he, has⟩ := Runs.run_cons_some has
    have hfirst : Reachable (line dial).step (talk k loc c f log d) (talk k loc c f log e) := by
      cases a with
      | left => exact talk_left h hf he
      | right => exact talk_right h he
    exact hfirst.trans (ih has)

end Talk

end Line

end Peregrine
