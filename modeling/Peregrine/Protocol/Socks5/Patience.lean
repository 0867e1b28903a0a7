import Peregrine.Lib.Costs
import Peregrine.Protocol.Socks5.Session

/-!
# How long a client is waited for

Every read of the handshake is under a deadline of its own, `HANDSHAKE_TIMEOUT`,
so what a client can hold up a connection for is the number of reads it can
make the handshake do: two for the method, five for a user and a password, and
four for a request with a domain name, which is the longest.
-/

namespace Peregrine

open Prog (call ret fail Calls Costs Follows History price)

/-- The longest an operation waits for the client, in seconds, where a wait
without a deadline is priced at `untimed`. -/
def waitPrice (untimed : ℕ) : sysSig.Op → ℕ
  | .inl (.readExactWithin secs _) => secs
  | .inl (.readExact _) | .inr (.read _) => untimed
  | _ => 0

/-- The operation does not wait for the client without a deadline. -/
def Timed : sysSig.Op → Prop
  | .inl (.readExact _) | .inr (.read _) => False
  | _ => True

variable {untimed : ℕ}

theorem costs_readField_bind {α : Type} {n k : ℕ} {f : Bytes k → Sys α}
    (hf : ∀ b, Costs (waitPrice untimed) n (f b)) :
    Costs (waitPrice untimed) (30 + n) (readField k >>= f) := by
  have hread : Costs (waitPrice untimed) 30 (readField k) :=
    ⟨Nat.le_refl _, fun r => (Costs.ofExcept _ r).mono (Nat.zero_le _)⟩
  exact hread.bind hf

theorem costs_writeAll (bs : List UInt8) : Costs (waitPrice untimed) 0 (writeAll bs) :=
  ⟨Nat.le_refl _, fun r => Costs.ofExcept _ r⟩

theorem costs_utf8Field (msg : String) (bs : List UInt8) :
    Costs (waitPrice untimed) 0 (utf8Field msg bs) := by
  unfold utf8Field
  split <;> trivial

theorem costs_negotiateMethod (users : Option (List UserCredential)) :
    Costs (waitPrice untimed) 60 (negotiateMethod users) := by
  refine costs_readField_bind (n := 30) fun header => ?_
  refine Costs.ensure_bind ?_
  refine costs_readField_bind (n := 0) fun methods => ?_
  refine (costs_writeAll _).free_bind fun _ => ?_
  exact Costs.ensure_bind trivial

theorem costs_authenticateUser (users : List UserCredential) :
    Costs (waitPrice untimed) 150 (authenticateUser users) := by
  refine costs_readField_bind (n := 120) fun ver => ?_
  refine Costs.ensure_bind ?_
  refine costs_readField_bind (n := 90) fun ulen => ?_
  refine costs_readField_bind (n := 60) fun username => ?_
  refine costs_readField_bind (n := 30) fun plen => ?_
  refine costs_readField_bind (n := 0) fun password => ?_
  refine (costs_utf8Field _ _).free_bind fun usernameStr => ?_
  refine (costs_utf8Field _ _).free_bind fun passwordStr => ?_
  refine (costs_writeAll _).free_bind fun _ => ?_
  rw [← Prog.bind_ret (Prog.ensure _ _)]
  exact Costs.ensure_bind trivial

theorem costs_readTarget (atyp : UInt8) : Costs (waitPrice untimed) 90 (readTarget atyp) := by
  unfold readTarget
  split
  · refine Costs.mono (m := 60) ?_ (by omega)
    refine costs_readField_bind (n := 30) fun addr => ?_
    exact costs_readField_bind (n := 0) fun port => trivial
  · refine costs_readField_bind (n := 60) fun len => ?_
    refine costs_readField_bind (n := 30) fun domain => ?_
    refine costs_readField_bind (n := 0) fun port => ?_
    exact (costs_utf8Field _ _).free_bind fun _ => trivial
  · refine Costs.mono (m := 60) ?_ (by omega)
    refine costs_readField_bind (n := 30) fun addr => ?_
    exact costs_readField_bind (n := 0) fun port => trivial
  · trivial

theorem costs_readRequest : Costs (waitPrice untimed) 120 readRequest := by
  refine costs_readField_bind (n := 90) fun header => ?_
  refine Costs.ensure_bind ?_
  split
  · trivial
  · exact (costs_readTarget _).bind (n := 0) fun _ => trivial

/-- What the handshake waits at most, in seconds. -/
def patience (users : Option (List UserCredential)) : ℕ := if users.isSome then 330 else 180

theorem costs_acceptRequest (users : Option (List UserCredential)) :
    Costs (waitPrice untimed) (patience users) (acceptRequest users) := by
  cases users with
  | none =>
    refine (costs_negotiateMethod none).bind (n := 120) fun method => ?_
    refine Costs.free_bind ?_ fun _ => costs_readRequest
    unfold authenticateIfRequired
    split <;> trivial
  | some userList =>
    refine (costs_negotiateMethod (some userList)).bind (n := 270) fun method => ?_
    refine Costs.bind (m := 150) (n := 120) ?_ fun _ => costs_readRequest
    unfold authenticateIfRequired
    split
    · exact costs_authenticateUser userList
    · trivial

/-- The wait for the port of a domain name is the last that a client without
authentication can cause. -/
theorem costs_acceptRequest_none_iff {n : ℕ} :
    Costs (waitPrice 0) n (acceptRequest none) ↔ 180 ≤ n := by
  constructor
  · intro h
    have hmethods := h.2 (Except.ok (⟨[5, 1], rfl⟩ : Bytes 2))
    have hselect := hmethods.2 (Except.ok (⟨[0], rfl⟩ : Bytes 1))
    have hheader := hselect.2 (Except.ok ())
    have hlength := hheader.2 (Except.ok (⟨[5, 1, 0, 3], rfl⟩ : Bytes 4))
    have hdomain := hlength.2 (Except.ok (⟨[0], rfl⟩ : Bytes 1))
    have hport := hdomain.2 (Except.ok (⟨[], rfl⟩ : Bytes 0))
    have hlast : 30 ≤ n - 30 - 30 - 0 - 30 - 30 - 30 := hport.1
    omega
  · exact (costs_acceptRequest none).mono

theorem nonempty_ans (o : sysSig.Op) : Nonempty (sysSig.Ans o) := ⟨agreeable [] o⟩

/-- A wait without a deadline would cost more than any bound. -/
theorem timed_of_waitPrice_le {o : sysSig.Op} {n : ℕ} (h : waitPrice (n + 1) o ≤ n) :
    Timed o := by
  unfold Timed
  split
  · exact Nat.not_succ_le_self n h
  · exact Nat.not_succ_le_self n h
  · trivial

/-- **The handshake's patience.** However the client answers, the handshake never
waits for it without a deadline, and all its waits together last at most 180
seconds, 330 where users are configured; without users that is the least bound
there is. -/
theorem handshake_patience :
    (∀ users l p, Follows (acceptRequest users) l p →
      (∀ e ∈ l, Timed e.1) ∧ price (waitPrice 0) l ≤ patience users) ∧
    ∀ n, (∀ l p, Follows (acceptRequest none) l p → price (waitPrice 0) l ≤ n) ↔
      patience none ≤ n := by
  constructor
  · intro users l p h
    have hcalls := (@costs_acceptRequest (patience users + 1) users).calls (Nat.le_refl _)
    have htimed := h.mem_calls (hcalls.mono fun _ => timed_of_waitPrice_le)
    exact ⟨htimed, (h.price_le (costs_acceptRequest users)).1⟩
  · intro n
    rw [← Prog.costs_iff_price_le nonempty_ans]
    exact costs_acceptRequest_none_iff

end Peregrine
