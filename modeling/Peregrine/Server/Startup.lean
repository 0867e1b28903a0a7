import Peregrine.PlainText
import Peregrine.Server.Server

/-!
# Starting up

`run` opens one listener after the other: it binds the address, loads the
certificate if the listener is for TLS, and spawns the accept loop before it goes
on to the next one.  So the first loops let connections in while the last listeners
are still being opened, and when one of them cannot be opened `run` returns its
error.

`Server.init` is the server with every loop spawned and nothing done yet.
`started_as_if_at_once` says that this is as good: the servers that have started
are those that it can become.  `startup_result` says which configurations start in
which surroundings, and with which error the others fail.
-/

namespace Peregrine

open Prog (ofExcept ensure Ends)
open Runs (Reachable)

/-! ### Opening a listener -/

/-- What `run` asks for before it serves; an error is its text. -/
inductive StartOp
  /-- `TcpListener::bind(addr)`. -/
  | bind (addr : String)
  /-- `File::open(path)`. -/
  | openFile (path : String)
  /-- `rustls_pemfile::certs`, collected. -/
  | certs (path : String)
  /-- `rustls_pemfile::private_key`. -/
  | privateKey (path : String)
  /-- `with_single_cert(certs, key)`. -/
  | singleCert (certs : List (List UInt8)) (key : List UInt8)

abbrev StartOp.Ans : StartOp → Type
  | .bind _ => Except String Unit
  | .openFile _ => Except String Unit
  | .certs _ => Except String (List (List UInt8))
  | .privateKey _ => Except String (Option (List UInt8))
  | .singleCert _ _ => Except String Unit

abbrev startSig : Sig := ⟨StartOp, StartOp.Ans⟩

abbrev Start (α : Type) := Prog startSig String α

def start (o : StartOp) : Start o.Ans := @Prog.perform startSig String o

/-- `load_tls_acceptor`. -/
def loadTlsAcceptor (config : TlsConfig) : Start Unit := do
  let certFile ← start (.openFile config.cert)
  ofExcept (fun e => "Failed to open cert file " ++ config.cert ++ ": " ++ e) certFile
  let keyFile ← start (.openFile config.key)
  ofExcept (fun e => "Failed to open key file " ++ config.key ++ ": " ++ e) keyFile
  let read ← start (.certs config.cert)
  let certs ← ofExcept (fun e => "Failed to parse certificates: " ++ e) read
  ensure (certs ≠ []) ("No certificates found in " ++ config.cert)
  let read ← start (.privateKey config.key)
  let found ← ofExcept (fun e => "Failed to parse private key: " ++ e) read
  match found with
  | none => .fail ("No private key found in " ++ config.key)
  | some key => do
    let built ← start (.singleCert certs key)
    ofExcept (fun e => "Failed to build TLS config: " ++ e) built

/-- One turn of the loop of `run`, up to the spawn: is there a `tls_acceptor`? -/
def openListener (listen : ListenConfig) : Start Bool := do
  let bound ← start (.bind listen.addr)
  ofExcept id bound
  match listen.tls with
  | some tls => do
    loadTlsAcceptor tls
    return true
  | none => return false

/-! ### The server while it starts -/

/-- Where `run` stands before `ctrl_c`. -/
inductive StartPc
  /-- With this listener, and these to come. -/
  | opening (listen : ListenConfig) (p : Start Bool) (rest : List ListenConfig)
  /-- In `ctrl_c`, or beyond. -/
  | started
  /-- `run` has returned an error. -/
  | failed (e : String)

structure Starting where
  pc : StartPc
  server : Server

inductive StartAction
  /-- The world answers the operation that `run` waits for. -/
  | answer (f : (o : StartOp) → o.Ans)
  | go
  | serve (a : Server.Action)

def Server.spawnLoop (s : Server) (tls : Bool) : Server :=
  { s with loops := s.loops ++ [⟨tls, .top⟩] }

namespace Starting

def openNext : List ListenConfig → StartPc
  | [] => .started
  | listen :: rest => .opening listen (openListener listen) rest

variable (std : IpText) (config : AppConfig)

def begin : Starting where
  pc := openNext config.server.listen
  server := { Server.init config with loops := [] }

/-- One step of the server while it starts, or after. -/
def step (x : Starting) : StartAction → Option Starting
  | .answer f =>
    match x.pc with
    | .opening listen (.call o k) rest => some { x with pc := .opening listen (k (f o)) rest }
    | _ => none
  | .go =>
    match x.pc with
    | .opening _ (.ret tls) rest => some ⟨openNext rest, x.server.spawnLoop tls⟩
    | .opening _ (.fail e) _ => some { x with pc := .failed e }
    | _ => none
  | .serve a =>
    match x.pc, a with
    | .failed _, _ => none
    -- nobody listens for it yet
    | .opening _ _ _, .run .ctrlC => none
    | _, a => (x.server.step std config a).map fun server => { x with server }

/-- The listeners that are open. -/
def opened (x : Starting) : List ListenConfig := config.server.listen.take x.server.loops.length

/-- One step in surroundings that answer by what is open. -/
def stepIn (env : List ListenConfig → (o : StartOp) → o.Ans) (x : Starting) :
    StartAction → Option Starting
  | .answer _ => x.step std config (.answer (env (x.opened config)))
  | a => x.step std config a

end Starting

/-! ### What has to be there -/

/-- The files of a TLS listener are there and belong together. -/
structure TlsUsable (f : (o : StartOp) → o.Ans) (tls : TlsConfig) : Prop where
  certFile : f (.openFile tls.cert) = .ok ()
  keyFile : f (.openFile tls.key) = .ok ()
  pair : ∃ certs key, f (.certs tls.cert) = .ok certs ∧ certs ≠ [] ∧
    f (.privateKey tls.key) = .ok (some key) ∧ f (.singleCert certs key) = .ok ()

/-- The listener can be opened where operations are answered by `f`. -/
def Usable (f : (o : StartOp) → o.Ans) (listen : ListenConfig) : Prop :=
  f (.bind listen.addr) = .ok () ∧ ∀ tls, listen.tls = some tls → TlsUsable f tls

/-- The listeners can be opened one after the other. -/
def UsableInTurn (env : List ListenConfig → (o : StartOp) → o.Ans) (ls : List ListenConfig) :
    Prop := ∀ done listen rest, ls = done ++ listen :: rest → Usable (env done) listen

/-- The first listener that cannot be opened, with these open, and its error. -/
structure FirstTrouble (env : List ListenConfig → (o : StartOp) → o.Ans) (ls : List ListenConfig)
    (done : List ListenConfig) (e : String) : Prop where
  before : UsableInTurn env done
  here : ∃ listen rest, ls = done ++ listen :: rest ∧ ¬ Usable (env done) listen ∧
    Prog.eval (env done) (openListener listen) = .error e

section Usable

variable {f : (o : StartOp) → o.Ans}

/-- **A certificate and a key** are loaded exactly when they are there and belong together. -/
theorem eval_loadTlsAcceptor_bind {tls : TlsConfig} {α : Type} {q : Unit → Start α} {b : α} :
    Prog.eval f (loadTlsAcceptor tls >>= q) = .ok b ↔
      TlsUsable f tls ∧ Prog.eval f (q ()) = .ok b := by
  unfold loadTlsAcceptor start
  simp only [Prog.bind_assoc]
  constructor
  · intro h
    rw [Prog.eval_perform_ofExcept_bind] at h
    obtain ⟨_, hcert, h⟩ := h
    rw [Prog.eval_perform_ofExcept_bind] at h
    obtain ⟨_, hkey, h⟩ := h
    rw [Prog.eval_perform_ofExcept_bind] at h
    obtain ⟨certs, hcerts, h⟩ := h
    rw [Prog.eval_ensure_bind] at h
    obtain ⟨hne, h⟩ := h
    rw [Prog.eval_perform_ofExcept_bind] at h
    obtain ⟨found, hfound, h⟩ := h
    cases found with
    | none => cases h
    | some key =>
      simp only [Prog.bind_assoc] at h
      rw [Prog.eval_perform_ofExcept_bind] at h
      obtain ⟨_, hbuilt, h⟩ := h
      exact ⟨⟨hcert, hkey, certs, key, hcerts, hne, hfound, hbuilt⟩, h⟩
  · rintro ⟨⟨hcert, hkey, certs, key, hcerts, hne, hfound, hbuilt⟩, h⟩
    rw [Prog.eval_perform_ofExcept_bind]
    refine ⟨(), hcert, ?_⟩
    rw [Prog.eval_perform_ofExcept_bind]
    refine ⟨(), hkey, ?_⟩
    rw [Prog.eval_perform_ofExcept_bind]
    refine ⟨certs, hcerts, ?_⟩
    rw [Prog.eval_ensure_bind]
    refine ⟨hne, ?_⟩
    rw [Prog.eval_perform_ofExcept_bind]
    refine ⟨some key, hfound, ?_⟩
    simp only [Prog.bind_assoc]
    rw [Prog.eval_perform_ofExcept_bind]
    exact ⟨(), hbuilt, h⟩

/-- **A listener opens** exactly when everything it needs is there. -/
theorem eval_openListener {listen : ListenConfig} :
    Prog.eval f (openListener listen) = .ok listen.tls.isSome ↔ Usable f listen := by
  unfold openListener start
  rw [Prog.eval_perform_ofExcept_bind, Usable]
  cases listen.tls with
  | none =>
    constructor
    · rintro ⟨_, hbind, _⟩
      exact ⟨hbind, nofun⟩
    · rintro ⟨hbind, _⟩
      exact ⟨(), hbind, rfl⟩
  | some tls =>
    simp only [eval_loadTlsAcceptor_bind]
    constructor
    · rintro ⟨_, hbind, htls, _⟩
      refine ⟨hbind, fun tls' h => ?_⟩
      cases h
      exact htls
    · rintro ⟨hbind, htls⟩
      exact ⟨(), hbind, htls tls rfl, rfl⟩

theorem ends_openListener (listen : ListenConfig) :
    Ends (· = listen.tls.isSome) (fun _ => True) (openListener listen) := by
  unfold openListener start
  refine Ends.bind (Ends.any _) fun bound _ => Ends.bind (Ends.any _) fun _ _ => ?_
  cases listen.tls with
  | none => exact rfl
  | some tls => exact Ends.bind (Ends.any _) fun _ _ => rfl

theorem usable_of_eval {listen : ListenConfig} {tls : Bool}
    (h : Prog.eval f (openListener listen) = .ok tls) : Usable f listen := by
  have htls : tls = listen.tls.isSome := (ends_openListener listen).of_eval h
  rw [htls] at h
  exact eval_openListener.mp h

theorem UsableInTurn.concat {env : List ListenConfig → (o : StartOp) → o.Ans}
    {done : List ListenConfig} {listen : ListenConfig} (h : UsableInTurn env done)
    (hl : Usable (env done) listen) : UsableInTurn env (done ++ [listen]) := by
  intro before l rest heq
  rcases List.eq_nil_or_concat rest with rfl | ⟨rest, last, rfl⟩
  · obtain ⟨rfl, hlast⟩ := List.append_inj' heq rfl
    cases hlast
    exact hl
  · rw [List.concat_eq_append, ← List.cons_append, ← List.append_assoc] at heq
    obtain ⟨rfl, -⟩ := List.append_inj' heq rfl
    exact h before l rest rfl

end Usable

/-! ### The loops to come -/

namespace Server

variable {std : IpText} {config : AppConfig} {s s' : Server}

/-- The server with the loops of these listeners too. -/
def awaiting (ls : List ListenConfig) (s : Server) : Server :=
  { s with loops := s.loops ++ ls.map fun l => ⟨l.tls.isSome, .top⟩ }

theorem awaiting_nil : s.awaiting [] = s := by
  rw [awaiting, List.map_nil, List.append_nil]

theorem awaiting_cons (l : ListenConfig) (ls : List ListenConfig) :
    s.awaiting (l :: ls) = (s.spawnLoop l.tls.isSome).awaiting ls := by
  rw [awaiting, awaiting, spawnLoop, List.map_cons]
  simp only [List.append_assoc, List.singleton_append]

theorem stepConn_awaiting (ls : List ListenConfig) {c : ℕ} {conn : Conn} {pc : ConnPc}
    {e : ConnEvent} : (s.awaiting ls).stepConn std c conn pc e =
      (s.stepConn std c conn pc e).map (awaiting ls) := by
  unfold stepConn
  split <;> first | rfl | (rw [apply_ite (Option.map (awaiting ls))]; rfl) | skip
  · cases detectProtocol _ <;> rfl
  · rw [Option.map_map]
    rfl
  · rename_i request
    cases request.command <;> rfl
  · rename_i a k
    have hassoc : (s.awaiting ls).associations = s.associations := rfl
    rw [hassoc]
    cases s.associations[a]? with
    | none => rfl
    | some assoc =>
      simp only [apply_ite (Option.map (awaiting ls))]
      rfl

theorem stepTunnel_awaiting (ls : List ListenConfig) {k : ℕ} {t : Tunnel} {pc : TunnelPc}
    {e : TunnelEvent} :
    (s.awaiting ls).stepTunnel k t pc e = (s.stepTunnel k t pc e).map (awaiting ls) := by
  unfold stepTunnel
  split <;> first | rfl | (rw [apply_ite (Option.map (awaiting ls))]; rfl)

theorem stepLoop_awaiting (ls : List ListenConfig) {i : ℕ} {l : AcceptLoop} {pc : LoopPc}
    {e : LoopEvent} (hi : i < s.loops.length) :
    (s.awaiting ls).stepLoop i l pc e = (s.stepLoop i l pc e).map (awaiting ls) := by
  have hset : ∀ {u : Server} {pc' : LoopPc}, u.loops = s.loops →
      (u.awaiting ls).setLoop i l pc' = (u.setLoop i l pc').awaiting ls := by
    intro u pc' hu
    rw [← hu] at hi
    simp only [setLoop, awaiting, List.set_append_left _ _ hi]
  cases pc with
  | top =>
    cases e with
    | go => exact congrArg some (hset rfl)
    | _ => rfl
  | select epoch =>
    cases e with
    | go => rfl
    | accepted r => cases r <;> exact congrArg some (hset rfl)
    | notified =>
      simp only [stepLoop, apply_ite (Option.map (awaiting ls))]
      exact if_congr Iff.rfl (congrArg some (hset rfl)) rfl
  | acquire addr =>
    cases e with
    | go =>
      simp only [stepLoop, apply_ite (Option.map (awaiting ls))]
      exact if_congr Iff.rfl (congrArg some (@hset (s.letIn addr l.tls) _ rfl)) rfl
    | _ => rfl
  | stopped => cases e <;> rfl

/-- **What the server does while it starts**, it does with the other loops there too. -/
theorem step_awaiting (ls : List ListenConfig) (hrun : s.runPc = .serving) {a : Action}
    (h : s.step std config a = some s') :
    (s.awaiting ls).step std config a = some (s'.awaiting ls) := by
  have hne : s.runPc ≠ .ended := by
    rw [hrun]
    exact nofun
  unfold step at h ⊢
  rw [if_neg hne] at h
  rw [if_neg (show (s.awaiting ls).runPc ≠ .ended from hne)]
  cases a with
  | run e =>
    show (s.awaiting ls).stepRun config s.runPc e = _
    change s.stepRun config s.runPc e = some s' at h
    rw [hrun] at h ⊢
    cases e with
    | ctrlC =>
      cases h
      rfl
    | sighup r =>
      cases r <;> cases h <;> rfl
    | joined | drained | timedOut => cases h
  | loop i e =>
    obtain ⟨l, hl, h⟩ := Option.bind_eq_some_iff.mp h
    have hi := (List.getElem?_eq_some_iff.mp hl).1
    refine Option.bind_eq_some_iff.mpr ⟨l, (List.getElem?_append_left hi).trans hl, ?_⟩
    rw [stepLoop_awaiting ls hi, h]
    rfl
  | conn c e =>
    obtain ⟨conn, hc, h⟩ := Option.bind_eq_some_iff.mp h
    refine Option.bind_eq_some_iff.mpr ⟨conn, hc, ?_⟩
    rw [stepConn_awaiting, h]
    rfl
  | tunnel k e =>
    obtain ⟨t, ht, h⟩ := Option.bind_eq_some_iff.mp h
    refine Option.bind_eq_some_iff.mpr ⟨t, ht, ?_⟩
    rw [stepTunnel_awaiting, h]
    rfl
  | udp a act =>
    obtain ⟨assoc, ha, h⟩ := Option.bind_eq_some_iff.mp h
    refine Option.bind_eq_some_iff.mpr ⟨assoc, ha, ?_⟩
    obtain ⟨relay, hr, rfl⟩ := Option.map_eq_some_iff.mp h
    exact Option.map_eq_some_iff.mpr ⟨relay, hr, rfl⟩

theorem step_serving (hrun : s.runPc = .serving) {a : Action} (ha : a ≠ .run .ctrlC)
    (h : s.step std config a = some s') : s'.runPc = .serving := by
  cases stepped h with
  | ctrlC => exact absurd rfl ha
  | joined hpc => rw [hrun] at hpc; cases hpc
  | ended hpc => rw [hrun] at hpc; cases hpc
  | _ => exact hrun

end Server

/-! ### Started one by one -/

namespace Starting

variable {std : IpText} {config : AppConfig} {x y : Starting} {s s' : Server}

theorem step_serve {a : Server.Action} (h : x.step std config (.serve a) = some y) :
    ∃ s', x.server.step std config a = some s' ∧ y = { x with server := s' } ∧
      (x.pc = .started ∨ a ≠ .run .ctrlC) := by
  obtain ⟨pc, s⟩ := x
  cases pc with
  | failed e => cases h
  | started =>
    obtain ⟨s', hs', rfl⟩ := Option.map_eq_some_iff.mp h
    exact ⟨s', hs', rfl, Or.inl rfl⟩
  | opening listen p rest =>
    simp only [step] at h
    split at h
    · cases h
    · cases h
    · rename_i hopening
      obtain ⟨s', hs', rfl⟩ := Option.map_eq_some_iff.mp h
      exact ⟨s', hs', rfl, Or.inr fun ha => hopening listen p rest rfl ha⟩

variable (std config) in
/-- The server would have got here with every loop there from the start. -/
def Ahead (x : Starting) : Prop :=
  match x.pc with
  | .opening listen p rest =>
    Ends (· = listen.tls.isSome) (fun _ => True) p ∧ x.server.runPc = .serving ∧
      Reachable (Server.step std config) (Server.init config) (x.server.awaiting (listen :: rest))
  | .started => Reachable (Server.step std config) (Server.init config) x.server
  | .failed _ => True

theorem ahead_openNext {rest : List ListenConfig} (hrun : s.runPc = .serving)
    (h : Reachable (Server.step std config) (Server.init config) (s.awaiting rest)) :
    Ahead std config ⟨openNext rest, s⟩ := by
  cases rest with
  | nil =>
    rw [Server.awaiting_nil] at h
    exact h
  | cons listen rest => exact ⟨ends_openListener listen, hrun, h⟩

theorem ahead_begin : Ahead std config (begin config) :=
  ahead_openNext rfl (.refl _)

/-- **One step of starting up** is a step of the server with every loop, or nothing to it. -/
theorem ahead_step {a : StartAction} (hx : Ahead std config x)
    (h : x.step std config a = some y) : Ahead std config y := by
  obtain ⟨pc, s⟩ := x
  cases pc with
  | opening listen p rest =>
    obtain ⟨hends, hrun, hreach⟩ := hx
    cases a with
    | answer f =>
      cases p with
      | call o k =>
        cases h
        exact ⟨hends (f o), hrun, hreach⟩
      | ret | fail => cases h
    | go =>
      cases p with
      | ret tls =>
        cases h
        obtain rfl : tls = listen.tls.isSome := hends
        exact ahead_openNext hrun (Server.awaiting_cons listen rest ▸ hreach)
      | fail e =>
        cases h
        trivial
      | call => cases h
    | serve a =>
      obtain ⟨s', hs', rfl, hne⟩ := step_serve h
      have hs := Server.step_serving hrun (hne.resolve_left nofun) hs'
      exact ⟨hends, hs, hreach.tail (Server.step_awaiting (listen :: rest) hrun hs')⟩
  | started =>
    cases a with
    | answer f => cases h
    | go => cases h
    | serve a =>
      obtain ⟨s', hs', rfl, -⟩ := step_serve h
      exact hx.tail hs'
  | failed e => cases a <;> cases h

/-! ### Surroundings -/

variable {env : List ListenConfig → (o : StartOp) → o.Ans}

theorem step_of_stepIn {a : StartAction} (h : x.stepIn std config env a = some y) :
    ∃ b, x.step std config b = some y := by
  cases a with
  | answer f => exact ⟨.answer (env (x.opened config)), h⟩
  | go => exact ⟨.go, h⟩
  | serve a => exact ⟨.serve a, h⟩

theorem reachable_of_stepIn (h : Reachable (stepIn std config env) x y) :
    Reachable (step std config) x y := by
  obtain ⟨as, has⟩ := h
  induction as generalizing x with
  | nil =>
    cases has
    exact .refl _
  | cons a as ih =>
    obtain ⟨x', hx', has⟩ := Runs.run_cons_some has
    obtain ⟨b, hb⟩ := step_of_stepIn hx'
    exact (Reachable.of_step hb).trans (ih has)

section Listener

variable {listen : ListenConfig} {rest : List ListenConfig}

theorem reaches_eval (p : Start Bool) :
    Reachable (stepIn std config env) ⟨.opening listen p rest, s⟩ ⟨.opening listen
      (ofExcept id (Prog.eval (env (opened config ⟨.opening listen p rest, s⟩)) p)) rest, s⟩ := by
  induction p with
  | ret tls => exact .refl _
  | fail e => exact .refl _
  | call o k ih =>
    have hstep : stepIn std config env ⟨.opening listen (.call o k) rest, s⟩
        (.answer (env [])) = some ⟨.opening listen
          (k (env (opened config ⟨.opening listen (.call o k) rest, s⟩) o)) rest, s⟩ := rfl
    exact (Reachable.of_step hstep).trans (ih _)

theorem reaches_next {p : Start Bool} {tls : Bool}
    (h : Prog.eval (env (opened config ⟨.opening listen p rest, s⟩)) p = .ok tls) :
    Reachable (stepIn std config env) ⟨.opening listen p rest, s⟩
      ⟨openNext rest, s.spawnLoop tls⟩ := by
  have hp := @reaches_eval std config s env listen rest p
  rw [h] at hp
  exact hp.tail (show stepIn std config env _ .go = _ from rfl)

theorem reaches_failed {p : Start Bool} {e : String}
    (h : Prog.eval (env (opened config ⟨.opening listen p rest, s⟩)) p = .error e) :
    Reachable (stepIn std config env) ⟨.opening listen p rest, s⟩ ⟨.failed e, s⟩ := by
  have hp := @reaches_eval std config s env listen rest p
  rw [h] at hp
  exact hp.tail (show stepIn std config env _ .go = _ from rfl)

theorem reaches_end (listen : ListenConfig) (p : Start Bool) (rest : List ListenConfig) :
    ∃ y, Reachable (stepIn std config env) ⟨.opening listen p rest, s⟩ y ∧
      (y.pc = .started ∨ ∃ e, y.pc = .failed e) := by
  induction rest generalizing listen p s with
  | nil =>
    cases h : Prog.eval (env (opened config ⟨.opening listen p [], s⟩)) p with
    | ok tls => exact ⟨_, reaches_next h, Or.inl rfl⟩
    | error e => exact ⟨_, reaches_failed h, Or.inr ⟨e, rfl⟩⟩
  | cons next rest ih =>
    cases h : Prog.eval (env (opened config ⟨.opening listen p (next :: rest), s⟩)) p with
    | ok tls =>
      obtain ⟨y, hy, hend⟩ := ih next (openListener next)
      exact ⟨y, (reaches_next h).trans hy, hend⟩
    | error e => exact ⟨_, reaches_failed h, Or.inr ⟨e, rfl⟩⟩

end Listener

theorem reaches_started (hu : ∀ done listen, Usable (env done) listen) (ls : List ListenConfig) :
    Reachable (stepIn std config env) ⟨openNext ls, s⟩ ⟨.started, s.awaiting ls⟩ := by
  induction ls generalizing s with
  | nil =>
    rw [Server.awaiting_nil]
    exact .refl _
  | cons listen rest ih =>
    rw [Server.awaiting_cons]
    exact (reaches_next (eval_openListener.mpr (hu _ listen))).trans ih

/-- Surroundings in which everything is there. -/
def agreeable : (o : StartOp) → o.Ans
  | .bind _ => .ok ()
  | .openFile _ => .ok ()
  | .certs _ => .ok [[]]
  | .privateKey _ => .ok (some [])
  | .singleCert _ _ => .ok ()

theorem usable_agreeable (listen : ListenConfig) : Usable agreeable listen := by
  refine ⟨rfl, fun tls _ => ⟨rfl, rfl, [[]], [], rfl, ?_, rfl, rfl⟩⟩
  exact List.cons_ne_nil _ _

theorem reachable_started (h : Reachable (Server.step std config) s s') :
    Reachable (step std config) ⟨.started, s⟩ ⟨.started, s'⟩ := by
  obtain ⟨as, has⟩ := h
  induction as generalizing s with
  | nil =>
    cases has
    exact .refl _
  | cons a as ih =>
    obtain ⟨u, hu, has⟩ := Runs.run_cons_some has
    have hstep : step std config ⟨.started, s⟩ (.serve a) = some ⟨.started, u⟩ :=
      Option.map_eq_some_iff.mpr ⟨u, hu, rfl⟩
    exact (Reachable.of_step hstep).trans (ih has)

/-- **The order in which the loops come up does not show**: the servers that have started are
those that begin with every loop spawned, whatever the first loops and their clients have
done while the last listeners were opened. -/
theorem started_as_if_at_once :
    Reachable (step std config) (begin config) ⟨.started, s⟩ ↔
      Reachable (Server.step std config) (Server.init config) s := by
  constructor
  · rintro ⟨as, has⟩
    exact Runs.run_invariant (fun _ _ _ => ahead_step) ahead_begin has
  · intro h
    have hstarted : Reachable (step std config) (begin config) ⟨.started, Server.init config⟩ :=
      reachable_of_stepIn (reaches_started (fun _ => usable_agreeable) config.server.listen)
    exact hstarted.trans (reachable_started h)

/-! ### Where starting up ends -/

variable (config env) in
/-- How far the listeners have been opened, and that so far they could. -/
def Placed (x : Starting) : Prop :=
  match x.pc with
  | .opening listen p rest => ∃ done, config.server.listen = done ++ listen :: rest ∧
      done.length = x.server.loops.length ∧ UsableInTurn env done ∧
      Prog.eval (env done) p = Prog.eval (env done) (openListener listen)
  | .started => UsableInTurn env config.server.listen
  | .failed e => ∃ done, done.length = x.server.loops.length ∧
      FirstTrouble env config.server.listen done e

theorem placed_openNext {done rest : List ListenConfig}
    (hls : config.server.listen = done ++ rest) (hlen : done.length = s.loops.length)
    (hdone : UsableInTurn env done) : Placed config env ⟨openNext rest, s⟩ := by
  cases rest with
  | nil =>
    rw [List.append_nil] at hls
    show UsableInTurn env config.server.listen
    rw [hls]
    exact hdone
  | cons listen rest => exact ⟨done, hls, hlen, hdone, rfl⟩

theorem placed_step {a : StartAction} (hx : Placed config env x)
    (h : x.stepIn std config env a = some y) : Placed config env y := by
  obtain ⟨pc, s⟩ := x
  cases pc with
  | opening listen p rest =>
    obtain ⟨done, hls, hlen, hdone, heval⟩ := hx
    cases a with
    | answer f =>
      have hopen : opened config ⟨.opening listen p rest, s⟩ = done := by
        rw [opened, hls]
        exact List.take_left' hlen
      rw [stepIn, hopen] at h
      cases p with
      | call o k =>
        cases h
        exact ⟨done, hls, hlen, hdone, heval⟩
      | ret | fail => cases h
    | go =>
      cases p with
      | ret tls =>
        cases h
        have hl : Usable (env done) listen := usable_of_eval heval.symm
        refine placed_openNext (hls.trans (List.append_cons done listen rest)) ?_ (hdone.concat hl)
        rw [Server.spawnLoop, List.length_append, List.length_append, hlen]
        rfl
      | fail e =>
        cases h
        refine ⟨done, hlen, hdone, listen, rest, hls, fun hl => ?_, heval.symm⟩
        cases heval.trans (eval_openListener.mpr hl)
      | call => cases h
    | serve a =>
      obtain ⟨s', hs', rfl, -⟩ := step_serve h
      exact ⟨done, hls, hlen.trans (Server.step_loops_length hs').symm, hdone, heval⟩
  | started =>
    cases a with
    | answer f => cases h
    | go => cases h
    | serve a =>
      have hstep : step std config ⟨.started, s⟩ (.serve a) = some y := h
      obtain ⟨s', hs', rfl, -⟩ := step_serve hstep
      exact hx
  | failed e => cases a <;> cases h

theorem placed_of_reachable (h : Reachable (stepIn std config env) (begin config) x) :
    Placed config env x := by
  obtain ⟨as, has⟩ := h
  refine Runs.run_invariant (fun _ _ _ => placed_step) ?_ has
  refine placed_openNext (List.nil_append _).symm rfl fun done listen rest heq => ?_
  cases List.append_ne_nil_of_right_ne_nil done (List.cons_ne_nil listen rest) heq.symm

/-- **The first listener that cannot be opened decides**: whatever the loops before it do
meanwhile, `run` gets past the listeners only if each can be opened after those before it, it
returns the error of the first that cannot, with the loops of those before it spawned, and it
is always on its way to one of the two. -/
theorem startup_result (h : Reachable (stepIn std config env) (begin config) x) :
    (x.pc = .started → UsableInTurn env config.server.listen) ∧
      (∀ e, x.pc = .failed e → ∃ done, done.length = x.server.loops.length ∧
        FirstTrouble env config.server.listen done e) ∧
      ∃ y, Reachable (stepIn std config env) x y ∧ (y.pc = .started ∨ ∃ e, y.pc = .failed e) := by
  have hx := placed_of_reachable h
  obtain ⟨pc, s⟩ := x
  cases pc with
  | opening listen p rest => exact ⟨nofun, nofun, reaches_end listen p rest⟩
  | started => exact ⟨fun _ => hx, nofun, _, .refl _, Or.inl rfl⟩
  | failed e =>
    refine ⟨nofun, fun e' he => ?_, _, .refl _, Or.inr ⟨e, rfl⟩⟩
    cases he
    exact hx

/-- Two listeners at one address. -/
def twiceConfig : AppConfig where
  server :=
    { listen := [⟨"127.0.0.1:8080", .http, none⟩, ⟨"127.0.0.1:8080", .socks5, none⟩]
      maxConnections := none }
  accessControl := { defaultAction := .allow, rules := [] }
  upstream := .direct

/-- Every address is free until something is bound. -/
def freeOnce : List ListenConfig → (o : StartOp) → o.Ans
  | _ :: _, .bind _ => .error "Address already in use"
  | _, o => agreeable o

theorem startup_result_twice : ∃ done, done.length = 1 ∧
    FirstTrouble freeOnce twiceConfig.server.listen done "Address already in use" := by
  have h : Reachable (stepIn .plain twiceConfig freeOnce) (begin twiceConfig)
      ((Runs.run (stepIn .plain twiceConfig freeOnce) (begin twiceConfig)
        [.answer agreeable, .go, .serve (.loop 0 .go), .answer agreeable, .go]).get rfl) :=
    ⟨_, (Option.some_get _).symm⟩
  exact (startup_result h).2.1 "Address already in use" rfl

end Starting

end Peregrine
