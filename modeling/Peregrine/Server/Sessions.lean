import Peregrine.Lib.Views
import Peregrine.Server.Progress

/-!
# A connection is served alone

The tasks of all the connections share one server.  What the server has for the
connection `c` is its `session`: where its task stands, its tunnels, and the
association it waits for.  A session by itself is a server with nothing else in it
(`stepSession`), and the server of all connections moves as the session does
(`shows_session`): what is done for `c` is a step of it, with tunnels under their
own numbers, and what is done for the others is not seen at all.

A connection has to be let in before it is a session, and the end of `run` ends
all sessions; between the two no connection can hold up another one.  What is left
of an association that its connection no longer waits for belongs to no session.
-/

namespace Peregrine

open Prog (call ret fail)
open Table

/-! ### Sessions -/

/-- The association that the task waits for. -/
def ConnPc.association : ConnPc → Option ℕ
  | .relaying _ a _ => some a
  | _ => none

/-- With other numbers for the tunnels, and the number 0 for the association. -/
def ConnPc.renumber (r : ℕ → ℕ) : ConnPc → ConnPc
  | .answered k => .answered (r k)
  | .handedOver k => .handedOver (r k)
  | .relaying request _ k => .relaying request 0 k
  | pc => pc

/-- What a server has for one connection. -/
@[ext] structure Session where
  conn : Option Conn
  tunnels : List Tunnel
  association : Option Association

def Session.server (config : AppConfig) (x : Session) : Server where
  runPc := .serving
  notifyCalls := 0
  available := 0
  watched := config
  loops := []
  conns := x.conn.toList
  tunnels := x.tunnels
  associations := x.association.toList
  requests := []
  contacts := []

namespace Server

/-- The number that a tunnel has among those of the connection `c`. -/
def tunnelPlace (c : ℕ) (s : Server) : ℕ → ℕ := place (fun t => decide (t.conn = c)) s.tunnels

/-- The task of a connection, with the tunnels under their own numbers. -/
def own (c : ℕ) (s : Server) (conn : Conn) : Conn :=
  { conn with pc := conn.pc.renumber (s.tunnelPlace c) }

/-- **What the server has for the connection `c`.** -/
def session (c : ℕ) (s : Server) : Session where
  conn := (s.conns[c]?).map (s.own c)
  tunnels := (s.tunnels.filter fun t => t.conn = c).map fun t => { t with conn := 0 }
  association := ((s.conns[c]?).bind (·.pc.association)).bind (s.associations[·]?)

/-- The action as the connection `c` sees it, if it sees it. -/
def seenAs (c : ℕ) (s : Server) : Action → Option Action
  | .conn c' e => if c' = c then some (.conn 0 e) else none
  | .tunnel k e => (s.tunnels[k]?).bind fun t =>
    if t.conn = c then some (.tunnel (s.tunnelPlace c k) e) else none
  | .udp a act =>
    if (s.conns[c]?).bind (·.pc.association) = some a then some (.udp 0 act) else none
  | _ => none

/-- An action of a connection, of one of its tunnels, or of its association. -/
def Action.OfSession : Action → Prop
  | .conn c _ => c = 0
  | .tunnel _ _ => True
  | .udp a _ => a = 0
  | _ => False

variable (std : IpText) (config : AppConfig)

/-- One step of a session by itself. -/
def stepSession (x : Session) (a : Action) : Option Session :=
  ((x.server config).step std config a).map (session 0)

/-- One step of the server after which `run` has not returned. -/
def stepLive (s : Server) (a : Action) : Option Server :=
  (s.step std config a).filter (·.runPc ≠ .ended)

variable {std config} {s s' u : Server} {c : ℕ} {conn conn' : Conn}

/-! ### What a session is made of -/

theorem renumber_congr {r r' : ℕ → ℕ} {pc : ConnPc} (h : ∀ k, pc.IsFor k → r k = r' k) :
    pc.renumber r = pc.renumber r' := by
  cases pc with
  | answered k => exact congrArg ConnPc.answered (h k (Or.inl rfl))
  | handedOver k => exact congrArg ConnPc.handedOver (h k (Or.inr rfl))
  | _ => rfl

theorem renumber_renumber (r r' : ℕ → ℕ) (pc : ConnPc) :
    (pc.renumber r).renumber r' = pc.renumber (r' ∘ r) := by
  cases pc <;> rfl

theorem isClosed_renumber (r : ℕ → ℕ) (pc : ConnPc) : (pc.renumber r).isClosed = pc.isClosed := by
  cases pc <;> rfl

theorem session_conn (hc : s.conns[c]? = some conn) :
    (s.session c).conn = some (s.own c conn) := by
  rw [session, hc, Option.map_some]

theorem session_association (hc : s.conns[c]? = some conn) : (s.session c).association =
    conn.pc.association.bind (s.associations[·]?) := by
  rw [session, hc, Option.bind_some]

theorem session_eq {d : ℕ} (hu : u.conns[d]? = some conn') (hs : s.conns[c]? = some conn)
    (haddr : conn'.addr = conn.addr) (hpermit : conn'.permit = conn.permit)
    (hpc : conn'.pc.renumber (u.tunnelPlace d) = conn.pc.renumber (s.tunnelPlace c))
    (ht : (u.session d).tunnels = (s.session c).tunnels)
    (ha : conn'.pc.association.bind (u.associations[·]?) =
      conn.pc.association.bind (s.associations[·]?)) : u.session d = s.session c := by
  refine Session.ext ?_ ht ?_
  · rw [session_conn hu, session_conn hs, own, own, haddr, hpermit, hpc]
  · rw [session_association hu, session_association hs, ha]

theorem tunnels_spawnTunnel (s : Server) (c : ℕ) (addr : SocketAddr) (req : HttpRequest) :
    ((s.spawnTunnel c addr req).session c).tunnels =
      (s.session c).tunnels ++ [⟨0, addr, req, .upgrade⟩] := by
  have hown : decide ((⟨c, addr, req, .upgrade⟩ : Tunnel).conn = c) = true := decide_eq_true rfl
  exact @map_filter_concat _ s.tunnels _ (fun t => decide (t.conn = c)) _ hown _

theorem tunnels_setTunnel {k : ℕ} {t : Tunnel} (ht : s.tunnels[k]? = some t) (htc : t.conn = c)
    (pc : TunnelPc) : ((s.setTunnel k t pc).session c).tunnels =
      (s.session c).tunnels.set (s.tunnelPlace c k) { t with conn := 0, pc } := by
  have hset := @filter_set_place _ s.tunnels k { t with pc } t
    (fun t => decide (t.conn = c)) ht (decide_eq_true htc) (decide_eq_true htc)
  simp only [session, setTunnel, hset, List.map_set]
  rfl

theorem tunnelPlace_setTunnel {k : ℕ} {t : Tunnel} (ht : s.tunnels[k]? = some t) (pc : TunnelPc) :
    (s.setTunnel k t pc).tunnelPlace c = s.tunnelPlace c :=
  funext fun _ => place_set ht rfl

/-! ### The session by itself -/

section Alone

variable (config s c)

abbrev alone : Server := (s.session c).server config

variable {s c}

theorem alone_conn (hc : s.conns[c]? = some conn) :
    (s.alone config c).conns[0]? = some (s.own c conn) := by
  show (s.session c).conn.toList[0]? = _
  rw [session_conn hc]
  rfl

theorem alone_associations (hc : s.conns[c]? = some conn) : (s.alone config c).associations =
    (conn.pc.association.bind (s.associations[·]?)).toList := by
  show (s.session c).association.toList = _
  rw [session_association hc]

theorem alone_association (hc : s.conns[c]? = some conn) :
    (s.own c conn).pc.association.bind ((s.alone config c).associations[·]?) =
      conn.pc.association.bind (s.associations[·]?) := by
  rw [alone_associations config hc, own]
  cases conn.pc with
  | relaying request a k =>
    show ((s.associations[a]?).toList)[0]? = s.associations[a]?
    cases s.associations[a]? <;> rfl
  | _ => rfl

theorem alone_tunnel_conn : ∀ t ∈ (s.alone config c).tunnels, decide (t.conn = 0) = true := by
  intro t ht
  obtain ⟨t', -, rfl⟩ := List.mem_map.mp ht
  rfl

theorem alone_tunnels : ((s.alone config c).session 0).tunnels = (s.session c).tunnels := by
  show ((s.alone config c).tunnels.filter _).map _ = (s.alone config c).tunnels
  rw [List.filter_eq_self.mpr (alone_tunnel_conn config)]
  conv_rhs => rw [← List.map_id (s.alone config c).tunnels]
  refine List.map_congr_left fun t ht => ?_
  obtain ⟨t', -, rfl⟩ := List.mem_map.mp ht
  rfl

theorem alone_tunnelPlace {k : ℕ} (h : k ≤ (s.alone config c).tunnels.length) :
    (s.alone config c).tunnelPlace 0 k = k :=
  place_of_all (alone_tunnel_conn config) h

theorem length_alone_tunnels : (s.alone config c).tunnels.length =
    s.tunnelPlace c s.tunnels.length := by
  rw [tunnelPlace, place_length]
  exact List.length_map _

theorem alone_getElem?_tunnels {k : ℕ} {t : Tunnel} (ht : s.tunnels[k]? = some t)
    (hc : t.conn = c) :
    (s.alone config c).tunnels[s.tunnelPlace c k]? = some { t with conn := 0 } := by
  show ((s.tunnels.filter _).map _)[_]? = _
  rw [List.getElem?_map, tunnelPlace, getElem?_place ht (decide_eq_true hc)]
  rfl

end Alone

/-! ### What is done for the connection -/

section Own

theorem session_setConn (config : AppConfig) (hc : s.conns[c]? = some conn) {pc : ConnPc}
    (hpc : ∀ r, pc.renumber r = pc) (ha : pc.association = none) :
    ((s.alone config c).setConn 0 (s.own c conn) pc).session 0 =
      (s.setConn c conn pc).session c := by
  refine session_eq (getElem?_set_of_some (alone_conn config hc)) (getElem?_set_of_some hc) rfl
    rfl ?_ (alone_tunnels config) ?_
  · exact (hpc _).trans (hpc _).symm
  · show pc.association.bind _ = pc.association.bind _
    rw [ha, Option.bind_none, Option.bind_none]

theorem session_close (hc : s.conns[c]? = some conn) :
    ((s.alone config c).close 0 (s.own c conn)).session 0 = (s.close c conn).session c :=
  session_eq (getElem?_set_of_some (alone_conn config hc)) (getElem?_set_of_some hc) rfl rfl rfl
    (alone_tunnels config) rfl

/-- A CONNECT: the new tunnel is the last of all and the last of the connection. -/
theorem session_connect (hc : s.conns[c]? = some conn) (req : HttpRequest) :
    ((((s.alone config c).logRequest conn.addr (.http req)).spawnTunnel 0 conn.addr req).setConn 0
      (s.own c conn) (.answered (s.alone config c).tunnels.length)).session 0 =
    (((s.logRequest conn.addr (.http req)).spawnTunnel c conn.addr req).setConn c conn
      (.answered s.tunnels.length)).session c := by
  refine session_eq (getElem?_set_of_some (alone_conn config hc)) (getElem?_set_of_some hc) rfl
    rfl ?_ ?_ rfl
  · have hu : place (fun t : Tunnel => decide (t.conn = 0))
        ((s.alone config c).tunnels ++ [⟨0, conn.addr, req, .upgrade⟩])
        (s.alone config c).tunnels.length = (s.alone config c).tunnels.length := by
      rw [place_append (Nat.le_refl _)]
      exact alone_tunnelPlace config (Nat.le_refl _)
    have hs : place (fun t : Tunnel => decide (t.conn = c))
        (s.tunnels ++ [⟨c, conn.addr, req, .upgrade⟩]) s.tunnels.length =
        (s.alone config c).tunnels.length := by
      rw [place_append (Nat.le_refl _), length_alone_tunnels]
      rfl
    exact congrArg ConnPc.answered (hu.trans hs.symm)
  · have hu := tunnels_spawnTunnel (s.alone config c) 0 conn.addr req
    rw [alone_tunnels, ← tunnels_spawnTunnel] at hu
    exact hu

theorem session_setTunnel {k : ℕ} {t : Tunnel} (ht : s.tunnels[k]? = some t) (htc : t.conn = c)
    (pc : TunnelPc) :
    (((s.alone config c).setTunnel (s.tunnelPlace c k) { t with conn := 0 } pc).session 0).tunnels =
      ((s.setTunnel k t pc).session c).tunnels := by
  have hu := alone_getElem?_tunnels config ht htc
  have hlen := Nat.le_of_lt (List.getElem?_eq_some_iff.mp hu).1
  rw [tunnels_setTunnel hu rfl, tunnels_setTunnel ht htc, alone_tunnels,
    alone_tunnelPlace config hlen]

theorem alone_tunnelPlace_setTunnel {k : ℕ} {t : Tunnel} (ht : s.tunnels[k]? = some t)
    (htc : t.conn = c) (pc : TunnelPc) {j : ℕ} (hj : j ≤ s.tunnels.length) :
    ((s.alone config c).setTunnel (s.tunnelPlace c k) { t with conn := 0 } pc).tunnelPlace 0
      (s.tunnelPlace c j) = (s.setTunnel k t pc).tunnelPlace c j := by
  rw [tunnelPlace_setTunnel (alone_getElem?_tunnels config ht htc), tunnelPlace_setTunnel ht]
  refine alone_tunnelPlace config ?_
  rw [length_alone_tunnels]
  exact List.Sublist.countP_le ((List.take_sublist_take_left hj))

theorem own_pc {pc : ConnPc} (hpc : conn.pc = pc) :
    (s.own c conn).pc = pc.renumber (s.tunnelPlace c) := by
  rw [own, hpc]

theorem stepConn_request (hc : s.conns[c]? = some conn) {req : HttpRequest}
    (hreq : req.wellFormed = true) :
    ((s.alone config c).stepConn std 0 (s.own c conn) .http (.request req hreq)).map
        (session 0) =
      (s.stepConn std c conn .http (.request req hreq)).map (session c) := by
  simp only [stepConn]
  by_cases hm : req.method = "CONNECT"
  · rw [if_pos hm, if_pos hm]
    exact congrArg some (session_connect hc req)
  · rw [if_neg hm, if_neg hm]
    exact congrArg some (session_setConn config hc (fun _ => rfl) rfl)

theorem stepConn_peeked (hc : s.conns[c]? = some conn) (r : Except IoError (List UInt8)) :
    ((s.alone config c).stepConn std 0 (s.own c conn) .peek (.peeked r)).map (session 0) =
      (s.stepConn std c conn .peek (.peeked r)).map (session c) := by
  cases r with
  | error e => exact congrArg some (session_close hc)
  | ok bytes =>
    cases bytes with
    | nil => exact congrArg some (session_close hc)
    | cons b bs =>
      simp only [stepConn]
      cases detectProtocol ((b :: bs ++ List.replicate 8 0).take 8) with
      | http => exact congrArg some (session_setConn config hc (fun _ => rfl) rfl)
      | socks5 => exact congrArg some (session_setConn config hc (fun _ => rfl) rfl)
      | unknown => exact congrArg some (session_close hc)

theorem stepConn_answered (acc : Accounted config s) (hc : s.conns[c]? = some conn) {k : ℕ}
    (hpc : conn.pc = .answered k) :
    ((s.alone config c).stepConn std 0 (s.own c conn) (.answered (s.tunnelPlace c k)) .go).map
        (session 0) =
      (s.stepConn std c conn (.answered k) .go).map (session c) := by
  obtain ⟨t, ht, htc⟩ := acc.place c k conn hc (Or.inl hpc)
  have hk : k ≤ s.tunnels.length := Nat.le_of_lt (List.getElem?_eq_some_iff.mp ht).1
  simp only [stepConn, ht, alone_getElem?_tunnels config ht htc, Option.map_some]
  refine congrArg some (session_eq (getElem?_set_of_some (alone_conn config hc))
    (getElem?_set_of_some hc) rfl rfl ?_ ?_ rfl)
  · exact congrArg ConnPc.handedOver (alone_tunnelPlace_setTunnel ht htc _ hk)
  · exact session_setTunnel ht htc _

theorem stepConn_dispatched (hc : s.conns[c]? = some conn) (request : SocksRequest) :
    ((s.alone config c).stepConn std 0 (s.own c conn) (.accepting (ret request)) .go).map
        (session 0) =
      (s.stepConn std c conn (.accepting (ret request)) .go).map (session c) := by
  simp only [stepConn]
  cases request.command with
  | connect => exact congrArg some (session_setConn config hc (fun _ => rfl) rfl)
  | bind => exact congrArg some (session_setConn config hc (fun _ => rfl) rfl)
  | udpAssociate => exact congrArg some (session_setConn config hc (fun _ => rfl) rfl)

theorem session_associate (hc : s.conns[c]? = some conn)
    (request : SocksRequest) (k : Except ProxyError Unit → Sys Unit) :
    (((s.alone config c).associate conn.addr).setConn 0 (s.own c conn)
      (.relaying request (s.alone config c).associations.length k)).session 0 =
    ((s.associate conn.addr).setConn c conn
      (.relaying request s.associations.length k)).session c := by
  refine session_eq (getElem?_set_of_some (alone_conn config hc)) (getElem?_set_of_some hc) rfl
    rfl rfl (alone_tunnels config) ?_
  show ((s.alone config c).associations ++ [(⟨conn.addr, Relay.init⟩ : Association)])[
      (s.alone config c).associations.length]? =
    (s.associations ++ [(⟨conn.addr, Relay.init⟩ : Association)])[s.associations.length]?
  rw [List.getElem?_concat_length, List.getElem?_concat_length]

theorem stepConn_serving (hc : s.conns[c]? = some conn) (request : SocksRequest) (p : Sys Unit)
    (e : ConnEvent) :
    ((s.alone config c).stepConn std 0 (s.own c conn) (.serving request p) e).map (session 0) =
      (s.stepConn std c conn (.serving request p) e).map (session c) := by
  cases p with
  | ret u =>
    cases e with
    | go => exact congrArg some (session_close hc)
    | _ => rfl
  | fail err =>
    cases e with
    | go => exact congrArg some (session_close hc)
    | _ => rfl
  | call o k =>
    cases e with
    | go =>
      rcases o with o | o
      · rfl
      · cases o with
        | relayLoop => exact congrArg some (session_associate hc request k)
        | _ => rfl
    | answer f =>
      simp only [stepConn]
      by_cases ho : isRelayLoop o = true
      · rw [if_pos ho, if_pos ho]
        rfl
      · rw [if_neg ho, if_neg ho]
        exact congrArg some (session_setConn config hc (fun _ => rfl) rfl)
    | _ => rcases o with o | o <;> cases o <;> rfl

theorem stepConn_relaying (hc : s.conns[c]? = some conn) {request : SocksRequest} {a : ℕ}
    {k : Except ProxyError Unit → Sys Unit} (hpc : conn.pc = .relaying request a k) :
    ((s.alone config c).stepConn std 0 (s.own c conn) (.relaying request 0 k) .go).map (session 0) =
      (s.stepConn std c conn (.relaying request a k) .go).map (session c) := by
  have hlist : (s.alone config c).associations = (s.associations[a]?).toList := by
    rw [alone_associations config hc, hpc]
    rfl
  simp only [stepConn, hlist]
  cases s.associations[a]? with
  | none => rfl
  | some assoc =>
    simp only [Option.toList_some, List.getElem?_cons_zero]
    by_cases hrun : assoc.relay.running = true
    · rw [if_pos hrun, if_pos hrun]
      rfl
    · rw [if_neg hrun, if_neg hrun]
      exact congrArg some (session_setConn config hc (fun _ => rfl) rfl)

/-- **The task of the connection** moves as in the session by itself. -/
theorem stepConn_alone (acc : Accounted config s) (hc : s.conns[c]? = some conn) (e : ConnEvent) :
    ((s.alone config c).stepConn std 0 (s.own c conn) (s.own c conn).pc e).map (session 0) =
      (s.stepConn std c conn conn.pc e).map (session c) := by
  cases hpc : conn.pc with
  | tlsAccept =>
    rw [own_pc hpc]
    cases e with
    | tls ok =>
      cases ok with
      | true => exact congrArg some (session_setConn config hc (fun _ => rfl) rfl)
      | false => exact congrArg some (session_close hc)
    | _ => rfl
  | peek =>
    rw [own_pc hpc]
    cases e with
    | peeked r => exact stepConn_peeked hc r
    | _ => rfl
  | http =>
    rw [own_pc hpc]
    cases e with
    | request req hreq => exact stepConn_request hc hreq
    | hangup => exact congrArg some (session_close hc)
    | _ => rfl
  | exchange req p =>
    rw [own_pc hpc]
    cases e with
    | hangup => cases p <;> exact congrArg some (session_close hc)
    | answer f =>
      cases p with
      | call o k => exact congrArg some (session_setConn config hc (fun _ => rfl) rfl)
      | _ => rfl
    | go =>
      cases p with
      | ret resp => exact congrArg some (session_setConn config hc (fun _ => rfl) rfl)
      | fail e => exact congrArg some (session_close hc)
      | call o k => rfl
    | _ => cases p <;> rfl
  | answered k =>
    rw [own_pc hpc]
    cases e with
    | go => exact stepConn_answered acc hc hpc
    | hangup => exact congrArg some (session_close hc)
    | _ => rfl
  | handedOver k =>
    rw [own_pc hpc]
    cases e with
    | go => exact congrArg some (session_close hc)
    | _ => rfl
  | accepting p =>
    rw [own_pc hpc]
    cases e with
    | go =>
      cases p with
      | ret request => exact stepConn_dispatched hc request
      | fail e => exact congrArg some (session_close hc)
      | call o k => rfl
    | answer f =>
      cases p with
      | call o k => exact congrArg some (session_setConn config hc (fun _ => rfl) rfl)
      | _ => rfl
    | _ => cases p <;> rfl
  | serving request p =>
    rw [own_pc hpc]
    exact stepConn_serving hc request p e
  | relaying request a k =>
    rw [own_pc hpc]
    cases e with
    | go => exact stepConn_relaying hc hpc
    | _ => rfl
  | closed =>
    rw [own_pc hpc]
    cases e <;> rfl

/-- **A tunnel of the connection** moves as in the session by itself. -/
theorem stepTunnel_alone (hc : s.conns[c]? = some conn) {k : ℕ} {t : Tunnel}
    (ht : s.tunnels[k]? = some t) (htc : t.conn = c)
    (hfor : ∀ j, conn.pc.IsFor j → j ≤ s.tunnels.length) (e : TunnelEvent) :
    ((s.alone config c).stepTunnel (s.tunnelPlace c k) { t with conn := 0 } t.pc e).map
        (session 0) = (s.stepTunnel k t t.pc e).map (session c) := by
  have hmoved : ∀ pc, ((s.alone config c).setTunnel (s.tunnelPlace c k) { t with conn := 0 }
      pc).session 0 = (s.setTunnel k t pc).session c := by
    intro pc
    refine session_eq (alone_conn config hc) hc rfl rfl ?_ (session_setTunnel ht htc pc)
      (alone_association config hc)
    rw [own, renumber_renumber]
    exact renumber_congr fun j hj => alone_tunnelPlace_setTunnel ht htc pc (hfor j hj)
  cases hpc : t.pc with
  | upgrade =>
    cases e with
    | upgradeFailed =>
      have hclosed : (s.own c conn).pc.isClosed = conn.pc.isClosed := isClosed_renumber _ _
      simp only [stepTunnel, htc, hc, alone_conn config hc, Option.any_some, hclosed]
      cases conn.pc.isClosed with
      | true => exact congrArg some (hmoved _)
      | false => rfl
    | answer f => rfl
  | running p =>
    cases p with
    | call o next =>
      cases e with
      | answer f => exact congrArg some (hmoved _)
      | upgradeFailed => rfl
    | ret u => cases e <;> rfl
    | fail err => cases e <;> rfl
  | failed => cases e <;> rfl

/-- **The association of the connection** moves as in the session by itself. -/
theorem stepUdp_alone (hc : s.conns[c]? = some conn) {a : ℕ}
    (hassoc : conn.pc.association = some a) {assoc : Association}
    (ha : s.associations[a]? = some assoc) (act : Relay.Action) :
    ((s.alone config c).stepUdp 0 assoc act).map (session 0) =
      (s.stepUdp a assoc act).map (session c) := by
  obtain ⟨request, k, hpc⟩ : ∃ request k, conn.pc = .relaying request a k := by
    cases hpc : conn.pc with
    | relaying request a' k =>
      rw [hpc] at hassoc
      cases hassoc
      exact ⟨request, k, rfl⟩
    | _ => rw [hpc] at hassoc; cases hassoc
  have hlist : (s.alone config c).associations = [assoc] := by
    rw [alone_associations config hc, hassoc, Option.bind_some, ha]
    rfl
  rw [stepUdp, stepUdp]
  cases assoc.relay.step act with
  | none => rfl
  | some relay =>
    refine congrArg some (session_eq (alone_conn config hc) hc rfl rfl ?_ (alone_tunnels config) ?_)
    · rw [own_pc hpc, hpc]
      rfl
    · rw [own_pc hpc, hpc]
      show ((s.alone config c).associations.set 0 _)[0]? = (s.associations.set a _)[a]?
      rw [hlist, getElem?_set_of_some ha]
      rfl

end Own

/-! ### What is done for the others -/

section Others

theorem session_unseen (hc : s.conns[c]? = some conn) (hu : u.conns[c]? = some conn)
    (ht : (u.session c).tunnels = (s.session c).tunnels)
    (hplace : ∀ k, conn.pc.IsFor k → u.tunnelPlace c k = s.tunnelPlace c k)
    (ha : ∀ a, conn.pc.association = some a → u.associations[a]? = s.associations[a]?) :
    u.session c = s.session c := by
  refine session_eq hu hc rfl rfl (renumber_congr hplace) ht ?_
  cases hassoc : conn.pc.association with
  | none => rfl
  | some a => exact ha a hassoc

theorem session_setConn_of_ne (hc : s.conns[c]? = some conn) {c' : ℕ} (hne : c' ≠ c)
    {conn' : Conn} {pc : ConnPc} : (s.setConn c' conn' pc).session c = s.session c :=
  session_unseen hc ((List.getElem?_set_ne hne).trans hc) rfl (fun _ _ => rfl) fun _ _ => rfl

theorem session_close_of_ne (hc : s.conns[c]? = some conn) {c' : ℕ} (hne : c' ≠ c)
    {conn' : Conn} : (s.close c' conn').session c = s.session c :=
  session_unseen hc ((List.getElem?_set_ne hne).trans hc) rfl (fun _ _ => rfl) fun _ _ => rfl

theorem session_setTunnel_of_ne (hc : s.conns[c]? = some conn) {k : ℕ} {t : Tunnel}
    (ht : s.tunnels[k]? = some t) (hne : t.conn ≠ c) (pc : TunnelPc) :
    (s.setTunnel k t pc).session c = s.session c := by
  have hset := @filter_set_of_not _ s.tunnels k { t with pc } t
    (fun t => decide (t.conn = c)) ht (by simpa using hne) (by simpa using hne)
  refine session_unseen hc hc ?_ (fun j _ => ?_) fun _ _ => rfl
  · simp only [session, setTunnel, hset]
  · rw [tunnelPlace_setTunnel ht]

theorem session_spawnTunnel_of_ne (acc : Accounted config s) (hc : s.conns[c]? = some conn)
    {c' : ℕ} (hne : c' ≠ c) (addr : SocketAddr) (req : HttpRequest) :
    (s.spawnTunnel c' addr req).session c = s.session c := by
  have hnot : ¬ decide ((⟨c', addr, req, .upgrade⟩ : Tunnel).conn = c) = true := by simpa using hne
  refine session_unseen hc hc ?_ (fun k hk => ?_) fun _ _ => rfl
  · exact @map_filter_concat_of_not _ s.tunnels _ (fun t => decide (t.conn = c)) _ hnot _
  · obtain ⟨t, ht, -⟩ := acc.place c k conn hc hk
    exact place_append (Nat.le_of_lt (List.getElem?_eq_some_iff.mp ht).1) _

theorem session_associate_other (hassoc : Associated s) (hc : s.conns[c]? = some conn)
    (addr : SocketAddr) : (s.associate addr).session c = s.session c := by
  refine session_unseen hc hc rfl (fun _ _ => rfl) fun a ha => ?_
  cases hpc : conn.pc with
  | relaying request a' k =>
    rw [hpc] at ha
    cases ha
    exact List.getElem?_append_left (hassoc conn (List.mem_of_getElem? hc) request a k hpc)
  | _ => rw [hpc] at ha; cases ha

/-- **What the others do is not seen.** -/
theorem session_of_unseen (h : Sound config s) (hc : s.conns[c]? = some conn) {a : Action}
    (hn : s.seenAs c a = none) (hs : s.step std config a = some s') :
    s'.session c = s.session c := by
  have hconn : ∀ {c' : ℕ} {e : ConnEvent}, s.seenAs c (.conn c' e) = none → c' ≠ c := by
    rintro c' e hn rfl
    cases (if_pos rfl).symm.trans hn
  have htunnel : ∀ {k : ℕ} {t : Tunnel} {e : TunnelEvent}, s.tunnels[k]? = some t →
      s.seenAs c (.tunnel k e) = none → t.conn ≠ c := by
    rintro k t e ht hn rfl
    rw [seenAs, ht, Option.bind_some, if_pos rfl] at hn
    cases hn
  cases stepped hs with
  | ctrlC | joined | ended | reloaded | notReloaded | entered | accepted | acceptFailed
  | notified => rfl
  | admitted hl hpc ha =>
    have hlt := (List.getElem?_eq_some_iff.mp hc).1
    refine session_unseen hc ?_ rfl (fun _ _ => rfl) fun _ _ => rfl
    exact (List.getElem?_append_left hlt).trans hc
  | tlsAccepted | detectedHttp | detectedSocks5 | forwarded | exchanged | responded | accepting
  | dispatchedConnect | dispatched | served | relayed =>
    exact session_setConn_of_ne hc (hconn hn)
  | closed => exact session_close_of_ne hc (hconn hn)
  | @connectAnswered c' conn' req hreq hc' hpc hm =>
    let u := (s.logRequest conn'.addr (.http req)).spawnTunnel c' conn'.addr req
    have hrest : u.session c = s.session c :=
      session_spawnTunnel_of_ne h.accounted hc (hconn hn) _ _
    exact (@session_setConn_of_ne u c conn hc _ (hconn hn) _ _).trans hrest
  | @handedOver c' k conn' t hc' hpc ht =>
    obtain ⟨t', ht', htc⟩ := h.accounted.place c' k conn' hc' (Or.inl hpc)
    obtain rfl := Option.some.inj (ht.symm.trans ht')
    let u := s.setTunnel k t (.running (HttpHandler.tunnel (HttpHandler.connectTarget t.req)))
    have hne : t.conn ≠ c := by
      rw [htc]
      exact hconn hn
    have hrest : u.session c = s.session c := session_setTunnel_of_ne hc ht hne _
    exact (@session_setConn_of_ne u c conn hc _ (hconn hn) _ _).trans hrest
  | @associated c' conn' request k hc' hpc =>
    have hrest : (s.associate conn'.addr).session c = s.session c :=
      session_associate_other h.associated hc _
    exact (@session_setConn_of_ne (s.associate conn'.addr) c conn hc _ (hconn hn) _ _).trans hrest
  | upgradeFailed ht hpc => exact session_setTunnel_of_ne hc ht (htunnel ht hn) _
  | tunnelled ht hpc => exact session_setTunnel_of_ne hc ht (htunnel ht hn) _
  | @udp a assoc act relay ha hr =>
    refine session_unseen hc hc rfl (fun _ _ => rfl) fun a' ha' => ?_
    refine List.getElem?_set_ne ?_
    rintro rfl
    rw [seenAs, hc, Option.bind_some, if_pos ha'] at hn
    cases hn

end Others

/-! ### Runs -/

theorem runPc_of_seen {a b : Action} (hseen : s.seenAs c a = some b)
    (hs : s.step std config a = some s') : s'.runPc = s.runPc := by
  cases stepped hs with
  | ctrlC | joined | ended | reloaded | notReloaded | entered | accepted | acceptFailed
  | notified | admitted => cases hseen
  | _ => rfl

theorem stepLive_of_seen (hrun : s.runPc ≠ .ended) {a b : Action} (hseen : s.seenAs c a = some b) :
    s.stepLive std config a = s.step std config a := by
  rw [stepLive]
  cases hs : s.step std config a with
  | none => rfl
  | some s' =>
    have hlive : s'.runPc ≠ .ended := by
      rw [runPc_of_seen hseen hs]
      exact hrun
    exact if_pos (decide_eq_true hlive)

theorem step_of_live {a : Action} (h : s.stepLive std config a = some s') :
    s.step std config a = some s' ∧ s'.runPc ≠ .ended := by
  obtain ⟨hs, hlive⟩ := Option.filter_eq_some_iff.mp h
  exact ⟨hs, of_decide_eq_true hlive⟩

/-- **What is done for the connection** is a step of its session. -/
theorem step_session (h : Sound config s) (hrun : s.runPc ≠ .ended) (hc : s.conns[c]? = some conn)
    {a b : Action} (hseen : s.seenAs c a = some b) :
    stepSession std config (s.session c) b = (s.stepLive std config a).map (session c) := by
  have halone : (s.alone config c).runPc ≠ .ended := nofun
  rw [stepLive_of_seen hrun hseen, stepSession]
  cases a with
  | run e => cases hseen
  | loop i e => cases hseen
  | conn c' e =>
    obtain ⟨rfl, hb⟩ := Option.ite_none_right_eq_some.mp hseen
    obtain rfl := Option.some.inj hb
    rw [step_conn halone (alone_conn config hc), step_conn hrun hc]
    exact stepConn_alone h.accounted hc e
  | tunnel k e =>
    obtain ⟨t, ht, hif⟩ := Option.bind_eq_some_iff.mp hseen
    obtain ⟨htc, hb⟩ := Option.ite_none_right_eq_some.mp hif
    obtain rfl := Option.some.inj hb
    rw [step, if_neg halone, step, if_neg hrun]
    simp only [ht, alone_getElem?_tunnels config ht htc, Option.bind_some]
    refine stepTunnel_alone hc ht htc (fun j hj => ?_) e
    obtain ⟨t', ht', -⟩ := h.accounted.place c j conn hc hj
    exact Nat.le_of_lt (List.getElem?_eq_some_iff.mp ht').1
  | udp a act =>
    obtain ⟨hassoc, hb⟩ := Option.ite_none_right_eq_some.mp hseen
    obtain rfl := Option.some.inj hb
    rw [hc, Option.bind_some] at hassoc
    rw [step, if_neg halone, step, if_neg hrun]
    simp only [alone_associations config hc, hassoc, Option.bind_some]
    cases ha : s.associations[a]? with
    | none => rfl
    | some assoc => exact stepUdp_alone hc hassoc ha act

theorem covers_session (hc : s.conns[c]? = some conn) {b : Action} (hb : b.OfSession) {x : Session}
    (hx : stepSession std config (s.session c) b = some x) : ∃ a, s.seenAs c a = some b := by
  obtain ⟨u, hu, rfl⟩ := Option.map_eq_some_iff.mp hx
  have halone : (s.alone config c).runPc ≠ .ended := nofun
  unfold step at hu
  rw [if_neg halone] at hu
  cases b with
  | run e => cases hb
  | loop i e => cases hb
  | conn c' e =>
    obtain rfl : c' = 0 := hb
    exact ⟨.conn c e, if_pos rfl⟩
  | tunnel j e =>
    obtain ⟨t, ht, -⟩ := Option.bind_eq_some_iff.mp hu
    change ((s.tunnels.filter _).map _)[j]? = some t at ht
    rw [List.getElem?_map] at ht
    obtain ⟨t', ht', rfl⟩ := Option.map_eq_some_iff.mp ht
    obtain ⟨k, hk, hkc, hplace⟩ := exists_place ht'
    refine ⟨.tunnel k e, ?_⟩
    rw [seenAs, hk, Option.bind_some, if_pos (of_decide_eq_true hkc)]
    exact congrArg (fun j => some (Action.tunnel j e)) hplace
  | udp a act =>
    obtain rfl : a = 0 := hb
    obtain ⟨assoc, hassoc, -⟩ := Option.bind_eq_some_iff.mp hu
    rw [alone_associations config hc] at hassoc
    cases ha : conn.pc.association with
    | none =>
      rw [ha] at hassoc
      cases hassoc
    | some a =>
      refine ⟨.udp a act, ?_⟩
      rw [seenAs, hc, Option.bind_some, if_pos ha]

theorem ofSession_of_seen {a b : Action} (h : s.seenAs c a = some b) : b.OfSession := by
  cases a with
  | run e => cases h
  | loop i e => cases h
  | conn c' e =>
    obtain ⟨-, hb⟩ := Option.ite_none_right_eq_some.mp h
    obtain rfl := Option.some.inj hb
    rfl
  | tunnel k e =>
    obtain ⟨t, -, hif⟩ := Option.bind_eq_some_iff.mp h
    obtain ⟨-, hb⟩ := Option.ite_none_right_eq_some.mp hif
    obtain rfl := Option.some.inj hb
    trivial
  | udp a act =>
    obtain ⟨-, hb⟩ := Option.ite_none_right_eq_some.mp h
    obtain rfl := Option.some.inj hb
    rfl

theorem length_conns_le {a : Action} (hs : s.step std config a = some s') :
    s.conns.length ≤ s'.conns.length := by
  cases stepped hs with
  | ctrlC | joined | ended | reloaded | notReloaded | entered | accepted | acceptFailed
  | notified | upgradeFailed | tunnelled | udp => exact Nat.le_refl _
  | admitted hl hpc ha =>
    show _ ≤ (s.conns ++ [_]).length
    rw [List.length_append]
    exact Nat.le_add_right _ _
  | _ => exact (List.length_set).ge

/-- What holds of a server that has a connection `c`. -/
structure Knows (config : AppConfig) (c : ℕ) (s : Server) : Prop where
  sound : Sound config s
  running : s.runPc ≠ .ended
  known : c < s.conns.length

/-- **A session is a system of its own.** -/
theorem shows_session (c : ℕ) : Runs.Shows (stepLive std config) (stepSession std config)
    (Knows config c) (session c) (seenAs c) Action.OfSession where
  keeps := by
    intro s a s' h hs
    obtain ⟨hs, hrun⟩ := step_of_live hs
    exact ⟨h.sound.step hs, hrun, Nat.lt_of_lt_of_le h.known (length_conns_le hs)⟩
  seen := fun s a b h hl =>
    step_session h.sound h.running (List.getElem?_eq_getElem h.known) hl
  unseen := fun s a s' h hl hs =>
    session_of_unseen h.sound (List.getElem?_eq_getElem h.known) hl (step_of_live hs).1
  own := fun s a b hl => ofSession_of_seen hl
  covers := fun s b x h hb hx => covers_session (List.getElem?_eq_getElem h.known) hb hx

theorem running_of_run {as : List Action} (hr : Runs.run (step std config) s as = some u)
    (hu : u.runPc ≠ .ended) : s.runPc ≠ .ended := by
  cases as with
  | nil =>
    cases hr
    exact hu
  | cons a as =>
    intro hrun
    obtain ⟨s', hs', -⟩ := Runs.run_cons_some hr
    unfold step at hs'
    rw [if_pos hrun] at hs'
    cases hs'

/-- **A run that `run` does not end** has only live steps. -/
theorem run_live_iff {as : List Action} (hrun : s.runPc ≠ .ended) :
    Runs.run (stepLive std config) s as = some u ↔
      Runs.run (step std config) s as = some u ∧ u.runPc ≠ .ended := by
  induction as generalizing s with
  | nil =>
    refine ⟨fun h => ⟨h, ?_⟩, fun h => h.1⟩
    cases h
    exact hrun
  | cons a as ih =>
    constructor
    · intro h
      obtain ⟨s', hs', hr⟩ := Runs.run_cons_some h
      obtain ⟨hs', hlive⟩ := step_of_live hs'
      obtain ⟨hr, hu⟩ := (ih hlive).mp hr
      refine ⟨?_, hu⟩
      rw [Runs.run_cons, hs']
      exact hr
    · rintro ⟨h, hu⟩
      obtain ⟨s', hs', hr⟩ := Runs.run_cons_some h
      have hlive := running_of_run hr hu
      have hstep : s.stepLive std config a = some s' :=
        Option.filter_eq_some_iff.mpr ⟨hs', decide_eq_true hlive⟩
      rw [Runs.run_cons, hstep]
      exact (ih hlive).mpr ⟨hr, hu⟩

theorem labels_live {as : List Action} (hr : Runs.run (stepLive std config) s as = some u) :
    Runs.labels (stepLive std config) (seenAs c) s as =
      Runs.labels (step std config) (seenAs c) s as := by
  induction as generalizing s with
  | nil => rfl
  | cons a as ih =>
    obtain ⟨s', hs', hr⟩ := Runs.run_cons_some hr
    rw [Runs.labels_cons hs', Runs.labels_cons (step_of_live hs').1, ih hr]

/-- **A connection is served as if it were the only one.**  Whatever the server
does for the other connections, what it does for `c` once `c` has been let in is
a run of a server that has nothing but `c`; and whatever that server could do
next, this one can do next for `c`, as long as `run` has not returned. -/
theorem connection_served_alone {as bs : List Action} {t : Server}
    (hs : Runs.run (step std config) (init config) as = some s) (hc : c < s.conns.length)
    (ht : Runs.run (step std config) s bs = some t) (hlive : t.runPc ≠ .ended) :
    (∀ b ∈ Runs.labels (step std config) (seenAs c) s bs, b.OfSession) ∧
    Runs.run (stepSession std config) (s.session c)
      (Runs.labels (step std config) (seenAs c) s bs) = some (t.session c) ∧
    ∀ es x, (∀ b ∈ es, b.OfSession) →
      Runs.run (stepSession std config) (t.session c) es = some x →
      ∃ bs' u, Runs.run (step std config) t bs' = some u ∧ u.runPc ≠ .ended ∧
        u.session c = x ∧ Runs.labels (step std config) (seenAs c) t bs' = es := by
  have hshows := @shows_session std config c
  have hrun := running_of_run ht hlive
  have hknows : Knows config c s := ⟨sound_of_reachable ⟨as, hs⟩, hrun, hc⟩
  have hbs := (run_live_iff hrun).mpr ⟨ht, hlive⟩
  have hown := hshows.labels_own hbs
  have hseen := hshows.run_seen hknows hbs
  rw [labels_live hbs] at hown hseen
  refine ⟨hown, hseen, fun es x hes hx => ?_⟩
  have hknows' : Knows config c t := Runs.run_invariant hshows.keeps hknows hbs
  obtain ⟨bs', u, hbs', hview, hlabels⟩ := hshows.run_shown hknows' hes hx
  obtain ⟨hu, hlive'⟩ := (run_live_iff hlive).mp hbs'
  refine ⟨bs', u, hu, hlive', hview, ?_⟩
  rw [← labels_live hbs', hlabels]

/-- The second connection asks for a tunnel while the first one uses its own. -/
def secondRun : List Action :=
  [.conn 1 (.peeked (.ok (utf8 "CONNECT "))),
    .conn 1 (.request connectReq connectReq_wellFormed), .conn 1 .go,
    .tunnel 0 (.answer (agreeable [])), .tunnel 1 (.answer (agreeable []))]

theorem leakRun_runs : (Runs.run (step .plain smallConfig) (init smallConfig) leakRun).isSome =
    true := rfl

def leakEnd : Server :=
  (Runs.run (step .plain smallConfig) (init smallConfig) leakRun).get leakRun_runs

theorem secondRun_runs : (Runs.run (step .plain smallConfig) leakEnd secondRun).isSome = true := rfl

def secondEnd : Server := (Runs.run (step .plain smallConfig) leakEnd secondRun).get secondRun_runs

/-- The tunnel 1 is the tunnel 0 of its own connection. -/
theorem connection_served_alone_second :
    Runs.labels (step .plain smallConfig) (seenAs 1) leakEnd secondRun =
      [.conn 0 (.peeked (.ok (utf8 "CONNECT "))),
        .conn 0 (.request connectReq connectReq_wellFormed), .conn 0 .go,
        .tunnel 0 (.answer (agreeable []))] ∧
    (∀ b ∈ Runs.labels (step .plain smallConfig) (seenAs 1) leakEnd secondRun, b.OfSession) ∧
    Runs.run (stepSession .plain smallConfig) (leakEnd.session 1)
      (Runs.labels (step .plain smallConfig) (seenAs 1) leakEnd secondRun) =
        some (secondEnd.session 1) ∧
    ∀ es x, (∀ b ∈ es, b.OfSession) →
      Runs.run (stepSession .plain smallConfig) (secondEnd.session 1) es = some x →
      ∃ bs' u, Runs.run (step .plain smallConfig) secondEnd bs' = some u ∧ u.runPc ≠ .ended ∧
        u.session 1 = x ∧ Runs.labels (step .plain smallConfig) (seenAs 1) secondEnd bs' = es :=
  ⟨rfl, connection_served_alone (Option.some_get leakRun_runs).symm (by decide)
    (Option.some_get secondRun_runs).symm nofun⟩

end Server

end Peregrine
