import Mathlib.Data.List.Sort
import DTun.Lib.OrderedMap
import DTun.Lib.Runs
import DTun.Protocol

/-!
# The master server

`Server` and the part of `Session` that decides what a message does. Session objects are
named by numbers whose order is the pointer order of `sessions_`; an address may be taken
again once nothing refers to the object. A session that has left `sessions_` lives on, and
its messages still arrive, as long as an entry of `conns_` refers to it.

A handler returns what it sends, in order, with the session each message goes to.
-/

namespace DTun.Master

open DTun.Lib DTun.Lib.Runs

inductive SessionType where
  | unknown
  | persistent
  | probe
  | fast
  | symm
  deriving DecidableEq, Repr

structure Session where
  type : SessionType := .unknown
  nodeId : Nat := 0
  symm : Bool := false
  peerIp : Nat := 0
  peerPort : Nat := 0
  deriving DecidableEq, Repr

/-- `serial` numbers the connections in the order they are created; the source has no
such field. -/
structure Conn where
  srcSess : Nat
  dstSess : Nat
  srcMode : RMode
  dstMode : RMode
  serial : Nat
  deriving DecidableEq, Repr

/-- Session `s` is an endpoint of the connection. -/
def Conn.has (c : Conn) (s : Nat) : Bool := c.srcSess == s || c.dstSess == s

structure Server where
  /-- The session objects. -/
  session : Nat → Session
  /-- `sessions_`, in pointer order. -/
  sessions : List Nat
  conns : OrderedMap ConnId Conn
  /-- How many connections have been created. -/
  created : Nat

abbrev Sends := List (Nat × DownMsg)

def Server.init : Server where
  session := fun _ => {}
  sessions := []
  conns := .empty
  created := 0

namespace Server

/-- The session object exists: `sessions_` or an entry of `conns_` holds a pointer to it. -/
def alive (st : Server) (s : Nat) : Bool :=
  decide (s ∈ st.sessions) || st.conns.any (fun _ c => c.has s)

def findPersistentSession (st : Server) (nodeId : Nat) : Option Nat :=
  st.sessions.find? (fun s =>
    (st.session s).nodeId = nodeId ∧ (st.session s).type = .persistent)

/-- What `removeSession` tells the other endpoint of an entry it erases. -/
def cancelSend (s : Nat) (entry : ConnId × Conn) : Sends :=
  if entry.2.srcSess = s then
    [(entry.2.dstSess, .connStatus entry.1 .errCanceled entry.2.dstMode 0)]
  else if entry.2.dstSess = s then
    [(entry.2.srcSess, .connStatus entry.1 .errCanceled entry.2.srcMode 0)]
  else []

/-- The connections of a session are closed only when the session is persistent. -/
def removeSession (st : Server) (s : Nat) : Server × Sends :=
  let sessions := st.sessions.filter (· ≠ s)
  if (st.session s).type = .persistent then
    ({ st with sessions := sessions, conns := st.conns.filter (fun _ c => !c.has s) },
      st.conns.entries.flatMap (cancelSend s))
  else ({ st with sessions := sessions }, [])

/-- A second persistent session of the same node replaces the first. -/
def onSessionStartPersistent (st : Server) (s : Nat) : Server × Sends :=
  match st.sessions.find? (fun other =>
      (st.session other).nodeId = (st.session s).nodeId ∧
        (st.session other).type = .persistent ∧ other ≠ s) with
  | some other => removeSession st other
  | none => (st, [])

/-- `onSessionHelloFast` and `onSessionHelloSymm`: tell the other endpoint where this
session comes from. -/
def relayHello (st : Server) (s : Nat) (connId : ConnId) (msg : ConnId → Nat → Nat → DownMsg) :
    Sends :=
  let sess := st.session s
  if sess.peerIp = 0 then []
  else
    match findPersistentSession st sess.nodeId with
    | none => []
    | some pSess =>
      match st.conns.find? connId with
      | none => []
      | some conn =>
        if pSess = conn.srcSess then [(conn.dstSess, msg connId sess.peerIp sess.peerPort)]
        else if pSess = conn.dstSess then [(conn.srcSess, msg connId sess.peerIp sess.peerPort)]
        else []

def onSessionHelloFast (st : Server) (s : Nat) (connId : ConnId) : Sends :=
  relayHello st s connId .fast

def onSessionHelloSymm (st : Server) (s : Nat) (connId : ConnId) : Sends :=
  relayHello st s connId .symm

/-- The modes of the two sides. -/
def modes (srcSymm dstSymm : Bool) : RMode × RMode :=
  if srcSymm || dstSymm then
    if srcSymm then (.symmConn, .symmAcc) else (.symmAcc, .symmConn)
  else (.fast, .fast)

def onSessionConnCreate (st : Server) (s : Nat) (connId : ConnId)
    (dstNodeId remoteIp remotePort : Nat) (bestEffort : Bool) : Server × Sends :=
  let sess := st.session s
  let refuse (status : Status) : Server × Sends := (st, [(s, .connStatus connId status .fast 0)])
  if sess.nodeId ≠ connId.nodeId then refuse .errUnknown
  else if dstNodeId = connId.nodeId then refuse .errUnknown
  else if sess.peerIp = 0 then refuse .errUnknown
  else if (st.conns.find? connId).isSome then refuse .errUnknown
  else
    match findPersistentSession st dstNodeId with
    | none => refuse .errNotfound
    | some d =>
      let dst := st.session d
      if dst.peerIp = 0 then refuse .errUnknown
      else if sess.symm && dst.symm then refuse .errSymm
      else
        let (srcMode, dstMode) := modes sess.symm dst.symm
        ({ st with
            conns := st.conns.insert connId ⟨s, d, srcMode, dstMode, st.created⟩
            created := st.created + 1 },
          [(s, .connStatus connId .pending srcMode dst.peerIp),
            (d, .conn connId remoteIp remotePort dstMode sess.peerIp bestEffort st.created)])

def onSessionConnClose (st : Server) (s : Nat) (connId : ConnId) (established : Bool) :
    Server × Sends :=
  let status := if established then .established else Status.errCanceled
  match st.conns.find? connId with
  | none => (st, [])
  | some conn =>
    if s = conn.srcSess then
      ({ st with conns := st.conns.erase connId },
        [(conn.dstSess, .connStatus connId status conn.dstMode 0)])
    else if s = conn.dstSess then
      ({ st with conns := st.conns.erase connId },
        [(conn.srcSess, .connStatus connId status conn.srcMode 0)])
    else (st, [])

/-- `onSessionReady` and `onSessionNext`: pass the message to the other endpoint. -/
def relay (st : Server) (s : Nat) (connId : ConnId) (msg : DownMsg) : Sends :=
  match st.conns.find? connId with
  | none => []
  | some conn =>
    if s = conn.srcSess then [(conn.dstSess, msg)]
    else if s = conn.dstSess then [(conn.srcSess, msg)]
    else []

def onSessionReady (st : Server) (s : Nat) (connId : ConnId) : Sends :=
  relay st s connId (.ready connId)

def onSessionNext (st : Server) (s : Nat) (connId : ConnId) : Sends :=
  relay st s connId (.next connId)

def setSession (st : Server) (s : Nat) (sess : Session) : Server :=
  { st with session := Function.update st.session s sess }

/-- `onAccept`; without a peer name the address is 0. -/
def onAccept (st : Server) (s peerIp peerPort : Nat) : Server :=
  { st.setSession s { peerIp := peerIp, peerPort := peerPort } with
    sessions := st.sessions.orderedInsert (· ≤ ·) s }

/-- One complete message on a session. -/
def onMessage (st : Server) (s : Nat) : UpMsg → Server × Sends
  | .hello nodeId _ probePort =>
    let sess := st.session s
    onSessionStartPersistent
      (st.setSession s { sess with
        type := .persistent
        nodeId := nodeId
        symm := probePort ≠ 0 ∧ probePort ≠ sess.peerPort }) s
  | .helloProbe =>
    let sess := st.session s
    (st.setSession s { sess with type := .probe }, [(s, .probe sess.peerIp sess.peerPort)])
  | .helloFast nodeId connId =>
    let st' := st.setSession s { st.session s with type := .fast, nodeId := nodeId }
    (st', onSessionHelloFast st' s connId)
  | .helloSymm nodeId connId =>
    let st' := st.setSession s { st.session s with type := .symm, nodeId := nodeId }
    (st', onSessionHelloSymm st' s connId)
  | .connCreate connId dstNodeId remoteIp remotePort bestEffort =>
    onSessionConnCreate st s connId dstNodeId remoteIp remotePort bestEffort
  | .connClose connId established => onSessionConnClose st s connId established
  | .ready connId => (st, onSessionReady st s connId)
  | .next connId => (st, onSessionNext st s connId)

/-- A message on a session that is gone has no effect. -/
def recv (st : Server) (s : Nat) (msg : UpMsg) : Server × Sends :=
  if st.alive s then onMessage st s msg else (st, [])

/-- `onSessionError`: a read or write failed, or the message code was bad. -/
def onSessionError (st : Server) (s : Nat) : Server × Sends :=
  if st.alive s then removeSession st s else (st, [])

inductive Event where
  | accept (s peerIp peerPort : Nat)
  | msg (s : Nat) (m : UpMsg)
  | error (s : Nat)
  deriving DecidableEq, Repr

/-- One step; a session is accepted at an address that nothing else uses. -/
def step (st : Server) : Event → Option Server
  | .accept s peerIp peerPort => if st.alive s then none else some (onAccept st s peerIp peerPort)
  | .msg s m => some (recv st s m).1
  | .error s => some (onSessionError st s).1

abbrev Run (es : List Event) (st : Server) : Prop := exec step init es = some st

variable {st st' : Server} {s d nodeId : Nat} {connId : ConnId} {sends : Sends}

theorem has_iff {c : Conn} : c.has s = true ↔ c.srcSess = s ∨ c.dstSess = s := by
  simp [Conn.has]

theorem alive_iff : st.alive s = true ↔
    s ∈ st.sessions ∨ ∃ c conn, st.conns.find? c = some conn ∧ conn.has s = true := by
  simp [alive, OrderedMap.any_iff]

theorem findPersistentSession_some (h : findPersistentSession st nodeId = some d) :
    d ∈ st.sessions ∧ (st.session d).nodeId = nodeId ∧ (st.session d).type = .persistent := by
  have hp := List.find?_some h
  exact ⟨List.mem_of_find?_eq_some h, by simpa using hp⟩

/-- `CONN_CREATE` is refused with an error to its sender, or it makes the entry, tells the
sender that it is pending and passes the request to the destination. -/
theorem onSessionConnCreate_cases (st : Server) (s : Nat) (connId : ConnId)
    (dstNodeId remoteIp remotePort : Nat) (bestEffort : Bool) :
    (∃ code, onSessionConnCreate st s connId dstNodeId remoteIp remotePort bestEffort =
      (st, [(s, .connStatus connId (.err code) .fast 0)])) ∨
    ∃ d srcMode dstMode, (st.session s).nodeId = connId.nodeId ∧ dstNodeId ≠ connId.nodeId ∧
      st.conns.find? connId = none ∧ findPersistentSession st dstNodeId = some d ∧
      ¬ ((st.session s).symm && (st.session d).symm) = true ∧
      (srcMode, dstMode) = modes (st.session s).symm (st.session d).symm ∧
      onSessionConnCreate st s connId dstNodeId remoteIp remotePort bestEffort =
        ({ st with
            conns := st.conns.insert connId ⟨s, d, srcMode, dstMode, st.created⟩
            created := st.created + 1 },
          [(s, .connStatus connId .pending srcMode (st.session d).peerIp),
            (d, .conn connId remoteIp remotePort dstMode (st.session s).peerIp bestEffort
              st.created)]) := by
  unfold onSessionConnCreate
  by_cases hnode : (st.session s).nodeId ≠ connId.nodeId
  · exact Or.inl ⟨_, by rw [if_pos hnode]; rfl⟩
  rw [if_neg hnode]
  by_cases hdst : dstNodeId = connId.nodeId
  · exact Or.inl ⟨_, by rw [if_pos hdst]; rfl⟩
  rw [if_neg hdst]
  by_cases hip : (st.session s).peerIp = 0
  · exact Or.inl ⟨_, by rw [if_pos hip]; rfl⟩
  rw [if_neg hip]
  by_cases hsome : (st.conns.find? connId).isSome
  · exact Or.inl ⟨_, by rw [if_pos hsome]; rfl⟩
  rw [if_neg hsome]
  cases hfind : findPersistentSession st dstNodeId with
  | none => exact Or.inl ⟨_, rfl⟩
  | some d =>
    simp only
    by_cases hdip : (st.session d).peerIp = 0
    · exact Or.inl ⟨_, by rw [if_pos hdip]; rfl⟩
    rw [if_neg hdip]
    by_cases hsymm : ((st.session s).symm && (st.session d).symm) = true
    · exact Or.inl ⟨_, by rw [if_pos hsymm]; rfl⟩
    rw [if_neg hsymm]
    exact Or.inr ⟨d, _, _, not_not.mp hnode, hdst, by simpa using hsome, rfl, hsymm, rfl, rfl⟩

/-- `CONN_CLOSE` from an endpoint erases the entry and tells the other one; otherwise it
does nothing. -/
theorem onSessionConnClose_cases (st : Server) (s : Nat) (connId : ConnId) (established : Bool) :
    ((∀ conn, st.conns.find? connId = some conn → conn.has s = false) ∧
      onSessionConnClose st s connId established = (st, [])) ∨
    ∃ conn peer mode, st.conns.find? connId = some conn ∧
      ((s = conn.srcSess ∧ peer = conn.dstSess) ∨ (s = conn.dstSess ∧ peer = conn.srcSess)) ∧
      onSessionConnClose st s connId established =
        ({ st with conns := st.conns.erase connId },
          [(peer, .connStatus connId
            (if established then .established else Status.errCanceled) mode 0)]) := by
  unfold onSessionConnClose
  cases hfind : st.conns.find? connId with
  | none => exact Or.inl ⟨by simp, rfl⟩
  | some conn =>
    simp only
    by_cases hsrc : s = conn.srcSess
    · rw [if_pos hsrc]
      exact Or.inr ⟨conn, conn.dstSess, conn.dstMode, rfl, Or.inl ⟨hsrc, rfl⟩, rfl⟩
    rw [if_neg hsrc]
    by_cases hdst : s = conn.dstSess
    · rw [if_pos hdst]
      exact Or.inr ⟨conn, conn.srcSess, conn.srcMode, rfl, Or.inr ⟨hdst, rfl⟩, rfl⟩
    rw [if_neg hdst]
    refine Or.inl ⟨?_, rfl⟩
    rintro _ ⟨⟩
    simp [Conn.has, Ne.symm hsrc, Ne.symm hdst]

/-- `HELLO` replaces at most one session, a persistent one. -/
theorem onSessionStartPersistent_cases (st : Server) (s : Nat) :
    onSessionStartPersistent st s = (st, []) ∨
    ∃ other ∈ st.sessions, other ≠ s ∧ (st.session other).nodeId = (st.session s).nodeId ∧
      (st.session other).type = .persistent ∧
      onSessionStartPersistent st s = removeSession st other := by
  unfold onSessionStartPersistent
  split
  · rename_i other hfind
    have hp := List.find?_some hfind
    simp only [decide_eq_true_eq] at hp
    exact Or.inr ⟨other, List.mem_of_find?_eq_some hfind, hp.2.2, hp.1, hp.2.1, rfl⟩
  · exact Or.inl rfl

theorem removeSession_sessions (st : Server) (s : Nat) :
    (removeSession st s).1.sessions = st.sessions.filter (· ≠ s) := by
  unfold removeSession
  split <;> rfl

theorem removeSession_persistent (h : (st.session s).type = .persistent) :
    removeSession st s =
      ({ st with
          sessions := st.sessions.filter (· ≠ s)
          conns := st.conns.filter (fun _ c => !c.has s) },
        st.conns.entries.flatMap (cancelSend s)) := by
  unfold removeSession
  rw [if_pos h]

theorem removeSession_other (h : (st.session s).type ≠ .persistent) :
    removeSession st s = ({ st with sessions := st.sessions.filter (· ≠ s) }, []) := by
  unfold removeSession
  rw [if_neg h]

/-- Messages for rendezvous sessions and probes, to `s` itself or to an endpoint of a
connection. -/
def Signals (st : Server) (s : Nat) (sends : Sends) : Prop :=
  ∀ x ∈ sends, x.2.isSignal = true ∧
    (x.1 = s ∨ ∃ c conn, st.conns.find? c = some conn ∧ conn.has x.1 = true)

/-- `READY` and `NEXT` go from one endpoint to the other. -/
theorem relay_cases (st : Server) (s : Nat) (connId : ConnId) (msg : DownMsg) :
    relay st s connId msg = [] ∨
    ∃ conn p, st.conns.find? connId = some conn ∧ conn.has s = true ∧ conn.has p = true ∧
      relay st s connId msg = [(p, msg)] := by
  unfold relay
  split
  · exact Or.inl rfl
  · rename_i conn hconn
    split
    · rename_i hs
      exact Or.inr ⟨conn, _, hconn, has_iff.mpr (Or.inl hs.symm), by simp [Conn.has], rfl⟩
    · split
      · rename_i hs
        exact Or.inr ⟨conn, _, hconn, has_iff.mpr (Or.inr hs.symm), by simp [Conn.has], rfl⟩
      · exact Or.inl rfl

/-- The address of a rendezvous session goes to an endpoint. -/
theorem relayHello_cases (st : Server) (s : Nat) (connId : ConnId)
    (msg : ConnId → Nat → Nat → DownMsg) :
    relayHello st s connId msg = [] ∨
    ∃ conn p ip port, st.conns.find? connId = some conn ∧ conn.has p = true ∧
      relayHello st s connId msg = [(p, msg connId ip port)] := by
  simp only [relayHello]
  split
  · exact Or.inl rfl
  split
  · exact Or.inl rfl
  split
  · exact Or.inl rfl
  rename_i conn hconn
  split
  · exact Or.inr ⟨conn, _, _, _, hconn, by simp [Conn.has], rfl⟩
  split
  · exact Or.inr ⟨conn, _, _, _, hconn, by simp [Conn.has], rfl⟩
  · exact Or.inl rfl

theorem relayHello_signals {msg : ConnId → Nat → Nat → DownMsg}
    (hmsg : ∀ c ip port, (msg c ip port).isSignal = true) :
    Signals st s (relayHello st s connId msg) := by
  intro x hx
  rcases relayHello_cases st s connId msg with heq | ⟨conn, p, ip, port, hconn, hp, heq⟩
  · rw [heq] at hx
    cases hx
  · rw [heq] at hx
    obtain rfl := List.mem_singleton.mp hx
    exact ⟨hmsg _ _ _, Or.inr ⟨connId, conn, hconn, hp⟩⟩

theorem relay_signals {msg : DownMsg} (hmsg : msg.isSignal = true) :
    Signals st s (relay st s connId msg) := by
  intro x hx
  rcases relay_cases st s connId msg with heq | ⟨conn, p, hconn, _, hp, heq⟩
  · rw [heq] at hx
    cases hx
  · rw [heq] at hx
    obtain rfl := List.mem_singleton.mp hx
    exact ⟨hmsg, Or.inr ⟨connId, conn, hconn, hp⟩⟩

/-- All that a message can do to the server, and what the server sends for it. -/
inductive Served (st : Server) (s : Nat) : UpMsg → Server → Sends → Prop where
  | greeted {nodeId ip port : Nat} {sess : Session} (htype : sess.type = .persistent)
      (hnode : sess.nodeId = nodeId) :
    Served st s (.hello nodeId ip port) (st.setSession s sess) []
  | replaced {nodeId ip port other : Nat} {sess : Session} (htype : sess.type = .persistent)
      (hnode : sess.nodeId = nodeId) (hother : other ∈ st.sessions) (hne : other ≠ s)
      (hothertype : (st.session other).type = .persistent)
      (hothernode : (st.session other).nodeId = nodeId) :
    Served st s (.hello nodeId ip port)
      { st.setSession s sess with
        sessions := st.sessions.filter (· ≠ other)
        conns := st.conns.filter (fun _ c => !c.has other) }
      (st.conns.entries.flatMap (cancelSend other))
  | side {m : UpMsg} {sess : Session} {sends : Sends}
      (hm : m = .helloProbe ∨ (∃ n c, m = .helloFast n c) ∨ ∃ n c, m = .helloSymm n c)
      (htype : sess.type ≠ .persistent) (hsends : Signals st s sends) :
    Served st s m (st.setSession s sess) sends
  | refused {connId : ConnId} {dstNodeId ip port code : Nat} {bestEffort : Bool} :
    Served st s (.connCreate connId dstNodeId ip port bestEffort) st
      [(s, .connStatus connId (.err code) .fast 0)]
  | created {connId : ConnId} {d dstNodeId ip port : Nat} {bestEffort : Bool}
      {srcMode dstMode : RMode}
      (hnode : (st.session s).nodeId = connId.nodeId) (hne : dstNodeId ≠ connId.nodeId)
      (hnone : st.conns.find? connId = none)
      (hdst : findPersistentSession st dstNodeId = some d) :
    Served st s (.connCreate connId dstNodeId ip port bestEffort)
      { st with
        conns := st.conns.insert connId ⟨s, d, srcMode, dstMode, st.created⟩
        created := st.created + 1 }
      [(s, .connStatus connId .pending srcMode (st.session d).peerIp),
        (d, .conn connId ip port dstMode (st.session s).peerIp bestEffort st.created)]
  | closed {connId : ConnId} {established : Bool} {conn : Conn} {peer : Nat} {mode : RMode}
      (hconn : st.conns.find? connId = some conn)
      (hpeer : (s = conn.srcSess ∧ peer = conn.dstSess) ∨
        (s = conn.dstSess ∧ peer = conn.srcSess)) :
    Served st s (.connClose connId established)
      { st with conns := st.conns.erase connId }
      [(peer, .connStatus connId
        (if established then .established else Status.errCanceled) mode 0)]
  /-- The session is no endpoint of the connection. -/
  | missed {connId : ConnId} {established : Bool}
      (h : ∀ conn, st.conns.find? connId = some conn → conn.has s = false) :
    Served st s (.connClose connId established) st []
  | relayed {connId : ConnId} {m : UpMsg} {sends : Sends}
      (hm : m = .ready connId ∨ m = .next connId)
      (hsends : Signals st s sends) : Served st s m st sends

theorem onMessage_served (st : Server) (s : Nat) (m : UpMsg) :
    Served st s m (onMessage st s m).1 (onMessage st s m).2 := by
  cases m with
  | hello nodeId ip port =>
    simp only [onMessage]
    generalize hsess : ({ st.session s with type := _, nodeId := _, symm := _ } : Session) = sess
    have htype : sess.type = .persistent := by rw [← hsess]
    have hnode : sess.nodeId = nodeId := by rw [← hsess]
    rcases onSessionStartPersistent_cases (st.setSession s sess) s with
      heq | ⟨other, hother, hne, hsame, hpers, heq⟩
    · rw [heq]
      exact .greeted htype hnode
    · rw [heq, removeSession_persistent hpers]
      simp only [setSession, Function.update_of_ne hne, Function.update_self] at hsame hpers
      exact .replaced htype hnode hother hne hpers (hsame.trans hnode)
  | helloProbe =>
    refine .side (Or.inl rfl) (by simp) fun x hx => ?_
    obtain rfl := List.mem_singleton.mp hx
    exact ⟨rfl, Or.inl rfl⟩
  | helloFast nodeId connId =>
    exact .side (Or.inr (Or.inl ⟨_, _, rfl⟩)) (by simp) (relayHello_signals fun _ _ _ => rfl)
  | helloSymm nodeId connId =>
    exact .side (Or.inr (Or.inr ⟨_, _, rfl⟩)) (by simp) (relayHello_signals fun _ _ _ => rfl)
  | connCreate connId dstNodeId ip port bestEffort =>
    simp only [onMessage]
    rcases onSessionConnCreate_cases st s connId dstNodeId ip port bestEffort with
      ⟨code, heq⟩ | ⟨d, srcMode, dstMode, hnode, hne, hnone, hdst, -, -, heq⟩
    · rw [heq]
      exact .refused
    · rw [heq]
      exact .created hnode hne hnone hdst
  | connClose connId established =>
    simp only [onMessage]
    rcases onSessionConnClose_cases st s connId established with
      ⟨hmiss, heq⟩ | ⟨conn, peer, mode, hconn, hpeer, heq⟩
    · rw [heq]
      exact .missed hmiss
    · rw [heq]
      exact .closed hconn hpeer
  | ready connId => exact .relayed (Or.inl rfl) (relay_signals rfl)
  | next connId => exact .relayed (Or.inr rfl) (relay_signals rfl)

theorem Served.session_of_ne {m : UpMsg} (h : Served st s m st' sends) {t : Nat} (hne : t ≠ s) :
    st'.session t = st.session t := by
  cases h <;> first | rfl | exact Function.update_of_ne hne _ _

/-- No session comes to life by a message. -/
theorem Served.alive_of_alive {m : UpMsg} (h : Served st s m st' sends) (hs : st.alive s = true)
    {t : Nat} (ht : st'.alive t = true) : st.alive t = true := by
  rw [alive_iff] at ht ⊢
  cases h with
  | greeted => exact ht
  | replaced =>
    rcases ht with ht | ⟨c, conn, hc, hhas⟩
    · exact Or.inl (List.mem_filter.mp ht).1
    · exact Or.inr ⟨c, conn, ((OrderedMap.find?_filter_eq_some _ _).mp hc).1, hhas⟩
  | side => exact ht
  | refused => exact ht
  | created _ _ _ hdst =>
    rcases ht with ht | ⟨c, conn, hc, hhas⟩
    · exact Or.inl ht
    · simp only [OrderedMap.find?_insert] at hc
      split at hc
      · obtain rfl := Option.some.inj hc
        rcases has_iff.mp hhas with rfl | rfl
        · exact alive_iff.mp hs
        · exact Or.inl (findPersistentSession_some hdst).1
      · exact Or.inr ⟨c, conn, hc, hhas⟩
  | closed =>
    rcases ht with ht | ⟨c, conn, hc, hhas⟩
    · exact Or.inl ht
    · simp only [OrderedMap.find?_erase] at hc
      split at hc
      · cases hc
      · exact Or.inr ⟨c, conn, hc, hhas⟩
  | missed => exact ht
  | relayed => exact ht

/-- The reports of `removeSession` go to the other endpoint of an entry it erases. -/
theorem mem_cancelSend {x : Nat × DownMsg} (h : x ∈ st.conns.entries.flatMap (cancelSend s)) :
    ∃ c conn mode, st.conns.find? c = some conn ∧ conn.has s = true ∧ conn.has x.1 = true ∧
      x.2 = .connStatus c .errCanceled mode 0 := by
  obtain ⟨⟨c, conn⟩, hmem, hx⟩ := List.mem_flatMap.mp h
  have hfind := (OrderedMap.mem_entries_iff _).mp hmem
  simp only [cancelSend] at hx
  split at hx
  · rename_i hsrc
    obtain rfl := List.mem_singleton.mp hx
    exact ⟨c, conn, conn.dstMode, hfind, has_iff.mpr (Or.inl hsrc), by simp [Conn.has], rfl⟩
  split at hx
  · rename_i hdst
    obtain rfl := List.mem_singleton.mp hx
    exact ⟨c, conn, conn.srcMode, hfind, has_iff.mpr (Or.inr hdst), by simp [Conn.has], rfl⟩
  · cases hx

/-- The server sends only to sessions that it has. -/
theorem Served.sends_alive {m : UpMsg} (h : Served st s m st' sends) (hs : st.alive s = true) :
    ∀ x ∈ sends, st.alive x.1 = true := by
  have hsignals : Signals st s sends → ∀ x ∈ sends, st.alive x.1 = true := by
    intro hsig x hx
    rcases (hsig x hx).2 with heq | hconn
    · exact heq ▸ hs
    · exact alive_iff.mpr (Or.inr hconn)
  intro x hx
  cases h with
  | greeted => cases hx
  | replaced =>
    obtain ⟨c, conn, _, hc, _, hto, _⟩ := mem_cancelSend hx
    exact alive_iff.mpr (Or.inr ⟨c, conn, hc, hto⟩)
  | side _ _ hsends => exact hsignals hsends x hx
  | refused => exact List.mem_singleton.mp hx ▸ hs
  | created _ _ _ hdst =>
    rcases List.mem_cons.mp hx with rfl | hx
    · exact hs
    · exact List.mem_singleton.mp hx ▸
        alive_iff.mpr (Or.inl (findPersistentSession_some hdst).1)
  | closed hconn hpeer =>
    refine List.mem_singleton.mp hx ▸ alive_iff.mpr (Or.inr ⟨_, _, hconn, has_iff.mpr ?_⟩)
    exact hpeer.elim (fun h => Or.inr h.2.symm) (fun h => Or.inl h.2.symm)
  | missed => cases hx
  | relayed _ hsends => exact hsignals hsends x hx

/-- A broken session: the server has less than before, and reports only on connections of
the session that are gone. -/
theorem onSessionError_spec (st : Server) (s : Nat) :
    (onSessionError st s).1.session = st.session ∧
      (∀ t, (onSessionError st s).1.alive t = true → st.alive t = true) ∧
      (∀ c conn, (onSessionError st s).1.conns.find? c = some conn →
        st.conns.find? c = some conn) ∧
      ∀ x ∈ (onSessionError st s).2, st.alive x.1 = true ∧ ∃ c mode,
        (onSessionError st s).1.conns.find? c = none ∧ x.2 = .connStatus c .errCanceled mode 0 := by
  unfold onSessionError
  split
  · by_cases htype : (st.session s).type = .persistent
    · rw [removeSession_persistent htype]
      have hsub : ∀ c conn, (st.conns.filter fun _ c => !c.has s).find? c = some conn →
          st.conns.find? c = some conn :=
        fun c conn hc => ((OrderedMap.find?_filter_eq_some _ _).mp hc).1
      refine ⟨rfl, fun t ht => ?_, hsub, fun x hx => ?_⟩
      · rw [alive_iff] at ht ⊢
        rcases ht with ht | ⟨c, conn, hc, hhas⟩
        · exact Or.inl (List.mem_filter.mp ht).1
        · exact Or.inr ⟨c, conn, hsub c conn hc, hhas⟩
      · obtain ⟨c, conn, mode, hc, hhas, hto, hx⟩ := mem_cancelSend hx
        refine ⟨alive_iff.mpr (Or.inr ⟨c, conn, hc, hto⟩), c, mode, ?_, hx⟩
        simp [OrderedMap.find?_filter, hc, hhas]
    · rw [removeSession_other htype]
      refine ⟨rfl, fun t ht => ?_, fun _ _ hc => hc, by simp⟩
      rw [alive_iff] at ht ⊢
      rcases ht with ht | hconn
      · exact Or.inl (List.mem_filter.mp ht).1
      · exact Or.inr hconn
  · exact ⟨rfl, fun _ ht => ht, fun _ _ hc => hc, by simp⟩

theorem onAccept_alive {peerIp peerPort t : Nat}
    (h : (st.onAccept s peerIp peerPort).alive t = true) : t = s ∨ st.alive t = true := by
  rw [alive_iff] at h
  rcases h with hmem | hconn
  · rcases (List.mem_orderedInsert _).mp hmem with rfl | hmem
    · exact Or.inl rfl
    · exact Or.inr (alive_iff.mpr (Or.inl hmem))
  · exact Or.inr (alive_iff.mpr (Or.inr hconn))

theorem onAccept_session_of_ne {peerIp peerPort t : Nat} (h : t ≠ s) :
    (st.onAccept s peerIp peerPort).session t = st.session t := Function.update_of_ne h _ _

end Server

end DTun.Master
