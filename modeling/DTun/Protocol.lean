import Mathlib.Data.Prod.Lex
import Mathlib.Order.Defs.LinearOrder

/-!
# Messages between the nodes and the master

Connection ids, rendezvous modes, status codes and the two directions of messages, as in
`DProtocol.h`. Integers are natural numbers; the wire layout is not modelled here.
-/

namespace DTun

structure ConnId where
  nodeId : Nat
  connIdx : Nat
  deriving DecidableEq, Repr

namespace ConnId

def key (c : ConnId) : Nat ×ₗ Nat := toLex (c.nodeId, c.connIdx)

theorem key_injective : Function.Injective key := by
  intro a b h
  have h' : (a.nodeId, a.connIdx) = (b.nodeId, b.connIdx) := toLex.injective h
  cases a
  cases b
  simpa using h'

instance : LinearOrder ConnId := LinearOrder.lift' key key_injective

/-- The order is the source's `operator<`. -/
theorem lt_iff (a b : ConnId) :
    a < b ↔ if a.nodeId = b.nodeId then a.connIdx < b.connIdx else a.nodeId < b.nodeId := by
  change key a < key b ↔ _
  unfold key
  rw [Prod.Lex.toLex_lt_toLex]
  split_ifs with h
  · simp [h]
  · simp [h]

end ConnId

/-- `DPROTOCOL_RMODE_*`; `other` is any code outside the three. -/
inductive RMode where
  | fast
  | symmConn
  | symmAcc
  | other (code : Nat)
  deriving DecidableEq, Repr

/-- `DPROTOCOL_STATUS_*`: every code but the first two is an error. -/
inductive Status where
  | pending
  | established
  | err (code : Nat)
  deriving DecidableEq, Repr

namespace Status

def errCanceled : Status := .err 0x10
def errUnknown : Status := .err 0x11
def errNotfound : Status := .err 0x12
def errSymm : Status := .err 0x13

end Status

/-- From a node to the master. -/
inductive UpMsg where
  | hello (nodeId probeIp probePort : Nat)
  | helloProbe
  | helloFast (nodeId : Nat) (connId : ConnId)
  | helloSymm (nodeId : Nat) (connId : ConnId)
  | connCreate (connId : ConnId) (dstNodeId remoteIp remotePort : Nat) (bestEffort : Bool)
  | connClose (connId : ConnId) (established : Bool)
  | ready (connId : ConnId)
  | next (connId : ConnId)
  deriving DecidableEq, Repr

/-- From the master to a node. The `serial` of `conn` tells apart the connections that
have had one id; it is not sent, and no handler reads it. -/
inductive DownMsg where
  | probe (srcIp srcPort : Nat)
  | conn (connId : ConnId) (ip port : Nat) (mode : RMode) (srcIp : Nat) (bestEffort : Bool)
      (serial : Nat)
  | connStatus (connId : ConnId) (status : Status) (mode : RMode) (dstIp : Nat)
  | fast (connId : ConnId) (nodeIp nodePort : Nat)
  | symm (connId : ConnId) (nodeIp nodePort : Nat)
  | ready (connId : ConnId)
  | next (connId : ConnId)
  deriving DecidableEq, Repr

/-- The message is for a rendezvous session or a probe: it neither offers a connection nor
reports on one. -/
def DownMsg.isSignal : DownMsg → Bool
  | .conn _ _ _ _ _ _ _ => false
  | .connStatus _ _ _ _ => false
  | _ => true

end DTun
