import DTun.Node.Rendezvous.Fast
import DTun.Node.Rendezvous.SymmAcc
import DTun.Node.Rendezvous.SymmConn

/-!
# How a rendezvous session completes

A session of any class, from its `start` on: its handlers are called in any order, with any
messages, errors, pings and answers of the allocator, until one of them fails an assertion.
-/

namespace DTun.Node.Rendezvous

open Lib.Runs

/-- The callback is called at most once; without an error it gets a reservation of one port
that does not decay, and with an error none. Nothing is sent and no port is used after it. -/
theorem completes_cleanly :
    (∀ (s : Fast.Sess) env es l, s.acts = [] →
      exec (Life.step Fast.handle) (.after (Fast.start s env)) es = some l →
      Clean l.sess.acts) ∧
    (∀ (s : SymmAcc.Acc) env es l, s.acts = [] →
      exec (Life.step SymmAcc.handle) (.after (SymmAcc.Acc.start s env)) es = some l →
      Clean l.sess.acts) ∧
    (∀ (s : SymmConn.Conn) env es l, s.acts = [] →
      exec (Life.step SymmConn.handle) (.after (SymmConn.Conn.start s env)) es = some l →
      Clean l.sess.acts) := by
  refine ⟨?_, ?_, ?_⟩
  · intro s env es l hacts hrun
    exact Life.clean Fast.moves_handle (Fast.behaved_start hacts) hrun
  · intro s env es l hacts hrun
    exact Life.clean SymmAcc.moves_handle (SymmAcc.Acc.behaved_start hacts) hrun
  · intro s env es l hacts hrun
    exact Life.clean SymmConn.moves_handle (SymmConn.Conn.behaved_start hacts) hrun

/-- An environment with as many free ports as a session of any class asks for. -/
def plenty : Env := { free := (List.range 300).map fun i => (i, 0) }

/-- The callback was called, and the last that was done is the call without an error. -/
def Succeeded (acts : List Act) : Prop := acts.getLast? = some (.done 0 (some ⟨[(0, ⊤)]⟩))

instance (acts : List Act) : Decidable (Succeeded acts) :=
  inferInstanceAs (Decidable (_ = _))

def fastStarted : Life Fast.Fields :=
  .after (Fast.start { owner := true, bestEffort := false, own := {} } plenty)

def fastSuccess : List Fast.Event :=
  [.msg .ready plenty, .msg (.fast 5 6) plenty, .recvPing 0 (pingBytes 0xDD) 5 6, .pingSent 0]

def accStarted : Life SymmAcc.Fields :=
  .after (SymmAcc.Acc.start
    { owner := true, bestEffort := false, own := { ports := [1024], destIp := 5 } } plenty)

def accSuccess : List SymmAcc.Event :=
  [.msg .ready plenty, .helloSent 0, .checkStart true plenty,
    .recvPing 0 (pingBytes 0xDD) 5 6, .msg .next plenty, .nextTimeout, .sendFinal 3 plenty,
    .sendFinal 2 plenty, .sendFinal 1 plenty, .sendFinal 0 plenty, .pingSent 0 plenty]

def connStarted : Life SymmConn.Fields :=
  .after (SymmConn.Conn.start { owner := true, bestEffort := false, own := {} } plenty)

def connSuccess : List SymmConn.Event :=
  [.msg (.symm 5 6) plenty, .msg .next plenty, .recvPing 0 (pingBytes 0xEE) 5 9,
    .pingSent 0 plenty]

/-- A success in each class, with a handler after it. -/
theorem completes_cleanly_success :
    (∃ l, exec (Life.step Fast.handle) fastStarted fastSuccess = some l ∧
      Succeeded l.sess.acts ∧ Clean l.sess.acts) ∧
    (∃ l, exec (Life.step SymmAcc.handle) accStarted accSuccess = some l ∧
      Succeeded l.sess.acts ∧ Clean l.sess.acts) ∧
    ∃ l, exec (Life.step SymmConn.handle) connStarted connSuccess = some l ∧
      Succeeded l.sess.acts ∧ Clean l.sess.acts := by
  refine ⟨exec_check_and (by decide +kernel) fun _ hrun _ => ?_,
    exec_check_and (by decide +kernel) fun _ hrun _ => ?_,
    exec_check_and (by decide +kernel) fun _ hrun _ => ?_⟩
  · exact completes_cleanly.1 _ _ _ _ rfl hrun
  · exact completes_cleanly.2.1 _ _ _ _ rfl hrun
  · exact completes_cleanly.2.2 _ _ _ _ rfl hrun

end DTun.Node.Rendezvous
