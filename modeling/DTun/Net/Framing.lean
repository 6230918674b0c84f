import DTun.Master.ReadLoop
import DTun.Node.MasterClient.ReadLoop

/-!
# Messages over a connection to the master

Both directions of a connection at once: what a node writes is decoded by the session at the
master, and what the master writes to a persistent session by the node. The two read loops are
those of `DTun.Master.ReadLoop` and `DTun.Node.MasterClient.ReadLoop`, on streams that deliver
in portions of any size.
-/

namespace DTun.Net

open Lib Lib.Runs Protocol

/-- What a node writes, as the master reads it. -/
abbrev toMaster (o : ByteOrder) := Master.ReadLoop.framing o

/-- What the master writes to a persistent session, as the node reads it. -/
abbrev toNode (o : ByteOrder) := Node.MasterClient.ReadLoop.framing o

/-- In either direction, at any moment of any run of writes, arrivals and partial reads: the
messages decoded so far are the first of those written, the outstanding read takes the bytes
that are there without a failed assertion, and with the bytes taken all messages are decoded
and no byte is left. -/
theorem framing_round_trip (o : ByteOrder) :
    (∀ session buff es s,
      exec (toMaster o).step ((toMaster o).start { session := session } buff) es = some s →
      (toMaster o).Sound s) ∧
    (∀ buff es s,
      exec (toNode o).step ((toNode o).start {} buff) es = some s → (toNode o).Sound s) := by
  constructor
  · intro session buff es s hrun
    exact (Master.ReadLoop.framed o).sound rfl trivial hrun
  · intro buff es s hrun
    have hentry : Nonempty Node.MasterClient.ReadLoop.Entry := ⟨.absent⟩
    have hconn : (toNode o).connected {} := rfl
    exact (Node.MasterClient.ReadLoop.framed o).sound rfl hconn hrun

/-- A probe hello and a request in three portions, the second of which ends inside the request;
and a status and a READY for a session that runs. -/
theorem framing_round_trip_portions :
    (∃ s, exec (toMaster .little).step ((toMaster .little).start {} [])
        [.write .helloProbe, .write (.connClose ⟨⟨1, 258⟩, 1⟩), .arrive 3, .recv 1 (),
          .recv 1 (), .recv 1 (), .arrive 8, .recv 8 ()] = some s ∧
      (s.Drained ∧ s.app.decoded = [.helloProbe, .connClose ⟨⟨1, 258⟩, 1⟩]) ∧
      (toMaster .little).Sound s) ∧
    ∃ s, exec (toNode .big).step ((toNode .big).start {} [])
        [.write (.connStatus ⟨⟨1, 2⟩, 2, 0, 77⟩), .write (.ready ⟨⟨1, 2⟩⟩), .arrive 24,
          .recv 1 .absent, .recv 14 .running, .recv 1 .absent, .recv 8 .running] = some s ∧
      (s.Drained ∧ s.app.handed = [.ready ⟨⟨1, 2⟩⟩]) ∧ (toNode .big).Sound s := by
  constructor
  · exact exec_check_and (by decide +kernel) fun _ hrun _ =>
      (framing_round_trip .little).1 _ _ _ _ hrun
  · exact exec_check_and (by decide +kernel) fun _ hrun _ => (framing_round_trip .big).2 _ _ _ hrun

end DTun.Net
