import DTun.Util.Ltudp.Output
import DTun.Util.Utp.Output

/-!
# Packets and the transports of their sockets

Both managers look for the transport of a packet by local port number, and neither forgets the
number when the transport goes. lwIP and libutp go on sending for a socket that was closed, so
that a new transport on the same UDP port gets the packets of the old one's sockets.
-/

namespace DTun.Util

open Lib.Runs

/-- Whatever the sockets do, and for as long as lwIP and libutp send for those that were closed:
a packet is dropped, or it leaves through the transport its socket was bound on, to the port
that transport has for the peer. -/
theorem packets_leave_own {es : List Ltudp.Manager.Event} {m : Ltudp.Manager}
    {es' : List Utp.Manager.Event} {m' : Utp.Manager}
    (hsep : Along Ltudp.Manager.step Ltudp.Manager.Separate {} es)
    (hrun : Ltudp.Manager.Run es m)
    (hsep' : Along Utp.Manager.step Utp.Manager.Separate {} es') (hrun' : Utp.Manager.Run es' m') :
    (∀ pcb ∈ m.pcbs, m.SendsOwn pcb) ∧
      ∀ s k ip u, m'.sockets.find? s = some k → k.name = some (ip, u) → m'.SendsOwn k ip u := by
  constructor
  · intro pcb hmem
    exact (Ltudp.Manager.run_own hsep hrun pcb hmem).sends
  · intro s k ip u hk hname
    obtain ⟨hm, hown⟩ := Utp.Manager.run_own hsep' hrun'
    exact hown.sends hm hk hname

/-- A connection is closed and its transport goes. A new transport gets another port, until
the closed socket is done. -/
theorem packets_leave_own_closed :
    let es : List Ltudp.Manager.Event := [.createStreamSocket, .bind 0 50 (some 0),
      .connect 0 { tcpBind := some 1000, resolved := some (9, 100) },
      .datagram 50 { srcIp := 9, srcPort := 100, src := 7, dst := 1000 } false,
      .kill 0 false, .transportKilled ⟨0, 50⟩, .reap, .bind 0 51 (some 0),
      .connect 0 { tcpBind := some 1001, resolved := some (9, 200) }]
    let es' : List Utp.Manager.Event := [.createStreamSocket, .bind 0 50 (some 0),
      .connect 0 { resolved := some (9, 100), random := some 7 }, .kill 0,
      .transportKilled ⟨0, 50⟩, .destroy 0, .bind 0 50 (some 0),
      .connect 0 { resolved := some (9, 200), random := some 8 }]
    (∃ m, Ltudp.Manager.Run es m ∧ m.pcbs.length = 2 ∧ ∀ pcb ∈ m.pcbs, m.SendsOwn pcb) ∧
      ∃ m, Utp.Manager.Run es' m ∧ ∃ k, m.sockets.find? 1 = some k ∧ m.SendsOwn k 9 8 := by
  intro es es'
  obtain ⟨m, hrun, hlen⟩ : ∃ m, Ltudp.Manager.Run es m ∧ m.pcbs.length = 2 :=
    exec_check (by decide +kernel)
  obtain ⟨m', hrun', hsock⟩ : ∃ m, Utp.Manager.Run es' m ∧
      (m.sockets.find? 1).any (fun k => k.name = some (9, 8)) = true :=
    exec_check (by decide +kernel)
  obtain ⟨k, hk, hname⟩ := (Option.any_eq_true _ _).mp hsock
  obtain ⟨hltudp, hutp⟩ :=
    packets_leave_own (by decide +kernel) hrun (by decide +kernel) hrun'
  exact ⟨⟨m, hrun, hlen, hltudp⟩, m', hrun', k, hk, hutp 1 k 9 8 hk (of_decide_eq_true hname)⟩

/-- The closed socket of a transport that is gone: lwIP's segment for peer port 100 goes out
through the new transport on the UDP port, to port 200, and libutp's packet finds no route
there. -/
theorem packet_leaves_foreign :
    (∃ m, Ltudp.Manager.Run [.createStreamSocket, .bind 0 50 (some 0),
        .connect 0 { tcpBind := some 1000, resolved := some (9, 100) },
        .datagram 50 { srcIp := 9, srcPort := 100, src := 7, dst := 1000 } false,
        .kill 0 false, .transportKilled ⟨0, 50⟩, .reap, .bind 0 50 (some 0),
        .connect 0 { tcpBind := some 1001, resolved := some (9, 200) }] m ∧
      ∃ pcb ∈ m.pcbs, pcb.conn = ⟨0, 50⟩ ∧
        m.netifOutputFunc pcb.localPort pcb.remoteIp pcb.remotePort =
          .ok (some (⟨1, 50⟩, 9, 200))) ∧
    ∃ m, Utp.Manager.Run [.createStreamSocket, .bind 0 50 (some 0),
        .connect 0 { resolved := some (9, 100), random := some 7 }, .kill 0,
        .transportKilled ⟨0, 50⟩, .reap, .bind 0 50 (some 0)] m ∧
      ∃ k, m.sockets.find? 0 = some k ∧ k.conn = ⟨0, 50⟩ ∧ k.name = some (9, 7) ∧
        m.utpSendToFunc (some k) 9 7 = .error .actualPort := by
  constructor
  · exact exec_check (by decide +kernel)
  · exact exec_check (by decide +kernel)

end DTun.Util
