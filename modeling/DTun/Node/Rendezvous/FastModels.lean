import DTun.Node.FastSession.Model
import DTun.Node.Rendezvous.Fast
import Mathlib.Data.Nat.Pairing

/-!
# The two models of the fast rendezvous

`Fast` is one session with its reservations and assertions, `FastSession` the sessions of both
sides and what is on its way between them. Where no assertion fails, `start` and every handler
do the same in both to the fields that they share, and so does every run of handlers. An address
of `FastSession` stands for an IP address and a port.
-/

namespace DTun.Node.Rendezvous.Fast

open Lib.Runs
open FastSession (Addr Out)

def reservation : Option Reservation → FastSession.Reservation
  | none => .null
  | some r => if r.ports = [] then .queued else .granted

def address (ip port : Nat) : Addr := Nat.pair ip port

/-- The fields that both models have. -/
structure Agrees (s : Sess) (t : FastSession.Session) : Prop where
  owner : t.owner = s.owner
  bestEffort : t.bestEffort = s.bestEffort
  started : t.started = s.started
  ready : t.ready = s.ready
  callback : t.callback = s.callback
  stepIdx : t.stepIdx = s.own.stepIdx
  ttl : t.ttl = s.own.ttl
  next : t.next = s.own.next
  dest : t.dest = if s.own.destIp = 0 then none else some (address s.own.destIp s.own.destPort)
  portReservation : t.portReservation = reservation s.portReservation
  portReservationNext : t.portReservationNext = reservation s.own.portReservationNext
  masterHandle : t.masterHandle = s.own.masterHandle
  pingConn : t.pingConn.isSome = s.own.pingConn

/-- A handler of `Fast` fails an assertion or ends as `a` does. -/
def Simulates {α : Type} (R : Sess → α → Prop) (r : SessRes) (a : α) : Prop :=
  ∀ s', r = .ok s' → R s' a

abbrev Follows (r : SessRes) (out : Out) : Prop := Simulates (fun s out => Agrees s out.sess) r out

/-- The answers of the environment, with the address that a new socket gets. -/
def environment (env : Env) (addr : Addr) : FastSession.Env :=
  { ports := (env.reserve 2).isSome, socket := if env.socket then some addr else none
    hello := env.hello }

variable {s : Sess} {t : FastSession.Session} {env : Env} {addr : Addr} {r r' : SessRes}
  {out : Out} {f : Sess → SessRes} {α : Type} {R : Sess → α → Prop} {a a' : α}

theorem reservation_ne_null {o : Option Reservation} : reservation o ≠ .null ↔ o.isSome = true := by
  cases o with
  | none => simp [reservation]
  | some r =>
    simp only [reservation]
    split <;> simp

theorem reservation_map (o : Option Reservation) {f : Reservation → Reservation}
    (hf : ∀ r, (f r).ports = [] ↔ r.ports = []) : reservation (o.map f) = reservation o := by
  cases o <;> simp [reservation, hf]

theorem reservation_reserve {env : Env} {r : Reservation} (h : env.reserve 2 = some r) :
    reservation (some r) = .granted := by
  refine if_neg fun hnil => ?_
  unfold Env.reserve at h
  split at h
  · cases h
  · cases h
    have hlength := congrArg List.length hnil
    rw [List.length_take, List.length_nil] at hlength
    omega

namespace Simulates

theorem ok (h : R s a) : Simulates R (.ok s) a := by
  rintro s' ⟨⟩
  exact h

theorem ite {p q : Prop} [Decidable p] [Decidable q] (hpq : p ↔ q) (h : p → Simulates R r a)
    (h' : ¬p → Simulates R r' a') : Simulates R (if p then r else r') (if q then a else a') := by
  by_cases hp : p
  · rw [if_pos hp, if_pos (hpq.mp hp)]
    exact h hp
  · rw [if_neg hp, if_neg (mt hpq.mpr hp)]
    exact h' hp

theorem require {p : Prop} [Decidable p] (h : p → Simulates R (f s) a) :
    Simulates R ((s.require p).bind f) a := by
  unfold Session.require
  split
  · exact h ‹_›
  · rintro s' ⟨⟩

theorem require_last {p : Prop} [Decidable p] (h : R s a) : Simulates R (s.require p) a := by
  unfold Session.require
  split
  · exact ok h
  · rintro s' ⟨⟩

theorem use (h : Agrees s t) (hf : ∀ u : Sess, Agrees u t → Simulates R (f u) a) :
    Simulates R ((s.use env).bind f) a := by
  unfold Session.use Session.require
  split
  · refine hf _ { h with portReservation := h.portReservation.trans (reservation_map _ ?_).symm }
    simp [Reservation.use]
  · rintro s' ⟨⟩

theorem complete {p : Sess → Prop} [∀ s, Decidable (p s)]
    (h : Agrees { s with callback := false } out.sess) :
    Follows (s.keepalive.bind fun s => (s.require (p s)).bind fun s => s.complete) out := by
  unfold Session.keepalive Session.require
  split
  · refine require fun _ => ok { h with portReservation := h.portReservation.trans ?_ }
    exact (reservation_map _ (by simp [Reservation.keepalive])).symm
  · rintro s' ⟨⟩

end Simulates

theorem follows_onPortReservation (h : Agrees s t) :
    Follows (onPortReservation s env) (t.onPortReservation (environment env addr)) := by
  refine .ite (by rw [h.callback]) (fun _ => .ok h) fun _ => .ite (by rw [h.ready]) (fun _ => ?_)
    fun _ => .ite ?_ (fun _ => ?_) fun _ => ?_
  · refine .require fun howner => ?_
    rw [if_pos (h.owner.trans howner)]
    exact .ok { h with ready := rfl }
  · simp [h.owner, h.portReservationNext, reservation_ne_null]
  · refine .use (t := t.nextAttempt.sess) ?_ fun u hu => .ok { hu with }
    exact { h with
      stepIdx := congrArg (· + 1) h.stepIdx, ttl := rfl, next := rfl, masterHandle := rfl
      pingConn := rfl, portReservation := h.portReservationNext, portReservationNext := rfl }
  · rw [FastSession.Session.openSocket, environment]
    cases env.socket with
    | false => exact .ok { h with callback := rfl }
    | true =>
      refine .use h fun u hu => .ite Iff.rfl (fun _ => .ok ?_) fun _ => .ok ?_
      · exact { hu with pingConn := rfl }
      · exact { hu with pingConn := rfl, callback := rfl }

theorem follows_onReady (h : Agrees s t) :
    Follows (onReady s env) (t.onReady (environment env addr)) := by
  have hready : Agrees { s with ready := true } { t with ready := true } := { h with ready := rfl }
  have hagain : (!t.owner && decide (t.portReservation ≠ .null)) =
      (!s.owner && s.portReservation.isSome) := by
    rw [h.owner, h.portReservation, Bool.eq_iff_iff]
    simp [reservation_ne_null]
  simp only [onReady, FastSession.Session.onReady, Bool.or_eq_true, ite_or, hagain,
    ← apply_ite (reserveAgain · env)]
  refine .ite (by rw [h.started]) (fun _ => .ok hready) fun _ => ?_
  refine .ite (by rw [h.callback]) (fun _ => .ok hready) fun _ => ?_
  have hleft : Agrees (if !s.owner && s.portReservation.isSome then
        restart { s with ready := true } else { s with ready := true })
      (if !s.owner && s.portReservation.isSome then
        FastSession.Session.restart { t with ready := true } else { t with ready := true }) := by
    split
    · exact { hready with
        stepIdx := congrArg (· + 1) h.stepIdx, ttl := rfl, next := rfl, dest := rfl
        portReservation := rfl, masterHandle := rfl, pingConn := rfl }
    · exact hready
  refine .ite (by rw [hleft.bestEffort]) (fun _ => .ok { hleft with portReservation := rfl })
    fun _ => ?_
  rw [environment, Session.reserve]
  cases hres : env.reserve 2 with
  | none => exact .ok { hleft with callback := rfl, portReservation := rfl }
  | some r =>
    exact follows_onPortReservation
      { hleft with portReservation := (reservation_reserve hres).symm }

theorem follows_onPingTimeout (h : Agrees s t) :
    Follows (onPingTimeout s env) (t.onPingTimeout (environment env addr)) := by
  refine .ite (by rw [h.callback]) (fun _ => .ok { h with }) fun _ => .require fun _ => ?_
  refine .ite (by rw [h.next]) (fun _ => .ok { h with }) fun _ => .require fun _ => ?_
  refine .use { h with } fun u hu => ?_
  have hsent : Agrees (u.set { u.own with next := false, ttl := u.own.ttl + 1 }) { t with
      pingTimers := t.pingTimers - 1, writes := t.writes + 1, next := false, ttl := t.ttl + 1 } :=
    { hu with next := rfl, ttl := congrArg (· + 1) hu.ttl }
  refine .ite (by rw [hsent.owner, hsent.ttl]) (fun _ => ?_) fun _ => .ok { hsent with }
  refine .ite (by rw [hsent.stepIdx]) (fun _ => .ok { hsent with callback := rfl }) fun _ => ?_
  refine .ite (by rw [hsent.bestEffort]) (fun _ => .ok { hsent with portReservationNext := rfl })
    fun _ => ?_
  rw [environment]
  cases hres : env.reserve 2 with
  | none => exact .ok { hsent with callback := rfl, portReservationNext := rfl }
  | some r =>
    exact follows_onPortReservation
      { hsent with portReservationNext := (reservation_reserve hres).symm }

/-- `start` returns false in both or in none. -/
def Started (s : Sess) : Option Out → Prop
  | none => s.refused = true
  | some out => Agrees s out.sess

theorem simulates_startHello (h : Agrees s t) (hout : t.openSocket (environment env addr) = out) :
    Simulates Started (startHello s env) (if out.done.isSome then none else some out) := by
  rw [FastSession.Session.openSocket, environment] at hout
  rw [startHello]
  cases hsocket : env.socket with
  | false =>
    rw [hsocket] at hout
    subst hout
    rintro s' ⟨⟩
    rfl
  | true =>
    rw [hsocket] at hout
    subst hout
    refine .use h fun u hu => ?_
    cases env.hello with
    | true => exact .ok { hu with pingConn := rfl }
    | false =>
      rintro s' ⟨⟩
      rfl

theorem simulates_start (h : Agrees s t) :
    Simulates Started (start s env) (t.start (environment env addr)) := by
  have hs : Agrees { s with started := true, callback := true }
      { t with started := true, callback := true } := { h with started := rfl, callback := rfl }
  have hqueued : Agrees
      { s with started := true, callback := true, portReservation := some .queued }
      { t with started := true, callback := true, portReservation := .queued } :=
    { hs with portReservation := rfl }
  refine .ite (by rw [hs.owner]) (fun _ => ?_) fun _ => .ite (by rw [hs.ready]) (fun _ => .ok hs)
    fun _ => .ite (by rw [hs.bestEffort]) (fun _ => .ok hqueued) fun _ => ?_
  · refine .ite (by rw [hs.bestEffort]) (fun _ => .ok hqueued) fun _ => ?_
    rw [environment, Session.reserve]
    cases hres : env.reserve 2 with
    | none => exact .ok rfl
    | some r => exact .ok { hs with portReservation := (reservation_reserve hres).symm }
  · rw [environment, Session.reserve]
    cases hres : env.reserve 2 with
    | none => exact .ok rfl
    | some r =>
      refine simulates_startHello (t := { t with
        started := true, callback := true, portReservation := .granted }) ?_ rfl
      exact { hs with portReservation := (reservation_reserve hres).symm }

/-- The handler of `FastSession` for an event. -/
def mirror (t : FastSession.Session) (addr : Addr) : Event → Out
  | .msg .ready env => t.onReady (environment env addr)
  | .msg .next _ => t.onNext
  | .msg (.fast ip port) env => t.onFast (address ip port) (environment env addr)
  | .msg (.symm _ _) _ => { sess := t }
  | .established => t.onEstablished
  | .granted next _ env => (t.onGranted next (environment env addr)).getD { sess := t }
  | .helloSent err => t.onHelloSend (err = 0)
  | .pingSent err => t.onPingSend (err = 0)
  | .recvPing err _ ip port => t.onRecvPing (if err = 0 then some (address ip port) else none)
  | .checkStart canReuse => t.onCheckStartTimeout canReuse
  | .pingTimeout env => t.onPingTimeout (environment env addr)

/-- A peer has an address, the allocator grants ports to requests in its queue, and pings are
well formed. -/
def Proper (s : Sess) : Event → Prop
  | .msg (.fast ip _) _ => ip ≠ 0
  | .granted next ports _ =>
    ports ≠ [] ∧ (if next then s.own.portReservationNext else s.portReservation) = some .queued
  | .recvPing err bytes _ _ => err = 0 → bytes = pingBytes 0xDD
  | _ => True

theorem follows_handle {e : Event} (h : Agrees s t) (he : Proper s e) :
    Follows (handle s e) (mirror t addr e) := by
  cases e with
  | msg msg env =>
    cases msg with
    | ready => exact follows_onReady h
    | next => exact .ok { h with next := rfl }
    | symm => exact .ok h
    | fast ip port =>
      refine .ite (by rw [h.callback]) (fun _ => .ok h) fun _ => .require fun _ => ?_
      have hfast : Agrees (s.set { s.own with destIp := ip, destPort := port })
          { t with dest := some (address ip port) } := { h with dest := (if_neg he).symm }
      exact .ite (by rw [hfast.owner]) (fun _ => follows_onPortReservation hfast) fun _ => .ok hfast
  | established =>
    rw [handle, mirror, onEstablished, FastSession.Session.onEstablished, h.callback]
    cases s.callback with
    | false => exact .ok h
    | true => exact .require fun _ => .complete { h with callback := rfl }
  | granted next ports env =>
    obtain ⟨hports, hqueued⟩ := he
    have hgranted : FastSession.Reservation.granted = reservation (some ⟨ports⟩) :=
      (if_neg hports).symm
    cases next with
    | false =>
      have hwaits : t.portReservation = .queued :=
        h.portReservation.trans (congrArg reservation hqueued)
      rw [mirror, FastSession.Session.onGranted, if_neg Bool.false_ne_true, if_pos hwaits]
      exact follows_onPortReservation { h with portReservation := hgranted }
    | true =>
      have hwaits : t.portReservationNext = .queued :=
        h.portReservationNext.trans (congrArg reservation hqueued)
      rw [mirror, FastSession.Session.onGranted, if_pos rfl, if_pos hwaits]
      exact follows_onPortReservation { h with portReservationNext := hgranted }
  | helloSent err =>
    rw [handle, mirror, onHelloSend, FastSession.Session.onHelloSend]
    by_cases herr : err = 0
    · rw [if_pos herr, decide_eq_true herr]
      exact .require fun _ => .ite (by rw [← h.callback]) (fun _ => .ok { h with })
        fun _ => .ok { h with masterHandle := rfl }
    · rw [if_neg herr, decide_eq_false herr]
      exact .ite (by rw [← h.callback]) (fun _ => .ok { h with })
        fun _ => .ok { h with callback := rfl }
  | pingSent err =>
    refine .ite (by rw [h.callback]) (fun _ => .ok { h with }) fun _ => ?_
    exact .ite (by simp) (fun _ => .ok { h with }) fun _ => .ok { h with callback := rfl }
  | recvPing err bytes ip port =>
    simp only [mirror, FastSession.Session.onRecvPing, Bool.or_eq_true, ite_or]
    refine .ite (by rw [h.callback]) (fun _ => .ok { h with }) fun _ => ?_
    refine .ite (by rw [h.dest]; split <;> simp [*]) (fun _ => .ok { h with }) fun hip => ?_
    by_cases herr : err = 0
    · rw [if_pos herr, if_neg (not_not.mpr herr)]
      refine .ite ?_ (fun _ => .complete { h with callback := rfl }) fun _ => .require_last h
      rw [h.dest, if_neg hip, Option.some.injEq, address, address, Nat.pair_eq_pair]
      exact and_iff_right (he herr)
    · rw [if_neg herr, if_pos herr]
      exact .ok { h with callback := rfl }
  | checkStart canReuse =>
    refine .ite (by rw [h.callback]) (fun _ => .ok { h with }) fun _ => .ite ?_
      (fun _ => .require_last { h with }) fun _ => .ok { h with }
    simp [h.dest, h.masterHandle, and_assoc]
  | pingTimeout => exact follows_onPingTimeout h

/-- Both models, one handler after the other, as long as no assertion fails. -/
def stepBoth (n : Sess × FastSession.Session) (e : Event × Addr) :
    Option (Sess × FastSession.Session) :=
  (handle n.1 e.1).toOption.map fun s => (s, (mirror n.2 e.2 e.1).sess)

theorem agrees_of_run {n n' : Sess × FastSession.Session} {es : List (Event × Addr)}
    (h : Agrees n.1 n.2) (hproper : Along stepBoth (fun n e => Proper n.1 e.1) n es)
    (hrun : exec stepBoth n es = some n') : Agrees n'.1 n'.2 := by
  refine exec_invariant_along (I := fun n => Agrees n.1 n.2) (fun n e n' hn he hs => ?_) h hproper
    hrun
  obtain ⟨s', hok, rfl⟩ := Option.map_eq_some_iff.mp hs
  cases hhandle : handle n.1 e.1 with
  | error => rw [hhandle] at hok; cases hok
  | ok =>
    rw [hhandle] at hok
    cases hok
    exact follows_handle hn he _ hhandle

/-- From the new session, through `start`, to the end of any run. -/
theorem agrees_of_start {owner bestEffort : Bool} {n' : Sess × FastSession.Session}
    {es : List (Event × Addr)} (hstart : start { owner, bestEffort, own := {} } env = .ok s)
    (hout : FastSession.Session.start { owner, bestEffort } (environment env addr) = some out)
    (hproper : Along stepBoth (fun n e => Proper n.1 e.1) (s, out.sess) es)
    (hrun : exec stepBoth (s, out.sess) es = some n') : Agrees n'.1 n'.2 := by
  have hnew : Agrees { owner, bestEffort, own := {} } { owner, bestEffort } := by
    constructor <;> rfl
  have hstarted : Started s (some out) := hout ▸ simulates_start hnew s hstart
  exact agrees_of_run (n := (s, out.sess)) hstarted hproper hrun

end DTun.Node.Rendezvous.Fast
