/-
**What a lookup has done so far, in the trace.**

* `answers ub trace` — the `STATUS` messages that were submitted for the lookup in `ub`.
* `Concluded` — exactly one status was submitted, after all of the objects.
* `sendStatus_concludes`: the status that ends it.
-/

import Ubus.Lib.Scan
import Ubus.Ledger

namespace Ubus

open Lib Relation

/-- The object that was passed to `ubusd_send_obj` for a message, and the registry then. -/
def Event.passes (ub : Nat) : Event → Option (Registry × Nat)
  | .sendObj moment _ msg obj => if msg = ub then some (moment.reg, obj) else none
  | _ => none

/-- A status was submitted for a message. -/
def Event.answers (ub : Nat) : Event → Bool
  | .submit moment _ hdr _ => moment.cause.buf = some ub && hdr.type = MsgType.status.code
  | _ => false

/-- **The objects that a lookup has passed**, oldest first. -/
def passed (ub : Nat) (trace : List Event) : List (Registry × Nat) :=
  (trace.filterMap (Event.passes ub)).reverse

/-- An object that was passed, under its path then. -/
def named (entry : Registry × Nat) : CString × Nat := ((entry.1.object entry.2).path.getD [], entry.2)

/-- The statuses that were submitted for a message, newest first. -/
def answers (ub : Nat) (trace : List Event) : List Event := trace.filter (Event.answers ub)

/-- An entry that belongs to another work, or is neither an object nor a status. -/
def Event.Silent (ub : Nat) (event : Event) : Prop :=
  event.passes ub = none ∧ event.answers ub = false

/-- **One status was submitted for a message**, to its sender and with its sequence number and peer, and
nothing was passed after it. -/
def Concluded (cl ub : Nat) (hdr : Msghdr) (status : Status) (trace : List Event) : Prop :=
  ∃ after moment reply before, trace = after ++ .submit moment cl reply (.built [.int32 .status status.code]) ::
    before ∧ (∀ event ∈ after, event.Silent ub) ∧ answers ub before = [] ∧ moment.cause.buf = some ub ∧
    reply.type = MsgType.status.code ∧ reply.seq = hdr.seq ∧ reply.peer = hdr.peer

section Traces

variable {lib : Libubox} {cl ub : Nat} {hdr : Msghdr} {status : Status} {new trace : List Event}

theorem passed_of_silent (silent : ∀ event ∈ new, event.Silent ub) (trace : List Event) :
    passed ub (new ++ trace) = passed ub trace := by
  have none : new.filterMap (Event.passes ub) = [] :=
    List.filterMap_eq_nil_iff.mpr fun event member => (silent event member).1
  simp [passed, none]

theorem answers_of_silent (silent : ∀ event ∈ new, event.Silent ub) (trace : List Event) :
    answers ub (new ++ trace) = answers ub trace := by
  have none : new.filter (Event.answers ub) = [] :=
    List.filter_eq_nil_iff.mpr fun event member => by simp [(silent event member).2]
  simp [answers, none]

theorem silent_of_emits {cause : Cause} {event : Event} (emits : Emits lib cause event)
    (other : cause.buf ≠ some ub) : event.Silent ub := by
  cases event with
  | accept => exact emits.elim
  | submit moment dest reply data =>
    refine ⟨rfl, ?_⟩
    simp [Event.answers, emits.1, other]
  | sendObj moment client msg obj =>
    refine ⟨if_neg ?_, rfl⟩
    rintro rfl
    obtain ⟨hdr, data, rfl | rfl⟩ := emits.2.1 <;> exact other rfl

theorem silent_accept (moment : Moment) (client msg : Nat) (hdr : Msghdr) (data : Payload)
    (fd : Option Nat) : (Event.accept moment client msg hdr data fd).Silent ub :=
  ⟨rfl, rfl⟩

theorem Concluded.mono (concluded : Concluded cl ub hdr status trace)
    (silent : ∀ event ∈ new, event.Silent ub) : Concluded cl ub hdr status (new ++ trace) := by
  obtain ⟨after, moment, reply, before, rfl, rest, others⟩ := concluded
  refine ⟨new ++ after, moment, reply, before, by rw [List.append_assoc], fun event member => ?_, others⟩
  rcases List.mem_append.mp member with new | old
  · exact silent event new
  · exact rest event old

theorem Concluded.answers (concluded : Concluded cl ub hdr status trace) :
    ∃ event, answers ub trace = [event] := by
  obtain ⟨after, moment, reply, before, rfl, rest, none, cause, typed, -⟩ := concluded
  refine ⟨.submit moment cl reply (.built [.int32 .status status.code]), ?_⟩
  rw [answers_of_silent rest]
  show (_ :: before).filter (Event.answers ub) = _
  rw [List.filter_cons_of_pos (by simp [Event.answers, cause, typed])]
  exact congrArg _ none

end Traces

/-! ### Sending -/

section Sending

variable {lib : Libubox} {cl ub msg : Nat} {s s' s'' : State}

theorem silent_record {moment : Moment} {dest : Nat} {hdr : Msghdr} {data : Payload}
    (typed : hdr.type ≠ MsgType.status.code) : (Event.submit moment dest hdr data).Silent ub :=
  ⟨rfl, by simp [Event.answers, typed]⟩

theorem admitsMonitor_silent (lib : Libubox) (ub : Nat) (moment : Moment) :
    AdmitsMonitor lib (Event.Silent ub) moment := by
  intro cl buf plain silent dest hdr typed version
  refine silent_record ?_
  rw [typed]
  decide

theorem send_trace (lib : Libubox) (cl ub : Nat) {s : State} (below : msg < s.net.brk) :
    ∃ records, (ubusMsgSend lib cl msg s).trace =
      .submit s.moment cl (s.buf msg).hdr (s.buf msg).data :: (records ++ s.trace) ∧
      ∀ event ∈ records, event.Silent ub := by
  have quiet : ∀ {t u : State}, Frame (fun _ => False) (fun _ => False) (fun _ => False) t u →
      u.trace = t.trace := by
    intro t u frame
    obtain ⟨new, trace, none⟩ := frame.trace
    rw [trace, List.eq_nil_iff_forall_not_mem.mpr none, List.nil_append]
  unfold ubusMsgSend
  split
  · exact ⟨[], rfl, List.forall_mem_nil _⟩
  simp only
  have told : Wire (Event.Silent ub) (· = msg) (fun _ => False) s
      (if (s.buf msg).hdr.type ≠ MsgType.monitor.code then
        ubusdMonitorMessage lib cl msg true s else s) := by
    split
    · refine wire_monitorMessage lib ?_ fun dest hdr typed version => silent_record ?_
      · rintro other (rfl | none)
        exacts [below, none.elim]
      · rw [typed]
        decide
    · exact Wire.refl s
  generalize (if (s.buf msg).hdr.type ≠ MsgType.monitor.code then
    ubusdMonitorMessage lib cl msg true s else s) = t at told ⊢
  obtain ⟨records, trace, silent⟩ := told.trace
  refine ⟨records, ?_, silent⟩
  rw [quiet (wire_transmit lib (by simp) id).toFrame]
  show Event.submit t.moment cl (t.net.buf msg).hdr (t.net.buf msg).data :: t.trace = _
  rw [told.moment, told.hdr msg rfl, told.data msg rfl, trace]

/-- **Nodes were passed for a message**, and nothing else was done for it. -/
structure Passes (ub : Nat) (sent : List Nat) (s s' : State) : Prop where
  reg : s'.reg = s.reg
  cause : s'.cause = s.cause
  brk : s.net.brk ≤ s'.net.brk
  passed : passed ub s'.trace = passed ub s.trace ++ sent.map (Prod.mk s.reg)
  answers : answers ub s'.trace = answers ub s.trace
  sock : ∀ cl, (s'.sock cl).cmdQueue = (s.sock cl).cmdQueue ∧ (s'.sock cl).retmsg = (s.sock cl).retmsg
  hdr : ∀ other < s.net.brk, (s'.buf other).hdr = (s.buf other).hdr

theorem Passes.refl (ub : Nat) (s : State) : Passes ub [] s s :=
  ⟨rfl, rfl, le_rfl, (List.append_nil _).symm, rfl, fun _ => ⟨rfl, rfl⟩, fun _ _ => rfl⟩

theorem Passes.trans {one two : List Nat} (first : Passes ub one s s')
    (second : Passes ub two s' s'') : Passes ub (one ++ two) s s'' where
  reg := second.reg.trans first.reg
  cause := second.cause.trans first.cause
  brk := first.brk.trans second.brk
  passed := by rw [second.passed, first.passed, List.append_assoc, first.reg, List.map_append]
  answers := second.answers.trans first.answers
  sock cl := ⟨(second.sock cl).1.trans (first.sock cl).1, (second.sock cl).2.trans (first.sock cl).2⟩
  hdr other old := (second.hdr other (old.trans_le first.brk)).trans (first.hdr other old)

theorem passes_of_frame {keepFd : Nat → Prop}
    (frame : Frame (Event.Silent ub) (· < s.net.brk) keepFd s s') : Passes ub [] s s' := by
  obtain ⟨new, trace, silent⟩ := frame.trace
  refine ⟨frame.reg, frame.cause, frame.brk, ?_, ?_, fun cl => ⟨frame.cmdQueue cl, frame.retmsg cl⟩,
    fun other old => frame.hdr other old⟩
  · rw [trace, passed_of_silent silent, List.map_nil, List.append_nil]
  · rw [trace, answers_of_silent silent]

theorem passes_sendObj (lib : Libubox) (cl obj : Nat) {s : State} (below : ub < s.net.brk) :
    Passes ub [obj] s (ubusdSendObj lib cl ub obj s) := by
  have logged : Passes ub [obj] s (s.log (.sendObj s.moment cl ub obj)) := by
    refine ⟨rfl, rfl, le_rfl, ?_, rfl, fun _ => ⟨rfl, rfl⟩, fun _ _ => rfl⟩
    simp [State.log, passed, Event.passes, State.moment]
  unfold ubusdSendObj
  simp only
  split
  · exact logged
  split
  · exact logged
  · refine logged.trans (passes_of_frame (Wire.toFrame (wire_fromBlob lib (fun _ old => old) below
      (admitsMonitor_silent lib ub _) (silent_record ?_))))
    exact show MsgType.data.code ≠ MsgType.status.code by decide

theorem passes_sendObjs (lib : Libubox) (cl : Nat) {s : State} (below : ub < s.net.brk)
    (nodes : AvlTree CString) : Passes ub (nodes.map Prod.snd) s (sendObjs lib cl ub nodes s) := by
  induction nodes generalizing s with
  | nil => exact Passes.refl ub s
  | cons node rest ih =>
    have first := passes_sendObj lib cl node.2 below
    exact first.trans (ih (below.trans_le first.brk))

theorem setRetmsg_eq {retmsg : Nat} (is : (s.sock cl).retmsg = some retmsg) :
    setRetmsg cl ub s = s.mapHdr retmsg fun hdr =>
      { hdr with seq := (s.buf ub).hdr.seq, peer := (s.buf ub).hdr.peer } := by
  unfold setRetmsg
  rw [is]

/-- **The status that ends a message.** -/
theorem sendStatus_concludes (lib : Libubox) {retmsg : Nat} {hdr : Msghdr} (status : Status)
    (is : (s.sock cl).retmsg = some retmsg) (old : retmsg < s.net.brk)
    (typed : (s.buf retmsg).hdr.type = MsgType.status.code) (seq : (s.buf retmsg).hdr.seq = hdr.seq)
    (peer : (s.buf retmsg).hdr.peer = hdr.peer) (on : s.cause.buf = some ub)
    (fresh : answers ub s.trace = []) : Concluded cl ub hdr status (sendStatus lib cl status s).trace ∧
      passed ub (sendStatus lib cl status s).trace = passed ub s.trace := by
  obtain ⟨t, set⟩ : ∃ t, s.mapBuf retmsg
    (fun buf => { buf with data := .built [.int32 .status status.code] }) = t := ⟨_, rfl⟩
  have sends : sendStatus lib cl status s = ubusMsgSend lib cl retmsg t := by
    unfold sendStatus
    rw [is, ← set]
  have hdr' : (t.buf retmsg).hdr = (s.buf retmsg).hdr := by simp [← set, State.mapBuf]
  have data' : (t.buf retmsg).data = .built [.int32 .status status.code] := by simp [← set, State.mapBuf]
  have moment : t.moment = s.moment := set ▸ rfl
  have trace : t.trace = s.trace := set ▸ rfl
  have below : retmsg < t.net.brk := set ▸ old
  obtain ⟨records, sent, silent⟩ := send_trace lib cl ub below
  rw [sends, sent, hdr', data', moment, trace]
  have quiet : answers ub (records ++ s.trace) = [] := (answers_of_silent silent _).trans fresh
  exact ⟨⟨[], s.moment, _, records ++ s.trace, rfl, List.forall_mem_nil _, quiet, on, typed, seq, peer⟩,
    passed_of_silent silent s.trace⟩

end Sending

end Ubus
