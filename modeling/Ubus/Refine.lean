/-
**The daemon refines the bus.**

As long as memory does not run out, the daemon does to its registry, and submits to its clients,
what the bus does. Which part of a message is written at once, what waits in a transmit queue and
what a monitor is told makes no difference.

* `Quiet s s'` — the transport worked, and the bus is as before.
* `shows_send`: a call of `ubus_msg_send` is one letter.
* `shows_event`, `shows_freeObject`, `shows_createObject`: one lemma for each function of the bus.
-/

import Ubus.Bus
import Ubus.Work

namespace Ubus

open Lib

variable {type : MsgType} {record : MonitorRecord} {hdr : Msghdr} {obj : Nat}

/-! ### What a state shows -/

/-- The letter of an entry; a monitor record is none. -/
def Event.letter : Event → Option Letter
  | .submit moment dest hdr data =>
    if hdr.type = MsgType.monitor.code then none else some ⟨moment.cause, dest, hdr, data⟩
  | _ => none

/-- The letters of a trace, oldest first. -/
def letters (trace : List Event) : List Letter := (trace.filterMap Event.letter).reverse

/-- **What a state shows of the bus.** -/
def State.bus (s : State) : Bus :=
  { reg := s.reg, stamps := s.stamps, monitors := s.net.monitors.map Monitor.cl, cause := s.cause
    rnd := s.rnd, out := letters s.trace }

/-- No `calloc` fails. -/
def Funded (s : State) : Prop := ∀ ok ∈ s.allocs, ok = true

/-- The state shows this bus, and memory lasts. -/
structure Shows (s : State) (b : Bus) : Prop where
  bus : s.bus = b
  funded : Funded s

/-- A function of the daemon and one of the bus return the same, and leave states that agree. -/
structure Agrees {α : Type} (result : α × State) (result' : α × Bus) : Prop where
  ret : result.1 = result'.1
  shows : Shows result.2 result'.2

/-- The transport worked. -/
structure Quiet (s s' : State) : Prop where
  bus : s'.bus = s.bus
  allocs : s'.allocs <:+ s.allocs

theorem letters_log (event : Event) (trace : List Event) :
    letters (event :: trace) = letters trace ++ event.letter.toList := by
  rw [letters, List.filterMap_cons]
  cases event.letter with
  | none => exact (List.append_nil _).symm
  | some letter => exact List.reverse_cons

section Showing

variable {s s' s'' : State} {b : Bus}

theorem Shows.reg (shows : Shows s b) : s.reg = b.reg := shows.bus ▸ rfl

theorem Shows.stamps (shows : Shows s b) : s.stamps = b.stamps := shows.bus ▸ rfl

theorem Shows.cause (shows : Shows s b) : s.cause = b.cause := shows.bus ▸ rfl

theorem Shows.rnd (shows : Shows s b) : s.rnd = b.rnd := shows.bus ▸ rfl

theorem Shows.mapReg (shows : Shows s b) (f : Registry → Registry) :
    Shows (s.mapReg f) (b.mapReg f) := by
  obtain ⟨rfl, funded⟩ := shows
  exact ⟨rfl, funded⟩

theorem Shows.mapStamps (shows : Shows s b) (f : Stamps → Stamps) :
    Shows { s with stamps := f s.stamps } { b with stamps := f b.stamps } := by
  obtain ⟨rfl, funded⟩ := shows
  exact ⟨rfl, funded⟩

theorem Shows.mapBuf (shows : Shows s b) (ub : Nat) (f : MsgBuf → MsgBuf) :
    Shows (s.mapBuf ub f) b := ⟨shows.bus, shows.funded⟩

theorem Quiet.refl (s : State) : Quiet s s := ⟨rfl, List.suffix_rfl⟩

theorem Quiet.trans (one : Quiet s s') (two : Quiet s' s'') : Quiet s s'' :=
  ⟨two.bus.trans one.bus, two.allocs.trans one.allocs⟩

theorem Quiet.funded (quiet : Quiet s s') (funded : Funded s) : Funded s' :=
  fun ok member => funded ok (quiet.allocs.subset member)

theorem Quiet.shows (quiet : Quiet s s') (shows : Shows s b) : Shows s' b :=
  ⟨quiet.bus.trans shows.bus, quiet.funded shows.funded⟩

theorem Shows.foldl {ι : Type} (Inv : List ι → State → Prop) {body : State → ι → State}
    {body' : Bus → ι → Bus} (items : List ι)
    (round : ∀ s b item rest, Shows s b → Inv (item :: rest) s →
      Shows (body s item) (body' b item) ∧ Inv rest (body s item))
    (shows : Shows s b) (start : Inv items s) :
    Shows (items.foldl body s) (items.foldl body' b) ∧ Inv [] (items.foldl body s) := by
  induction items generalizing s b with
  | nil => exact ⟨shows, start⟩
  | cons item rest ih =>
    obtain ⟨next, inv⟩ := round s b item rest shows start
    exact ih next inv

end Showing

/-! ### The transport is quiet -/

section Transport

variable (lib : Libubox) {s s' : State}

theorem letters_append {new : List Event} (silent : ∀ event ∈ new, event.letter = none)
    (trace : List Event) : letters (new ++ trace) = letters trace := by
  rw [letters, List.filterMap_append, List.filterMap_eq_nil_iff.mpr silent, List.nil_append, letters]

theorem Wire.quiet {keep keepFd : Nat → Prop} (wire : Wire (·.letter = none) keep keepFd s s') :
    Quiet s s' := by
  obtain ⟨new, trace, silent⟩ := wire.trace
  refine ⟨?_, wire.allocs⟩
  rw [State.bus, wire.reg, wire.stamps, wire.monitors, wire.cause, wire.rnd, trace, letters_append silent]
  rfl

theorem quiet_closeFd (fd : Option Nat) (s : State) : Quiet s (closeFd fd s) := by
  cases fd <;> exact ⟨rfl, List.suffix_rfl⟩

theorem quiet_free (ub : Nat) (s : State) : Quiet s (ubusMsgFree ub s) :=
  Wire.quiet (wire_free ub s : Wire _ (fun _ => False) (fun _ => False) s _)

theorem quiet_new (data : Payload) (shared : Bool) (s : State) : Quiet s (ubusMsgNew data shared s).2 :=
  Wire.quiet (wire_new data shared (by simp) : Wire _ (fun _ => False) (fun _ => False) s _)

theorem quiet_transmit (cl ub : Nat) (s : State) : Quiet s (transmit lib cl ub s) :=
  Wire.quiet (wire_transmit lib (by simp) id : Wire _ (fun _ => False) (fun _ => False) s _)

theorem quiet_log {event : Event} (none : event.letter = none) (s : State) : Quiet s (s.log event) :=
  Wire.quiet (wire_log none : Wire _ (fun _ => False) (fun _ => False) s _)

theorem quiet_monitorMessage (cl ub : Nat) (send : Bool) (s : State) :
    Quiet s (ubusdMonitorMessage lib cl ub send s) :=
  Wire.quiet (wire_monitorMessage lib (by simp) (fun _ _ typed _ => if_pos typed) :
    Wire _ (fun _ => False) (fun _ => False) s _)

end Transport

/-! ### Sending -/

section Sending

variable (lib : Libubox) {s : State} {b : Bus} {cl ub : Nat}

/-- **`ubus_msg_send` is one letter**, whether or not there is memory. -/
structure Submits (dest : Nat) (hdr : Msghdr) (data : Payload) (s s' : State) : Prop where
  bus : s'.bus = s.bus.submit dest hdr data
  allocs : s'.allocs <:+ s.allocs

theorem Submits.shows {dest : Nat} {data : Payload} {s' : State}
    (submits : Submits dest hdr data s s') (shows : Shows s b) :
    Shows s' (b.submit dest hdr data) := by
  obtain ⟨rfl, funded⟩ := shows
  exact ⟨submits.bus, fun ok member => funded ok (submits.allocs.subset member)⟩

theorem submits_log (plain : (s.buf ub).hdr.type ≠ MsgType.monitor.code) :
    Submits cl (s.buf ub).hdr (s.buf ub).data s (logSubmit cl ub s) := by
  refine ⟨?_, List.suffix_rfl⟩
  have letter : (Event.submit s.moment cl (s.buf ub).hdr (s.buf ub).data).letter =
      some ⟨s.cause, cl, (s.buf ub).hdr, (s.buf ub).data⟩ := if_neg plain
  have out : letters (logSubmit cl ub s).trace = letters s.trace ++
      [⟨s.cause, cl, (s.buf ub).hdr, (s.buf ub).data⟩] := by
    rw [logSubmit, State.log, letters_log, letter]
    rfl
  rw [State.bus, out]
  rfl

theorem submits_send (cl : Nat) (below : ub < s.net.brk)
    (plain : (s.buf ub).hdr.type ≠ MsgType.monitor.code) :
    Submits cl (s.buf ub).hdr (s.buf ub).data s (ubusMsgSend lib cl ub s) := by
  unfold ubusMsgSend
  split
  · exact submits_log plain
  simp only
  have quiet := quiet_monitorMessage lib cl ub true s
  have frame : Wire (fun _ => True) (· = ub) (fun _ => False) s
      (ubusdMonitorMessage lib cl ub true s) := by
    refine wire_monitorMessage lib ?_ fun _ _ _ _ => trivial
    rintro other (rfl | absurd)
    · exact below
    · exact absurd.elim
  generalize ubusdMonitorMessage lib cl ub true s = t at quiet frame ⊢
  have hdr := frame.hdr ub rfl
  have data := frame.data ub rfl
  have logged : Submits cl _ _ t (logSubmit cl ub t) := submits_log (by rwa [State.buf, hdr])
  rw [State.buf, hdr, data] at logged
  have last := quiet_transmit lib cl ub (logSubmit cl ub t)
  exact ⟨last.bus.trans (by rw [logged.bus, quiet.bus]),
    (last.allocs.trans logged.allocs).trans quiet.allocs⟩

theorem shows_send (shows : Shows s b) (below : ub < s.net.brk)
    (plain : (s.buf ub).hdr.type ≠ MsgType.monitor.code) :
    Shows (ubusMsgSend lib cl ub s) (b.submit cl (s.buf ub).hdr (s.buf ub).data) :=
  (submits_send lib cl below plain).shows shows

theorem shows_sendTo {dest : Option Nat} (shows : Shows s b) (below : ub < s.net.brk)
    (plain : (s.buf ub).hdr.type ≠ MsgType.monitor.code) :
    Shows (ubusMsgSendTo lib dest ub s) (b.submitTo dest (s.buf ub).hdr (s.buf ub).data) := by
  cases dest with
  | none =>
    obtain ⟨rfl, funded⟩ := shows
    exact ⟨rfl, funded⟩
  | some dest => exact shows_send lib shows below plain

theorem Shows.new (shows : Shows s b) (data : Payload) (shared : Bool) :
    ∃ ub t, ubusMsgNew data shared s = (some ub, t) ∧ Shows t b ∧ ub = s.net.brk ∧
      ub < t.net.brk ∧ t.buf ub = { refcount := if shared then .external else .count 1, data, live := true } := by
  have quiet := quiet_new data shared s
  rcases result : ubusMsgNew data shared s with ⟨_ | ub, t⟩
  · exfalso
    unfold ubusMsgNew State.calloc at result
    rcases allocs : s.allocs with _ | ⟨ok, rest⟩
    · rw [allocs] at result
      cases result
    have isOk := shows.funded ok (by rw [allocs]; exact List.mem_cons_self)
    subst isOk
    rw [allocs] at result
    cases result
  · rw [result] at quiet
    have made : Made (fun _ => True) (fun _ => False) s t ub := Made.new (by simp) result
    exact ⟨ub, t, rfl, quiet.shows shows, (ubusMsgNew_some result).1, made.below,
      ubusMsgNew_buf result⟩

theorem shows_sendNumbered (shows : Shows s b) (obj : Nat) (plain : type ≠ .monitor)
    (puts : List Put) :
    Shows (sendNumbered lib obj type puts s) (b.sendNumbered obj type puts) := by
  obtain ⟨ub, t, made, ⟨rfl, funded⟩, -, below, buf⟩ := shows.new (.built puts) false
  unfold sendNumbered
  rw [made]
  simp only
  refine (quiet_free ub _).shows ?_
  generalize filled : State.mapHdr ub (fun _ =>
    { type := type.code, seq := t.stamps.invokeSeq obj + 1, peer := 0 }) _ = u
  have here : u.buf ub = { t.buf ub with
      hdr := { type := type.code, seq := t.stamps.invokeSeq obj + 1, peer := 0 } } := by
    rw [← filled]
    simp [State.mapHdr, State.mapBuf]
  have showsU : Shows u { t.bus with stamps := { t.stamps with
      invokeSeq := Function.update t.stamps.invokeSeq obj (t.stamps.invokeSeq obj + 1) } } := by
    rw [← filled]
    exact ⟨rfl, funded⟩
  have sent : Shows (ubusMsgSendTo lib (u.reg.object obj).client ub u) _ :=
    shows_sendTo lib showsU (by rw [← filled]; exact below) (by
      rw [here]
      simpa using plain)
  rw [here, buf, showsU.reg] at sent
  rw [showsU.reg]
  exact sent

theorem fromBlob_ready {new : Nat} {t : State} (type : MsgType) {puts : List Put} (fd : Option Nat)
    (below : ub < s.net.brk) (made : ubusMsgNew (.built puts) true s = (some new, t)) :
    ∃ u, (t.mapBuf new fun buf => { buf with
        hdr := { type := type.code, seq := (t.buf ub).hdr.seq, peer := (t.buf ub).hdr.peer }, fd }) = u ∧
      Quiet s u ∧ new < u.net.brk ∧ (u.buf new).data = .built puts ∧ (u.buf new).hdr =
        { type := type.code, seq := (s.buf ub).hdr.seq, peer := (s.buf ub).hdr.peer } := by
  have quiet := quiet_new (.built puts) true s
  have isMade : Made (fun _ => True) (fun _ => False) s t new := Made.new (by simp) made
  have frame : Wire (fun _ => True) (· = ub) (fun _ => False) s
      (ubusMsgNew (.built puts) true s).2 := by
    refine wire_new _ _ ?_
    rintro other (rfl | absurd)
    · exact below
    · exact absurd.elim
  rw [made] at quiet frame
  have hdr : (t.net.buf ub).hdr = (s.net.buf ub).hdr := frame.hdr ub rfl
  refine ⟨_, rfl, quiet.trans ⟨rfl, List.suffix_rfl⟩, isMade.below, ?_, ?_⟩
  · simp [State.mapBuf, ubusMsgNew_buf made]
  · simp [State.mapBuf, hdr]

theorem shows_fromBlob (shows : Shows s b) (dest : Option Nat) (plain : type ≠ .monitor)
    (puts : List Put) (below : ub < s.net.brk) :
    Shows (ubusProtoSendMsgFromBlob lib dest ub type puts s)
      (b.reply dest (s.buf ub).hdr type puts) := by
  obtain ⟨new, t, made, -, -, -, -⟩ := shows.new (.built puts) true
  obtain ⟨u, filled, quiet, belowU, data, hdr⟩ := fromBlob_ready type (s.buf ub).fd below made
  unfold ubusProtoSendMsgFromBlob
  simp only [made, filled]
  refine (quiet_free _ _).shows ?_
  have sent : Shows (ubusMsgSendTo lib dest new u) _ :=
    shows_sendTo lib (quiet.shows shows) belowU (by
      rw [hdr]
      simpa using plain)
  rw [hdr, data] at sent
  exact sent

theorem bus_fromBlob (dest : Nat) (plain : type ≠ .monitor) (puts : List Put)
    (below : ub < s.net.brk) : (ubusProtoSendMsgFromBlob lib (some dest) ub type puts s).bus =
      if s.calloc.1 then s.bus.reply (some dest) (s.buf ub).hdr type puts else s.bus := by
  rcases called : s.calloc with ⟨_ | _, t⟩
  · have made : ubusMsgNew (.built puts) true s = (none, t) := by rw [ubusMsgNew, called]
    have quiet := quiet_new (.built puts) true s
    rw [made] at quiet
    simp only [ubusProtoSendMsgFromBlob, made, Bool.false_eq_true, if_false]
    exact (quiet_closeFd _ t).bus.trans quiet.bus
  · have made : ubusMsgNew (.built puts) true s = (some t.net.brk, allocBuf (.built puts) true t) := by
      rw [ubusMsgNew, called]
    obtain ⟨u, filled, quiet, belowU, data, hdr⟩ := fromBlob_ready type (s.buf ub).fd below made
    have sent := submits_send lib dest belowU (by
      rw [hdr]
      simpa using plain)
    rw [hdr, data] at sent
    simp only [ubusProtoSendMsgFromBlob, made, filled, if_true]
    rw [(quiet_free _ _).bus]
    exact sent.bus.trans (by rw [quiet.bus]; rfl)

end Sending

/-! ### Events -/

section Events

variable (lib : Libubox) {s t : State} {b : Bus}

/-- The buffer of an event, once there is one. -/
def EventBuf (ub : Option Nat) (s : State) : Prop :=
  ∀ u, ub = some u → u < s.net.brk ∧ EventHdr (s.buf u).hdr

theorem shows_eventFill {ub : Option Nat} (rest : List Put) (shows : Shows t b)
    (event : EventBuf ub t) :
    ∃ u t', eventFill rest ub t = (some u, t') ∧ Shows t' b ∧ EventBuf (some u) t' := by
  cases ub with
  | some u => exact ⟨u, t, rfl, shows, event⟩
  | none =>
    obtain ⟨u, t', made, shows', -, below, buf⟩ := shows.new (.built (.int32 .objid 0 :: rest)) true
    unfold eventFill
    simp only [made]
    refine ⟨u, _, rfl, ⟨shows'.bus, shows'.funded⟩, ?_⟩
    rintro _ same
    obtain rfl := Option.some.inj same
    refine ⟨below, ?_⟩
    simp [EventHdr, State.mapHdr, State.mapBuf, show t'.net.buf u = _ from buf]

theorem EventHdr.eq (event : EventHdr hdr) (seq : UInt16) :
    { hdr with seq } = { type := MsgType.invoke.code, seq, peer := 0 } := by
  obtain ⟨version, type, _, peer⟩ := hdr
  obtain ⟨rfl, rfl, rfl⟩ := event
  rfl

theorem shows_sendEventMsg {cl : Option Nat} {rest : List Put} {ub : Option Nat}
    (shows : Shows t b) (event : EventBuf ub t) :
    ∃ ub' t', ubusdSendEventMsg lib cl obj rest ub t = (.ok, ub', t') ∧
      Shows t' (b.eventMsg cl rest obj) ∧ EventBuf ub' t' := by
  have reg := shows.reg
  have stamps := shows.stamps
  unfold ubusdSendEventMsg Bus.eventMsg
  rw [reg, stamps]
  by_cases own : (b.reg.object obj).client = cl
  · rw [if_pos own, if_pos own]
    exact ⟨ub, t, rfl, shows, event⟩
  rw [if_neg own, if_neg own]
  by_cases seen : b.stamps.eventSeen obj = b.stamps.objEventSeq
  · rw [if_pos seen, if_pos seen]
    exact ⟨ub, t, rfl, shows, event⟩
  rw [if_neg seen, if_neg seen]
  have marked : Shows (markSeen obj t) { b with stamps := { b.stamps with
      eventSeen := Function.update b.stamps.eventSeen obj b.stamps.objEventSeq } } :=
    shows.mapStamps fun stamps => { stamps with
      eventSeen := Function.update stamps.eventSeen obj stamps.objEventSeq }
  have eventM : EventBuf ub (markSeen obj t) := event
  obtain ⟨u, t', filled, shows', event'⟩ := shows_eventFill rest marked eventM
  obtain ⟨below, hdr⟩ := event' u rfl
  rw [filled]
  simp only [eventDeliver]
  generalize ready : State.mapBuf u _ _ = v
  have here : (v.buf u).hdr = { type := MsgType.invoke.code, seq := b.stamps.eventSeq + 1, peer := 0 } ∧
      (v.buf u).data = .built (.int32 .objid (b.reg.object obj).id :: rest) := by
    rw [← ready]
    simp only [State.mapBuf, State.buf, Function.update_self, shows'.stamps, shows'.reg]
    exact ⟨hdr.eq _, trivial⟩
  have showsV : Shows v { b with stamps := { b.stamps with
      eventSeen := Function.update b.stamps.eventSeen obj b.stamps.objEventSeq
      eventSeq := b.stamps.eventSeq + 1 } } := by
    rw [← ready]
    exact (shows'.mapStamps fun stamps => { stamps with
      eventSeq := stamps.eventSeq + 1 }).mapBuf u _
  have belowV : u < v.net.brk := by rw [← ready]; exact below
  have plain : (v.buf u).hdr.type ≠ MsgType.monitor.code := by
    rw [here.1]
    exact (by decide : MsgType.invoke.code ≠ MsgType.monitor.code)
  refine ⟨some u, _, rfl, ?_, ?_⟩
  · have sent : Shows (ubusMsgSendTo lib (v.reg.object obj).client u v) _ :=
      shows_sendTo lib showsV belowV plain
    rw [here.1, here.2, showsV.reg] at sent
    rw [showsV.reg]
    exact sent
  · rintro _ same
    obtain rfl := Option.some.inj same
    refine ⟨belowV.trans_le (sendTo_keeps lib belowV).1, ?_⟩
    rw [State.buf, ((sendTo_keeps lib belowV).2 u belowV).1, show (v.net.buf u).hdr = _ from here.1]
    exact ⟨rfl, rfl, rfl⟩

theorem shows_eventRounds (cl : Option Nat) (rest : List Put) (reg : Registry) {ub : Option Nat}
    (nodes : AvlTree CString) (shows : Shows t b) (event : EventBuf ub t) :
    ∃ ub' t', foldStop (eventRound lib cl rest reg) nodes (.ok, ub, t) = (.ok, ub', t') ∧
      Shows t' ((nodes.map fun node => (reg.eventSource node.2).obj).foldl (Bus.eventMsg cl rest) b) := by
  induction nodes generalizing ub t b with
  | nil => exact ⟨ub, t, rfl, shows⟩
  | cons node nodes ih =>
    obtain ⟨ub', t', sent, shows', event'⟩ : ∃ ub' t', ubusdSendEventMsg lib cl
        (reg.eventSource node.2).obj rest ub t = (.ok, ub', t') ∧ _ :=
      shows_sendEventMsg lib shows event
    have round : eventRound lib cl rest reg node (.ok, ub, t) = ((.ok, ub', t'), false) := by
      simp [eventRound, sent]
    rw [foldStop, round]
    exact ih shows' event'

/-- **An event reaches the objects that listen.** -/
theorem shows_event (cl : Option Nat) (id : CString) (rest : List Put) (shows : Shows s b)
    (sorted : b.reg.patterns.Sorted) :
    Agrees (ubusdSendEvent lib cl id rest s) (b.sendEvent lib cl id rest) := by
  have reg := shows.reg
  unfold ubusdSendEvent Bus.sendEvent
  rw [reg]
  split
  · exact ⟨rfl, shows⟩
  have bumped : Shows (bumpObjEventSeq s) b.bumpObjEventSeq :=
    shows.mapStamps fun stamps => { stamps with
      objEventSeq := if stamps.objEventSeq + 1 = 0 then 1 else stamps.objEventSeq + 1 }
  have reg' : (bumpObjEventSeq s).reg = b.reg := reg
  obtain ⟨ub, t, walked, shows'⟩ := shows_eventRounds lib cl rest b.reg
    (b.reg.listeners id) bumped ((nomatch ·, ·) : EventBuf none _)
  rw [eventWalk_eq lib cl id rest (reg'.symm ▸ sorted), reg', walked]
  cases ub with
  | none => exact ⟨rfl, shows'⟩
  | some ub => exact ⟨rfl, (quiet_free ub t).shows shows'⟩

theorem shows_objEvent {add : Bool} (shows : Shows s b) (sorted : b.reg.patterns.Sorted) :
    Shows (ubusdSendObjEvent lib obj add s) (b.sendObjEvent lib obj add) := by
  have sent := (shows_event lib none (objEventId add)
    (objectEventMsg (objEventId add) (b.reg.object obj)) shows sorted).shows
  rw [ubusdSendObjEvent, shows.reg]
  exact sent

end Events

/-! ### Subscriptions -/

section Subscriptions

variable (lib : Libubox) {s : State} {b : Bus}

theorem shows_notifySubscription (shows : Shows s b) (obj : Nat) :
    Shows (ubusNotifySubscription lib obj s) (b.notifySubscription obj) := by
  unfold ubusNotifySubscription Bus.notifySubscription
  rw [shows.reg]
  exact shows_sendNumbered lib shows obj (by decide) _

theorem shows_subscribe (shows : Shows s b) (obj target : Nat) :
    Shows (ubusSubscribe lib obj target s).2 (b.subscribe obj target) := by
  have linked := shows.mapReg (newSubscription obj target)
  unfold ubusSubscribe Bus.subscribe
  rw [shows.reg]
  simp only
  split
  · exact shows_notifySubscription lib linked target
  · exact linked

theorem shows_unsubscribe (shows : Shows s b) (sub : Nat) :
    Shows (ubusUnsubscribe lib s sub) (b.unsubscribe sub) := by
  have unlinked := shows.mapReg (unlinkSubscription sub)
  have reg := unlinked.reg
  unfold ubusUnsubscribe Bus.unsubscribe
  rw [shows.reg]
  simp only [reg]
  split
  · exact shows_notifySubscription lib unlinked _
  · exact unlinked

theorem shows_notifyUnsubscribe (shows : Shows s b) (sub : Nat) :
    Shows (ubusNotifyUnsubscribe lib s sub) (b.notifyUnsubscribe sub) := by
  unfold ubusNotifyUnsubscribe Bus.notifyUnsubscribe
  rw [shows.reg]
  exact shows_unsubscribe lib (shows_sendNumbered lib shows _ (by decide) _) sub

end Subscriptions

/-! ### Objects -/

section Objects

variable (lib : Libubox) {s : State} {b : Bus}

theorem unlinkSubscription_patterns (sub : Nat) (reg : Registry) :
    (unlinkSubscription sub reg).patterns = reg.patterns := rfl

theorem sorted_eventCleanup {reg : Registry} (sorted : reg.patterns.Sorted) (obj : Nat) :
    (ubusdEventCleanupObject obj reg).patterns.Sorted := by
  unfold ubusdEventCleanupObject
  generalize (reg.object obj).events = events
  induction events generalizing reg with
  | nil => exact sorted
  | cons ev rest ih => exact ih (AvlTree.sorted_delete sorted)

theorem unsubscribes_patterns (subs : List Nat) (b : Bus) :
    (subs.foldl Bus.unsubscribe b).reg.patterns = b.reg.patterns := by
  induction subs generalizing b with
  | nil => rfl
  | cons sub rest ih => rw [List.foldl_cons, ih, Bus.unsubscribe_reg, unlinkSubscription_patterns]

theorem notifyUnsubscribes_patterns (subs : List Nat) (b : Bus) :
    (subs.foldl Bus.notifyUnsubscribe b).reg.patterns = b.reg.patterns := by
  induction subs generalizing b with
  | nil => rfl
  | cons sub rest ih =>
    rw [List.foldl_cons, ih, Bus.notifyUnsubscribe_reg, unlinkSubscription_patterns]

theorem shows_announceRemoval (shows : Shows s b) (sorted : b.reg.patterns.Sorted) (obj : Nat) :
    Shows (announceRemoval lib obj s) (b.announceRemoval lib obj) := by
  unfold announceRemoval Bus.announceRemoval
  rw [shows.reg]
  cases (b.reg.object obj).path with
  | none => exact shows
  | some path => exact shows_objEvent lib shows sorted

/-- **Removing an object.** -/
theorem shows_freeObject (shows : Shows s b) (sorted : b.reg.patterns.Sorted) (obj : Nat) :
    Shows (ubusdFreeObject lib s obj) (b.freeObject lib obj) := by
  unfold ubusdFreeObject Bus.freeObject
  rw [shows.reg]
  simp only
  have targets := (Shows.foldl (fun _ _ => True) (b.reg.object obj).targetList
    (fun _ _ sub _ shows _ => ⟨shows_unsubscribe lib shows sub, trivial⟩) shows trivial).1
  have patterns := unsubscribes_patterns (b.reg.object obj).targetList b
  generalize (b.reg.object obj).targetList.foldl Bus.unsubscribe b = b1 at targets patterns ⊢
  generalize (b.reg.object obj).targetList.foldl (ubusUnsubscribe lib) s = s1 at targets ⊢
  rw [targets.reg]
  have subscribers := (Shows.foldl (fun _ _ => True) (b1.reg.object obj).subscribers
    (fun _ _ sub _ shows _ => ⟨shows_notifyUnsubscribe lib shows sub, trivial⟩) targets trivial).1
  have patterns' := notifyUnsubscribes_patterns (b1.reg.object obj).subscribers b1
  have cleaned := subscribers.mapReg (ubusdEventCleanupObject obj)
  refine (shows_announceRemoval lib cleaned (sorted_eventCleanup ?_ obj) obj).mapReg _
  rw [patterns', patterns]
  exact sorted

theorem unref_patterns (type : Option Nat) (reg : Registry) :
    (unrefType type reg).patterns = reg.patterns := by
  cases type with
  | none => rfl
  | some type =>
    unfold unrefType ubusUnrefObjectType
    simp only
    split <;> rfl

theorem objectType_patterns (attr : Attrs) (rnd : List UInt32) (reg : Registry) :
    (objectType lib attr rnd reg).2.2.patterns = reg.patterns := by
  unfold objectType ubusGetObjType ubusCreateObjType
  cases attr .objtype with
  | some objtype =>
    simp only
    cases reg.objTypes.find (lib.blobGetU32 objtype) <;> rfl
  | none =>
    cases attr .signature with
    | none => rfl
    | some sig =>
      simp only
      rcases ubusAllocId reg.objTypes reg.brk rnd with ⟨_ | ⟨id, objTypes⟩, rnd'⟩
      · rfl
      · cases signatureMethods lib sig with
        | none => exact unref_patterns (some reg.brk) _
        | some methods => rfl

theorem allocObject_patterns (attr : Attrs) (rnd : List UInt32) (reg : Registry) :
    (allocObject lib attr rnd reg).2.2.patterns = reg.patterns := by
  unfold allocObject ubusdCreateObjectInternal
  have typed := objectType_patterns lib attr rnd reg
  generalize objectType lib attr rnd reg = result at typed ⊢
  obtain ⟨type, rnd', reg'⟩ := result
  simp only [unref_patterns]
  rcases ubusAllocId reg'.objects reg'.brk rnd' with ⟨_ | ⟨id, objects⟩, rnd''⟩
  · exact typed
  · cases type <;> exact typed

/-- **Adding an object.** -/
theorem shows_createObject (shows : Shows s b) (sorted : b.reg.patterns.Sorted) (cl : Nat)
    (attr : Attrs) :
    Agrees (ubusdCreateObject lib cl attr s) (b.createObject lib cl attr) := by
  unfold ubusdCreateObject Bus.createObject
  rw [shows.reg, shows.rnd]
  have patterns := allocObject_patterns lib attr b.rnd b.reg
  generalize allocObject lib attr b.rnd b.reg = result at patterns ⊢
  obtain ⟨obj, rnd, reg⟩ := result
  simp only
  have made : Shows { s with reg, rnd } { b with reg, rnd } := by
    obtain ⟨rfl, funded⟩ := shows
    exact ⟨rfl, funded⟩
  have sorted' : reg.patterns.Sorted := by
    rw [show reg.patterns = b.reg.patterns from patterns]
    exact sorted
  cases obj with
  | none => exact ⟨rfl, made⟩
  | some obj =>
    cases attr .objpath with
    | none => exact ⟨rfl, made.mapReg _⟩
    | some objpath =>
      simp only
      split
      · exact ⟨rfl, shows_freeObject lib made sorted' obj⟩
      unfold insertPath
      cases reg.path.insertNew (lib.blobString objpath) obj with
      | none => exact ⟨rfl, shows_freeObject lib made sorted' obj⟩
      | some path =>
        refine ⟨rfl, Shows.mapReg (shows_objEvent lib ?_ ?_) _⟩
        · exact made.mapReg fun reg => { reg.mapObject obj fun obj => { obj with
            path := some (lib.blobString objpath) } with path }
        · exact sorted'

end Objects

end Ubus
