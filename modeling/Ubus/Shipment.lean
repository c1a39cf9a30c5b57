/-
**The work of the daemon on the pipes.**

Every function of the daemon works on the pipes by calls of `ubus_msg_send` alone. The buffers whose
contents it changes are external, new, or the received message, and none of them is queued then.

* `Act.ships`, `Ending.ships`: the parts of a handler.
* `ships_dispatch`, `ships_receiveMessage`, `ships_resumeCmd`: a message is handled, or resumed.
* `ships_disconnect`: a client leaves, and what is queued for it is dropped.
-/

import Ubus.Effects
import Ubus.Traffic
import Ubus.Turns

namespace Ubus

open Lib Relation

/-! ### Messages -/

section Messages

variable {lib : Libubox} {mon may : Nat → Prop} {fund : Prop} {cl ub : Nat} {s s' : State}

theorem still_of_net (net : s'.net = s.net) (trace : submissions lib s'.trace = submissions lib s.trace)
    (allocs : s'.allocs = s.allocs) : Still lib Nothing s s' :=
  Still.of_net (fun _ => by rw [net]) (fun _ => by rw [net]) (by rw [net]) trace (by rw [net])
    (by rw [net]) allocs

theorem ships_of_net (net : s'.net = s.net) (trace : submissions lib s'.trace = submissions lib s.trace)
    (allocs : s'.allocs = s.allocs) : Ships lib mon fund may s s' :=
  (still_of_net net trace allocs).quietly

theorem ships_mapReg (f : Registry → Registry) (s : State) :
    Ships lib mon fund may s (s.mapReg f) :=
  ships_of_net rfl rfl rfl

theorem ships_sendTo (dest : Option Nat) (old : ub < s.net.brk) :
    Ships lib mon fund (Itself ub s) s (ubusMsgSendTo lib dest ub s) := by
  cases dest with
  | none => exact ships_of_net rfl rfl rfl
  | some cl => exact ships_send old

theorem ships_sendTo_external (dest : Option Nat) (old : ub < s.net.brk)
    (external : (s.net.buf ub).refcount = .external) :
    Ships lib mon fund may s (ubusMsgSendTo lib dest ub s) :=
  (ships_sendTo dest old).mono fun _ itself _ => absurd external itself.2

theorem ships_fromBlob (dest : Option Nat) (ub : Nat) (type : MsgType) (puts : List Put) (s : State) :
    Ships lib mon fund may s (ubusProtoSendMsgFromBlob lib dest ub type puts s) := by
  have made : Still lib Nothing s (ubusMsgNew (.built puts) true s).2 := still_new _ _ s
  unfold ubusProtoSendMsgFromBlob
  simp only
  rcases result : ubusMsgNew (.built puts) true s with ⟨_ | new, t⟩
  · rw [result] at made
    exact (made.trans (still_closeFd _ t)).quietly
  simp only
  generalize filled : State.mapBuf new _ t = u
  have addressed : Still lib Nothing s u := by
    rw [← filled]
    exact still_made result _
  have external : new < u.net.brk ∧ (u.net.buf new).refcount = .external := by
    rw [← filled]
    exact made_external result fun _ => rfl
  exact (addressed.quietly.trans (ships_sendTo_external dest external.1 external.2)).trans
    (still_free new _).quietly

theorem ships_sendNumbered (obj : Nat) (type : MsgType) (puts : List Put) (s : State) :
    Ships lib mon fund may s (sendNumbered lib obj type puts s) := by
  have made : Still lib Nothing s (ubusMsgNew (.built puts) false s).2 := still_new _ _ s
  unfold sendNumbered
  rcases result : ubusMsgNew (.built puts) false s with ⟨_ | new, t⟩
  · rw [result] at made
    exact made.quietly
  simp only
  generalize filled : State.mapHdr new _ _ = u
  have numbered : Still lib Nothing s u := by
    rw [← filled]
    exact (still_made result fun buf => { buf with hdr := _ }).trans (still_of_net rfl rfl rfl)
  obtain ⟨fresh, below⟩ : s.net.brk ≤ new ∧ new < u.net.brk := by
    obtain ⟨rfl, rfl⟩ := ubusMsgNew_some result
    refine ⟨le_rfl, ?_⟩
    rw [← filled]
    show s.net.brk < s.calloc.2.net.brk + 1
    rw [calloc_net]
    exact Nat.lt_succ_self _
  have sent : Ships lib mon fund (· = new) u (ubusMsgSendTo lib (u.reg.object obj).client new u) :=
    (ships_sendTo _ below).mono fun _ itself _ => itself.1
  refine ((numbered.quietly.trans sent).trans (still_free new _).quietly).mono fun other same old => ?_
  exact absurd old (by rw [same]; exact not_lt.mpr fresh)

/-- The buffer of an event, if it was made. -/
def EventBuffer (ub : Option Nat) (s : State) : Prop :=
  ∀ new, ub = some new → new < s.net.brk ∧ (s.net.buf new).refcount = .external

theorem Shipped.eventBuffer {buffer : Option Nat} (shipped : Shipped lib mon fund may s s')
    (has : EventBuffer buffer s) : EventBuffer buffer s' := by
  intro new is
  obtain ⟨old, external⟩ := has new is
  exact ⟨old.trans_le shipped.brk, (shipped.external new old).mpr external⟩

theorem shipped_eventFill (tidy : Tidy mon fund s) (rest : List Put) {buffer : Option Nat}
    (has : EventBuffer buffer s) : Shipped lib mon fund may s (eventFill rest buffer s).2 ∧
      EventBuffer (eventFill rest buffer s).1 (eventFill rest buffer s).2 := by
  unfold eventFill
  cases buffer with
  | some new => exact ⟨Ships.refl s tidy, has⟩
  | none =>
    have made : Still lib Nothing s (ubusMsgNew (.built (.int32 .objid 0 :: rest)) true s).2 :=
      still_new _ _ s
    simp only
    rcases result : ubusMsgNew (.built (.int32 .objid 0 :: rest)) true s with ⟨_ | new, t⟩
    · rw [result] at made
      exact ⟨made.quietly tidy, nofun⟩
    · refine ⟨(still_made result fun buf => { buf with hdr := _ }).quietly tidy, fun other same => ?_⟩
      cases same
      exact made_external result (f := fun buf => { buf with hdr := _ }) fun _ => rfl

theorem ships_eventDeliver (obj : Nat) (rest : List Put) (old : ub < s.net.brk)
    (external : (s.net.buf ub).refcount = .external) :
    Ships lib mon fund may s (eventDeliver lib obj rest ub s) := by
  unfold eventDeliver
  simp only
  generalize stamped : ({ s with stamps := { s.stamps with eventSeq := s.stamps.eventSeq + 1 } } : State) = t
  have counted : Still lib Nothing s t := stamped ▸ still_of_net rfl rfl rfl
  generalize filled : State.mapBuf ub _ t = u
  have external' := (counted.external ub old).mpr external
  have old' := old.trans_le counted.brk
  have written : Ships lib mon fund may t u := by
    rw [← filled]
    exact ships_mapBuf (fun tidy queued => tidy.plain ub queued external') rfl
  refine (counted.quietly.trans written).bind fun shipped => ?_
  exact ships_sendTo_external _ (old.trans_le shipped.brk) ((shipped.external ub old).mpr external)

theorem shipped_sendEventMsg (tidy : Tidy mon fund s) (cl : Option Nat) (obj : Nat) (rest : List Put)
    {buffer : Option Nat} (has : EventBuffer buffer s) :
    Shipped lib mon fund may s (ubusdSendEventMsg lib cl obj rest buffer s).2.2 ∧
      EventBuffer (ubusdSendEventMsg lib cl obj rest buffer s).2.1
        (ubusdSendEventMsg lib cl obj rest buffer s).2.2 := by
  unfold ubusdSendEventMsg
  split
  · exact ⟨Ships.refl s tidy, has⟩
  split
  · exact ⟨Ships.refl s tidy, has⟩
  have marked : Ships lib mon fund may s (markSeen obj s) := ships_of_net rfl rfl rfl
  have filled : Shipped lib mon fund may (markSeen obj s) _ ∧ _ := shipped_eventFill (marked tidy).tidy rest
    ((marked tidy).eventBuffer has)
  rcases result : eventFill rest buffer (markSeen obj s) with ⟨_ | new, t⟩
  · rw [result] at filled
    exact ⟨marked.trans (fun _ => filled.1) tidy, nofun⟩
  rw [result] at filled
  obtain ⟨old, external⟩ := filled.2 new rfl
  have sent : Ships lib mon fund may t (eventDeliver lib obj rest new t) :=
    ships_eventDeliver obj rest old external
  exact ⟨(marked.trans fun _ => filled.1).trans sent tidy, (sent filled.1.tidy).eventBuffer filled.2⟩

theorem ships_sendEvent (cl : Option Nat) (id : CString) (rest : List Put) (s : State) :
    Ships lib mon fund may s (ubusdSendEvent lib cl id rest s).2 := by
  intro tidy
  have bumped : Ships lib mon fund may s (bumpObjEventSeq s) := ships_of_net rfl rfl rfl
  have walked : Shipped lib mon fund may s (eventWalk lib cl id rest (bumpObjEventSeq s)).2.2 ∧
      EventBuffer (eventWalk lib cl id rest (bumpObjEventSeq s)).2.1
        (eventWalk lib cl id rest (bumpObjEventSeq s)).2.2 := by
    refine prunedWalk_invariant (fun acc : Status × Option Nat × State =>
      Shipped lib mon fund may s acc.2.2 ∧ EventBuffer acc.2.1 acc.2.2) _ ?_ _ _
      ⟨bumped tidy, nofun⟩
    intro node _ acc before
    have next : Shipped lib mon fund may acc.2.2 _ ∧ _ := shipped_sendEventMsg before.1.tidy cl
      ((bumpObjEventSeq s).reg.eventSource node.2).obj rest before.2
    exact ⟨Ships.trans (fun _ => before.1) (fun _ => next.1) tidy, next.2⟩
  unfold ubusdSendEvent
  split
  · exact Ships.refl s tidy
  generalize eventWalk lib cl id rest (bumpObjEventSeq s) = result at walked ⊢
  obtain ⟨ret, _ | new, t⟩ := result
  · exact walked.1
  · exact Ships.trans (fun _ => walked.1) (still_free new t).quietly tidy

end Messages

/-! ### Handlers -/

section Handlers

variable {lib : Libubox} {mon may own : Nat → Prop} {fund : Prop} {cl ub : Nat} {s s' : State}

theorem Act.ships (act : Act lib own s s') (free : ∀ ub, own ub → ¬ s.net.Queued ub) :
    Ships lib mon fund may s s' := by
  cases act with
  | set => exact ships_of_net rfl rfl rfl
  | log => exact ships_of_net rfl rfl rfl
  | blob dest ub type puts => exact ships_fromBlob dest ub type puts s
  | numbered obj type puts => exact ships_sendNumbered obj type puts s
  | event cl id rest => exact ships_sendEvent cl id rest s
  | touch mine refcount => exact ships_mapBuf (fun _ => free _ mine) (refcount _)

theorem Shipped.free (shipped : Shipped lib mon fund Nothing s s') (free : ¬ s.net.Queued ub)
    (old : ub < s.net.brk) : ¬ s'.net.Queued ub := fun queued =>
  (shipped.queued ub queued).elim free fun rest =>
    rest.elim (fun fresh => absurd old (not_lt.mpr fresh)) id

theorem ships_path (path : ReflTransGen (Act lib own) s s') (free : ∀ ub, own ub → ¬ s.net.Queued ub)
    (old : ∀ ub, own ub → ub < s.net.brk) : Ships lib mon fund Nothing s s' := by
  induction path with
  | refl => exact Ships.refl s
  | tail _ act ih =>
    exact ih.bind fun shipped => act.ships fun ub mine => shipped.free (free ub mine) (old ub mine)

theorem Acts.ships {reg : Registry} (acts : Acts lib Nothing reg s s') : Ships lib mon fund may s s' :=
  (ships_path acts.path (fun _ => False.elim) fun _ => False.elim).mono fun _ nothing _ => nothing.elim

theorem ships_mapSock {f : Sock → Sock} (tx : ∀ sock, (f sock).tx = sock.tx)
    (retmsg : ∀ sock, (f sock).retmsg = sock.retmsg) (s : State) :
    Ships lib mon fund may s (s.mapSock cl f) := by
  have still : Still lib Nothing s (s.mapSock cl f) :=
    Still.of_net (update_keeps Sock.tx s.net.sock (tx _)) (update_keeps Sock.retmsg s.net.sock (retmsg _))
      rfl rfl rfl rfl rfl
  exact still.quietly

theorem ships_monitors {monitors : List Monitor}
    (watched : Tidy mon fund s → ∀ m ∈ monitors, mon m.cl) :
    Ships lib mon fund may s { s with net := { s.net with monitors } } := fun tidy =>
  ⟨.refl, ⟨tidy.below, tidy.plain, tidy.status, watched tidy, tidy.funded⟩, le_rfl, fun _ => Or.inl,
    fun _ _ => Iff.rfl⟩

theorem ships_monitorDisconnect (cl : Nat) (s : State) :
    Ships lib mon fund may s (ubusdMonitorDisconnect cl s) :=
  ships_monitors fun tidy m member => tidy.watch m (List.eraseP_subset member)

theorem Ending.ships {watch sends : Prop} (ending : Ending lib cl ub watch sends s s')
    (old : sends → ub < s.net.brk) (watching : watch → mon cl) :
    Ships lib mon fund (fun other => other = ub ∧ sends) s s' := by
  cases ending with
  | done => exact Ships.refl s
  | sent may dest => exact (ships_send (old may)).mono fun _ itself _ => ⟨itself.1, may⟩
  | queued tx retmsg => exact ships_mapSock tx retmsg s
  | left => exact ships_monitorDisconnect cl s
  | joined adds =>
    refine (ships_monitorDisconnect cl s).trans (ships_monitors fun tidy m member => ?_)
    rcases List.mem_append.mp member with member | member
    · exact tidy.watch m member
    · exact List.mem_singleton.mp member ▸ watching adds

theorem ships_dispatch (free : ¬ s.net.Queued ub) (old : ub < s.net.brk)
    (watching : (s.net.buf ub).hdr.type = MsgType.invoke.code →
      AddsMonitor lib s.reg (ubusParseMsg lib (s.net.buf ub).data) → mon cl) :
    Ships lib mon fund (fun other => other = ub ∧ (s.net.buf ub).hdr.type ≠ MsgType.lookup.code) s
      (dispatch lib cl ub s).2 := by
  obtain ⟨-, t, path, ending⟩ := performs_dispatch lib cl ub s
  have acts : Ships lib mon fund Nothing s t :=
    ships_path path (fun _ same => same ▸ free) fun _ same => same ▸ old
  intro tidy
  have shipped := acts tidy
  exact (acts.mono fun _ nothing _ => nothing.elim).trans (ending.ships (fun _ => old.trans_le shipped.brk)
    fun both => watching both.1 both.2) tidy

theorem ships_handleLookup (attr : Attrs) (cmd : Option ClientCmd) (s : State) :
    Ships lib mon fund may s (handleLookup lib cl ub attr cmd s).2 := by
  obtain ⟨t, acts, ending⟩ : ∃ t, Acts lib Nothing s.reg s t ∧ Ending lib cl ub False False t _ :=
    performs_handleLookup attr cmd s
  exact acts.ships.trans ((ending.ships False.elim False.elim).mono fun _ none _ => none.2.elim)

end Handlers

/-! ### Receiving and resuming -/

section Receive

variable {lib : Libubox} {mon may : Nat → Prop} {fund : Prop} {cl ub : Nat} {s s' : State}

theorem Tidy.free_retmsg {retmsg : Nat} (tidy : Tidy mon fund s)
    (here : (s.net.sock cl).retmsg = some retmsg) : ¬ s.net.Queued retmsg := fun queued =>
  tidy.plain retmsg queued (tidy.status cl retmsg here).2

theorem ships_setRetmsg (cl ub : Nat) (s : State) : Ships lib mon fund may s (setRetmsg cl ub s) := by
  unfold setRetmsg
  split
  · exact ships_of_net rfl rfl rfl
  · rename_i retmsg here
    exact ships_mapBuf (fun tidy => tidy.free_retmsg here) rfl

theorem ships_sendStatus (cl : Nat) (status : Status) (s : State) :
    Ships lib mon fund may s (sendStatus lib cl status s) := by
  unfold sendStatus
  split
  · exact ships_of_net rfl rfl rfl
  rename_i retmsg here
  intro tidy
  obtain ⟨old, external⟩ := tidy.status cl retmsg here
  generalize filled : s.mapBuf retmsg _ = t
  have written : Ships lib mon fund may s t := by
    rw [← filled]
    exact ships_mapBuf (fun tidy => tidy.free_retmsg here) rfl
  have sent : Ships lib mon fund may s (ubusMsgSend lib cl retmsg t) := by
    refine written.bind fun shipped => (ships_send (old.trans_le shipped.brk)).mono fun _ itself _ => ?_
    exact absurd ((shipped.external retmsg old).mpr external) itself.2
  exact sent tidy

theorem still_dropFd (ub : Nat) (s : State) : Still lib Nothing s (dropFd ub s) := by
  unfold dropFd ubusMsgCloseFd
  split
  · exact (still_closeFd _ s).trans (still_mapBuf rfl Iff.rfl)
  · exact still_of_net rfl rfl rfl

theorem ships_finish (ret : Ret) (s : State) : Ships lib mon fund may s (finish lib cl ub ret s) := by
  cases ret with
  | queued => exact Ships.refl s
  | silent => exact (still_free ub s).quietly
  | done status => exact (still_free ub s).quietly.trans (ships_sendStatus cl status _)

theorem prepared_keeps (cl ub : Nat) (s : State) :
    (dropFd ub (setRetmsg cl ub s)).reg = s.reg ∧
      ((dropFd ub (setRetmsg cl ub s)).net.buf ub).hdr.type = (s.net.buf ub).hdr.type ∧
      ((dropFd ub (setRetmsg cl ub s)).net.buf ub).data = (s.net.buf ub).data := by
  have set : (setRetmsg cl ub s).reg = s.reg ∧
      ((setRetmsg cl ub s).net.buf ub).hdr.type = (s.net.buf ub).hdr.type ∧
      ((setRetmsg cl ub s).net.buf ub).data = (s.net.buf ub).data := by
    unfold setRetmsg
    split
    · exact ⟨rfl, rfl, rfl⟩
    · exact ⟨rfl, update_keeps (fun buf => buf.hdr.type) s.net.buf (by rfl) ub,
        update_keeps MsgBuf.data s.net.buf (by rfl) ub⟩
  generalize setRetmsg cl ub s = t at set ⊢
  unfold dropFd ubusMsgCloseFd
  split
  · have closed : (closeFd (t.buf ub).fd t).reg = t.reg ∧ (closeFd (t.buf ub).fd t).net.buf = t.net.buf := by
      cases (t.buf ub).fd <;> exact ⟨rfl, rfl⟩
    refine ⟨closed.1.trans set.1, ?_, ?_⟩
    · simpa [State.mapBuf, closed.2] using set.2.1
    · simpa [State.mapBuf, closed.2] using set.2.2
  · exact set

/-- **A message is handled.** It may be sent on itself, unless it is a lookup. -/
theorem ships_receiveMessage (free : ¬ s.net.Queued ub) (old : ub < s.net.brk)
    (watching : (s.net.buf ub).hdr.type = MsgType.invoke.code →
      AddsMonitor lib s.reg (ubusParseMsg lib (s.net.buf ub).data) → mon cl) :
    Ships lib mon fund (fun other => other = ub ∧ (s.net.buf ub).hdr.type ≠ MsgType.lookup.code) s
      (ubusdProtoReceiveMessage lib cl ub s) := by
  intro tidy
  have prepared : Ships lib mon fund Nothing s (dropFd ub (setRetmsg cl ub s)) :=
    (ships_setRetmsg cl ub s).trans (still_dropFd ub _).quietly
  obtain ⟨reg, type, data⟩ := prepared_keeps cl ub s
  have shipped := prepared tidy
  unfold ubusdProtoReceiveMessage
  generalize dropFd ub (setRetmsg cl ub s) = t at prepared shipped reg type data ⊢
  have free' : ¬ t.net.Queued ub := shipped.free free old
  have handled : Ships lib mon fund (fun other => other = ub ∧
      (t.net.buf ub).hdr.type ≠ MsgType.lookup.code) t (dispatch lib cl ub t).2 :=
    ships_dispatch free' (old.trans_le shipped.brk) (by rw [reg, type, data]; exact watching)
  rw [type] at handled
  simp only
  generalize dispatch lib cl ub t = result at handled ⊢
  exact ((prepared.mono fun _ nothing _ => nothing.elim).trans handled).trans (ships_finish _ _) tidy

theorem ships_cmdFree (cl : Nat) (cmd : ClientCmd) (s : State) :
    Ships lib mon fund may s (ubusClientCmdFree cl s cmd) := by
  unfold ubusClientCmdFree
  have unlinked : Ships lib mon fund may s
      (s.mapSock cl fun sock => { sock with cmdQueue := sock.cmdQueue.tail }) :=
    ships_mapSock (by exact fun _ => rfl) (by exact fun _ => rfl) s
  exact unlinked.trans (still_free cmd.msg _).quietly

/-- **A queued lookup is resumed.** -/
theorem ships_resumeCmd (cl : Nat) (cmd : ClientCmd) (s : State) :
    Ships lib mon fund may s (resumeCmd lib cl cmd s).1 := by
  have began : Ships lib mon fund may s (resuming cl cmd s) := ships_of_net rfl rfl rfl
  have looked : Ships lib mon fund may (resuming cl cmd s) (handleLookup lib cl cmd.msg
      (ubusParseMsg lib ((resuming cl cmd s).buf cmd.msg).data) (some cmd) (resuming cl cmd s)).2 :=
    ships_handleLookup _ _ _
  unfold resumeCmd ubusdCmdLookup
  simp only
  rcases result : handleLookup lib cl cmd.msg
      (ubusParseMsg lib ((resuming cl cmd s).buf cmd.msg).data) (some cmd) (resuming cl cmd s) with ⟨ret, t⟩
  rw [result] at looked
  cases ret with
  | queued => exact began.trans looked
  | silent => exact (began.trans looked).trans (ships_cmdFree cl cmd t)
  | done status =>
    exact (((began.trans looked).trans (ships_setRetmsg cl cmd.msg t)).trans
      (ships_sendStatus cl status _)).trans (ships_cmdFree cl cmd _)

theorem still_mapRx (f : Rx → Rx) (s : State) : Still lib Nothing s (s.mapRx cl f) :=
  Still.of_net (update_keeps Sock.tx s.net.sock (by rfl)) (update_keeps Sock.retmsg s.net.sock (by rfl))
    rfl rfl rfl rfl rfl

theorem ships_takeMessage (cl ub : Nat) (s : State) :
    Ships lib mon fund may s (takeMessage cl ub s) := by
  unfold takeMessage
  simp only
  generalize (s.rx cl).pendingMsgFd = fd
  have marked : Still lib Nothing s (s.mapBuf ub fun buf => { buf with fd }) := still_mapBuf rfl Iff.rfl
  generalize s.mapBuf ub _ = t at marked ⊢
  have emptied : Still lib Nothing t (t.mapRx cl fun rx => { rx with
      pendingMsgFd := none, pendingMsgOffset := 0, pendingMsg := none }) := still_mapRx _ t
  generalize t.mapRx cl _ = u at emptied ⊢
  exact (marked.trans emptied).quietly.trans (ships_of_net rfl rfl rfl)

/-- **A message is accepted.** -/
theorem ships_acceptMessage (inv : Inv lib [] s) (known : s.reg.HasClient cl)
    (pending : (s.net.sock cl).rx.pendingMsg = some ub) (free : ¬ s.net.Queued ub)
    (old : ub < s.net.brk) (watching : (s.net.buf ub).hdr.type = MsgType.invoke.code →
      AddsMonitor lib s.reg (ubusParseMsg lib (s.net.buf ub).data) → mon cl) :
    Ships lib mon fund (fun other => other = ub ∧ (s.net.buf ub).hdr.type ≠ MsgType.lookup.code) s
      (acceptMessage lib cl ub s) := by
  intro tidy
  obtain ⟨ctx, frame⟩ := acceptMessage_processing inv known pending
  have taken : Ships lib mon fund Nothing s (takeMessage cl ub s) := ships_takeMessage cl ub s
  have told : Ships lib mon fund Nothing s (ubusdMonitorMessage lib cl ub false (takeMessage cl ub s)) :=
    taken.trans fun tidy' => (recorded_monitorMessage tidy' cl ub false).toShipped
  have shipped := told tidy
  have reg : (ubusdMonitorMessage lib cl ub false (takeMessage cl ub s)).reg = s.reg := frame.reg
  unfold acceptMessage
  simp only
  generalize ubusdMonitorMessage lib cl ub false (takeMessage cl ub s) = t at ctx told shipped reg ⊢
  have free' : ¬ t.net.Queued ub := shipped.free free old
  have received : Ships lib mon fund (fun other => other = ub ∧
      (t.net.buf ub).hdr.type ≠ MsgType.lookup.code) t (ubusdProtoReceiveMessage lib cl ub t) :=
    ships_receiveMessage free' (old.trans_le shipped.brk) (by
      rw [ctx.hdr, ctx.data, reg]
      exact watching)
  rw [ctx.hdr] at received
  exact (told.mono fun _ nothing _ => nothing.elim).trans received tidy

theorem still_takeBytes (count : Nat) (s : State) : Still lib Nothing s (takeBytes cl count s).2 := by
  unfold takeBytes
  simp only
  exact still_mapRx _ s

theorem still_recvHeader (cl : Nat) (out : ReadOutcome) (s : State) :
    Still lib Nothing s (recvHeader cl out s).2 := by
  have refl : ∀ t, Still lib Nothing t t := fun t => still_of_net rfl rfl rfl
  have fd : ∀ fd t, Still lib Nothing t (recvFd cl fd t) := by
    intro fd t
    unfold recvFd
    split
    · have marked : Still lib Nothing t
          (t.mapRx cl fun rx => { rx with pendingMsgFd := some t.net.fdBrk }) := still_mapRx _ t
      generalize t.mapRx cl _ = u at marked ⊢
      exact marked.trans (Still.of_net (fun _ => rfl) (fun _ => rfl) rfl rfl rfl rfl rfl)
    · exact refl t
  have done : ∀ t, Still lib Nothing t (headerDone cl t).2 := by
    intro t
    unfold headerDone
    simp only
    split
    · exact refl t
    split
    · exact refl t
    have made : Still lib Nothing t (ubusMsgNew (.received ((t.rx cl).hdrbuf.drop 8)) false t).2 :=
      still_new _ _ t
    rcases result : ubusMsgNew (.received ((t.rx cl).hdrbuf.drop 8)) false t with ⟨_ | new, u⟩
    · rw [result] at made
      exact made
    · simp only
      exact (still_made result fun buf => { buf with hdr := _ }).trans (still_mapRx _ _)
  unfold recvHeader
  cases out with
  | again => exact refl s
  | got extra received =>
    simp only
    generalize min (extra + 1) (12 - (s.rx cl).pendingMsgOffset) = count
    have read : Still lib Nothing s (recvFd cl received (takeBytes cl count s).2) :=
      (still_takeBytes count s).trans (fd received _)
    generalize recvFd cl received (takeBytes cl count s).2 = t at read ⊢
    split
    · simp only
      exact read.trans (still_mapRx _ t)
    · exact (read.trans (still_mapRx _ t)).trans (done _)

theorem still_gotBody (cl ub count : Nat) (s : State) :
    Still lib (· = ub) s (gotBody lib cl ub count s) := by
  have filled : Still lib (· = ub) (takeBytes cl count s).2 (gotBody lib cl ub count s) :=
    still_touch rfl
  exact (still_takeBytes count s).mono.trans filled

theorem ships_aclLoad (host : Host) (dir : Directory) (fault : Bool) (s : State) :
    Ships lib mon fund may s (aclLoadAndAnnounce lib host dir fault s) := by
  have began : Ships lib mon fund may s { s with cause := .aclLoad } := ships_of_net rfl rfl rfl
  unfold aclLoadAndAnnounce
  simp only
  split
  · exact began
  · exact (began.trans (ships_mapReg _ _)).trans (ships_sendEvent none _ _ _)

end Receive

/-! ### Clients come and go -/

section Sessions

variable {lib : Libubox} {mon may : Nat → Prop} {fund : Prop} {cl : Nat} {s s' : State}

theorem admitClient_pipe (id : UInt32) (clients : AvlTree UInt32) (cred : Cred) (s : State) :
    (admitClient id clients cred s).pipe lib = Function.update (s.pipe lib) s.reg.brk {} := by
  funext other
  by_cases same : other = s.reg.brk
  · subst same
    rw [Function.update_self]
    simp [State.pipe, Tx.pipe, admitClient, State.mapSock]
  · rw [Function.update_of_ne same]
    simp [State.pipe, admitClient, State.mapSock, same]

theorem Tidy.admitClient (tidy : Tidy mon fund s) (id : UInt32) (clients : AvlTree UInt32) (cred : Cred) :
    Tidy mon fund (admitClient id clients cred s) := by
  have sock : ∀ other, (Ubus.admitClient id clients cred s).net.sock other = if other = s.reg.brk then {}
      else s.net.sock other := by
    intro other
    simp [Ubus.admitClient, State.mapSock, Function.update_apply]
  have queued : ∀ ub, (Ubus.admitClient id clients cred s).net.Queued ub → s.net.Queued ub := by
    rintro ub ⟨other, member⟩
    rw [sock] at member
    split at member
    · cases member
    · exact ⟨other, member⟩
  refine ⟨fun ub is => tidy.below ub (queued ub is), fun ub is => tidy.plain ub (queued ub is),
    fun other ub here => ?_, tidy.watch, tidy.funded⟩
  rw [sock] at here
  split at here
  · cases here
  · exact tidy.status other ub here

theorem shipped_retmsg {retmsg : Nat} (tidy : Tidy mon fund s) (old : retmsg < s.net.brk)
    (external : (s.net.buf retmsg).refcount = .external) :
    Shipped lib mon fund may s (s.mapSock cl fun sock => { sock with retmsg := some retmsg }) := by
  have tx : ∀ other, ((s.mapSock cl fun sock => { sock with retmsg := some retmsg }).net.sock other).tx =
      (s.net.sock other).tx := update_keeps Sock.tx s.net.sock (by rfl)
  have queued : ∀ ub, (s.mapSock cl fun sock => { sock with retmsg := some retmsg }).net.Queued ub →
      s.net.Queued ub := fun ub ⟨other, member⟩ => ⟨other, tx other ▸ member⟩
  have traffic : (s.mapSock cl fun sock => { sock with retmsg := some retmsg }).traffic lib =
      s.traffic lib := by
    refine Traffic.ext (funext fun other => ?_) rfl
    simp only [State.traffic, State.pipe, State.tx, tx]
    rfl
  refine ⟨traffic ▸ .refl, ⟨fun ub is => tidy.below ub (queued ub is), fun ub is =>
    tidy.plain ub (queued ub is), fun other ub here => ?_, tidy.watch, tidy.funded⟩, le_rfl,
    fun ub is => Or.inl (queued ub is), fun _ _ => Iff.rfl⟩
  by_cases same : other = cl
  · subst same
    rw [mapSock_self] at here
    cases here
    exact ⟨old, external⟩
  · rw [mapSock_of_ne s same] at here
    exact tidy.status other ub here

theorem ships_initRetmsg (cl : Nat) (s : State) :
    Ships lib mon fund may s (ubusdProtoInitRetmsg cl s).2 := by
  have made : Still lib Nothing s (ubusMsgNew (.built [.int32 .status 0]) true s).2 := still_new _ _ s
  unfold ubusdProtoInitRetmsg
  rcases result : ubusMsgNew (.built [.int32 .status 0]) true s with ⟨_ | retmsg, t⟩
  · rw [result] at made
    exact made.quietly
  simp only
  have typed : Ships lib mon fund may s
      (t.mapHdr retmsg fun hdr => { hdr with type := MsgType.status.code }) :=
    (still_made result fun buf => { buf with hdr := _ }).quietly
  obtain ⟨below, external⟩ := made_external result (f := fun buf => { buf with
    hdr := { buf.hdr with type := MsgType.status.code } }) fun _ => rfl
  exact typed.trans fun tidy => shipped_retmsg tidy below external

theorem ships_hello (cl : Nat) (s : State) : Ships lib mon fund may s (ubusdSendHello lib cl s).2 := by
  have made : Still lib Nothing s (ubusMsgNew (.built []) true s).2 := still_new _ _ s
  unfold ubusdSendHello
  rcases result : ubusMsgNew (.built []) true s with ⟨_ | ub, t⟩
  · rw [result] at made
    exact made.quietly
  simp only
  generalize filled : t.mapHdr ub _ = u
  have typed : Ships lib mon fund may s u := by
    rw [← filled]
    exact (still_made result fun buf => { buf with hdr := _ }).quietly
  obtain ⟨below, external⟩ : ub < u.net.brk ∧ (u.net.buf ub).refcount = .external := by
    rw [← filled]
    exact made_external result (f := fun buf => { buf with hdr := _ }) fun _ => rfl
  exact (typed.trans (ships_sendTo_external (some cl) below external)).trans (still_free ub _).quietly

theorem ships_freeRetmsg (cl : Nat) (s : State) : Ships lib mon fund may s (freeRetmsg cl s) := by
  unfold freeRetmsg
  split
  · exact Ships.refl s
  rename_i retmsg _
  have taken : Still lib Nothing s (s.mapSock cl fun sock => { sock with retmsg := none }) := by
    refine ⟨⟨fun other ub here => ?_, fun _ _ => Iff.rfl, rfl, le_rfl, List.Subset.refl _,
      List.suffix_rfl⟩, update_keeps Sock.tx s.net.sock (by rfl), fun _ _ _ => rfl⟩
    by_cases same : other = cl
    · subst same
      rw [mapSock_self] at here
      cases here
    · rwa [mapSock_of_ne s same] at here
  exact (taken.trans (still_free retmsg _)).quietly

/-- **A new client is greeted**, and write events are turned off at the end; or it is given up. -/
theorem ships_greetClient (cl : Nat) (s : State) : ∃ t, Ships lib mon fund may s t ∧
    (greetClient lib cl s = t ∨
      greetClient lib cl s = t.mapTx cl fun tx => { tx with writeInterest := false }) := by
  have abandoned : ∀ t, Ships lib mon fund may t (freeSock cl (freeClientId cl t)) := fun t =>
    (ships_mapReg _ t).trans
      (Still.quietly (Still.of_net (fun _ => rfl) (fun _ => rfl) rfl rfl rfl rfl rfl))
  have readied : Ships lib mon fund may s (ubusdProtoInitRetmsg cl s).2 := ships_initRetmsg cl s
  unfold greetClient
  rcases result : ubusdProtoInitRetmsg cl s with ⟨_ | _, t⟩
  · rw [result] at readied
    exact ⟨_, readied.trans (abandoned t), Or.inl rfl⟩
  rw [result] at readied
  have greeted : Ships lib mon fund may s (ubusdSendHello lib cl t).2 := readied.trans (ships_hello cl t)
  simp only
  rcases hello : ubusdSendHello lib cl t with ⟨_ | _, u⟩
  · rw [hello] at greeted
    exact ⟨_, (greeted.trans (ships_freeRetmsg cl u)).trans (abandoned _), Or.inl rfl⟩
  · rw [hello] at greeted
    exact ⟨u, greeted, Or.inr rfl⟩

theorem ships_protoFree (cl : Nat) (s : State) :
    Ships lib mon fund may s (ubusdProtoFreeClient lib cl s) := by
  unfold ubusdProtoFreeClient
  exact ((Ships.foldl (fun s obj => (acts_freeObject s obj).ships) _ s).trans
    (ships_freeRetmsg cl _)).trans (ships_mapReg _ _)

/-- What was queued for a client is dropped. -/
structure Drops (lib : Libubox) (cl : Nat) (s s' : State) : Prop extends Around lib s s' where
  apart : ∀ other, other ≠ cl → s'.pipe lib other = s.pipe lib other
  wire : (s'.tx cl).wire = (s.tx cl).wire
  queued : ∀ ub, s'.net.Queued ub → s.net.Queued ub

theorem Drops.tidy (drops : Drops lib cl s s') (tidy : Tidy mon fund s) : Tidy mon fund s' :=
  tidy.of_queued drops.toAround (fun ub is => (tidy.below ub (drops.queued ub is)).trans_le drops.brk)
    fun ub is => Or.inl (drops.queued ub is)

theorem Drops.trans {s'' : State} (one : Drops lib cl s s') (two : Drops lib cl s' s'') :
    Drops lib cl s s'' where
  toAround := one.toAround.trans two.toAround
  apart other differs := (two.apart other differs).trans (one.apart other differs)
  wire := two.wire.trans one.wire
  queued ub is := one.queued ub (two.queued ub is)

theorem Still.drops (still : Still lib Nothing s s') (tidy : Tidy mon fund s) : Drops lib cl s s' :=
  ⟨still.toAround, fun other _ => still.pipe tidy.below (fun _ _ => id) other, by
    rw [State.tx, still.tx], fun ub is => (still.queued ub).mp is⟩

theorem drops_listFree (tidy : Tidy mon fund s) (ub : Nat) : Drops lib cl s (ubusMsgListFree cl s ub) := by
  have unlinked : Drops lib cl s (s.mapTx cl fun tx => { tx with txQueue := tx.txQueue.tail }) := by
    refine ⟨Around.mapTx cl _ s, fun other differs => ?_, ?_, fun other is => ?_⟩
    · rw [pipe_mapTx, Function.update_of_ne differs]
    · rw [State.tx, State.mapTx, mapSock_self]
    · exact (queued_mapTx other is).elim id fun member => ⟨cl, List.mem_of_mem_tail member⟩
  exact unlinked.trans ((still_free ub _).drops (unlinked.tidy tidy))

theorem drops_list (tidy : Tidy mon fund s) (queue : List Nat) :
    Drops lib cl s (queue.foldl (ubusMsgListFree cl) s) := by
  induction queue generalizing s with
  | nil => exact ⟨Around.of_eq (fun _ => rfl) rfl rfl rfl rfl rfl, fun _ _ => rfl, rfl, fun _ => id⟩
  | cons ub rest ih =>
    have first : Drops lib cl s (ubusMsgListFree cl s ub) := drops_listFree tidy ub
    exact first.trans (ih (first.tidy tidy))

theorem still_dropPending (cl : Nat) (s : State) : Still lib Nothing s (dropPending cl s) := by
  have taken : Still lib Nothing s (s.mapRx cl fun rx => { rx with
      pendingMsgFd := none, pendingMsg := none }) := still_mapRx _ s
  have closed := taken.trans (still_closeFd (s.rx cl).pendingMsgFd _)
  unfold dropPending
  simp only
  split
  · exact closed
  · exact closed.trans (still_free _ _)

/-- **A client leaves**: messages are submitted, and then its queue is dropped. -/
theorem shipped_disconnect (tidy : Tidy mon fund s) (cl : Nat) :
    ∃ t, Shipped lib mon fund may s t ∧ Drops lib cl t (handleClientDisconnect lib cl s) := by
  unfold handleClientDisconnect
  simp only
  have began : Ships lib mon fund may s { s with cause := .disconnect cl } := ships_of_net rfl rfl rfl
  generalize ({ s with cause := .disconnect cl } : State) = s1 at began ⊢
  have freed : Ships lib mon fund may s1 ((s1.sock cl).cmdQueue.foldl (ubusClientCmdFree cl) s1) :=
    Ships.foldl (fun t cmd => ships_cmdFree cl cmd t) _ s1
  generalize (s1.sock cl).cmdQueue.foldl (ubusClientCmdFree cl) s1 = s2 at freed ⊢
  have gone : Ships lib mon fund may s2 (ubusdProtoFreeClient lib cl (ubusdMonitorDisconnect cl s2)) :=
    (ships_monitorDisconnect cl s2).trans (ships_protoFree cl _)
  generalize ubusdProtoFreeClient lib cl (ubusdMonitorDisconnect cl s2) = s3 at gone ⊢
  have shipped := ((began.trans freed).trans gone) tidy
  refine ⟨s3, shipped, ?_⟩
  have dropped : Drops lib cl s3 ((s3.tx cl).txQueue.foldl (ubusMsgListFree cl) s3) :=
    drops_list shipped.tidy _
  generalize (s3.tx cl).txQueue.foldl (ubusMsgListFree cl) s3 = s4 at dropped ⊢
  have closed : Still lib Nothing s4 (freeSock cl (dropPending cl s4)) :=
    (still_dropPending cl s4).trans (Still.of_net (fun _ => rfl) (fun _ => rfl) rfl rfl rfl rfl rfl)
  exact dropped.trans (closed.drops (dropped.tidy shipped.tidy))

end Sessions

end Ubus
