/-
**Messages the daemon makes itself.**

Most messages are made, sent and freed in one function: notifications, events, replies. Such a
function keeps custody whatever else is held at the time.

* `Sends events keep s s'` — messages were made, sent and freed; nothing is held.
* `sends_event`: `ubusd_send_event` is such a function.
-/

import Ubus.Custody
import Ubus.Emission

namespace Ubus

open Lib

variable {data : Payload} {shared : Bool} {cl : Option Nat} {type : MsgType} {puts rest : List Put}
  {obj dest : Nat} {keepFd : Nat → Prop} {f : MsgBuf → MsgBuf}

/-- A buffer was made and is held. -/
structure Made (events : Event → Prop) (keep : Nat → Prop) (s t : State) (ub : Nat) : Prop where
  frame : Frame events keep keep s t
  custody : ∀ {clean : Prop} {held : List Nat} {stale : Option Nat},
    Custody clean held stale s.net → Custody clean (ub :: held) stale t.net
  fresh : s.net.brk ≤ ub
  below : ub < t.net.brk

/-- Messages were made, sent and freed. -/
structure Sends (events : Event → Prop) (keep : Nat → Prop) (s s' : State) : Prop where
  frame : Frame events keep keep s s'
  custody : ∀ {clean : Prop} {held : List Nat} {stale : Option Nat},
    Custody clean held stale s.net → Custody clean held stale s'.net

/-- Every connected client is allocated, and so is every client that monitors. -/
structure Known (s : State) : Prop where
  clients : ∀ cl, s.reg.HasClient cl → cl ∈ s.net.socks
  monitors : Custody.MonitorsKnown s.net

theorem Frame.monitorsKnown {events : Event → Prop} {keep : Nat → Prop} {s s' : State}
    (frame : Frame events keep keepFd s s') (known : Custody.MonitorsKnown s.net) :
    Custody.MonitorsKnown s'.net := by
  intro m member
  have listed : m.cl ∈ s.net.monitors.map Monitor.cl := by
    rw [← frame.monitors]
    exact List.mem_map_of_mem member
  obtain ⟨other, inside, same⟩ := List.mem_map.mp listed
  rw [frame.socks, ← same]
  exact known other inside

theorem Frame.known {events : Event → Prop} {keep : Nat → Prop} {s s' : State}
    (frame : Frame events keep keepFd s s') (known : Known s) : Known s' := by
  refine ⟨fun cl has => ?_, frame.monitorsKnown known.monitors⟩
  rw [frame.socks]
  exact known.clients cl (frame.reg ▸ has)

variable {events : Event → Prop} {keep : Nat → Prop} {s s' t : State} {ub : Nat}

namespace Sends

theorem refl (s : State) : Sends events keep s s := ⟨Frame.refl s, id⟩

theorem trans {s'' : State} (one : Sends events keep s s') (two : Sends events keep s' s'') :
    Sends events keep s s'' :=
  ⟨one.frame.trans two.frame, fun custody => two.custody (one.custody custody)⟩

theorem mono {events' : Event → Prop} {keep' : Nat → Prop} (sends : Sends events keep s s')
    (more : ∀ event, events event → events' event) (less : ∀ ub, keep' ub → keep ub) :
    Sends events' keep' s s' :=
  ⟨sends.frame.mono more less less, sends.custody⟩

theorem of_net (frame : Frame events keep keep s s') (net : s'.net = s.net) :
    Sends events keep s s' :=
  ⟨frame, fun custody => net ▸ custody⟩

theorem foldl {ι : Type} (Inv : State → Prop) (body : State → ι → State) (items : List ι)
    (round : ∀ s item, item ∈ items → Inv s → Sends events keep s (body s item) ∧ Inv (body s item))
    (start : Inv s) : Sends events keep s (items.foldl body s) := by
  induction items generalizing s with
  | nil => exact refl s
  | cons item rest ih =>
    obtain ⟨first, inv⟩ := round s item List.mem_cons_self start
    exact first.trans (ih (fun s other member => round s other (List.mem_cons_of_mem _ member)) inv)

end Sends

theorem ubusMsgNew_some (made : ubusMsgNew data shared s = (some ub, t)) :
    ub = s.net.brk ∧ t = allocBuf data shared s.calloc.2 := by
  rcases ubusMsgNew_cases data shared s with failed | some'
  · rw [failed] at made
    cases made
  · rw [some'] at made
    cases made
    exact ⟨rfl, rfl⟩

theorem ubusMsgNew_buf (made : ubusMsgNew data shared s = (some ub, t)) :
    t.net.buf ub = { refcount := if shared then .external else .count 1, data, live := true } := by
  obtain ⟨rfl, rfl⟩ := ubusMsgNew_some made
  simp [allocBuf, State.mapBuf, calloc_net]

namespace Made

variable (lib : Libubox)

theorem new (bound : ∀ ub, keep ub → ub < s.net.brk)
    (made : ubusMsgNew data shared s = (some ub, t)) : Made events keep s t ub := by
  have frame : Frame events keep keep s (ubusMsgNew data shared s).2 :=
    (wire_new data shared (by simpa using bound)).toFrame
  have custody := fun {clean : Prop} {held : List Nat} {stale : Option Nat}
    (custody : Custody clean held stale s.net) => custody.new data shared
  rw [made] at frame
  refine ⟨frame, fun before => by simpa [made] using custody before, ?_, ?_⟩
  · exact le_of_eq (ubusMsgNew_some made).1.symm
  · obtain ⟨rfl, rfl⟩ := ubusMsgNew_some made
    simp [allocBuf, State.mapBuf, calloc_net]

theorem fill (made : Made events keep s t ub) (bound : ∀ ub, keep ub → ub < s.net.brk)
    (live : (f (t.net.buf ub)).live = (t.net.buf ub).live)
    (refcount : (f (t.net.buf ub)).refcount = (t.net.buf ub).refcount)
    (fd : (f (t.net.buf ub)).fd = (t.net.buf ub).fd) : Made events keep s (t.mapBuf ub f) ub := by
  have free : ¬ (keep ub ∨ keep ub) := fun kept =>
    absurd (bound ub (by simpa using kept)) (not_lt.mpr made.fresh)
  exact ⟨made.frame.trans (wire_mapBuf_free f free).toFrame,
    fun custody => (made.custody custody).touchBuf live refcount fd, made.fresh,
    made.below⟩

theorem stamps (made : Made events keep s t ub) (stamps : Stamps) :
    Made events keep s { t with stamps } ub :=
  ⟨made.frame.trans (frame_stamps stamps), made.custody, made.fresh, made.below⟩

theorem sendTo (made : Made events keep s t ub) (bound : ∀ ub, keep ub → ub < s.net.brk)
    (known : Known s) (owned : ∃ dest, cl = some dest ∧ s.reg.HasClient dest)
    (admits : AdmitsMonitor lib events s.moment)
    (admitted : ∀ dest, cl = some dest → events (.submit s.moment dest (t.buf ub).hdr (t.buf ub).data)) :
    Made events keep s (ubusMsgSendTo lib cl ub t) ub := by
  obtain ⟨dest, rfl, has⟩ := owned
  have free : ¬ keep ub := fun kept => absurd (bound ub kept) (not_lt.mpr made.fresh)
  have bound' : ∀ ub, keep ub ∨ keep ub → ub < t.net.brk := fun ub kept =>
    lt_of_lt_of_le (bound ub (by simpa using kept)) made.frame.brk
  have moment := made.frame.moment
  have sent : Frame events keep keep t (ubusMsgSendTo lib (some dest) ub t) :=
    (wire_send lib bound' free made.below (moment ▸ admits) (moment ▸ admitted dest rfl)).toFrame
  refine ⟨made.frame.trans sent, fun {_ _ stale} custody => ?_, made.fresh,
    lt_of_lt_of_le made.below sent.brk⟩
  have notStale : stale ≠ some ub := fun same =>
    absurd (custody.staleBelow ub same) (not_lt.mpr made.fresh)
  exact (made.custody custody).send lib (made.frame.mem_socks (known.clients dest has))
    (made.frame.monitorsKnown known.monitors) (Or.inl List.mem_cons_self) notStale

theorem free (made : Made events keep s t ub) : Sends events keep s (ubusMsgFree ub t) := by
  refine ⟨made.frame.trans (wire_free ub t).toFrame, fun {_ _ stale} custody => ?_⟩
  have notStale : stale ≠ some ub := fun same =>
    absurd (custody.staleBelow ub same) (not_lt.mpr made.fresh)
  exact (made.custody custody).free notStale

end Made

theorem sends_new_none (failed : ubusMsgNew data shared s = (none, t)) : Sends events keep s t := by
  rcases ubusMsgNew_cases data shared s with failed' | some'
  · rw [failed'] at failed
    cases failed
    exact Sends.of_net (wire_calloc s).toFrame (calloc_net s)
  · rw [some'] at failed
    cases failed

/-! ### Notifications -/

section Numbered

variable (lib : Libubox)

theorem sends_numbered (bound : ∀ ub, keep ub → ub < s.net.brk) (known : Known s)
    (owned : ∃ dest, (s.reg.object obj).client = some dest ∧ s.reg.HasClient dest)
    (admits : AdmitsMonitor lib events s.moment)
    (admitted : ∀ dest seq, (s.reg.object obj).client = some dest → events (.submit s.moment dest { type := type.code, seq, peer := 0 } (.built puts))) :
    Sends events keep s (sendNumbered lib obj type puts s) := by
  unfold sendNumbered
  rcases result : ubusMsgNew (.built puts) false s with ⟨_ | ub, t⟩
  · exact sends_new_none result
  have made : Made events keep s t ub := Made.new bound result
  have reg := made.frame.reg
  have buf := ubusMsgNew_buf result
  simp only
  refine (Made.sendTo lib ?_ bound known ?_ admits ?_).free
  · exact (made.stamps _).fill bound rfl rfl rfl
  · show ∃ dest, (t.reg.object obj).client = some dest ∧ s.reg.HasClient dest
    rwa [reg]
  intro dest client
  have owner : (s.reg.object obj).client = some dest := by
    rw [← reg]
    exact client
  simpa [State.mapHdr, State.mapBuf, buf] using admitted dest _ owner

end Numbered

/-! ### Events -/

section Events

variable (lib : Libubox)

theorem Sends.made (sends : Sends events keep s s') (made : Made events keep s' t ub) :
    Made events keep s t ub :=
  ⟨sends.frame.trans made.frame, fun custody => made.custody (sends.custody custody),
    sends.frame.brk.trans made.fresh, made.below⟩

/-- What the event loop has done so far: nothing but sending, with the shared buffer held once it
exists. -/
def EventAcc (events : Event → Prop) (keep : Nat → Prop) (s : State) (ub : Option Nat)
    (t : State) : Prop :=
  match ub with
  | none => Sends events keep s t
  | some ub => Made events keep s t ub ∧ EventHdr (t.net.buf ub).hdr

theorem EventAcc.stamps {ub : Option Nat} (acc : EventAcc events keep s ub t) (stamps : Stamps) :
    EventAcc events keep s ub { t with stamps } := by
  cases ub with
  | none => exact Sends.trans acc (Sends.of_net (frame_stamps stamps) rfl)
  | some ub => exact ⟨acc.1.stamps stamps, acc.2⟩

theorem eventFill_acc {ub : Option Nat} (bound : ∀ ub, keep ub → ub < s.net.brk)
    (acc : EventAcc events keep s ub t) :
    EventAcc events keep s (eventFill rest ub t).1 (eventFill rest ub t).2 := by
  cases ub with
  | some ub => exact acc
  | none =>
    unfold eventFill
    simp only
    rcases result : ubusMsgNew (.built (.int32 .objid 0 :: rest)) true t with ⟨_ | ub, t'⟩
    · exact Sends.trans acc (sends_new_none result)
    have bound' : ∀ ub, keep ub → ub < t.net.brk := fun ub kept =>
      lt_of_lt_of_le (bound ub kept) (Sends.frame acc).brk
    have made : Made events keep s t' ub := Sends.made acc (Made.new bound' result)
    simp only
    refine ⟨made.fill bound rfl rfl rfl, ?_⟩
    simp [EventHdr, State.mapHdr, State.mapBuf, ubusMsgNew_buf result]

theorem eventDeliver_acc {ub : Nat} (bound : ∀ ub, keep ub → ub < s.net.brk) (known : Known s)
    (owned : ∃ dest, (s.reg.object obj).client = some dest ∧ s.reg.HasClient dest)
    (admits : AdmitsMonitor lib events s.moment)
    (admitted : ∀ dest hdr, (s.reg.object obj).client = some dest → EventHdr hdr → events (.submit s.moment dest hdr (.built (.int32 .objid (s.reg.object obj).id :: rest))))
    (acc : EventAcc events keep s (some ub) t) :
    EventAcc events keep s (some ub) (eventDeliver lib obj rest ub t) := by
  obtain ⟨made, hdr⟩ := acc
  have reg := made.frame.reg
  unfold eventDeliver
  simp only
  refine ⟨Made.sendTo lib ?_ bound known ?_ admits ?_, ?_⟩
  · exact (made.stamps _).fill bound rfl rfl rfl
  · show ∃ dest, (t.reg.object obj).client = some dest ∧ s.reg.HasClient dest
    rwa [reg]
  · intro dest client
    have owner : (s.reg.object obj).client = some dest := by
      rw [← reg]
      exact client
    have sent := admitted dest { (t.net.buf ub).hdr with seq := t.stamps.eventSeq + 1 } owner hdr
    simpa [State.mapBuf, reg] using sent
  · generalize filled : State.mapBuf ub _ _ = u
    have below : ub < u.net.brk := by rw [← filled]; exact made.below
    rw [((sendTo_keeps lib below).2 ub below).1, ← filled]
    simpa [State.mapBuf, EventHdr] using hdr

/-- What a walk over the patterns needs: the owners of the patterns are connected, and the entries
of the deliveries are admitted. -/
structure EventOk (events : Event → Prop) (rest : List Put) (s : State) : Prop where
  known : Known s
  owned : ∀ node ∈ s.reg.patterns, ∃ dest,
    (s.reg.object (s.reg.eventSource node.2).obj).client = some dest ∧ s.reg.HasClient dest
  admits : AdmitsMonitor lib events s.moment
  admitted : ∀ node ∈ s.reg.patterns, ∀ dest hdr,
    (s.reg.object (s.reg.eventSource node.2).obj).client = some dest → EventHdr hdr →
      events (.submit s.moment dest hdr
        (.built (.int32 .objid (s.reg.object (s.reg.eventSource node.2).obj).id :: rest)))

theorem sendEventMsg_acc {node : CString × Nat} {ub : Option Nat}
    (bound : ∀ ub, keep ub → ub < s.net.brk) (ok : EventOk lib events rest s)
    (member : node ∈ s.reg.patterns) (acc : EventAcc events keep s ub t) :
    let result := ubusdSendEventMsg lib cl (s.reg.eventSource node.2).obj rest ub t
    EventAcc events keep s result.2.1 result.2.2 := by
  unfold ubusdSendEventMsg
  split
  · exact acc
  split
  · exact acc
  simp only
  have marked : EventAcc events keep s ub (markSeen (s.reg.eventSource node.2).obj t) :=
    acc.stamps _
  have filled : EventAcc events keep s (eventFill rest ub (markSeen _ t)).1 _ :=
    eventFill_acc bound marked
  rcases result : eventFill rest ub (markSeen _ t) with ⟨_ | ub', t'⟩
  · rw [result] at filled
    exact filled
  · rw [result] at filled
    exact eventDeliver_acc lib bound ok.known (ok.owned node member) ok.admits
      (ok.admitted node member) filled

/-- **`ubusd_send_event` only sends.** -/
theorem sends_event {id : CString} (bound : ∀ ub, keep ub → ub < s.net.brk)
    (ok : EventOk lib events rest s) : Sends events keep s (ubusdSendEvent lib cl id rest s).2 := by
  unfold ubusdSendEvent
  split
  · exact Sends.refl s
  have walked : EventAcc events keep (bumpObjEventSeq s)
      (eventWalk lib cl id rest (bumpObjEventSeq s)).2.1
      (eventWalk lib cl id rest (bumpObjEventSeq s)).2.2 := by
    refine prunedWalk_invariant (fun acc : Status × Option Nat × State =>
      EventAcc events keep (bumpObjEventSeq s) acc.2.1 acc.2.2) _ ?_ 0 _ (Sends.refl _)
    intro node member acc holds
    exact sendEventMsg_acc lib bound ⟨⟨ok.known.clients, ok.known.monitors⟩, ok.owned, ok.admits,
      ok.admitted⟩ member holds
  have bumped : Sends events keep s (bumpObjEventSeq s) :=
    Sends.of_net (frame_stamps _) rfl
  simp only
  refine bumped.trans ?_
  rcases result : eventWalk lib cl id rest (bumpObjEventSeq s) with ⟨ret, _ | ub, t⟩
  · rw [result] at walked
    exact walked
  · rw [result] at walked
    exact walked.1.free

theorem sends_objEvent {add : Bool} (bound : ∀ ub, keep ub → ub < s.net.brk)
    (ok : EventOk lib events (objectEventMsg (objEventId add) (s.reg.object obj)) s) :
    Sends events keep s (ubusdSendObjEvent lib obj add s) :=
  sends_event lib bound ok

end Events

/-! ### Replies -/

section Replies

variable (lib : Libubox)

/-- **`ubus_proto_send_msg_from_blob`** for a message without a descriptor. -/
theorem sends_fromBlob (bound : ∀ ub, keep ub → ub < s.net.brk) (known : Known s)
    (below : ub < s.net.brk) (plain : (s.net.buf ub).fd = none)
    (owned : ∃ dest, cl = some dest ∧ s.reg.HasClient dest)
    (admits : AdmitsMonitor lib events s.moment)
    (admitted : ∀ dest, cl = some dest → events (.submit s.moment dest { type := type.code, seq := (s.net.buf ub).hdr.seq, peer := (s.net.buf ub).hdr.peer } (.built puts))) :
    Sends events keep s (ubusProtoSendMsgFromBlob lib cl ub type puts s) := by
  unfold ubusProtoSendMsgFromBlob
  simp only [State.buf, plain]
  rcases result : ubusMsgNew (.built puts) true s with ⟨_ | new, t⟩
  · exact sends_new_none result
  have made : Made events keep s t new := Made.new bound result
  have buf := ubusMsgNew_buf result
  simp only
  refine (Made.sendTo lib ?_ bound known owned admits ?_).free
  · exact made.fill bound rfl rfl (by rw [buf])
  intro dest client
  have sent := admitted dest client
  rw [← ubusMsgNew_old result below] at sent
  simpa [State.mapBuf, buf] using sent

end Replies

/-! ### Handing a descriptor over -/

namespace Custody

variable {clean : Prop} {held : List Nat}

theorem handFd {ub new : Nat} (custody : Custody clean held none s.net)
    (live : (s.net.buf ub).live = true) (live' : (s.net.buf new).live = true)
    (empty : (s.net.buf new).fd = none) (differ : ub ≠ new)
    (keeps : (f (s.net.buf new)).live = (s.net.buf new).live ∧ (f (s.net.buf new)).refcount = (s.net.buf new).refcount)
    (fd : (f (s.net.buf new)).fd = (s.net.buf ub).fd) :
    Custody clean held (some ub) (s.mapBuf new f).net := by
  refine custody.relinear rfl le_rfl (mapBuf_counted keeps.1 keeps.2) (fun _ => rfl) ?_ fun holds => ?_
  · rintro other ⟨⟩
    exact custody.below ub live
  refine (custody.linear holds).move (p := .buf ub) (q := .buf new) (by simpa using differ) ?_ ?_ ?_ ?_
  · simp [Net.fdAt, empty]
  · simp [Net.fdAt]
  · simp [Net.fdAt, State.mapBuf, differ, live, live', keeps.1, fd]
  · intro place notUb notNew
    rw [fdAt_mapBuf notNew, fdAt_stale notUb]

theorem closeCopy {ub : Nat} (custody : Custody clean held none s.net)
    (live : (s.net.buf ub).live = true) :
    Custody clean held (some ub) (closeFd (s.net.buf ub).fd s).net := by
  refine custody.relinear (by simp) (by simp) (fun _ => by simp) (fun _ => by simp) ?_ fun holds => ?_
  · rintro other ⟨⟩
    simpa using custody.below ub live
  have here : (s.net.buf ub).fd = s.net.fdAt none (.buf ub) := by simp [Net.fdAt, live]
  rw [closeFd_closed, closeFd_fdBrk]
  nth_rewrite 2 [here]
  refine (custody.linear holds).close (by simp [Net.fdAt]) fun place differs => ?_
  rw [closeFd_fdAt, fdAt_stale differs]

theorem unstale {ub : Nat} {net : Net} (custody : Custody clean held (some ub) net)
    (nothing : clean → (net.buf ub).fd = none) : Custody clean held none net := by
  refine custody.relinear rfl le_rfl (fun _ => ⟨rfl, rfl⟩) (fun _ => rfl) nofun fun holds => ?_
  refine (custody.linear holds).congr fun place => ?_
  by_cases same : place = .buf ub
  · subst same
    simp [Net.fdAt, nothing holds]
  · exact (fdAt_stale same).symm

theorem settle {ub : Nat} (custody : Custody clean held (some ub) s.net) :
    Custody clean held none (s.mapBuf ub fun buf => { buf with fd := none }).net := by
  refine custody.relinear rfl le_rfl (mapBuf_counted rfl rfl) (fun _ => rfl) nofun fun holds => ?_
  refine (custody.linear holds).congr fun place => ?_
  by_cases same : place = .buf ub
  · subst same
    simp [Net.fdAt, State.mapBuf]
  · rw [fdAt_mapBuf same, fdAt_stale same]

/-- **`ubus_proto_send_msg_from_blob`** hands the descriptor of the message over. -/
theorem fromBlob (lib : Libubox) (custody : Custody clean held none s.net) (member : ub ∈ held)
    (known : dest ∈ s.net.socks) (monitors : MonitorsKnown s.net) : Custody clean held (some ub)
      (ubusProtoSendMsgFromBlob lib (some dest) ub type puts s).net := by
  have live := custody.live_of_held member
  have below := custody.lt_of_held member
  unfold ubusProtoSendMsgFromBlob
  rcases result : ubusMsgNew (.built puts) true s with ⟨_ | new, t⟩
  · have same : t.net = s.net := by
      rcases ubusMsgNew_cases (.built puts) true s with failed | some'
      · rw [failed] at result
        cases result
        exact calloc_net s
      · rw [some'] at result
        cases result
    simp only [State.buf, ← same] at custody live ⊢
    exact custody.closeCopy live
  · obtain ⟨rfl, rfl⟩ := ubusMsgNew_some result
    have buf := ubusMsgNew_buf result
    have differ : ub ≠ s.net.brk := by omega
    have notStale : some ub ≠ some s.net.brk := by simpa using differ
    have made := custody.new (.built puts) true
    rw [result] at made
    have frame : Wire (fun _ => True) (fun _ => False) (fun _ => False) s
        (ubusMsgNew (.built puts) true s).2 := wire_new _ _ (by simp)
    rw [result] at frame
    have live' := made.live_of_held (List.mem_cons_of_mem _ member)
    refine ((made.handFd live' ?_ ?_ differ ⟨rfl, rfl⟩ ?_).send lib (frame.mem_socks known)
      (frame.monitorsKnown monitors) (Or.inl List.mem_cons_self) notStale).free notStale
    · simp only [buf]
    · simp only [buf]
    · rw [ubusMsgNew_old result below]

end Custody

theorem wire_fromBlob (lib : Libubox) (bound : ∀ ub, keep ub → ub < s.net.brk)
    (below : ub < s.net.brk) (admits : AdmitsMonitor lib events s.moment)
    (admitted : events (.submit s.moment dest { type := type.code, seq := (s.net.buf ub).hdr.seq, peer := (s.net.buf ub).hdr.peer } (.built puts))) :
    Wire events keep keep s (ubusProtoSendMsgFromBlob lib (some dest) ub type puts s) := by
  unfold ubusProtoSendMsgFromBlob
  have made : Wire events keep keep s (ubusMsgNew (.built puts) true s).2 :=
    wire_new _ _ (by simpa using bound)
  rcases result : ubusMsgNew (.built puts) true s with ⟨_ | new, t⟩
  · rw [result] at made
    exact made.trans (wire_closeFd _ t)
  rw [result] at made
  have old := ubusMsgNew_old result below
  obtain ⟨rfl, -⟩ := ubusMsgNew_some result
  have buf := ubusMsgNew_buf result
  have free : ¬ (keep s.net.brk ∨ keep s.net.brk) := fun kept =>
    absurd (bound _ (by simpa using kept)) (lt_irrefl _)
  have isMade : Made events keep s t s.net.brk := Made.new bound result
  have bound' : ∀ ub, keep ub ∨ keep ub → ub < t.net.brk := fun ub kept =>
    lt_of_lt_of_le (bound ub (by simpa using kept)) made.brk
  have moment : t.moment = s.moment := made.moment
  refine Wire.trans ?_ (wire_free _ _)
  refine Wire.trans ?_ (wire_send lib ?_ (fun kept => free (Or.inl kept)) ?_ ?_ ?_)
  · exact made.trans (wire_mapBuf_free _ free)
  · exact bound'
  · exact isMade.below
  · exact moment ▸ admits
  · rw [← moment, ← old] at admitted
    simpa [State.mapBuf, State.moment, buf] using admitted

end Ubus
