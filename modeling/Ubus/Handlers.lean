/-
**What the handlers do.**

`Handled lib keep leak ub s s'` says what the handler of the message in `ub` may do: change the
registry and keep it intact, submit messages of the catalogue, and, unless it leaks, keep custody of
the descriptor that came with the message. The buffers of `keep` are not touched.

* `Handling keep cl ub hdr data s` — the state in which a handler is called.
* `handled_…` — one lemma for each handler.
-/

import Ubus.Work

namespace Ubus

open Lib

variable {obj : Nat} {t : State} {keep' : Nat → Prop} {method objid : Bytes}

/-- Every monitor is a connected client, and no client is listed twice. -/
structure MonitorsOk (s : State) : Prop where
  nodup : (s.net.monitors.map Monitor.cl).Nodup
  live : ∀ m ∈ s.net.monitors, s.reg.HasClient m.cl

/-- The registry and the monitors of a later state. -/
def State.rebase (s s' : State) : State :=
  { s with reg := s'.reg, rnd := s'.rnd, net := { s.net with monitors := s'.net.monitors } }

/-- Apart from the registry and the monitors, messages of the catalogue were submitted and nothing
else happened. -/
def Moved (lib : Libubox) (keep : Nat → Prop) (s s' : State) : Prop :=
  Frame (Emits lib s.cause) keep keep (s.rebase s') s'

/-- What a handler does. -/
structure Handled (lib : Libubox) (keep : Nat → Prop) (leak : Prop) (ub : Nat) (s s' : State) :
    Prop where
  frame : Moved lib keep s s'
  good : s'.reg.Ok
  clients : s'.reg.clients = s.reg.clients
  client : ∀ cl, (s'.reg.client cl).id = (s.reg.client cl).id ∧
    (s'.reg.client cl).cred = (s.reg.client cl).cred
  monitors : MonitorsOk s → MonitorsOk s'
  custody : ∀ {clean : Prop} {held : List Nat}, (clean → ¬ leak) →
    Custody clean (ub :: held) none s.net → Custody clean (ub :: held) none s'.net

/-- A predicate on buffers, and one buffer more. -/
abbrev keepAnd (keep : Nat → Prop) (ub : Nat) : Nat → Prop := fun other => keep other ∨ other = ub

/-- The state in which the handler of a message is called. -/
structure Handling (keep : Nat → Prop) (cl ub : Nat) (hdr : Msghdr) (data : Payload) (s : State) :
    Prop where
  on : s.cause.On cl ub hdr data
  ready : Ready keep none s
  client : s.reg.HasClient cl
  below : ub < s.net.brk
  free : ¬ keep ub
  hdr : (s.net.buf ub).hdr = hdr
  data : (s.net.buf ub).data = data

section

variable {lib : Libubox} {keep : Nat → Prop} {leak : Prop} {cl ub : Nat} {hdr : Msghdr}
  {data : Payload} {s s' s'' : State}

theorem MonitorsOk.congr (ok : MonitorsOk s)
    (monitors : s'.net.monitors.map Monitor.cl = s.net.monitors.map Monitor.cl)
    (clients : s'.reg.clients = s.reg.clients) : MonitorsOk s' := by
  refine ⟨monitors.symm ▸ ok.nodup, fun m member => ?_⟩
  have listed : m.cl ∈ s.net.monitors.map Monitor.cl := by
    rw [← monitors]
    exact List.mem_map_of_mem member
  obtain ⟨other, inside, same⟩ := List.mem_map.mp listed
  rw [Registry.HasClient, clients, ← same]
  exact ok.live other inside

theorem Frame.rebase {events : Event → Prop} {keepFd : Nat → Prop}
    (frame : Frame events keep keepFd s s') : Frame events keep keepFd (s.rebase s') s' :=
  ⟨rfl, frame.cause, rfl, frame.fault, frame.socks, frame.fdBrk, rfl, frame.rx, frame.cmdQueue,
    frame.retmsg, frame.brk, frame.hdr, frame.data, frame.fd, frame.trace, frame.allocs⟩

theorem Moved.of_frame (frame : Frame (Emits lib s.cause) keep keep s s') : Moved lib keep s s' :=
  frame.rebase

theorem Moved.trans (one : Moved lib keep s s') (two : Moved lib keep s' s'') :
    Moved lib keep s s'' := by
  have first : Frame (Emits lib s.cause) keep keep (s.rebase s'') (s'.rebase s'') :=
    ⟨rfl, one.cause, rfl, one.fault, one.socks, one.fdBrk, rfl, one.rx, one.cmdQueue, one.retmsg,
      one.brk, one.hdr, one.data, one.fd, one.trace, one.allocs⟩
  have second : Frame (Emits lib s.cause) keep keep (s'.rebase s'') s'' := by
    have cause : s'.cause = s.cause := one.cause
    rw [← cause]
    exact two
  exact first.trans second

theorem Moved.mono (moved : Moved lib keep s s') (less : ∀ ub, keep' ub → keep ub) :
    Moved lib keep' s s' :=
  Frame.mono moved (fun _ => id) less less

theorem Does.handled (does : Does lib keep' none s s') (less : ∀ ub, keep ub → keep' ub) :
    Handled lib keep leak ub s s' where
  frame := (does.work.sends.frame.mono (fun _ => id) less less).rebase
  good := does.good
  clients := does.work.clients
  client := does.work.client
  monitors := fun ok => ok.congr does.work.sends.frame.monitors does.work.clients
  custody := fun _ custody => does.work.sends.custody custody

theorem Handled.mono {leak' : Prop} (handled : Handled lib keep leak ub s s')
    (less : leak → leak') : Handled lib keep leak' ub s s' :=
  ⟨handled.frame, handled.good, handled.clients, handled.client, handled.monitors,
    fun safe => handled.custody fun holds leaks => safe holds (less leaks)⟩

theorem Handled.refl (good : s.reg.Ok) : Handled lib keep leak ub s s :=
  (Does.refl good : Does lib keep none s s).handled fun _ => id

theorem Handled.of_frame (good : s.reg.Ok) (frame : Frame (Emits lib s.cause) keep keep s s')
    (custody : ∀ {clean : Prop} {held : List Nat}, (clean → ¬ leak) →
      Custody clean (ub :: held) none s.net → Custody clean (ub :: held) none s'.net) :
    Handled lib keep leak ub s s' where
  frame := Moved.of_frame frame
  good := by
    rw [frame.reg]
    exact good
  clients := by rw [frame.reg]
  client := fun cl => by rw [frame.reg]; simp
  monitors := fun ok => ok.congr frame.monitors (by rw [frame.reg])
  custody := custody

theorem Handling.readyAnd (ctx : Handling keep cl ub hdr data s) :
    Ready (keepAnd keep ub) none s :=
  ⟨ctx.ready.good, ctx.ready.known, fun other kept => by
    rcases kept with kept | rfl
    exacts [ctx.ready.bound other kept, ctx.below]⟩

theorem Handling.known (ctx : Handling keep cl ub hdr data s) : cl ∈ s.net.socks :=
  ctx.ready.known.clients cl ctx.client

theorem Does.handling (does : Does lib (keepAnd keep ub) none s s')
    (ctx : Handling keep cl ub hdr data s) : Handling keep cl ub hdr data s' where
  on := by
    rw [does.work.cause]
    exact ctx.on
  ready := ⟨does.good, does.work.known ctx.ready.known, fun other kept =>
    lt_of_lt_of_le (ctx.ready.bound other kept) does.work.brk⟩
  client := does.work.hasClient.mpr ctx.client
  below := lt_of_lt_of_le ctx.below does.work.brk
  free := ctx.free
  hdr := (does.work.sends.frame.hdr ub (Or.inr rfl)).trans ctx.hdr
  data := (does.work.sends.frame.data ub (Or.inr rfl)).trans ctx.data

end

/-! ### Replies, objects, subscriptions -/

section Handlers

variable (lib : Libubox) {keep : Nat → Prop} {cl ub : Nat} {hdr : Msghdr} {data : Payload}
  {s : State}

theorem Handling.reply (ctx : Handling keep cl ub hdr data s) (plain : (s.net.buf ub).fd = none)
    {type : MsgType} {puts : List Put} (answer : Answer lib s.reg cl type puts) :
    Sends (Emits lib s.cause) (keepAnd keep ub) s
      (ubusProtoSendMsgFromBlob lib (some cl) ub type puts s) := by
  refine sends_fromBlob lib ctx.readyAnd.bound ctx.ready.known ctx.below plain
    ⟨cl, rfl, ctx.client⟩ (admitsMonitor_emits lib s.moment) ?_
  rintro dest ⟨⟩
  rw [ctx.hdr]
  exact ⟨rfl, .reply ctx.on answer⟩

/-- **`ubusd_send_pong`.** -/
theorem handled_pong (ctx : Handling keep cl ub hdr data s) (direct : s.cause = .message cl ub hdr data)
    (typed : hdr.type = MsgType.ping.code) (attr : Attrs) :
    Handled lib keep False ub s (ubusdSendPong lib cl ub attr s).2 := by
  have free : ¬ (keep ub ∨ keep ub) := fun kept => ctx.free (by simpa using kept)
  refine Handled.of_frame ctx.ready.good (Wire.toFrame ((wire_mapBuf_free _ free).trans
    (wire_send lib ?_ ctx.free ctx.below (admitsMonitor_emits lib s.moment) ?_))) ?_
  · intro other kept
    exact ctx.ready.bound other (by simpa using kept)
  · have pong : Emission lib s.reg s.cause cl { hdr with type := MsgType.data.code } data := by
      rw [direct]
      exact .pong typed
    refine ⟨rfl, ?_⟩
    simpa [State.mapHdr, State.mapBuf, State.moment, ctx.hdr, ctx.data] using pong
  · intro clean held _ custody
    exact Custody.send lib (custody.touchBuf rfl rfl rfl) ctx.known ctx.ready.known.monitors
      (Or.inl List.mem_cons_self) (by simp)

/-- **`ubusd_handle_add_object`.** -/
theorem handled_addObject (ctx : Handling keep cl ub hdr data s)
    (direct : s.cause = .message cl ub hdr data) (typed : hdr.type = MsgType.addObject.code)
    (plain : (s.net.buf ub).fd = none) (attr : Attrs) :
    Handled lib keep False ub s (ubusdHandleAddObject lib cl ub attr s).2 := by
  have created := does_createObject lib ctx.readyAnd ctx.client (direct ▸ .add typed) attr
  unfold ubusdHandleAddObject
  rcases result : ubusdCreateObject lib cl attr s with ⟨_ | obj, t⟩
  · rw [result] at created
    exact created.handled fun _ => Or.inl
  rw [result] at created
  have ctx' := created.handling ctx
  have plain' : (t.net.buf ub).fd = none :=
    (created.work.sends.frame.fd ub (Or.inr rfl)).trans plain
  refine (created.trans (Does.of_sends ctx'.ready.good
    (ctx'.reply lib plain' (.object _ ?_)))).handled fun _ => Or.inl
  split
  · exact Or.inr ⟨_, rfl⟩
  · exact Or.inl rfl

/-- **`ubusd_handle_remove_object`.** -/
theorem handled_removeObject (ctx : Handling keep cl ub hdr data s)
    (direct : s.cause = .message cl ub hdr data) (typed : hdr.type = MsgType.removeObject.code)
    (plain : (s.net.buf ub).fd = none) (attr : Attrs) :
    Handled lib keep False ub s (ubusdHandleRemoveObject lib cl ub attr s).2 := by
  unfold ubusdHandleRemoveObject
  split
  · exact Handled.refl ctx.ready.good
  split
  · exact Handled.refl ctx.ready.good
  rename_i obj found
  split
  · exact Handled.refl ctx.ready.good
  simp only
  generalize shape : Put.int32 UbusAttr.objid (s.reg.object obj).id :: _ = puts
  have answer : Answer lib s.reg cl .data puts := by
    rw [← shape]
    refine .object _ ?_
    split
    · exact Or.inl rfl
    · split
      · exact Or.inr ⟨_, rfl⟩
      · exact Or.inl rfl
  have sends := ctx.reply lib plain answer
  have replied := Does.of_sends ctx.ready.good sends
  have has := (ctx.ready.good.objects.find_iff.mp found).1
  rw [← sends.frame.reg] at has
  have occasion : Occasion false (.message cl ub hdr data) := .remove typed
  rw [← direct, ← sends.frame.cause] at occasion
  exact (replied.trans (does_freeObject lib (replied.ready ctx.readyAnd) (by rintro _ ⟨⟩)
    has fun _ => occasion).1).handled fun _ => Or.inl

/-- **`ubusd_handle_add_watch`.** -/
theorem handled_addWatch (ctx : Handling keep cl ub hdr data s) (attr : Attrs) :
    Handled lib keep False ub s (ubusdHandleAddWatch lib cl ub attr s).2 := by
  have nothing : Handled lib keep False ub s s := Handled.refl ctx.ready.good
  unfold ubusdHandleAddWatch
  split
  · split
    · exact nothing
    rename_i obj found
    split
    · exact nothing
    rename_i mine
    split
    · exact nothing
    rename_i target foundTarget
    split
    · exact nothing
    rename_i owner owned
    split
    · exact nothing
    rename_i differ
    split
    · exact nothing
    have has := (ctx.ready.good.objects.find_iff.mp found).1
    have hasTarget := (ctx.ready.good.objects.find_iff.mp foundTarget).1
    exact (does_subscribe lib ctx.ready has hasTarget (not_not.mp mine) owned
      fun same => differ same.symm).handled fun _ => id
  · exact nothing

/-- **`ubusd_handle_remove_watch`.** -/
theorem handled_removeWatch (ctx : Handling keep cl ub hdr data s) (attr : Attrs) :
    Handled lib keep False ub s (ubusdHandleRemoveWatch lib cl ub attr s).2 := by
  have nothing : Handled lib keep False ub s s := Handled.refl ctx.ready.good
  unfold ubusdHandleRemoveWatch
  split
  · split
    · exact nothing
    rename_i obj found
    split
    · exact nothing
    split
    · exact nothing
    rename_i sub searched
    have has := (ctx.ready.good.objects.find_iff.mp found).1
    obtain ⟨linked, _⟩ :=
      ctx.ready.good.linked_of_target has (List.mem_of_find?_eq_some searched)
    exact (does_unsubscribe lib ctx.ready linked).1.handled fun _ => id
  · exact nothing

end Handlers

/-! ### Responses -/

section Responses

variable (lib : Libubox) {keep : Nat → Prop} {cl ub : Nat} {hdr : Msghdr} {data : Payload}
  {s : State}

/-- **`ubusd_handle_response`.** -/
theorem handled_response (ctx : Handling keep cl ub hdr data s)
    (direct : s.cause = .message cl ub hdr data)
    (typed : hdr.type = MsgType.status.code ∨ hdr.type = MsgType.data.code) :
    Handled lib keep False ub s (ubusdHandleResponse lib cl ub (ubusParseMsg lib data) s).2 := by
  have nothing : Handled lib keep False ub s s := Handled.refl ctx.ready.good
  have free : ¬ (keep ub ∨ keep ub) := fun kept => ctx.free (by simpa using kept)
  unfold ubusdHandleResponse
  split
  · exact nothing
  rename_i objid hasObjid
  split
  · exact nothing
  split
  · exact nothing
  rename_i obj found
  split
  · exact nothing
  rename_i mine
  split
  · exact nothing
  rename_i caller foundCaller
  rw [State.buf, ctx.hdr] at foundCaller
  have isMine := not_not.mp mine
  obtain ⟨has, id⟩ := ctx.ready.good.objects.find_iff.mp found
  have range := (ctx.ready.good.owners.owned obj cl has isMine).2
  rw [id] at range
  have callerHas := (ctx.ready.good.clients.find_iff.mp foundCaller).1
  refine Handled.of_frame ctx.ready.good (Wire.toFrame ((wire_mapBuf_free _ free).trans
    (wire_send lib ?_ ctx.free ctx.below (admitsMonitor_emits lib s.moment) ?_))) ?_
  · intro other kept
    exact ctx.ready.bound other (by simpa using kept)
  · have response : Emission lib s.reg s.cause caller
        { hdr with peer := lib.blobGetU32 objid } data := by
      rw [direct]
      exact .response typed hasObjid found isMine range foundCaller
    refine ⟨rfl, ?_⟩
    simpa [State.mapHdr, State.mapBuf, State.moment, ctx.hdr, ctx.data] using response
  · intro clean held _ custody
    exact Custody.send lib (custody.touchBuf rfl rfl rfl)
      (ctx.ready.known.clients caller callerHas) ctx.ready.known.monitors
      (Or.inl List.mem_cons_self) (by simp)

end Responses

/-! ### System objects -/

section System

variable (lib : Libubox) {keep : Nat → Prop} {cl ub : Nat} {hdr : Msghdr} {data : Payload}
  {s : State}

theorem good_allocEventPattern {reg : Registry} (good : reg.Ok) (cl : Nat) (msg : Option Bytes) :
    (ubusdAllocEventPattern lib cl msg reg).2.Ok ∧
      (ubusdAllocEventPattern lib cl msg reg).2.clients = reg.clients ∧
      (ubusdAllocEventPattern lib cl msg reg).2.client = reg.client := by
  have nothing : reg.Ok ∧ reg.clients = reg.clients ∧ reg.client = reg.client := ⟨good, rfl, rfl⟩
  unfold ubusdAllocEventPattern
  split
  · exact nothing
  simp only
  split
  · split
    · exact nothing
    split
    · exact nothing
    rename_i obj found
    split
    · exact nothing
    rename_i mine
    split
    · exact nothing
    split
    · exact nothing
    · have has := (good.objects.find_iff.mp found).1
      exact ⟨good_newEventSource good has (not_not.mp mine) _ _, rfl, rfl⟩
  · exact nothing

theorem does_eventRecv (ctx : Handling keep cl ub hdr data s)
    (direct : s.cause = .message cl ub hdr data) (typed : hdr.type = MsgType.invoke.code)
    (method : CString) :
    Does lib keep none s (ubusdEventRecv lib cl method (ubusParseMsg lib data .data) s).2 := by
  unfold ubusdEventRecv
  split
  · obtain ⟨good, clients, client⟩ := good_allocEventPattern lib ctx.ready.good cl
      (ubusParseMsg lib data .data)
    exact ⟨Work.of_reg clients fun cl => by rw [client]; simp, good⟩
  · split
    · unfold ubusdForwardEvent
      split
      · exact Does.refl ctx.ready.good
      rename_i msg hasData
      simp only
      split
      · rename_i id body hasId hasBody
        split
        · exact Does.refl ctx.ready.good
        rename_i free
        refine Does.of_sends ctx.ready.good
          (sends_event lib ctx.ready.bound (ctx.ready.eventOk lib ?_))
        rw [direct]
        exact .sent typed hasData hasId hasBody free
      · exact Does.refl ctx.ready.good
    · exact Does.refl ctx.ready.good

/-- The message that makes `ubusd_reply_query` copy its descriptor: a `query` of the ACL object. -/
def AclQuery (lib : Libubox) (data : Payload) : Prop :=
  ∃ method objid, ubusParseMsg lib data .method = some method ∧
    ubusParseMsg lib data .objid = some objid ∧ lib.blobString method = cstr "query" ∧
    lib.blobGetU32 objid = ubusSystemObjectAcl

instance (lib : Libubox) (data : Payload) : Decidable (AclQuery lib data) :=
  match hasMethod : ubusParseMsg lib data .method, hasObjid : ubusParseMsg lib data .objid with
  | some method, some objid =>
    decidable_of_iff
      (lib.blobString method = cstr "query" ∧ lib.blobGetU32 objid = ubusSystemObjectAcl)
      ⟨fun ok => ⟨method, objid, hasMethod, hasObjid, ok⟩, fun ⟨_, _, one, two, ok⟩ => by
        cases hasMethod.symm.trans one
        cases hasObjid.symm.trans two
        exact ok⟩
  | none, _ => isFalse fun ⟨_, _, one, _⟩ => by cases hasMethod.symm.trans one
  | _, none => isFalse fun ⟨_, _, _, two, _⟩ => by cases hasObjid.symm.trans two

theorem handled_aclRecv (ctx : Handling keep cl ub hdr data s) (method : CString) {leak : Prop}
    (copies : method = cstr "query" → (s.net.buf ub).fd ≠ none → leak) :
    Handled lib keep leak ub s (ubusdAclRecv lib cl ub method s).2 := by
  have nothing : Handled lib keep leak ub s s := Handled.refl ctx.ready.good
  unfold ubusdAclRecv
  split
  · rename_i query
    unfold ubusdReplyQuery
    split
    · exact nothing
    split
    · exact nothing
    rename_i obj found
    simp only
    generalize shape : Put.int32 UbusAttr.objid _ :: _ = puts
    have answer : Answer lib s.reg cl .data puts := shape ▸ .acl _
    have frame : Wire (Emits lib s.cause) (keepAnd keep ub) (keepAnd keep ub) s
        (ubusProtoSendMsgFromBlob lib (some cl) ub .data puts s) := by
      refine wire_fromBlob lib ctx.readyAnd.bound ctx.below (admitsMonitor_emits lib s.moment) ?_
      rw [ctx.hdr]
      exact ⟨rfl, .reply ctx.on answer⟩
    refine Handled.of_frame ctx.ready.good (frame.mono (fun _ => id) (fun _ => Or.inl)
      fun _ => Or.inl) fun safe custody => ?_
    refine (custody.fromBlob lib List.mem_cons_self ctx.known
      ctx.ready.known.monitors).unstale fun holds => ?_
    rw [frame.fd ub (Or.inr rfl)]
    by_contra some'
    exact safe holds (copies query some')
  · exact nothing

theorem map_eraseP_cl (monitors : List Monitor) (cl : Nat) :
    (monitors.eraseP fun m => m.cl = cl).map Monitor.cl = (monitors.map Monitor.cl).erase cl := by
  induction monitors with
  | nil => rfl
  | cons m rest ih =>
    by_cases same : m.cl = cl
    · simp [same]
    · simp [same, ih]

theorem monitorsOk_disconnect (ok : MonitorsOk s) (cl : Nat) :
    MonitorsOk (ubusdMonitorDisconnect cl s) ∧
      ∀ m ∈ (ubusdMonitorDisconnect cl s).net.monitors, m.cl ≠ cl := by
  have list := map_eraseP_cl s.net.monitors cl
  refine ⟨⟨?_, fun m member => ok.live m (List.mem_of_mem_eraseP member)⟩, ?_⟩
  · show (List.map Monitor.cl (s.net.monitors.eraseP fun m => m.cl = cl)).Nodup
    rw [list]
    exact ok.nodup.erase cl
  · intro m member same
    have listed : m.cl ∈ (s.net.monitors.eraseP fun m => m.cl = cl).map Monitor.cl :=
      List.mem_map_of_mem member
    rw [list, ok.nodup.mem_erase_iff] at listed
    exact listed.1 same

theorem monitorsOk_connect (ok : MonitorsOk s) (known : s.reg.HasClient cl) :
    MonitorsOk (ubusdMonitorConnect cl s) := by
  obtain ⟨ok', others⟩ := monitorsOk_disconnect ok cl
  refine ⟨?_, ?_⟩
  · show (List.map Monitor.cl ((ubusdMonitorDisconnect cl s).net.monitors ++ [⟨cl, 0⟩])).Nodup
    rw [List.map_append, List.nodup_append]
    refine ⟨ok'.nodup, List.nodup_singleton _, ?_⟩
    intro first inside second last same
    obtain ⟨m, member, rfl⟩ := List.mem_map.mp inside
    simp only [List.map_cons, List.map_nil, List.mem_singleton] at last
    exact others m member (same.trans last)
  · intro m member
    rcases List.mem_append.mp member with member | member
    · exact ok'.live m member
    · rw [List.mem_singleton] at member
      rw [member]
      exact known

theorem Handled.of_monitors {leak : Prop} (good : s.reg.Ok) {monitors : List Monitor}
    (ok : MonitorsOk s → MonitorsOk { s with net := { s.net with monitors } }) :
    Handled lib keep leak ub s { s with net := { s.net with monitors } } where
  frame := Frame.refl _
  good := good
  clients := rfl
  client := fun _ => ⟨rfl, rfl⟩
  monitors := ok
  custody := fun _ custody => custody.congr rfl le_rfl rfl rfl (fun _ => ⟨rfl, rfl, rfl⟩)
    (fun _ => rfl) fun _ => rfl

theorem handled_monitorRecv {leak : Prop} (ctx : Handling keep cl ub hdr data s) (method : CString) :
    Handled lib keep leak ub s (ubusdMonitorRecv cl method s).2 := by
  unfold ubusdMonitorRecv
  simp only
  split
  · exact Handled.refl ctx.ready.good
  split
  · exact Handled.of_monitors lib ctx.ready.good fun ok => monitorsOk_connect ok ctx.client
  · split
    · exact Handled.of_monitors lib ctx.ready.good fun ok => (monitorsOk_disconnect ok cl).1
    · exact Handled.refl ctx.ready.good

end System

/-! ### Calls and notifications -/

section Calls

variable (lib : Libubox) {keep : Nat → Prop} {cl ub : Nat} {hdr : Msghdr} {data : Payload}
  {s : State}

theorem handled_recvMsg (ctx : Handling keep cl ub hdr data s)
    (direct : s.cause = .message cl ub hdr data) (typed : hdr.type = MsgType.invoke.code)
    {recv : RecvMsg} (method : CString) {leak : Prop}
    (copies : recv = .acl → method = cstr "query" → (s.net.buf ub).fd ≠ none → leak) :
    Handled lib keep leak ub s
      (recvMsg lib (some recv) cl ub method (ubusParseMsg lib data .data) s).2 := by
  cases recv with
  | event => exact (does_eventRecv lib ctx direct typed method).handled fun _ => id
  | acl => exact handled_aclRecv lib ctx method (copies rfl)
  | monitor => exact handled_monitorRecv lib ctx method

theorem handled_forward (ctx : Handling keep cl ub hdr data s)
    (direct : s.cause = .message cl ub hdr data) (typed : hdr.type = MsgType.invoke.code)
    (hasMethod : ubusParseMsg lib data .method = some method)
    (hasObjid : ubusParseMsg lib data .objid = some objid) {owner : Nat}
    (found : ubusdFindObject s.reg (lib.blobGetU32 objid) = some obj)
    (allowed : ubusdAclCheck lib s.reg.acl.entries (some (s.reg.client cl).cred) (s.reg.object obj).path (some (lib.blobString method)) .access = 0)
    (owned : (s.reg.object obj).client = some owner) {leak : Prop} :
    Handled lib keep leak ub s ((ubusdForwardInvoke lib cl obj (lib.blobString method) ub
      (ubusParseMsg lib data .data) []
      (s.mapHdr ub fun hdr => { hdr with peer := (s.reg.client cl).id })).mapBuf ub
        fun buf => { buf with fd := none }) := by
  have free : ¬ (keep ub ∨ keep ub) := fun kept => ctx.free (by simpa using kept)
  have has := (ctx.ready.good.objects.find_iff.mp found).1
  have known := ctx.ready.known.clients owner (ctx.ready.good.owners.owned obj owner has owned).1
  unfold ubusdForwardInvoke
  rw [show ((s.mapHdr ub fun hdr => { hdr with peer := (s.reg.client cl).id }).reg.object
    obj).client = some owner from owned]
  refine Handled.of_frame ctx.ready.good (Wire.toFrame (((wire_mapBuf_free _ free).trans
    (wire_fromBlob lib ctx.ready.bound ctx.below (admitsMonitor_emits lib s.moment) ?_)).trans
    (wire_mapBuf_free _ free))) ?_
  · refine ⟨rfl, ?_⟩
    have sent : Emission lib s.reg (.message cl ub hdr data) owner _ _ :=
      .invoke typed hasMethod hasObjid found allowed
        (ctx.ready.good.objects.find_iff.mpr ⟨has, rfl⟩) owned (ctx.ready.caller ctx.client)
    rw [← direct] at sent
    simpa [State.mapHdr, State.mapBuf, State.moment, ctx.hdr] using sent
  · intro clean held _ custody
    have touched : Custody clean (ub :: held) none
        (s.mapHdr ub fun hdr => { hdr with peer := (s.reg.client cl).id }).net :=
      custody.touchBuf rfl rfl rfl
    exact (touched.fromBlob lib List.mem_cons_self known ctx.ready.known.monitors).settle

/-- **`ubusd_handle_invoke`.** -/
theorem handled_invoke (ctx : Handling keep cl ub hdr data s)
    (direct : s.cause = .message cl ub hdr data) (typed : hdr.type = MsgType.invoke.code) :
    Handled lib keep ((s.net.buf ub).fd ≠ none ∧ AclQuery lib data) ub s
      (ubusdHandleInvoke lib cl ub (ubusParseMsg lib data) s).2 := by
  have nothing : Handled lib keep ((s.net.buf ub).fd ≠ none ∧ AclQuery lib data) ub s s :=
    Handled.refl ctx.ready.good
  unfold ubusdHandleInvoke
  split
  · rename_i method objid hasMethod hasObjid
    split
    · exact nothing
    rename_i obj found
    simp only
    split
    · exact nothing
    rename_i allowed
    obtain ⟨has, id⟩ := ctx.ready.good.objects.find_iff.mp found
    split
    · rename_i unowned
      obtain ⟨recv, isRecv, isId⟩ | impossible := ctx.ready.good.owners.unowned obj has unowned
      · rw [isRecv]
        refine handled_recvMsg lib ctx direct typed _ ?_
        rintro rfl query some'
        exact ⟨some', method, objid, hasMethod, hasObjid, query, id.symm.trans isId⟩
      · cases impossible
    · rename_i owner owned
      exact handled_forward lib ctx direct typed hasMethod hasObjid found (not_not.mp allowed)
        owned
  · exact nothing

/-- What the loop of `ubusd_handle_notify` starts from and keeps. -/
structure Notifying (keep : Nat → Prop) (cl ub : Nat) (hdr : Msghdr) (s t : State) : Prop where
  reg : t.reg = s.reg
  cause : t.cause = s.cause
  ready : Ready keep none t
  below : ub < t.net.brk
  plain : (t.net.buf ub).fd = none
  seq : (t.net.buf ub).hdr.seq = hdr.seq
  peer : (t.net.buf ub).hdr.peer = (s.reg.client cl).id

theorem Notifying.next {t' : State} (ctx : Notifying keep cl ub hdr s t)
    (sends : Sends (Emits lib s.cause) (keepAnd keep ub) t t') : Notifying keep cl ub hdr s t' := by
  have frame := sends.frame
  have here := frame.hdr ub (Or.inr rfl)
  exact {
    reg := frame.reg.trans ctx.reg
    cause := frame.cause.trans ctx.cause
    ready := ⟨by rw [frame.reg]; exact ctx.ready.good, frame.known ctx.ready.known,
      fun other kept => lt_of_lt_of_le (ctx.ready.bound other kept) frame.brk⟩
    below := lt_of_lt_of_le ctx.below frame.brk
    plain := (frame.fd ub (Or.inr rfl)).trans ctx.plain
    seq := by rw [here, ctx.seq]
    peer := by rw [here, ctx.peer] }

theorem Handling.notifying (ctx : Handling keep cl ub hdr data s)
    (plain : (s.net.buf ub).fd = none)
    (answered : Sends (Emits lib s.cause) (keepAnd keep ub) s t) :
    Notifying keep cl ub hdr s
      (t.mapHdr ub fun hdr => { hdr with peer := (t.reg.client cl).id }) := by
  have frame := answered.frame
  have good : t.reg.Ok := frame.reg.symm ▸ ctx.ready.good
  have known := frame.known ctx.ready.known
  exact {
    reg := frame.reg
    cause := frame.cause
    ready := ⟨good, ⟨known.clients, known.monitors⟩, fun other kept =>
      lt_of_lt_of_le (ctx.ready.bound other kept) frame.brk⟩
    below := lt_of_lt_of_le ctx.below frame.brk
    plain := by simp [State.mapHdr, State.mapBuf, frame.fd ub (Or.inr rfl), plain]
    seq := by simp [State.mapHdr, State.mapBuf, frame.hdr ub (Or.inr rfl), ctx.hdr]
    peer := by simp [State.mapHdr, State.mapBuf, frame.reg] }

theorem sends_notifyRound (ctx : Notifying keep cl ub hdr s t)
    (direct : s.cause = .message cl ub hdr data) (typed : hdr.type = MsgType.notify.code)
    (hasMethod : ubusParseMsg lib data .method = some method)
    (hasObjid : ubusParseMsg lib data .objid = some objid) {sub : Nat}
    (found : ubusdFindObject s.reg (lib.blobGetU32 objid) = some obj)
    (mine : (s.reg.object obj).client = some cl) (member : sub ∈ (s.reg.object obj).subscribers)
    (noReply : Bool) : Sends (Emits lib s.cause) (keepAnd keep ub) t
      (notifyRound lib cl ub noReply (lib.blobString method) (ubusParseMsg lib data .data) t
        sub) := by
  have good : s.reg.Ok := ctx.reg ▸ ctx.ready.good
  have has := (good.objects.find_iff.mp found).1
  obtain ⟨linked, _⟩ := good.linked_of_subscriber has member
  obtain ⟨owner, owned⟩ := linked.owned'
  have known := (good.owners.owned _ owner linked.hasSubscriber owned).1
  unfold notifyRound ubusdForwardInvoke
  rw [ctx.reg, owned]
  refine sends_fromBlob lib ?_ ctx.ready.known ctx.below ctx.plain
    ⟨owner, rfl, ctx.reg.symm ▸ known⟩ ?_ ?_
  · intro other kept
    rcases kept with kept | rfl
    exacts [ctx.ready.bound other kept, ctx.below]
  · rw [← ctx.cause]
    exact admitsMonitor_emits lib t.moment
  · rintro dest ⟨⟩
    refine ⟨ctx.cause, ?_⟩
    have plain : (if noReply then [Put.int8 .noReply 1] else []) = [] ∨
        (if noReply then [Put.int8 .noReply 1] else []) = [.int8 .noReply 1] := by
      cases noReply <;> simp
    have sent : Emission lib s.reg (.message cl ub hdr data) owner _ _ :=
      .notification typed hasMethod hasObjid found mine member
        (good.objects.find_iff.mpr ⟨linked.hasSubscriber, rfl⟩) owned
        (ctx.reg ▸ ctx.ready.caller (ctx.reg.symm ▸ (good.owners.owned obj cl has mine).1)) plain
    rw [← direct] at sent
    simpa [State.moment, ctx.reg, ctx.seq, ctx.peer] using sent

/-- **`ubusd_handle_notify`.** -/
theorem handled_notify (ctx : Handling keep cl ub hdr data s)
    (direct : s.cause = .message cl ub hdr data) (typed : hdr.type = MsgType.notify.code)
    (plain : (s.net.buf ub).fd = none) :
    Handled lib keep False ub s (ubusdHandleNotify lib cl ub (ubusParseMsg lib data) s).2 := by
  have nothing : Handled lib keep False ub s s := Handled.refl ctx.ready.good
  have free : ¬ (keep ub ∨ keep ub) := fun kept => ctx.free (by simpa using kept)
  unfold ubusdHandleNotify
  split
  · rename_i method objid hasMethod hasObjid
    simp only
    generalize Option.any _ (ubusParseMsg lib data .noReply) = noReply
    split
    · exact nothing
    rename_i obj found
    split
    · exact nothing
    rename_i mine
    have answered : Sends (Emits lib s.cause) (keepAnd keep ub) s (if noReply then s else
        ubusProtoSendMsgFromBlob lib (some cl) ub .status (notifyStatusPuts s.reg obj) s) := by
      split
      · exact Sends.refl s
      · exact ctx.reply lib plain (.notify (not_not.mp mine))
    generalize (if noReply then s else _) = t at answered ⊢
    have start := ctx.notifying lib plain answered
    have looped := Sends.foldl (Notifying keep cl ub hdr s) (notifyRound lib cl ub noReply
      (lib.blobString method) (ubusParseMsg lib data .data)) (s.reg.object obj).subscribers
      (fun u sub member inv => by
        have sent := sends_notifyRound lib inv direct typed hasMethod hasObjid found
          (not_not.mp mine) member noReply
        exact ⟨sent, inv.next lib sent⟩) start
    have list : ((t.mapHdr ub fun hdr => { hdr with peer := (t.reg.client cl).id }).reg.object
        obj).subscribers = (s.reg.object obj).subscribers := by
      rw [show (t.mapHdr ub _).reg = s.reg from answered.frame.reg]
    rw [list]
    refine Handled.of_frame ctx.ready.good (((answered.frame.mono (fun _ => id)
      (fun _ => Or.inl) fun _ => Or.inl).trans (wire_mapBuf_free _ free).toFrame).trans
      (looped.frame.mono (fun _ => id) (fun _ => Or.inl) fun _ => Or.inl)) ?_
    intro clean held _ custody
    exact looped.custody ((answered.custody custody).touchBuf rfl rfl rfl)
  · exact nothing

end Calls

/-! ### Lookups -/

section Lookups

variable (lib : Libubox) {keep : Nat → Prop} {cl ub : Nat} {hdr : Msghdr} {data : Payload}
  {s : State}

/-- `ubusd_send_obj` for one node after the other. -/
def sendObjs (cl ub : Nat) (nodes : AvlTree CString) (s : State) : State :=
  nodes.foldl (fun s node => ubusdSendObj lib cl ub node.2 s) s

/-- How the loop of a full lookup ends: at the end of the tree, or parked before a node. -/
def park (cl ub : Nat) (resumed : Bool) (rest : AvlTree CString) (s : State) : Ret × State :=
  match rest with
  | [] => (.done .ok, s)
  | (key, _) :: _ => if resumed then (.queued, setLookupPath cl key s)
      else ubusClientCmdQueueAdd cl ub (some key) s

/-- **The loop of a full lookup** sends the objects of the nodes up to the one before which the
transmit queue is no longer empty. -/
theorem lookupLoop_eq (cl ub : Nat) (resumed : Bool) (nodes : AvlTree CString) (s : State) : ∃ sent rest,
    nodes = sent ++ rest ∧
    lookupLoop lib cl ub resumed nodes s = park cl ub resumed rest (sendObjs lib cl ub sent s) ∧
    (rest ≠ [] → ((sendObjs lib cl ub sent s).tx cl).txQueue ≠ []) ∧
    ∀ before node after, sent = before ++ node :: after →
      ((sendObjs lib cl ub before s).tx cl).txQueue = [] := by
  induction nodes generalizing s with
  | nil => exact ⟨[], [], rfl, rfl, fun absurd => (absurd rfl).elim, fun _ _ _ split => by simp at split⟩
  | cons node others ih =>
    unfold lookupLoop
    split
    · rename_i idle
      obtain ⟨sent, rest, split', loop, queued, idles⟩ := ih (ubusdSendObj lib cl ub node.2 s)
      refine ⟨node :: sent, rest, by rw [split', List.cons_append], loop, queued, ?_⟩
      intro before node' after split''
      cases before with
      | nil => exact List.isEmpty_iff.mp idle
      | cons first before =>
        obtain ⟨rfl, later⟩ := List.cons.inj split''
        exact idles before node' after later
    · rename_i busy
      refine ⟨[], node :: others, rfl, rfl, fun _ => ?_, fun _ _ _ split => by simp at split⟩
      simpa [sendObjs] using busy

/-- **The nodes that a path finds**: the one with this path, or those under it. -/
def found (tree : AvlTree CString) (objpath : CString) : AvlTree CString :=
  if objpath.getLast? ≠ some 42 then ((tree.find objpath).map (Prod.mk objpath)).toList
  else (tree.findGe objpath.dropLast).takeWhile fun node => objpath.dropLast.isPrefixOf node.1

theorem found_subset {tree : AvlTree CString} {objpath : CString} : ∀ node ∈ found tree objpath, node ∈ tree := by
  intro node member
  unfold found at member
  split at member
  · obtain ⟨obj, here, rfl⟩ := Option.map_eq_some_iff.mp (Option.mem_toList.mp member)
    exact AvlTree.mem_of_find here
  · exact (List.dropWhile_sublist _).subset ((List.takeWhile_sublist _).subset member)

/-- **A lookup with a path** passes what the path finds. -/
theorem handleLookup_path (cl ub : Nat) {attr : Attrs} {objpath : Bytes} (named : attr .objpath = some objpath)
    (cmd : Option ClientCmd) (s : State) : handleLookup lib cl ub attr cmd s =
      if lib.blobString objpath = [] then (.done .invalidArgument, s)
      else if found s.reg.path (lib.blobString objpath) = [] then (.done .notFound, s)
      else (.done .ok, sendObjs lib cl ub (found s.reg.path (lib.blobString objpath)) s) := by
  unfold handleLookup found
  rw [named]
  simp only [List.isEmpty_iff]
  split
  · rfl
  split
  · cases s.reg.path.find (lib.blobString objpath) with
    | none => rfl
    | some obj => rfl
  · rfl

theorem sends_sendObj (ctx : Handling keep cl ub hdr data s) (plain : (s.net.buf ub).fd = none)
    {key : CString} (registered : (key, obj) ∈ s.reg.path) :
    Sends (Emits lib s.cause) (keepAnd keep ub) s (ubusdSendObj lib cl ub obj s) := by
  have logged : Sends (Emits lib s.cause) (keepAnd keep ub) s
      (s.log (.sendObj s.moment cl ub obj)) :=
    Sends.of_net (wire_log ⟨rfl, ⟨hdr, data, ctx.on⟩, key, registered⟩).toFrame rfl
  have ctx' := (Does.of_sends ctx.ready.good logged).handling ctx
  unfold ubusdSendObj
  simp only
  split
  · exact logged
  rename_i type typed
  split
  · exact logged
  · exact logged.trans (ctx'.reply lib plain
      (.lookup registered typed List.filter_sublist))

theorem sends_sendObjs (ctx : Handling keep cl ub hdr data s) (plain : (s.net.buf ub).fd = none)
    {nodes : AvlTree CString} (registered : ∀ node ∈ nodes, node ∈ s.reg.path) :
    Sends (Emits lib s.cause) (keepAnd keep ub) s (sendObjs lib cl ub nodes s) := by
  refine Sends.foldl (fun t => t.reg = s.reg ∧ t.cause = s.cause ∧ Handling keep cl ub hdr data t ∧
    (t.net.buf ub).fd = none) _ _ ?_ ⟨rfl, rfl, ctx, plain⟩
  rintro t node member ⟨reg, cause, ctx', plain'⟩
  have sends := sends_sendObj lib ctx' plain'
    (show (node.1, node.2) ∈ t.reg.path from reg ▸ registered node member)
  rw [cause] at sends
  refine ⟨sends, sends.frame.reg.trans reg, sends.frame.cause.trans cause, ?_,
    (sends.frame.fd ub (Or.inr rfl)).trans plain'⟩
  rw [← cause] at sends
  exact (Does.of_sends ctx'.ready.good sends).handling ctx'

theorem lookupStart_subset (reg : Registry) (cmd : Option ClientCmd) :
    ∀ node ∈ lookupStart reg cmd, node ∈ reg.path := by
  intro node member
  unfold lookupStart at member
  split at member
  · exact (List.dropWhile_sublist _).subset member
  · exact member

/-- **A lookup passes nodes of the path tree**; then it is done, or parked before a node because the
transmit queue is no longer empty. -/
theorem handleLookup_eq (cl ub : Nat) (attr : Attrs) (cmd : Option ClientCmd) (s : State) :
    ∃ sent, (∀ node ∈ sent, node ∈ s.reg.path) ∧
      (attr .objpath = none → ∀ before node after, sent = before ++ node :: after →
        ((sendObjs lib cl ub before s).tx cl).txQueue = []) ∧
      ((∃ status, handleLookup lib cl ub attr cmd s = (.done status, sendObjs lib cl ub sent s) ∧
          (attr .objpath = none → status = .ok ∧ lookupStart s.reg cmd = sent) ∧
          ∀ objpath, attr .objpath = some objpath → sent = [] ∧ status ≠ .ok ∨
            sent = found s.reg.path (lib.blobString objpath)) ∨
        ∃ node others, attr .objpath = none ∧ lookupStart s.reg cmd = sent ++ node :: others ∧
          ((sendObjs lib cl ub sent s).tx cl).txQueue ≠ [] ∧
          handleLookup lib cl ub attr cmd s =
            park cl ub cmd.isSome (node :: others) (sendObjs lib cl ub sent s)) := by
  rcases named : attr .objpath with _ | objpath
  · obtain ⟨sent, rest, split', loop, busy, idle⟩ :=
      lookupLoop_eq lib cl ub cmd.isSome (lookupStart s.reg cmd) s
    refine ⟨sent, fun node member => lookupStart_subset s.reg cmd node
      (split' ▸ List.mem_append_left _ member), fun _ => idle, ?_⟩
    have result : handleLookup lib cl ub attr cmd s =
        park cl ub cmd.isSome rest (sendObjs lib cl ub sent s) := by
      unfold handleLookup
      rw [named]
      exact loop
    rw [result]
    cases rest with
    | nil => exact Or.inl ⟨.ok, rfl, fun _ => ⟨rfl, by rw [split', List.append_nil]⟩, nofun⟩
    | cons node others => exact Or.inr ⟨node, others, rfl, split', busy (List.cons_ne_nil node others), rfl⟩
  · rw [handleLookup_path lib cl ub named]
    split
    · exact ⟨[], nofun, nofun, Or.inl ⟨_, rfl, nofun, fun _ _ => Or.inl ⟨rfl, by decide⟩⟩⟩
    split
    · exact ⟨[], nofun, nofun, Or.inl ⟨_, rfl, nofun, fun _ _ => Or.inl ⟨rfl, by decide⟩⟩⟩
    · refine ⟨_, found_subset, nofun, Or.inl ⟨_, rfl, nofun, fun other is => Or.inr ?_⟩⟩
      rw [Option.some.inj is]

theorem handleLookup_cases (ctx : Handling keep cl ub hdr data s)
    (plain : (s.net.buf ub).fd = none) (attr : Attrs) (cmd : Option ClientCmd) :
    ∃ t, Sends (Emits lib s.cause) (keepAnd keep ub) s t ∧
      ((∃ status, handleLookup lib cl ub attr cmd s = (.done status, t)) ∨
        (∃ key, handleLookup lib cl ub attr cmd s =
          if cmd.isSome then (.queued, setLookupPath cl key t)
          else ubusClientCmdQueueAdd cl ub (some key) t)) := by
  obtain ⟨sent, listed, -, cases⟩ := handleLookup_eq lib cl ub attr cmd s
  refine ⟨sendObjs lib cl ub sent s, sends_sendObjs lib ctx plain listed, ?_⟩
  rcases cases with ⟨status, result, -⟩ | ⟨node, others, -, -, -, result⟩
  · exact Or.inl ⟨status, result⟩
  · exact Or.inr ⟨node.1, result⟩

end Lookups

end Ubus
