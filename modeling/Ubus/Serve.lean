/-
**A message is handled as on the bus.**

* `agrees_handle`: the handler of a message, other than a lookup, agrees with `Bus.handle`.
* `shows_receiveMessage`: so does `ubusd_proto_receive_message` with `Bus.answer`.
-/

import Ubus.Dispatch
import Ubus.Refine

namespace Ubus

open Lib

/-- The message that is being handled, with the header and the payload it has now. -/
structure Holds (ub : Nat) (hdr : Msghdr) (data : Payload) (s : State) : Prop where
  below : ub < s.net.brk
  hdr : (s.net.buf ub).hdr = hdr
  data : (s.net.buf ub).data = data

section Handlers

variable (lib : Libubox) {s : State} {b : Bus} {cl ub : Nat} {hdr : Msghdr} {data : Payload}

theorem Holds.mapHdr (holds : Holds ub hdr data s) (f : Msghdr → Msghdr) :
    Holds ub (f hdr) data (s.mapHdr ub f) := by
  refine ⟨holds.below, ?_, ?_⟩
  · simp [State.mapHdr, State.mapBuf, holds.hdr]
  · simp [State.mapHdr, State.mapBuf, holds.data]

theorem Holds.fromBlob (holds : Holds ub hdr data s) (dest : Option Nat) (type : MsgType)
    (puts : List Put) : Holds ub hdr data (ubusProtoSendMsgFromBlob lib dest ub type puts s) := by
  obtain ⟨below, hdr', data'⟩ := holds
  have made : Wire (fun _ => True) (· = ub) (fun _ => False) s
      (ubusMsgNew (.built puts) true s).2 := by
    refine wire_new _ _ ?_
    rintro other (rfl | absurd)
    · exact below
    · exact absurd.elim
  unfold ubusProtoSendMsgFromBlob
  simp only
  rcases result : ubusMsgNew (.built puts) true s with ⟨_ | new, t⟩
  · rw [result] at made
    have closed := made.trans (wire_closeFd (s.net.buf ub).fd t)
    exact ⟨below.trans_le closed.brk, (closed.hdr ub rfl).trans hdr', (closed.data ub rfl).trans data'⟩
  · rw [result] at made
    have newIs := (ubusMsgNew_some result).1
    have differs : ub ≠ new := by
      rw [newIs]
      exact below.ne
    have belowT : new < t.net.brk :=
      (Made.new (by simp) result : Made (fun _ => True) (fun _ => False) s t new).below
    simp only
    generalize filled : State.mapBuf new _ t = u
    have other : u.net.buf ub = t.net.buf ub := by
      rw [← filled]
      exact Function.update_of_ne differs _ _
    have belowU : new < u.net.brk := by rw [← filled]; exact belowT
    have brkU : s.net.brk ≤ u.net.brk := by rw [← filled]; exact made.brk
    obtain ⟨brk, keeps⟩ := sendTo_keeps lib (s := u) belowU
    have freed : Wire (fun _ => True) (fun _ => True) (fun _ => True)
        (ubusMsgSendTo lib dest new u) (ubusMsgFree new (ubusMsgSendTo lib dest new u)) :=
      wire_free new _
    have kept := keeps ub (below.trans_le brkU)
    refine ⟨(below.trans_le (brkU.trans brk)).trans_le freed.brk, ?_, ?_⟩
    · rw [freed.hdr ub trivial, kept.1, other, made.hdr ub rfl, hdr']
    · rw [freed.data ub trivial, kept.2, other, made.data ub rfl, data']

theorem agrees_pong (shows : Shows s b) (holds : Holds ub hdr data s) (attr : Attrs) :
    Agrees (ubusdSendPong lib cl ub attr s) (b.pong cl hdr data) := by
  have typed := holds.mapHdr fun hdr => { hdr with type := MsgType.data.code }
  have sent : Shows (ubusMsgSend lib cl ub (s.mapHdr ub fun hdr => { hdr with
      type := MsgType.data.code })) _ :=
    shows_send lib (shows.mapBuf ub _) typed.below (by
      rw [State.buf, typed.hdr]
      exact (by decide : MsgType.data.code ≠ MsgType.monitor.code))
  rw [State.buf, typed.hdr, typed.data] at sent
  exact ⟨rfl, sent⟩

theorem shows_reply (shows : Shows s b) (holds : Holds ub hdr data s) (dest : Option Nat)
    {type : MsgType} (plain : type ≠ .monitor) (puts : List Put) :
    Shows (ubusProtoSendMsgFromBlob lib dest ub type puts s) (b.reply dest hdr type puts) := by
  have sent := shows_fromBlob lib shows dest plain puts holds.below
  rwa [State.buf, holds.hdr] at sent

theorem agrees_removeObject (shows : Shows s b) (holds : Holds ub hdr data s)
    (sorted : b.reg.patterns.Sorted) :
    Agrees (ubusdHandleRemoveObject lib cl ub (ubusParseMsg lib data) s)
      (b.handleRemoveObject lib cl hdr data) := by
  unfold ubusdHandleRemoveObject Bus.handleRemoveObject
  rw [shows.reg]
  cases ubusParseMsg lib data .objid with
  | none => exact ⟨rfl, shows⟩
  | some objid =>
    simp only
    cases ubusdFindObject b.reg (lib.blobGetU32 objid) with
    | none => exact ⟨rfl, shows⟩
    | some obj =>
      simp only
      split
      · exact ⟨rfl, shows⟩
      · refine ⟨rfl, shows_freeObject lib (shows_reply lib shows holds _ (by decide) _) ?_ obj⟩
        rw [Bus.reply, Bus.submitTo_reg]
        exact sorted

theorem agrees_addObject (shows : Shows s b) (sorted : b.reg.patterns.Sorted)
    (kept : Holds ub hdr data (ubusdCreateObject lib cl (ubusParseMsg lib data) s).2) :
    Agrees (ubusdHandleAddObject lib cl ub (ubusParseMsg lib data) s)
      (b.handleAddObject lib cl hdr data) := by
  have made := shows_createObject lib shows sorted cl (ubusParseMsg lib data)
  unfold ubusdHandleAddObject Bus.handleAddObject
  generalize ubusdCreateObject lib cl (ubusParseMsg lib data) s = result at made kept ⊢
  generalize b.createObject lib cl (ubusParseMsg lib data) = result' at made ⊢
  obtain ⟨obj, t⟩ := result
  obtain ⟨obj', b'⟩ := result'
  obtain ⟨same, shows'⟩ := made
  simp only at same shows' kept
  subst same
  cases obj with
  | none => exact ⟨rfl, shows'⟩
  | some obj =>
    simp only [shows'.reg]
    exact ⟨rfl, shows_reply lib shows' kept _ (by decide) _⟩

theorem agrees_eventRecv (shows : Shows s b) (sorted : b.reg.patterns.Sorted) (method : CString)
    (msg : Option Bytes) :
    Agrees (ubusdEventRecv lib cl method msg s) (b.eventRecv lib cl method msg) := by
  unfold ubusdEventRecv Bus.eventRecv
  rw [shows.reg]
  split
  · exact ⟨rfl, shows.mapReg fun _ => (ubusdAllocEventPattern lib cl msg b.reg).2⟩
  split
  · unfold ubusdForwardEvent Bus.forwardEvent
    cases msg with
    | none => exact ⟨rfl, shows⟩
    | some msg =>
      simp only
      cases lib.blobmsgParse evPolicy (lib.blobData msg) (cstr "id") with
      | none => exact ⟨rfl, shows⟩
      | some id =>
        cases lib.blobmsgParse evPolicy (lib.blobData msg) (cstr "data") with
        | none => exact ⟨rfl, shows⟩
        | some data =>
          simp only
          split
          · exact ⟨rfl, shows⟩
          · exact shows_event lib (some cl) _ _ shows sorted
  · exact ⟨rfl, shows⟩

theorem agrees_replyQuery (shows : Shows s b) (holds : Holds ub hdr data s) :
    Agrees (ubusdReplyQuery lib cl ub (ubusParseMsg lib data) s) (b.replyQuery lib cl hdr data) := by
  unfold ubusdReplyQuery Bus.replyQuery
  rw [shows.reg]
  cases ubusParseMsg lib data .objid with
  | none => exact ⟨rfl, shows⟩
  | some objid =>
    simp only
    cases ubusdFindObject b.reg (lib.blobGetU32 objid) with
    | none => exact ⟨rfl, shows⟩
    | some obj => exact ⟨rfl, shows_reply lib shows holds _ (by decide) _⟩

theorem monitors_eraseP (monitors : List Monitor) (cl : Nat) :
    (monitors.eraseP fun m => m.cl = cl).map Monitor.cl = (monitors.map Monitor.cl).erase cl := by
  induction monitors with
  | nil => rfl
  | cons m rest ih =>
    by_cases same : m.cl = cl
    · simp [same]
    · simp [same, ih]

theorem Shows.withMonitors (shows : Shows s b) (monitors : List Monitor) :
    Shows { s with net := { s.net with monitors } }
      { b with monitors := monitors.map Monitor.cl } := by
  obtain ⟨rfl, funded⟩ := shows
  exact ⟨rfl, funded⟩

theorem agrees_monitorRecv (shows : Shows s b) (method : CString) :
    Agrees (ubusdMonitorRecv cl method s) (b.monitorRecv cl method) := by
  have monitors : s.net.monitors.map Monitor.cl = b.monitors := shows.bus ▸ rfl
  have removed := shows.withMonitors (s.net.monitors.eraseP fun m => m.cl = cl)
  have added := shows.withMonitors ((s.net.monitors.eraseP fun m => m.cl = cl) ++ [Monitor.mk cl 0])
  rw [List.map_append, monitors_eraseP, monitors] at added
  rw [monitors_eraseP, monitors] at removed
  unfold ubusdMonitorRecv Bus.monitorRecv
  rw [shows.reg]
  simp only
  split
  · exact ⟨rfl, shows⟩
  split
  · exact ⟨rfl, added⟩
  · split
    · exact ⟨rfl, removed⟩
    · exact ⟨rfl, shows⟩

theorem agrees_recvMsg (cl : Nat) (shows : Shows s b) (holds : Holds ub hdr data s)
    (sorted : b.reg.patterns.Sorted) (recv : Option RecvMsg) (method : CString) :
    Agrees (recvMsg lib recv cl ub method (ubusParseMsg lib data .data) s)
      (b.recvMsg lib recv cl hdr data method) := by
  unfold recvMsg Bus.recvMsg
  cases recv with
  | none => exact ⟨rfl, shows.bus, shows.funded⟩
  | some recv =>
    cases recv with
    | event => exact agrees_eventRecv lib shows sorted method _
    | acl =>
      simp only [ubusdAclRecv, State.buf, holds.data]
      split
      · exact agrees_replyQuery lib shows holds
      · exact ⟨rfl, shows⟩
    | monitor => exact agrees_monitorRecv shows method

theorem agrees_invoke (shows : Shows s b) (holds : Holds ub hdr data s)
    (sorted : b.reg.patterns.Sorted) :
    Agrees (ubusdHandleInvoke lib cl ub (ubusParseMsg lib data) s)
      (b.handleInvoke lib cl hdr data) := by
  unfold ubusdHandleInvoke Bus.handleInvoke
  rw [shows.reg]
  cases ubusParseMsg lib data .method with
  | none => exact ⟨rfl, shows⟩
  | some method =>
    cases ubusParseMsg lib data .objid with
    | none => exact ⟨rfl, shows⟩
    | some objid =>
      simp only
      cases ubusdFindObject b.reg (lib.blobGetU32 objid) with
      | none => exact ⟨rfl, shows⟩
      | some obj =>
        simp only
        split
        · exact ⟨rfl, shows⟩
        cases (b.reg.object obj).client with
        | none =>
          obtain ⟨ret, shows'⟩ := agrees_recvMsg lib cl shows holds sorted
            (b.reg.object obj).recvMsg (lib.blobString method)
          exact ⟨congrArg Ret.done ret, shows'⟩
        | some owner =>
          have here := holds.mapHdr fun hdr => { hdr with peer := (b.reg.client cl).id }
          have moved : Shows (s.mapHdr ub fun hdr => { hdr with peer := (b.reg.client cl).id }) b :=
            shows.mapBuf ub _
          have sent := shows_reply lib moved here (b.reg.object obj).client
            (by decide : MsgType.invoke ≠ .monitor) (invokePuts lib (b.reg.client cl).cred
              (b.reg.object obj).id (lib.blobString method) (ubusParseMsg lib data .data))
          simp only [ubusdForwardInvoke, moved.reg, List.nil_append]
          exact ⟨rfl, sent.mapBuf ub fun buf => { buf with fd := none }⟩

theorem shows_notifyRounds (subs : List Nat) (shows : Shows s b) (holds : Holds ub hdr data s)
    (noReply : Bool) (method : CString) (body : Option Bytes) :
    Shows (subs.foldl (notifyRound lib cl ub noReply method body) s)
      (subs.foldl (Bus.notifyRound lib cl hdr noReply method body) b) := by
  refine (Shows.foldl (fun _ t => Holds ub hdr data t) subs ?_ shows holds).1
  intro t b' sub _ shows' holds'
  unfold notifyRound Bus.notifyRound ubusdForwardInvoke Bus.forwardInvoke
  rw [shows'.reg]
  exact ⟨shows_reply lib shows' holds' _ (by decide) _, holds'.fromBlob lib _ _ _⟩

theorem agrees_notify (shows : Shows s b) (holds : Holds ub hdr data s) :
    Agrees (ubusdHandleNotify lib cl ub (ubusParseMsg lib data) s)
      (b.handleNotify lib cl hdr data) := by
  unfold ubusdHandleNotify Bus.handleNotify Bus.noReply
  rw [shows.reg]
  cases ubusParseMsg lib data .method with
  | none => exact ⟨rfl, shows⟩
  | some method =>
    cases ubusParseMsg lib data .objid with
    | none => exact ⟨rfl, shows⟩
    | some objid =>
      simp only
      generalize ((ubusParseMsg lib data .noReply).any fun value =>
        decide (lib.blobGetInt8 value ≠ 0)) = quiet
      cases ubusdFindObject b.reg (lib.blobGetU32 objid) with
      | none => exact ⟨rfl, shows⟩
      | some obj =>
        simp only
        split
        · exact ⟨rfl, shows⟩
        have told : Shows (if quiet then s else ubusProtoSendMsgFromBlob lib (some cl) ub .status
            (notifyStatusPuts b.reg obj) s) (if quiet then b else b.reply (some cl) hdr .status
            (notifyStatusPuts b.reg obj)) ∧ Holds ub hdr data (if quiet then s else
            ubusProtoSendMsgFromBlob lib (some cl) ub .status (notifyStatusPuts b.reg obj) s) := by
          split
          · exact ⟨shows, holds⟩
          · exact ⟨shows_reply lib shows holds _ (by decide) _, holds.fromBlob lib _ _ _⟩
        generalize (if quiet then s else ubusProtoSendMsgFromBlob lib (some cl) ub .status
          (notifyStatusPuts b.reg obj) s) = t at told ⊢
        generalize (if quiet then b else b.reply (some cl) hdr .status
          (notifyStatusPuts b.reg obj)) = b' at told ⊢
        obtain ⟨shows', holds'⟩ := told
        have moved : Shows (t.mapHdr ub fun hdr => { hdr with peer := (t.reg.client cl).id }) b' :=
          shows'.mapBuf ub _
        rw [moved.reg]
        rw [shows'.reg] at moved ⊢
        exact ⟨rfl, shows_notifyRounds lib _ moved (holds'.mapHdr _) quiet _ _⟩

theorem agrees_response (shows : Shows s b) (holds : Holds ub hdr data s)
    (plain : hdr.type ≠ MsgType.monitor.code) :
    Agrees (ubusdHandleResponse lib cl ub (ubusParseMsg lib data) s)
      (b.handleResponse lib cl hdr data) := by
  unfold ubusdHandleResponse Bus.handleResponse
  rw [shows.reg, State.buf, holds.hdr]
  cases ubusParseMsg lib data .objid with
  | none => exact ⟨rfl, shows⟩
  | some objid =>
    simp only
    split
    · exact ⟨rfl, shows⟩
    cases ubusdFindObject b.reg (lib.blobGetU32 objid) with
    | none => exact ⟨rfl, shows⟩
    | some obj =>
      simp only
      split
      · exact ⟨rfl, shows⟩
      cases b.reg.clients.find hdr.peer with
      | none => exact ⟨rfl, shows⟩
      | some caller =>
        have here := holds.mapHdr fun hdr => { hdr with peer := lib.blobGetU32 objid }
        have moved : Shows (s.mapHdr ub fun hdr => { hdr with
          peer := lib.blobGetU32 objid }) b := shows.mapBuf ub _
        have sent : Shows (ubusMsgSend lib caller ub _) _ :=
          shows_send lib moved here.below (by rw [State.buf, here.hdr]; exact plain)
        rw [State.buf, here.hdr, here.data] at sent
        exact ⟨rfl, sent⟩

theorem agrees_addWatch (shows : Shows s b) :
    Agrees (ubusdHandleAddWatch lib cl ub (ubusParseMsg lib data) s)
      (b.handleAddWatch lib cl data) := by
  unfold ubusdHandleAddWatch Bus.handleAddWatch
  rw [shows.reg]
  cases ubusParseMsg lib data .objid with
  | none => exact ⟨rfl, shows⟩
  | some objid =>
    cases ubusParseMsg lib data .target with
    | none => exact ⟨rfl, shows⟩
    | some targetid =>
      simp only
      cases ubusdFindObject b.reg (lib.blobGetU32 objid) with
      | none => exact ⟨rfl, shows⟩
      | some obj =>
        simp only
        split
        · exact ⟨rfl, shows⟩
        cases ubusdFindObject b.reg (lib.blobGetU32 targetid) with
        | none => exact ⟨rfl, shows⟩
        | some target =>
          simp only
          cases (b.reg.object target).client with
          | none => exact ⟨rfl, shows⟩
          | some owner =>
            simp only
            split
            · exact ⟨rfl, shows⟩
            · split
              · exact ⟨rfl, shows⟩
              · exact ⟨rfl, shows_subscribe lib shows obj target⟩

theorem agrees_removeWatch (shows : Shows s b) :
    Agrees (ubusdHandleRemoveWatch lib cl ub (ubusParseMsg lib data) s)
      (b.handleRemoveWatch lib cl data) := by
  unfold ubusdHandleRemoveWatch Bus.handleRemoveWatch
  rw [shows.reg]
  cases ubusParseMsg lib data .objid with
  | none => exact ⟨rfl, shows⟩
  | some objid =>
    cases ubusParseMsg lib data .target with
    | none => exact ⟨rfl, shows⟩
    | some targetid =>
      simp only
      cases ubusdFindObject b.reg (lib.blobGetU32 objid) with
      | none => exact ⟨rfl, shows⟩
      | some obj =>
        simp only
        split
        · exact ⟨rfl, shows⟩
        cases (b.reg.object obj).targetList.find? fun sub =>
            (b.reg.object (b.reg.subscription sub).target).id = lib.blobGetU32 targetid with
        | none => exact ⟨rfl, shows⟩
        | some sub => exact ⟨rfl, shows_unsubscribe lib shows sub⟩

/-- **The handler of a message, other than a lookup, agrees with the bus.** -/
theorem agrees_handle (shows : Shows s b) (ctx : Processing lib cl ub hdr data s)
    (notLookup : hdr.type ≠ MsgType.lookup.code) :
    Agrees (dispatch lib cl ub s) (b.handle lib cl hdr data) := by
  have holds : Holds ub hdr data s := ⟨ctx.handling.below, ctx.hdr, ctx.data⟩
  have sorted : b.reg.patterns.Sorted := shows.reg ▸ ctx.inv.good.patterns.sorted
  unfold dispatch Bus.handle
  rw [State.buf, ctx.hdr, ctx.data]
  rcases kind : MsgType.ofCode? hdr.type with _ | type
  · exact ⟨rfl, shows⟩
  have typed := MsgType.code_of_ofCode? kind
  cases type with
  | hello => exact ⟨rfl, shows⟩
  | monitor => exact ⟨rfl, shows⟩
  | lookup => exact absurd typed.symm notLookup
  | ping => exact agrees_pong lib shows holds _
  | addObject =>
    have created := (does_createObject lib ctx.handling.readyAnd ctx.client
      (ctx.cause ▸ .add typed.symm) (ubusParseMsg lib data)).handling ctx.handling
    exact agrees_addObject lib shows sorted ⟨created.below, created.hdr, created.data⟩
  | removeObject => exact agrees_removeObject lib shows holds sorted
  | invoke => exact agrees_invoke lib shows holds sorted
  | status => exact agrees_response lib shows holds (by rw [← typed]; decide)
  | data => exact agrees_response lib shows holds (by rw [← typed]; decide)
  | subscribe => exact agrees_addWatch lib shows
  | unsubscribe => exact agrees_removeWatch lib shows
  | notify => exact agrees_notify lib shows holds

theorem shows_sendStatus {retmsg : Nat} (shows : Shows s b) (prepared : Prepared cl hdr retmsg s)
    (below : retmsg < s.net.brk) (status : Status) :
    Shows (sendStatus lib cl status s) (b.status cl hdr status) := by
  have here : ∀ f : MsgBuf → MsgBuf, (s.mapBuf retmsg f).net.buf retmsg = f (s.net.buf retmsg) :=
    fun f => Function.update_self ..
  unfold sendStatus
  simp only [State.sock, prepared.here]
  have sent : Shows (ubusMsgSend lib cl retmsg (s.mapBuf retmsg fun buf => { buf with
      data := .built [.int32 .status status.code] })) _ :=
    shows_send lib (shows.mapBuf retmsg _) below (by
      rw [State.buf, here, prepared.hdr]
      exact (by decide : MsgType.status.code ≠ MsgType.monitor.code))
  rw [State.buf, here, prepared.hdr] at sent
  exact sent

theorem shows_setRetmsg {retmsg : Nat} (shows : Shows s b)
    (here : (s.net.sock cl).retmsg = some retmsg) : Shows (setRetmsg cl ub s) b := by
  unfold setRetmsg
  simp only [State.sock, here]
  exact shows.mapBuf retmsg _

theorem shows_prepare (shows : Shows s b) (ctx : Processing lib cl ub hdr data s) :
    Shows (dropFd ub (setRetmsg cl ub s)) b := by
  obtain ⟨retmsg, here, -⟩ := ctx.inv.retmsg ((ctx.inv.clients cl).mp ctx.client)
  have shows' : Shows (setRetmsg cl ub s) b := shows_setRetmsg shows here
  unfold dropFd
  split
  · exact ((quiet_closeFd _ _).shows shows').mapBuf ub _
  · exact shows'

theorem shows_finish (ctx : Processing lib cl ub hdr data s) {ret : Ret} {t : State}
    (handled : dispatch lib cl ub (dropFd ub (setRetmsg cl ub s)) = (ret, t))
    (notQueued : ret ≠ .queued) (shows : Shows t b) :
    Shows (ubusdProtoReceiveMessage lib cl ub s) (Bus.finish cl hdr (ret, b)) := by
  have known := (ctx.inv.clients cl).mp ctx.client
  obtain ⟨retmsg, ctx1, prepared1, moved1, -⟩ := ctx.setRetmsg
  obtain ⟨ctx2, moved2, -, plain⟩ := dropFd_spec lib ctx1
  have known2 := (moved1.andKept moved2).mem_socks known
  have prepared2 := prepared1.of_moved (moved1.mem_socks known) moved2
  have unfolded : ubusdProtoReceiveMessage lib cl ub s = finish lib cl ub
      (dispatch lib cl ub (dropFd ub (setRetmsg cl ub s))).1
      (dispatch lib cl ub (dropFd ub (setRetmsg cl ub s))).2 := rfl
  rw [unfolded, handled]
  rcases dispatch_cases lib ctx2 plain with ⟨-, moved3⟩ | ⟨-, _, _, -, queued⟩
  · rw [handled] at moved3
    have prepared3 := prepared2.of_moved known2 moved3.frame
    have below := (ctx2.inv.of_handled moved3 ctx2.safe).kept_below _
      (kept_of_retmsg (moved3.frame.mem_socks known2) prepared3.here)
    have freed := (quiet_free ub t).shows shows
    cases ret with
    | queued => exact absurd rfl notQueued
    | silent => exact freed
    | done status =>
      have frame : Wire (fun _ => True) (fun _ => True) (fun _ => True) t (ubusMsgFree ub t) :=
        wire_free ub t
      exact shows_sendStatus lib freed ⟨(frame.retmsg cl).trans prepared3.here,
        (frame.hdr _ trivial).trans prepared3.hdr⟩ (below.trans_le frame.brk) status
  · rw [handled] at queued
    exact absurd (congrArg Prod.fst queued) notQueued

/-- **A message that is not a lookup is answered as on the bus.** -/
theorem shows_receiveMessage (shows : Shows s b) (ctx : Processing lib cl ub hdr data s)
    (notLookup : hdr.type ≠ MsgType.lookup.code) :
    Shows (ubusdProtoReceiveMessage lib cl ub s) (b.answer lib cl hdr data) := by
  obtain ⟨retmsg, ctx1, -, -, -⟩ := ctx.setRetmsg
  obtain ⟨ctx2, -, -, plain⟩ := dropFd_spec lib ctx1
  have agrees := agrees_handle lib (shows_prepare lib shows ctx) ctx2 notLookup
  rcases handled : dispatch lib cl ub (dropFd ub (setRetmsg cl ub s)) with ⟨ret, t⟩
  rw [handled] at agrees
  have notQueued : ret ≠ .queued := by
    rcases dispatch_cases lib ctx2 plain with ⟨notQueued, -⟩ | ⟨lookup, -⟩
    · rwa [handled] at notQueued
    · exact absurd lookup notLookup
  unfold Bus.answer
  rw [show b.handle lib cl hdr data = (ret, (b.handle lib cl hdr data).2) from
    Prod.ext agrees.ret.symm rfl]
  exact shows_finish lib ctx handled notQueued agrees.shows

end Handlers

end Ubus
