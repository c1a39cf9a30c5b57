/-
**Event patterns and event delivery** (`ubusd_event.c`).

* `ubusdAllocEventPattern` — the `register` method of the event object.
* `ubusdSendEvent_eq`: the walk calls `ubusdSendEventMsg` for exactly the patterns that cover the
  event id, in tree order.
-/

import Ubus.Transport

namespace Ubus

open Lib

/-- `ubusd_find_object`. -/
def ubusdFindObject (reg : Registry) (objid : UInt32) : Option Nat := reg.objects.find objid

/-! ### Patterns -/

/-- `ubusd_delete_event_source`. -/
def ubusdDeleteEventSource (reg : Registry) (ev : Nat) : Registry :=
  let reg := reg.mapObject (reg.eventSource ev).obj fun obj =>
    { obj with events := obj.events.erase ev }
  { reg with patterns := reg.patterns.delete ev }

/-- `ubusd_event_cleanup_object`. -/
def ubusdEventCleanupObject (obj : Nat) (reg : Registry) : Registry :=
  (reg.object obj).events.foldl ubusdDeleteEventSource reg

/-- The new `struct event_source` of an object. -/
def newEventSource (obj : Nat) (key : CString) (isPartial : Bool) (reg : Registry) : Registry :=
  let ev := reg.brk
  let reg := reg.mapObject obj fun obj => { obj with events := ev :: obj.events }
  { reg with
    eventSource := Function.update reg.eventSource ev { obj, key, isPartial }
    patterns := reg.patterns.insert key ev
    brk := ev + 1 }

def evrPolicy : List (CString × BlobmsgType) :=
  [(cstr "pattern", .string), (cstr "object", .int32)]

/-- What a pattern string stands for: a final `*` makes it partial. -/
def splitPattern (pattern : CString) : CString × Bool :=
  if pattern.getLast? = some 42 then (pattern.dropLast, true) else (pattern, false)

variable (lib : Libubox)

/-- `ubusd_alloc_event_pattern`. -/
def ubusdAllocEventPattern (cl : Nat) (msg : Option Bytes) (reg : Registry) : Status × Registry :=
  match msg with
  | none => (.invalidArgument, reg)
  | some msg =>
    let attr := lib.blobmsgParse evrPolicy (lib.blobData msg)
    match attr (cstr "object"), attr (cstr "pattern") with
    | some object, some pattern =>
      let id := lib.blobmsgGetU32 object
      if id < ubusSystemObjectMax then (.permissionDenied, reg)
      else
        match ubusdFindObject reg id with
        | none => (.notFound, reg)
        | some obj =>
          if (reg.object obj).client ≠ some cl then (.permissionDenied, reg)
          else if (lib.blobmsgString pattern).isEmpty then (.permissionDenied, reg)
          else
            let (key, isPartial) := splitPattern (lib.blobmsgString pattern)
            if ubusdAclCheck lib reg.acl.entries (some (reg.client cl).cred) (some key) none
                .listen ≠ 0 then (.permissionDenied, reg)
            else (.ok, newEventSource obj key isPartial reg)
    | _, _ => (.invalidArgument, reg)

/-! ### Delivery -/

/-- The buffer of an event: made by the fill callback at the first receiver, kept after that. `rest`
is what the callback puts after the object id. -/
def eventFill (rest : List Put) (ub : Option Nat) (s : State) : Option Nat × State :=
  match ub with
  | some ub => (some ub, s)
  | none =>
    match ubusMsgNew (.built (.int32 .objid 0 :: rest)) true s with
    | (none, s) => (none, s)
    | (some ub, s) =>
      (some ub, s.mapHdr ub fun hdr => { hdr with type := MsgType.invoke.code, peer := 0 })

/-- The object id and the sequence number are written into the shared buffer, and it is sent. -/
def eventDeliver (obj : Nat) (rest : List Put) (ub : Nat) (s : State) : State :=
  let seq := s.stamps.eventSeq + 1
  let s := { s with stamps := { s.stamps with eventSeq := seq } }
  let s := s.mapBuf ub fun buf => { buf with
    hdr := { buf.hdr with seq }, data := .built (.int32 .objid (s.reg.object obj).id :: rest) }
  ubusMsgSendTo lib (s.reg.object obj).client ub s

/-- `obj->event_seen = obj_event_seq`. -/
def markSeen (obj : Nat) (s : State) : State :=
  { s with stamps := { s.stamps with
    eventSeen := Function.update s.stamps.eventSeen obj s.stamps.objEventSeq } }

/-- `ubusd_send_event_msg`. The buffer is passed in and out, as through `struct ubus_msg_buf **ub`. -/
def ubusdSendEventMsg (cl : Option Nat) (obj : Nat) (rest : List Put) (ub : Option Nat)
    (s : State) : Status × Option Nat × State :=
  if (s.reg.object obj).client = cl then (.ok, ub, s)
  else if s.stamps.eventSeen obj = s.stamps.objEventSeq then (.ok, ub, s)
  else
    match eventFill rest ub (markSeen obj s) with
    | (none, s) => (.unknownError, none, s)
    | (some ub, s) => (.ok, some ub, eventDeliver lib obj rest ub s)

/-- `if (!++obj_event_seq) obj_event_seq = 1`. -/
def bumpObjEventSeq (s : State) : State :=
  { s with stamps := { s.stamps with
    objEventSeq := if s.stamps.objEventSeq + 1 = 0 then 1 else s.stamps.objEventSeq + 1 } }

/-- One round of the walk: what `ubusd_send_event_msg` does, and whether its status stops the walk. -/
def eventRound (cl : Option Nat) (rest : List Put) (reg : Registry) (node : CString × Nat)
    (acc : Status × Option Nat × State) : (Status × Option Nat × State) × Bool :=
  let acc := ubusdSendEventMsg lib cl (reg.eventSource node.2).obj rest acc.2.1 acc.2.2
  (acc, acc.1 ≠ .ok)

/-- The loop of `ubusd_send_event`. -/
def eventWalk (cl : Option Nat) (id : CString) (rest : List Put) (s : State) :
    Status × Option Nat × State :=
  prunedWalk ubusStrmatchLen Prod.fst (fun node => (s.reg.eventSource node.2).isPartial)
    (fun _ => false) id (eventRound lib cl rest s.reg) 0 s.reg.patterns (.ok, none, s)

/-- Free the buffer of an event if there was a receiver. -/
def freeEventBuf (ub : Option Nat) (s : State) : State :=
  match ub with
  | none => s
  | some ub => ubusMsgFree ub s

/-- `ubusd_send_event`. -/
def ubusdSendEvent (cl : Option Nat) (id : CString) (rest : List Put) (s : State) :
    Status × State :=
  if ubusdAclCheck lib s.reg.acl.entries (cl.map fun cl => (s.reg.client cl).cred) (some id) none
      .send ≠ 0 then (.permissionDenied, s)
  else
    let (ret, ub, s) := eventWalk lib cl id rest (bumpObjEventSeq s)
    (ret, freeEventBuf ub s)

/-! ### Where events come from -/

def evPolicy : List (CString × BlobmsgType) :=
  [(cstr "id", .string), (cstr "data", .table)]

/-- `ubusd_create_event_from_msg`, after the object id. -/
def eventFromMsg (id : CString) (data : Bytes) : List Put :=
  [.string .method id, .int8 .noReply 1, .blob .data (lib.blobmsgData data)]

/-- `ubusd_create_object_event_msg`, after the object id. -/
def objectEventMsg (id : CString) (obj : Object) : List Put :=
  [.string .method id, .int8 .noReply 1,
    .nest .data [.msgU32 (cstr "id") obj.id, .msgString (cstr "path") (obj.path.getD [])]]

/-- `ubusd_create_sequence_event_msg`, after the object id. -/
def sequenceEventMsg (id : CString) (seq : UInt32) : List Put :=
  [.string .method id, .int8 .noReply 1, .nest .data [.msgU32 (cstr "sequence") seq]]

/-- `UBUS_EVENT_RESERVED_PREFIX`. -/
def reservedPrefix : CString := cstr "ubus."

/-- `ubusd_forward_event`. -/
def ubusdForwardEvent (cl : Nat) (msg : Option Bytes) (s : State) : Status × State :=
  match msg with
  | none => (.invalidArgument, s)
  | some msg =>
    let attr := lib.blobmsgParse evPolicy (lib.blobData msg)
    match attr (cstr "id"), attr (cstr "data") with
    | some id, some data =>
      let id := lib.blobmsgString id
      if reservedPrefix.isPrefixOf id then (.permissionDenied, s)
      else ubusdSendEvent lib (some cl) id (eventFromMsg lib id data) s
    | _, _ => (.invalidArgument, s)

/-- The `ubusd_event_recv` of the event object. -/
def ubusdEventRecv (cl : Nat) (method : CString) (msg : Option Bytes) (s : State) :
    Status × State :=
  if method = cstr "register" then
    let (ret, reg) := ubusdAllocEventPattern lib cl msg s.reg
    (ret, { s with reg })
  else if method = cstr "send" then ubusdForwardEvent lib cl msg s
  else (.invalidCommand, s)

/-- The id of an object event. -/
def objEventId (add : Bool) : CString :=
  if add then cstr "ubus.object.add" else cstr "ubus.object.remove"

/-- `ubusd_send_obj_event`. -/
def ubusdSendObjEvent (obj : Nat) (add : Bool) (s : State) : State :=
  (ubusdSendEvent lib none (objEventId add)
    (objectEventMsg (objEventId add) (s.reg.object obj)) s).2

/-! ### The walk is exact -/

/-- The patterns that cover an event id, in tree order. -/
def Registry.listeners (reg : Registry) (id : CString) : AvlTree CString :=
  reg.patterns.filter fun node => decide (Covers node.1 (reg.eventSource node.2).isPartial id)

/-- **The walk of `ubusd_send_event` is exact**: it is `ubusd_send_event_msg` for the patterns that
cover the id, in tree order, up to the first status that stops it. -/
theorem eventWalk_eq (cl : Option Nat) (id : CString) (rest : List Put) {s : State}
    (sorted : s.reg.patterns.Sorted) :
    eventWalk lib cl id rest s =
      foldStop (eventRound lib cl rest s.reg) (s.reg.listeners id) (.ok, none, s) := by
  rw [eventWalk, prunedWalk_eq_foldStop ubusStrmatchLen_eq _ sorted]
  rfl

end Ubus
