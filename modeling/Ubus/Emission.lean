/-
**The catalogue of messages.**

`Emission lib reg cause dest hdr data` lists every message the daemon submits to a client, by the
place in the source that makes it: what the daemon is working on (`cause`), the registry at that
moment, and what the message then looks like. It says nothing about how the message is sent.

* `EventOrigin`, `Answer`, `Notice` — where the payload of an event, of a reply and of a notification
  about a subscription comes from.
* `Emits lib cause` — the trace entries that work on `cause` may leave.
-/

import Ubus.Frame
import Ubus.Main

namespace Ubus

/-- The daemon works on this message of a client, just received or resumed from its queue. -/
def Cause.On (cause : Cause) (cl ub : Nat) (hdr : Msghdr) (data : Payload) : Prop :=
  cause = .message cl ub hdr data ∨ cause = .resume cl ub hdr data

/-- The header of an event, apart from its sequence number. -/
def EventHdr (hdr : Msghdr) : Prop :=
  hdr.type = MsgType.invoke.code ∧ hdr.peer = 0 ∧ hdr.version = 0

/-- When the addition or removal of an object is announced. -/
inductive Occasion : Bool → Cause → Prop where
  | add {cl ub : Nat} {hdr : Msghdr} {data : Payload} (asked : hdr.type = MsgType.addObject.code) :
      Occasion true (.message cl ub hdr data)
  | remove {cl ub : Nat} {hdr : Msghdr} {data : Payload}
      (asked : hdr.type = MsgType.removeObject.code) : Occasion false (.message cl ub hdr data)
  | disconnect {cl : Nat} : Occasion false (.disconnect cl)

/-- Where the payload of an event comes from, after the object id. -/
inductive EventOrigin (lib : Libubox) (reg : Registry) : Cause → List Put → Prop where
  /-- The `send` method of the event object. -/
  | sent {cl ub : Nat} {hdr : Msghdr} {data : Payload} {msg id body : Bytes}
      (asked : hdr.type = MsgType.invoke.code) (hasData : ubusParseMsg lib data .data = some msg)
      (hasId : lib.blobmsgParse evPolicy (lib.blobData msg) (cstr "id") = some id)
      (hasBody : lib.blobmsgParse evPolicy (lib.blobData msg) (cstr "data") = some body)
      (free : ¬ reservedPrefix.isPrefixOf (lib.blobmsgString id)) :
      EventOrigin lib reg (.message cl ub hdr data)
        (eventFromMsg lib (lib.blobmsgString id) body)
  /-- An object with a path is added or removed. -/
  | object {cause : Cause} {obj : Nat} {add : Bool} (live : reg.HasObject obj)
      (occasion : Occasion add cause) :
      EventOrigin lib reg cause (objectEventMsg (objEventId add) (reg.object obj))
  /-- The access lists are loaded. -/
  | acl : EventOrigin lib reg .aclLoad
      (sequenceEventMsg (cstr "ubus.acl.sequence") reg.acl.seq)

/-- A client is found under its id, which is not a reserved one. -/
structure Caller (reg : Registry) (cl : Nat) : Prop where
  found : reg.clients.find (reg.client cl).id = some cl
  range : ubusSystemObjectMax ≤ (reg.client cl).id

/-- What the daemon answers a message of a client with. -/
inductive Answer (lib : Libubox) (reg : Registry) (cl : Nat) : MsgType → List Put → Prop where
  /-- An object was added, or is removed. -/
  | object (objid : UInt32) {objtype : List Put}
      (typed : objtype = [] ∨ ∃ id, objtype = [.int32 .objtype id]) :
      Answer lib reg cl .data (.int32 .objid objid :: objtype)
  /-- `ubusd_send_obj`. -/
  | lookup {key : CString} {obj type : Nat} {methods : List Bytes}
      (registered : (key, obj) ∈ reg.path) (typed : (reg.object obj).type = some type)
      (visible : methods.Sublist (reg.objType type).methods) :
      Answer lib reg cl .data (objPuts (reg.object obj) (reg.objType type) methods)
  /-- `ubusd_reply_query`. -/
  | acl (objid : UInt32) : Answer lib reg cl .data
      [.int32 .objid objid, .nest .data [.msgU32 (cstr "seq") reg.acl.seq,
        .msgArray (cstr "acl") ((reg.client cl).objects.flatMap fun obj =>
          ubusdReplyAdd reg.acl.entries (reg.object obj).path)]]
  /-- The status of a notification. -/
  | notify {obj : Nat} (mine : (reg.object obj).client = some cl) :
      Answer lib reg cl .status (notifyStatusPuts reg obj)

/-- What the daemon tells the owner of an object about a subscription. -/
inductive Notice (reg : Registry) : MsgType → List Put → Prop where
  | active {obj : Nat} {active : UInt8} :
      Notice reg .notify [.int32 .objid (reg.object obj).id, .int8 .active active]
  | gone {subscriber target : Nat} : Notice reg .unsubscribe
      [.int32 .objid (reg.object subscriber).id, .int32 .target (reg.object target).id]

/-- **Every message that the daemon submits.** -/
inductive Emission (lib : Libubox) (reg : Registry) : Cause → Nat → Msghdr → Payload → Prop where
  /-- `ubusd_monitor_message` for a message that was received. -/
  | received {cl ub dest : Nat} {hdr asked : Msghdr} {data : Payload}
      (typed : hdr.type = MsgType.monitor.code) (version : hdr.version = 0) :
      Emission lib reg (.message cl ub asked data) dest hdr
        (.monitor (monitorRecord lib (reg.client cl) { hdr := asked, data } false))
  /-- `ubusd_monitor_message` for a message that is submitted. -/
  | submitted {cause : Cause} {cl dest : Nat} {hdr sent : Msghdr} {data : Payload}
      (of : Emission lib reg cause cl sent data) (plain : sent.type ≠ MsgType.monitor.code)
      (typed : hdr.type = MsgType.monitor.code) (version : hdr.version = 0) :
      Emission lib reg cause dest hdr
        (.monitor (monitorRecord lib (reg.client cl) { hdr := sent, data } true))
  /-- `ubusd_send_hello`. -/
  | hello {cl : Nat} : Emission lib reg (.connect cl) cl
      { type := MsgType.hello.code, peer := (reg.client cl).id } (.built [])
  /-- `ubusd_send_pong`. -/
  | pong {cl ub : Nat} {hdr : Msghdr} {data : Payload} (asked : hdr.type = MsgType.ping.code) :
      Emission lib reg (.message cl ub hdr data) cl { hdr with type := MsgType.data.code } data
  /-- `ubus_proto_send_msg_from_blob` to the client whose message is handled. -/
  | reply {cause : Cause} {cl ub : Nat} {hdr : Msghdr} {data : Payload} {type : MsgType}
      {puts : List Put} (on : cause.On cl ub hdr data) (answer : Answer lib reg cl type puts) :
      Emission lib reg cause cl { type := type.code, seq := hdr.seq, peer := hdr.peer } (.built puts)
  /-- The final status of a message. -/
  | status {cause : Cause} {cl ub : Nat} {hdr : Msghdr} {data : Payload} {status : Status}
      (on : cause.On cl ub hdr data) :
      Emission lib reg cause cl
        { type := MsgType.status.code, seq := hdr.seq, peer := hdr.peer }
        (.built [.int32 .status status.code])
  /-- `ubusd_forward_invoke` for a call. -/
  | invoke {cl ub obj dest : Nat} {hdr : Msghdr} {data : Payload} {method objid : Bytes}
      (asked : hdr.type = MsgType.invoke.code)
      (hasMethod : ubusParseMsg lib data .method = some method)
      (hasObjid : ubusParseMsg lib data .objid = some objid)
      (found : ubusdFindObject reg (lib.blobGetU32 objid) = some obj)
      (allowed : ubusdAclCheck lib reg.acl.entries (some (reg.client cl).cred)
        (reg.object obj).path (some (lib.blobString method)) .access = 0)
      (named : ubusdFindObject reg (reg.object obj).id = some obj)
      (owner : (reg.object obj).client = some dest) (caller : Caller reg cl) :
      Emission lib reg (.message cl ub hdr data) dest
        { type := MsgType.invoke.code, seq := hdr.seq, peer := (reg.client cl).id }
        (.built (invokePuts lib (reg.client cl).cred (reg.object obj).id (lib.blobString method)
          (ubusParseMsg lib data .data)))
  /-- `ubusd_forward_invoke` for a notification. -/
  | notification {cl ub obj sub dest : Nat} {hdr : Msghdr} {data : Payload} {method objid : Bytes}
      {noReply : List Put} (asked : hdr.type = MsgType.notify.code)
      (hasMethod : ubusParseMsg lib data .method = some method)
      (hasObjid : ubusParseMsg lib data .objid = some objid)
      (found : ubusdFindObject reg (lib.blobGetU32 objid) = some obj)
      (mine : (reg.object obj).client = some cl) (listed : sub ∈ (reg.object obj).subscribers)
      (named : ubusdFindObject reg (reg.object (reg.subscription sub).subscriber).id =
        some (reg.subscription sub).subscriber)
      (owner : (reg.object (reg.subscription sub).subscriber).client = some dest)
      (caller : Caller reg cl) (plain : noReply = [] ∨ noReply = [.int8 .noReply 1]) :
      Emission lib reg (.message cl ub hdr data) dest
        { type := MsgType.invoke.code, seq := hdr.seq, peer := (reg.client cl).id }
        (.built (noReply ++ invokePuts lib (reg.client cl).cred
          (reg.object (reg.subscription sub).subscriber).id (lib.blobString method)
          (ubusParseMsg lib data .data)))
  /-- `ubusd_handle_response`. -/
  | response {cl ub obj dest : Nat} {hdr : Msghdr} {data : Payload} {objid : Bytes}
      (asked : hdr.type = MsgType.status.code ∨ hdr.type = MsgType.data.code)
      (hasObjid : ubusParseMsg lib data .objid = some objid)
      (found : ubusdFindObject reg (lib.blobGetU32 objid) = some obj)
      (mine : (reg.object obj).client = some cl)
      (range : ubusSystemObjectMax ≤ lib.blobGetU32 objid)
      (caller : reg.clients.find hdr.peer = some dest) :
      Emission lib reg (.message cl ub hdr data) dest { hdr with peer := lib.blobGetU32 objid } data
  /-- `ubusd_send_event_msg`. -/
  | event {cause : Cause} {obj dest : Nat} {hdr : Msghdr} {rest : List Put}
      (named : ubusdFindObject reg (reg.object obj).id = some obj)
      (owner : (reg.object obj).client = some dest) (fixed : EventHdr hdr)
      (origin : EventOrigin lib reg cause rest) :
      Emission lib reg cause dest hdr (.built (.int32 .objid (reg.object obj).id :: rest))
  /-- `ubus_notify_subscription` and `ubus_notify_unsubscribe`. -/
  | numbered {cause : Cause} {dest : Nat} {type : MsgType} {seq : UInt16} {puts : List Put}
      (notice : Notice reg type puts) :
      Emission lib reg cause dest { type := type.code, seq, peer := 0 } (.built puts)

/-- **The trace entries of the work on one cause.** An object is passed to `ubusd_send_obj` only while
it is registered under a path. -/
def Emits (lib : Libubox) (cause : Cause) : Event → Prop
  | .accept .. => False
  | .submit moment dest hdr data =>
    moment.cause = cause ∧ Emission lib moment.reg cause dest hdr data
  | .sendObj moment cl ub obj =>
    moment.cause = cause ∧ (∃ hdr data, cause.On cl ub hdr data) ∧
      ∃ key, (key, obj) ∈ moment.reg.path

theorem admitsMonitor_emits (lib : Libubox) (moment : Moment) :
    AdmitsMonitor lib (Emits lib moment.cause) moment :=
  fun _ _ plain emits _ _ typed version => ⟨rfl, .submitted emits.2 plain typed version⟩

end Ubus
