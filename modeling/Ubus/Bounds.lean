/-
**What the handlers read of a parsed attribute.**

A handler looks into the attributes of a message by `blob_get_u32`, by `blob_get_int8`, or as a string.

* `AttrRead`, `messageReads` — the reads of each handler, in the order of the source, on the path it
  takes.
* `dispatch_withReads`: the outcome depends on nothing else that such a read could return.
-/

import Ubus.PathLookup

namespace Ubus

open Lib

/-- **A read of a parsed attribute.** -/
inductive AttrRead where
  | u32 (id : UbusAttr) (attr : Bytes)
  | int8 (id : UbusAttr) (attr : Bytes)
  | string (id : UbusAttr) (attr : Bytes)
deriving DecidableEq, Repr

/-- The read does not leave the payload: a number fits, a string ends. -/
def AttrRead.Within (lib : Libubox) : AttrRead → Prop
  | .u32 _ attr => 4 ≤ (lib.blobData attr).length
  | .int8 _ attr => 1 ≤ (lib.blobData attr).length
  | .string _ attr => 0 ∈ lib.blobData attr

/-- `ubus_policy`, for the attributes that have a type there and are read. -/
structure Libubox.Checks (lib : Libubox) : Prop where
  int32 : ∀ msg id attr, lib.blobParse msg id = some attr → id = .objtype ∨ id = .objid →
    4 ≤ (lib.blobData attr).length
  string : ∀ msg id attr, lib.blobParse msg id = some attr → id = .objpath ∨ id = .method →
    0 ∈ lib.blobData attr

/-! ### The reads of the handlers -/

section Reads

variable (lib : Libubox) (cl : Nat) (attr : Attrs) (s : State)

def readU32 (id : UbusAttr) : List AttrRead := ((attr id).map (AttrRead.u32 id)).toList

def readInt8 (id : UbusAttr) : List AttrRead := ((attr id).map (AttrRead.int8 id)).toList

def readString (id : UbusAttr) : List AttrRead := ((attr id).map (AttrRead.string id)).toList

/-- The client owns the object that `OBJID` names. -/
def ownsNamed (objid : Bytes) : Option Nat :=
  (ubusdFindObject s.reg (lib.blobGetU32 objid)).filter fun obj => (s.reg.object obj).client = some cl

/-- `ubusd_handle_remove_object`. -/
def removeObjectReads : List AttrRead := readU32 attr .objid

/-- `ubusd_create_object`: the path is looked at once there is an object. -/
def addObjectReads : List AttrRead :=
  readU32 attr .objtype ++
    if (allocObject lib attr s.rnd s.reg).1.isSome then readString attr .objpath else []

/-- `__ubusd_handle_lookup`. -/
def lookupReads : List AttrRead := readString attr .objpath

/-- `ubusd_handle_invoke`: `query` of the access list object looks at `OBJID` again. -/
def invokeReads : List AttrRead :=
  match attr .method, attr .objid with
  | some method, some objid => .u32 .objid objid ::
    match ubusdFindObject s.reg (lib.blobGetU32 objid) with
    | none => []
    | some _ => [.string .method method, .u32 .objid objid]
  | _, _ => []

/-- `ubusd_handle_notify`. -/
def notifyReads : List AttrRead :=
  match attr .method, attr .objid with
  | some method, some objid => readInt8 attr .noReply ++ .u32 .objid objid ::
      if (ownsNamed lib cl s objid).isSome then [.string .method method] else []
  | _, _ => []

/-- `ubusd_handle_response`. -/
def responseReads (type : UInt8) : List AttrRead :=
  if responseComplete type attr then readU32 attr .objid else []

/-- `ubusd_handle_add_watch` and `ubusd_handle_remove_watch`. -/
def watchReads : List AttrRead :=
  match attr .objid, attr .target with
  | some objid, some target => .u32 .objid objid ::
      if (ownsNamed lib cl s objid).isSome then [.u32 .target target] else []
  | _, _ => []

/-- **The reads of the handler of a message.** -/
def messageReads (ub : Nat) : List AttrRead :=
  let attr := ubusParseMsg lib (s.buf ub).data
  match MsgType.ofCode? (s.buf ub).hdr.type with
  | some .addObject => addObjectReads lib attr s
  | some .removeObject => removeObjectReads attr
  | some .lookup => if (s.tx cl).txQueue.isEmpty then lookupReads attr else []
  | some .invoke => invokeReads lib attr s
  | some .status => responseReads attr (s.buf ub).hdr.type
  | some .data => responseReads attr (s.buf ub).hdr.type
  | some .subscribe => watchReads lib cl attr s
  | some .unsubscribe => watchReads lib cl attr s
  | some .notify => notifyReads lib cl attr s
  | _ => []

end Reads

/-! ### Nothing else is read -/

/-- The library with other results of the reads. -/
def Libubox.withReads (lib : Libubox) (u32 : Bytes → UInt32) (int8 : Bytes → UInt8)
    (string : Bytes → CString) : Libubox :=
  { lib with blobGetU32 := u32, blobGetInt8 := int8, blobString := string }

/-- The read has the same result. -/
def AttrRead.Same (lib : Libubox) (u32 : Bytes → UInt32) (int8 : Bytes → UInt8)
    (string : Bytes → CString) : AttrRead → Prop
  | .u32 _ attr => u32 attr = lib.blobGetU32 attr
  | .int8 _ attr => int8 attr = lib.blobGetInt8 attr
  | .string _ attr => string attr = lib.blobString attr

section Same

variable {lib : Libubox} {u32 : Bytes → UInt32} {int8 : Bytes → UInt8} {string : Bytes → CString}

theorem withReads_bytes : Payload.bytes (lib.withReads u32 int8 string) = Payload.bytes lib := by
  funext data
  cases data <;> rfl

theorem withReads_size : MsgBuf.size (lib.withReads u32 int8 string) = MsgBuf.size lib := by
  funext buf
  simp only [MsgBuf.size, Payload.len, withReads_bytes]

theorem withReads_enqueue :
    ubusMsgEnqueue (lib.withReads u32 int8 string) = ubusMsgEnqueue lib := by
  funext cl ub s
  simp only [ubusMsgEnqueue, txqTotal, withReads_size]
  rfl

theorem withReads_transmit : transmit (lib.withReads u32 int8 string) = transmit lib := by
  have writev : ubusMsgWritev (lib.withReads u32 int8 string) = ubusMsgWritev lib := by
    funext cl ub offset out s
    simp only [ubusMsgWritev, msgIov, withReads_bytes]
  funext cl ub s
  simp only [transmit, enqueueRest, withReads_size, withReads_enqueue, writev]

theorem withReads_send : ubusMsgSend (lib.withReads u32 int8 string) = ubusMsgSend lib := by
  have deliver : monitorDeliver (lib.withReads u32 int8 string) = monitorDeliver lib := by
    funext ub s m
    simp only [monitorDeliver, monitorSend, withReads_transmit]
  have monitor : ubusdMonitorMessage (lib.withReads u32 int8 string) = ubusdMonitorMessage lib := by
    funext cl ub send s
    simp only [ubusdMonitorMessage, deliver, monitorRecord, withReads_bytes]
    rfl
  funext cl ub s
  simp only [ubusMsgSend, withReads_transmit, monitor]

theorem withReads_sendTo : ubusMsgSendTo (lib.withReads u32 int8 string) = ubusMsgSendTo lib := by
  funext cl ub s
  simp only [ubusMsgSendTo, withReads_send]

theorem withReads_fromBlob : ubusProtoSendMsgFromBlob (lib.withReads u32 int8 string) =
    ubusProtoSendMsgFromBlob lib := by
  funext cl ub type puts s
  simp only [ubusProtoSendMsgFromBlob, withReads_sendTo]

theorem withReads_notifySubscription : ubusNotifySubscription (lib.withReads u32 int8 string) =
    ubusNotifySubscription lib := by
  funext obj s
  simp only [ubusNotifySubscription, sendNumbered, withReads_sendTo]

theorem withReads_aclCheck : ubusdAclCheck (lib.withReads u32 int8 string) = ubusdAclCheck lib := rfl

theorem withReads_event : ubusdSendEvent (lib.withReads u32 int8 string) = ubusdSendEvent lib := by
  have msg : ubusdSendEventMsg (lib.withReads u32 int8 string) = ubusdSendEventMsg lib := by
    funext cl obj rest ub s
    simp only [ubusdSendEventMsg, eventDeliver, withReads_sendTo]
  have round : eventRound (lib.withReads u32 int8 string) = eventRound lib := by
    funext cl rest reg node acc
    simp only [eventRound, msg]
  funext cl id rest s
  simp only [ubusdSendEvent, eventWalk, round, withReads_aclCheck]

theorem withReads_objEvent : ubusdSendObjEvent (lib.withReads u32 int8 string) =
    ubusdSendObjEvent lib := by
  funext obj add s
  simp only [ubusdSendObjEvent, withReads_event]

theorem withReads_unsubscribe :
    ubusUnsubscribe (lib.withReads u32 int8 string) = ubusUnsubscribe lib := by
  funext s sub
  simp only [ubusUnsubscribe, withReads_notifySubscription]

theorem withReads_freeObject :
    ubusdFreeObject (lib.withReads u32 int8 string) = ubusdFreeObject lib := by
  have notify : ubusNotifyUnsubscribe (lib.withReads u32 int8 string) = ubusNotifyUnsubscribe lib := by
    funext s sub
    simp only [ubusNotifyUnsubscribe, withReads_unsubscribe, sendNumbered, withReads_sendTo]
  funext s obj
  simp only [ubusdFreeObject, withReads_unsubscribe, notify, announceRemoval, withReads_objEvent]

theorem withReads_sendObj : ubusdSendObj (lib.withReads u32 int8 string) = ubusdSendObj lib := by
  funext cl ub obj s
  simp only [ubusdSendObj, withReads_fromBlob]
  rfl

theorem withReads_forwardInvoke :
    ubusdForwardInvoke (lib.withReads u32 int8 string) = ubusdForwardInvoke lib := by
  funext cl obj method ub data puts s
  simp only [ubusdForwardInvoke, withReads_fromBlob]
  rfl

theorem withReads_eventRecv :
    ubusdEventRecv (lib.withReads u32 int8 string) = ubusdEventRecv lib := by
  funext cl method msg s
  simp only [ubusdEventRecv, ubusdForwardEvent, withReads_event]
  rfl

theorem withReads_u32 (attr : Bytes) :
    (lib.withReads u32 int8 string).blobGetU32 attr = u32 attr := rfl

theorem withReads_int8 (attr : Bytes) :
    (lib.withReads u32 int8 string).blobGetInt8 attr = int8 attr := rfl

theorem withReads_string (attr : Bytes) :
    (lib.withReads u32 int8 string).blobString attr = string attr := rfl

variable {cl ub : Nat} {attr : Attrs} {s : State}

theorem withReads_removeObject
    (same : ∀ read ∈ removeObjectReads attr, read.Same lib u32 int8 string) :
    ubusdHandleRemoveObject (lib.withReads u32 int8 string) cl ub attr s =
      ubusdHandleRemoveObject lib cl ub attr s := by
  unfold ubusdHandleRemoveObject
  rcases named : attr .objid with _ | objid
  · rfl
  · have value : u32 objid = lib.blobGetU32 objid :=
      same (.u32 .objid objid) (by simp [removeObjectReads, readU32, named])
    simp only [withReads_u32, value, withReads_fromBlob, withReads_freeObject]

theorem withReads_allocObject (same : ∀ objtype, attr .objtype = some objtype →
    u32 objtype = lib.blobGetU32 objtype) (rnd : List UInt32) (reg : Registry) :
    allocObject (lib.withReads u32 int8 string) attr rnd reg = allocObject lib attr rnd reg := by
  have typed : objectType (lib.withReads u32 int8 string) attr rnd reg = objectType lib attr rnd reg := by
    unfold objectType
    rcases typed : attr .objtype with _ | objtype
    · cases attr .signature <;> rfl
    · simp only [withReads_u32, same objtype typed]
  simp only [allocObject, typed]

theorem withReads_addObject (same : ∀ read ∈ addObjectReads lib attr s, read.Same lib u32 int8 string) :
    ubusdHandleAddObject (lib.withReads u32 int8 string) cl ub attr s =
      ubusdHandleAddObject lib cl ub attr s := by
  have alloc : allocObject (lib.withReads u32 int8 string) attr s.rnd s.reg =
      allocObject lib attr s.rnd s.reg := withReads_allocObject (fun objtype typed =>
    same (.u32 .objtype objtype) (by simp [addObjectReads, readU32, typed])) _ _
  have created : ubusdCreateObject (lib.withReads u32 int8 string) cl attr s =
      ubusdCreateObject lib cl attr s := by
    unfold ubusdCreateObject
    rw [alloc]
    rcases made : allocObject lib attr s.rnd s.reg with ⟨_ | obj, rnd, reg⟩
    · rfl
    rcases named : attr .objpath with _ | objpath
    · rfl
    have value : string objpath = lib.blobString objpath :=
      same (.string .objpath objpath) (by simp [addObjectReads, made, readString, named])
    simp only [withReads_string, value, withReads_aclCheck, withReads_freeObject,
      withReads_objEvent]
  simp only [ubusdHandleAddObject, created, withReads_fromBlob]

theorem withReads_handleLookup (cmd : Option ClientCmd)
    (same : ∀ read ∈ lookupReads attr, read.Same lib u32 int8 string) :
    handleLookup (lib.withReads u32 int8 string) cl ub attr cmd s =
      handleLookup lib cl ub attr cmd s := by
  have loop : ∀ resumed nodes s, lookupLoop (lib.withReads u32 int8 string) cl ub resumed nodes s =
      lookupLoop lib cl ub resumed nodes s := by
    intro resumed nodes
    induction nodes with
    | nil => exact fun _ => rfl
    | cons node rest ih =>
      intro s
      simp only [lookupLoop, withReads_sendObj, ih]
  unfold handleLookup
  rcases named : attr .objpath with _ | objpath
  · exact loop ..
  · have value : string objpath = lib.blobString objpath :=
      same (.string .objpath objpath) (by simp [lookupReads, readString, named])
    simp only [withReads_string, value, withReads_sendObj]

theorem withReads_invoke (parsed : attr = ubusParseMsg lib (s.buf ub).data)
    (same : ∀ read ∈ invokeReads lib attr s, read.Same lib u32 int8 string) :
    ubusdHandleInvoke (lib.withReads u32 int8 string) cl ub attr s =
      ubusdHandleInvoke lib cl ub attr s := by
  unfold ubusdHandleInvoke
  rcases called : attr .method with _ | method
  · rfl
  rcases named : attr .objid with _ | objid
  · rfl
  have value : u32 objid = lib.blobGetU32 objid :=
    same (.u32 .objid objid) (by simp [invokeReads, called, named])
  simp only [withReads_u32, value]
  rcases found : ubusdFindObject s.reg (lib.blobGetU32 objid) with _ | obj
  · rfl
  have text : string method = lib.blobString method :=
    same (.string .method method) (by simp [invokeReads, called, named, found])
  have query : ubusdReplyQuery (lib.withReads u32 int8 string) cl ub attr s =
      ubusdReplyQuery lib cl ub attr s := by
    simp only [ubusdReplyQuery, named, withReads_u32, value, withReads_fromBlob]
  have recv : recvMsg (lib.withReads u32 int8 string) (s.reg.object obj).recvMsg cl ub
      (lib.blobString method) (attr .data) s = recvMsg lib (s.reg.object obj).recvMsg cl ub
        (lib.blobString method) (attr .data) s := by
    unfold recvMsg ubusdAclRecv
    split
    · rfl
    · rw [withReads_eventRecv]
    · have parse : ubusParseMsg (lib.withReads u32 int8 string) (s.buf ub).data = attr :=
        parsed.symm ▸ congrArg lib.blobParse (by rw [withReads_bytes])
      rw [parse, ← parsed, query]
    · rfl
  simp only [withReads_string, text, withReads_aclCheck, recv, withReads_forwardInvoke]

theorem withReads_notify (same : ∀ read ∈ notifyReads lib cl attr s, read.Same lib u32 int8 string) :
    ubusdHandleNotify (lib.withReads u32 int8 string) cl ub attr s =
      ubusdHandleNotify lib cl ub attr s := by
  unfold ubusdHandleNotify
  rcases called : attr .method with _ | method
  · rfl
  rcases named : attr .objid with _ | objid
  · rfl
  have value : u32 objid = lib.blobGetU32 objid :=
    same (.u32 .objid objid) (by simp [notifyReads, called, named])
  have flag : ((attr .noReply).any fun value =>
      (lib.withReads u32 int8 string).blobGetInt8 value ≠ 0) =
        (attr .noReply).any fun value => lib.blobGetInt8 value ≠ 0 := by
    rcases given : attr .noReply with _ | value
    · rfl
    · have value' : int8 value = lib.blobGetInt8 value :=
        same (.int8 .noReply value) (by simp [notifyReads, called, named, readInt8, given])
      simp only [Option.any_some, withReads_int8, value']
  simp only [withReads_u32, value, flag]
  rcases found : ubusdFindObject s.reg (lib.blobGetU32 objid) with _ | obj
  · rfl
  by_cases mine : (s.reg.object obj).client = some cl
  · have text : string method = lib.blobString method :=
      same (.string .method method) (by simp [notifyReads, called, named, ownsNamed, found, mine])
    have round : notifyRound (lib.withReads u32 int8 string) = notifyRound lib := by
      funext cl ub noReply method data s sub
      simp only [notifyRound, withReads_forwardInvoke]
    simp only [withReads_string, text, round, withReads_fromBlob]
  · simp only [ne_eq, mine, not_false_eq_true, if_true]

theorem withReads_response
    (same : ∀ read ∈ responseReads attr (s.buf ub).hdr.type, read.Same lib u32 int8 string) :
    ubusdHandleResponse (lib.withReads u32 int8 string) cl ub attr s =
      ubusdHandleResponse lib cl ub attr s := by
  unfold ubusdHandleResponse
  rcases named : attr .objid with _ | objid
  · rfl
  by_cases complete : responseComplete (s.buf ub).hdr.type attr
  · have value : u32 objid = lib.blobGetU32 objid :=
      same (.u32 .objid objid) (by simp [responseReads, complete, readU32, named])
    simp only [withReads_u32, value, withReads_send]
  · simp only [complete, Bool.not_false, if_true]

theorem withReads_watch (same : ∀ read ∈ watchReads lib cl attr s, read.Same lib u32 int8 string) :
    ubusdHandleAddWatch (lib.withReads u32 int8 string) cl ub attr s =
        ubusdHandleAddWatch lib cl ub attr s ∧
      ubusdHandleRemoveWatch (lib.withReads u32 int8 string) cl ub attr s =
        ubusdHandleRemoveWatch lib cl ub attr s := by
  unfold ubusdHandleAddWatch ubusdHandleRemoveWatch
  rcases named : attr .objid with _ | objid
  · exact ⟨rfl, rfl⟩
  rcases aimed : attr .target with _ | targetid
  · exact ⟨rfl, rfl⟩
  have value : u32 objid = lib.blobGetU32 objid :=
    same (.u32 .objid objid) (by simp [watchReads, named, aimed])
  simp only [withReads_u32, value]
  rcases found : ubusdFindObject s.reg (lib.blobGetU32 objid) with _ | obj
  · exact ⟨rfl, rfl⟩
  by_cases mine : (s.reg.object obj).client = some cl
  · have value' : u32 targetid = lib.blobGetU32 targetid :=
      same (.u32 .target targetid) (by simp [watchReads, named, aimed, ownsNamed, found, mine])
    have subscribe : ubusSubscribe (lib.withReads u32 int8 string) = ubusSubscribe lib := by
      funext obj target s
      simp only [ubusSubscribe, withReads_notifySubscription]
    have watch : mayWatch (lib.withReads u32 int8 string) = mayWatch lib := rfl
    simp only [value', subscribe, withReads_unsubscribe, watch, and_self]
  · simp only [ne_eq, mine, not_false_eq_true, if_true, and_self]

/-- **The outcome of a message depends only on the reads listed.** -/
theorem dispatch_withReads (same : ∀ read ∈ messageReads lib cl s ub, read.Same lib u32 int8 string) :
    dispatch (lib.withReads u32 int8 string) cl ub s = dispatch lib cl ub s := by
  have parse : ubusParseMsg (lib.withReads u32 int8 string) (s.buf ub).data =
      ubusParseMsg lib (s.buf ub).data := congrArg lib.blobParse (by rw [withReads_bytes])
  unfold dispatch messageReads at *
  rcases typed : MsgType.ofCode? (s.buf ub).hdr.type with _ | type
  · rfl
  simp only [typed, Option.bind_some, parse] at same ⊢
  cases type with
  | hello => rfl
  | monitor => rfl
  | ping => simp only [handlers, ubusdSendPong, withReads_send]
  | addObject => exact withReads_addObject same
  | removeObject => exact withReads_removeObject same
  | lookup =>
    simp only [handlers, ubusdHandleLookup]
    split
    · rename_i idle
      rw [if_pos idle] at same
      exact withReads_handleLookup none same
    · rfl
  | invoke => exact withReads_invoke rfl same
  | status => exact withReads_response same
  | data => exact withReads_response same
  | subscribe => exact (withReads_watch same).1
  | unsubscribe => exact (withReads_watch same).2
  | notify => exact withReads_notify same

end Same

/-! ### The reads stay inside -/

section Within

variable {lib : Libubox} {cl ub : Nat} {s : State}

/-- **The attributes without a type in the policy are long enough** where a handler looks at them:
`TARGET` for a client that owns the object it names, `NO_REPLY` of a complete notification. -/
structure LongEnough (lib : Libubox) (cl ub : Nat) (s : State) : Prop where
  target : (s.buf ub).hdr.type = MsgType.subscribe.code ∨
      (s.buf ub).hdr.type = MsgType.unsubscribe.code → ∀ objid target,
    ubusParseMsg lib (s.buf ub).data .objid = some objid →
    ubusParseMsg lib (s.buf ub).data .target = some target →
    (∃ obj, ubusdFindObject s.reg (lib.blobGetU32 objid) = some obj ∧
      (s.reg.object obj).client = some cl) → 4 ≤ (lib.blobData target).length
  noReply : (s.buf ub).hdr.type = MsgType.notify.code → ∀ method objid value,
    ubusParseMsg lib (s.buf ub).data .method = some method →
    ubusParseMsg lib (s.buf ub).data .objid = some objid →
    ubusParseMsg lib (s.buf ub).data .noReply = some value → 1 ≤ (lib.blobData value).length

theorem within_u32 (checks : lib.Checks) {data : Payload} {id : UbusAttr}
    (typed : id = .objtype ∨ id = .objid) :
    ∀ read ∈ readU32 (ubusParseMsg lib data) id, read.Within lib := by
  intro read member
  obtain ⟨attr, found, rfl⟩ := Option.map_eq_some_iff.mp (Option.mem_toList.mp member)
  exact checks.int32 _ _ _ found typed

theorem within_string (checks : lib.Checks) {data : Payload} {id : UbusAttr}
    (typed : id = .objpath ∨ id = .method) :
    ∀ read ∈ readString (ubusParseMsg lib data) id, read.Within lib := by
  intro read member
  obtain ⟨attr, found, rfl⟩ := Option.map_eq_some_iff.mp (Option.mem_toList.mp member)
  exact checks.string _ _ _ found typed

theorem isSome_ownsNamed {objid : Bytes} : (ownsNamed lib cl s objid).isSome = true ↔
    ∃ obj, ubusdFindObject s.reg (lib.blobGetU32 objid) = some obj ∧
      (s.reg.object obj).client = some cl := by
  simp [ownsNamed, Option.any_eq_true]

theorem within_invoke (checks : lib.Checks) (data : Payload) :
    ∀ read ∈ invokeReads lib (ubusParseMsg lib data) s, read.Within lib := by
  unfold invokeReads
  rcases called : ubusParseMsg lib data .method with _ | method
  · exact nofun
  rcases named : ubusParseMsg lib data .objid with _ | objid
  · exact nofun
  have number : AttrRead.Within lib (.u32 .objid objid) := checks.int32 _ _ _ named (Or.inr rfl)
  have text : AttrRead.Within lib (.string .method method) := checks.string _ _ _ called (Or.inr rfl)
  simp only
  split
  · exact List.forall_mem_singleton.mpr number
  · simp only [List.forall_mem_cons, number, text, true_and]
    exact nofun

theorem within_response (checks : lib.Checks) (data : Payload) {type : UInt8} :
    ∀ read ∈ responseReads (ubusParseMsg lib data) type, read.Within lib := by
  unfold responseReads
  split
  · exact within_u32 checks (Or.inr rfl)
  · exact nofun

theorem within_watch_iff (checks : lib.Checks) (data : Payload) :
    (∀ read ∈ watchReads lib cl (ubusParseMsg lib data) s, read.Within lib) ↔ ∀ objid target,
      ubusParseMsg lib data .objid = some objid → ubusParseMsg lib data .target = some target →
      (∃ obj, ubusdFindObject s.reg (lib.blobGetU32 objid) = some obj ∧
        (s.reg.object obj).client = some cl) → 4 ≤ (lib.blobData target).length := by
  unfold watchReads
  rcases named : ubusParseMsg lib data .objid with _ | objid
  · simp
  rcases aimed : ubusParseMsg lib data .target with _ | target
  · simp
  have number : AttrRead.Within lib (.u32 .objid objid) := checks.int32 _ _ _ named (Or.inr rfl)
  simp only [List.forall_mem_cons, number, true_and]
  constructor
  · rintro all _ _ ⟨⟩ ⟨⟩ owns
    rw [if_pos (isSome_ownsNamed.mpr owns)] at all
    exact all (.u32 .target target) List.mem_cons_self
  · intro long
    split
    · rename_i owns
      exact List.forall_mem_singleton.mpr (long objid target rfl rfl (isSome_ownsNamed.mp owns))
    · exact nofun

theorem within_notify_iff (checks : lib.Checks) (data : Payload) :
    (∀ read ∈ notifyReads lib cl (ubusParseMsg lib data) s, read.Within lib) ↔ ∀ method objid value,
      ubusParseMsg lib data .method = some method → ubusParseMsg lib data .objid = some objid →
      ubusParseMsg lib data .noReply = some value → 1 ≤ (lib.blobData value).length := by
  unfold notifyReads
  rcases called : ubusParseMsg lib data .method with _ | method
  · simp
  rcases named : ubusParseMsg lib data .objid with _ | objid
  · simp
  have number : AttrRead.Within lib (.u32 .objid objid) := checks.int32 _ _ _ named (Or.inr rfl)
  have text : AttrRead.Within lib (.string .method method) := checks.string _ _ _ called (Or.inr rfl)
  have rest : ∀ read ∈ (if (ownsNamed lib cl s objid).isSome then [AttrRead.string .method method]
      else []), read.Within lib := by
    split
    · exact List.forall_mem_singleton.mpr text
    · exact nofun
  simp only [List.forall_mem_append, List.forall_mem_cons, number, true_and]
  rw [and_iff_left rest]
  rcases given : ubusParseMsg lib data .noReply with _ | value
  · simp [readInt8, given]
  · simp [readInt8, given, AttrRead.Within]

theorem MsgType.ofCode?_code (type : MsgType) : MsgType.ofCode? type.code = some type := by
  cases type <;> rfl

theorem longEnough_of_other (watch : MsgType.ofCode? (s.buf ub).hdr.type ≠ some .subscribe)
    (unwatch : MsgType.ofCode? (s.buf ub).hdr.type ≠ some .unsubscribe)
    (notify : MsgType.ofCode? (s.buf ub).hdr.type ≠ some .notify) : LongEnough lib cl ub s := by
  refine ⟨fun typed => ?_, fun typed => ?_⟩
  · rcases typed with typed | typed
    · exact absurd (typed ▸ MsgType.ofCode?_code _) watch
    · exact absurd (typed ▸ MsgType.ofCode?_code _) unwatch
  · exact absurd (typed ▸ MsgType.ofCode?_code _) notify

theorem within_message_iff (checks : lib.Checks) :
    (∀ read ∈ messageReads lib cl s ub, read.Within lib) ↔ LongEnough lib cl ub s := by
  have inside : ∀ {reads : List AttrRead}, (∀ read ∈ reads, read.Within lib) →
      LongEnough lib cl ub s → ((∀ read ∈ reads, read.Within lib) ↔ LongEnough lib cl ub s) :=
    fun within long => ⟨fun _ => long, fun _ => within⟩
  have other : ∀ {type : MsgType}, MsgType.ofCode? (s.buf ub).hdr.type = some type →
      type ≠ .subscribe → type ≠ .unsubscribe → type ≠ .notify → LongEnough lib cl ub s := by
    intro type typed watch unwatch notify
    exact longEnough_of_other (by simpa [typed] using watch) (by simpa [typed] using unwatch)
      (by simpa [typed] using notify)
  unfold messageReads
  rcases typed : MsgType.ofCode? (s.buf ub).hdr.type with _ | type
  · exact inside nofun (longEnough_of_other (by simp [typed]) (by simp [typed]) (by simp [typed]))
  have code := MsgType.code_of_ofCode? typed
  cases type with
  | hello => exact inside nofun (other typed nofun nofun nofun)
  | monitor => exact inside nofun (other typed nofun nofun nofun)
  | ping => exact inside nofun (other typed nofun nofun nofun)
  | invoke => exact inside (within_invoke checks _) (other typed nofun nofun nofun)
  | removeObject =>
    exact inside (within_u32 checks (Or.inr rfl)) (other typed nofun nofun nofun)
  | addObject =>
    refine inside (List.forall_mem_append.mpr ⟨within_u32 checks (Or.inl rfl), ?_⟩)
      (other typed nofun nofun nofun)
    split
    · exact within_string checks (Or.inl rfl)
    · exact nofun
  | lookup =>
    refine inside ?_ (other typed nofun nofun nofun)
    simp only
    split
    · exact within_string checks (Or.inl rfl)
    · exact nofun
  | status => exact inside (within_response checks _) (other typed nofun nofun nofun)
  | data => exact inside (within_response checks _) (other typed nofun nofun nofun)
  | subscribe =>
    refine (within_watch_iff checks _).trans ⟨fun target => ⟨fun _ => target, ?_⟩, fun long =>
      long.target (Or.inl code.symm)⟩
    exact fun notify => (by cases MsgType.code_injective (code.trans notify))
  | unsubscribe =>
    refine (within_watch_iff checks _).trans ⟨fun target => ⟨fun _ => target, ?_⟩, fun long =>
      long.target (Or.inr code.symm)⟩
    exact fun notify => (by cases MsgType.code_injective (code.trans notify))
  | notify =>
    refine (within_notify_iff checks _).trans ⟨fun noReply => ⟨?_, fun _ => noReply⟩, fun long =>
      long.noReply code.symm⟩
    rintro (watch | watch)
    · cases MsgType.code_injective (code.trans watch)
    · cases MsgType.code_injective (code.trans watch)

/-- **The reads of a handler stay inside the attributes** exactly when those without a type in the
policy are long enough. A lookup that was queued reads its path again, and stays inside; and nothing
but these reads goes into what a handler does. -/
theorem reads_within_iff (checks : lib.Checks) (cl ub : Nat) (s : State) :
    ((∀ read ∈ messageReads lib cl s ub, read.Within lib) ↔ LongEnough lib cl ub s) ∧
      (∀ data, ∀ read ∈ lookupReads (ubusParseMsg lib data), read.Within lib) ∧
      ∀ u32 int8 string, (∀ read ∈ messageReads lib cl s ub, read.Same lib u32 int8 string) →
        dispatch (lib.withReads u32 int8 string) cl ub s = dispatch lib cl ub s :=
  ⟨within_message_iff checks, fun _ => within_string checks (Or.inl rfl),
    fun _ _ _ same => dispatch_withReads same⟩

end Within

/-! ### A message with a short attribute -/

theorem Blob.checks_libubox : Blob.libubox.Checks := by
  have policy : ∀ {msg : Bytes} {id : UbusAttr} {attr : Bytes}, Blob.blobParse msg id = some attr →
      Blob.policyOk id (Blob.blobData attr) = true := by
    intro msg id attr found
    unfold Blob.blobParse at found
    split at found
    · cases found
    · have member := List.mem_of_getLast? found
      simp only [List.mem_filter, Bool.and_eq_true] at member
      exact member.2.2
  constructor
  · rintro msg id attr found (rfl | rfl)
    · exact (by simpa [Blob.policyOk] using policy found : (Blob.blobData attr).length = 4).ge
    · exact (by simpa [Blob.policyOk] using policy found : (Blob.blobData attr).length = 4).ge
  · rintro msg id attr found (rfl | rfl)
    · have last : (Blob.blobData attr).getLast? = some 0 := by simpa [Blob.policyOk] using policy found
      exact List.mem_of_getLast? last
    · have last : (Blob.blobData attr).getLast? = some 0 := by simpa [Blob.policyOk] using policy found
      exact List.mem_of_getLast? last

/-- A client subscribes its object to a target. The request is not read yet. -/
def subscribeRun (target : Bytes) : List Input :=
  addRun ++ [{ action := .client 3 false false (Blob.message .subscribe 2 0
    [.int32 .objid 4001, .blob .target target]) [] [.got 11 false, .again] }]

theorem reads_within_iff_watch : ∃ s, Handles Blob.libubox 3 4 s ∧
    AttrRead.u32 .target [8, 0, 0, 8, 0, 0, 0, 9] ∈ messageReads Blob.libubox 3 s 4 ∧
    ∀ read ∈ messageReads Blob.libubox 3 s 4, read.Within Blob.libubox := by
  obtain ⟨s, here⟩ : ∃ s, ubusdMonitorMessage Blob.libubox 3 4 false (takeMessage 3 4
    (gotBody Blob.libubox 3 4 16 (run Blob.libubox (subscribeRun [0, 0, 0, 9]) State.init))) = s := ⟨_, rfl⟩
  have handles : Handles Blob.libubox 3 4 s := here ▸ .read _ (reachable_run _ _)
    (by decide +kernel) (by decide +kernel) (by decide +kernel)
  have typed : (s.buf 4).hdr.type = MsgType.subscribe.code := by
    rw [← here]
    decide +kernel
  have aimed : ubusParseMsg Blob.libubox (s.buf 4).data .target = some [8, 0, 0, 8, 0, 0, 0, 9] := by
    rw [← here]
    decide +kernel
  refine ⟨s, handles, by rw [← here]; decide +kernel,
    (reads_within_iff Blob.checks_libubox 3 4 s).1.mpr ⟨fun _ objid target _ found _ => ?_, ?_⟩⟩
  · obtain rfl := Option.some.inj (aimed.symm.trans found)
    decide
  · exact fun notify => (by rw [typed] at notify; cases MsgType.code_injective notify)

/-- **A read past an attribute**: `TARGET` is empty, and `ubusd_handle_add_watch` reads a number of it. -/
theorem subscribe_reads_past : ∃ s, Handles Blob.libubox 3 4 s ∧
    ∃ read ∈ messageReads Blob.libubox 3 s 4, ¬ read.Within Blob.libubox := by
  obtain ⟨s, here⟩ : ∃ s, ubusdMonitorMessage Blob.libubox 3 4 false (takeMessage 3 4
    (gotBody Blob.libubox 3 4 12 (run Blob.libubox (subscribeRun []) State.init))) = s := ⟨_, rfl⟩
  have handles : Handles Blob.libubox 3 4 s := here ▸ .read _ (reachable_run _ _)
    (by decide +kernel) (by decide +kernel) (by decide +kernel)
  refine ⟨s, handles, .u32 .target [8, 0, 0, 4], by rw [← here]; decide +kernel, ?_⟩
  show ¬ 4 ≤ (Blob.blobData [8, 0, 0, 4]).length
  decide

end Ubus
