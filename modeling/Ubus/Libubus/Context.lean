/-
**The client library: a context, its requests and its call stack** (`libubus.h`).

The library calls back into the application, and the application calls the library again from inside
a callback. So the stack is part of the state: a list of frames, each a place in a function of the
library (with what its local variables hold) or a callback of the application that is running.

* `Request`, `RequestData`, `Object` — the structures of `libubus.h`. A request is known by the start
  that initialised it: a structure that is started again is a new request.
* `Callback`, `Frame`, `Event` — what runs and what happened; the trace is newest first and is never
  read.
-/

import Mathlib.Logic.Function.Basic
import Ubus.Blob

namespace Ubus.Libubus

/-! ### The blob library -/

/-- The `ubus_policy` of `libubus-io.c`. -/
def policyOk (id : UbusAttr) (data : Bytes) : Bool :=
  match id with
  | .status | .objid => data.length == 4
  | .objpath | .method => data.getLast? == some 0
  | .active | .noReply => data.length == 1
  | _ => true

/-- `blob_parse_untrusted` with this policy: of several attributes the last one counts. -/
def blobParse (msg : Bytes) (id : UbusAttr) : Option Bytes :=
  if msg.length < Blob.rawLen msg then none
  else ((Blob.forEach (Blob.blobData msg)).filter fun attr =>
    Blob.attrId attr == Blob.attrCode id && policyOk id (Blob.blobData attr)).getLast?

/-- The library, as the clients use it. -/
def libubox : Libubox := { Blob.libubox with blobParse }

/-! ### Buffers -/

/-- A block of memory that holds a message. -/
structure Buffer where
  cap : Nat := 0
  gen : Nat := 0
  content : Bytes := []
  live : Bool := false

/-- A place in a buffer, with the bytes that stood there when the pointer was made. -/
structure Ptr where
  buf : Nat
  gen : Nat
  bytes : Bytes
deriving DecidableEq, Repr

/-- A `struct ubus_msghdr_buf *`: the context's own `msgbuf`, or the copy in a
`struct ubus_pending_msg`. -/
inductive MsghdrBuf where
  | msgbuf
  | pending (hdr : Msghdr) (data : Nat)
deriving DecidableEq, Repr

/-! ### The structures of the library -/

/-- The values of `complete_cb`: one of the application's, `ubus_sync_req_cb` or
`ubus_notify_complete_cb`. -/
inductive CompleteCb where
  | null | user | sync | notify
deriving DecidableEq, Repr

/-- `UBUS_MAX_NOTIFY_PEERS`. -/
def ubusMaxNotifyPeers : Nat := 16

/-- `struct ubus_request`, and the rest of `struct ubus_notify_request`. Of a callback of the
application only whether it is set is kept. -/
structure Request where
  pending : List (UInt8 × Nat) := []
  statusCode : UInt32 := 0
  statusMsg : Bool := false
  blocked : Bool := false
  cancelled : Bool := false
  notify : Bool := false
  peer : UInt32 := 0
  seq : UInt16 := 0
  rawDataCb : Bool := false
  dataCb : Bool := false
  fdCb : Bool := false
  completeCb : CompleteCb := .null
  notifyStatusCb : Bool := false
  notifyCompleteCb : Bool := false
  notifyDataCb : Bool := false
  notifyPending : BitVec 32 := 0
  notifyId : Nat → UInt32 := fun _ => 0

/-- `struct ubus_request_data`; `acl` holds the user and the group. -/
structure RequestData where
  object : UInt32 := 0
  peer : UInt32 := 0
  seq : UInt16 := 0
  acl : Option (Ptr × Ptr) := none
  deferred : Bool := false
  fd : Option Nat := none
  reqFd : Option Nat := none

/-- `struct ubus_object`, `struct ubus_subscriber` and `struct ubus_event_handler`. The methods are
their names, `none` being the entry that matches any name; `watch` says that `methods` is
`watch_method`. -/
structure Object where
  id : UInt32 := 0
  methods : List (Option CString) := []
  watch : Bool := false
  subscribeCb : Bool := false
  hasSubscribers : Bool := false
  removeCb : Bool := false

/-- What the application decides about a context. -/
structure Setup where
  objects : List (UInt32 × Nat) := []
  object : Nat → Object := fun _ => {}
  registered : Bool := false
  monitorCb : Bool := false
  requestHandler : Bool := false
  preInvoke : Bool := false

/-! ### The stack and the trace -/

/-- A call of the application by the library, with what it is given. -/
inductive Callback where
  | rawData (req : Nat) (type : UInt8) (msg : Ptr)
  | data (req : Nat) (type : UInt8) (msg : Ptr)
  | fd (req : Nat) (fd : Nat)
  | complete (req : Nat) (ret : UInt32)
  | notifyStatus (req : Nat) (idx : Nat) (ret : UInt32)
  | notifyComplete (req : Nat)
  | preInvoke (obj : Nat) (method : Nat) (rd : Nat) (msg : Ptr)
  /-- The handler of a method, or `request_handler` of a channel. -/
  | handler (obj : Option Nat) (method : Option Nat) (rd : Nat) (name msg : Option Ptr)
  | subscribe (obj : Nat)
  | remove (obj : Nat) (id : UInt32)
  | monitor (seq : UInt16) (msg : Ptr)
  | connectionLost
deriving DecidableEq, Repr

/-- A place in the library that control returns to, or a running callback. -/
inductive Frame where
  | app (cb : Callback)
  /-- `req_data_cb`, from its start and after `raw_data_cb`. -/
  | reqDataCb (req : Nat) (type : UInt8) (data : Nat)
  | reqDataCbParse (req : Nat) (type : UInt8) (data : Nat)
  /-- `ubus_process_req_data` after `req_data_cb`. -/
  | processReqData (req : Nat)
  /-- The loop of `__ubus_process_req_data` after `req_data_cb`, with `data` and `tmp`. -/
  | drain (req : Nat) (data : Nat) (tmp : Option Nat)
  | setReqStatus (req : Nat) (ret : UInt32)
  /-- `ubus_process_req_msg` after `fd_cb`, and before its last test. -/
  | processStatus (req : Nat) (id : Option Nat) (buf : MsghdrBuf)
  | closeFd (fd : Option Nat)
  /-- `ubus_process_notify_status` after `status_cb`. -/
  | notifyStatus (req : Nat)
  | flushRequests
  /-- `ubus_complete_request`: at its loop, after `ubus_poll_data`, after the loop, after
  `complete_cb`, and after the pending messages. -/
  | waitLoop (req : Nat) (completeCb : CompleteCb) (timed : Bool)
  | waitPolled (req : Nat) (completeCb : CompleteCb) (timed : Bool)
  | waitEnd (req : Nat) (completeCb : CompleteCb) (lost : Bool)
  | waitCompleted (req : Nat) (completeCb : CompleteCb) (status : UInt32)
  | waitReturn (req : Nat) (completeCb : CompleteCb) (status : UInt32)
  /-- `ubus_handle_data`: at its loop, before `get_next_msg`, after `ubus_process_msg`, after the
  loop, and after `ubus_flush_requests`. -/
  | handleData
  | handleRead
  | handled
  | handleEnd
  | handleLost
  | processMsg (buf : MsghdrBuf) (fd : Option Nat)
  /-- `ubus_process_pending_msg`: at its loop, and after `ubus_process_msg`. -/
  | processPendingMsg
  | pendingDone (data : Nat)
  /-- `ubus_process_msg` after `ubus_process_obj_msg`. -/
  | leaveObjMsg
  /-- `ubus_process_obj_msg` after the handler of the message type. -/
  | restoreData (prevData : Nat)
  /-- `ubus_process_invoke` after `pre_invoke`, and after the handler. -/
  | preInvoked (obj : Nat) (method : Nat) (rd : Nat) (noReply : Bool)
  | invoked (rd : Nat) (noReply : Bool)
deriving DecidableEq, Repr

/-- Who called `ubus_send_msg`: `ubus_process_invoke` for an answer, or another function. -/
inductive Sender where
  | invoke (rd : Nat)
  | other
deriving DecidableEq, Repr

/-- What happened. -/
inductive Event where
  | read (hdr : Msghdr) (data : Bytes)
  | call (cb : Callback)
  /-- `complete_cb` of a request ran, other than `ubus_sync_req_cb`. -/
  | completed (req : Nat) (ret : UInt32)
  /-- `ubus_complete_request` returned. -/
  | returned (req : Nat) (status : UInt32)
  /-- A message was passed to `ubus_process_obj_msg`. -/
  | dispatched (hdr : Msghdr) (data : Bytes)
  /-- `ubus_process_invoke` began to work on a message. -/
  | invoke (rd : Nat) (hdr : Msghdr) (data : Bytes)
  /-- A status of a notification was processed for a slot. -/
  | notified (req : Nat) (id : Nat) (data : Bytes)
  /-- A message with data for a request was passed to `ubus_process_req_data`. -/
  | gotData (req : Nat) (type : UInt8) (data : Bytes)
  /-- A call of `ubus_send_msg`; `ok` says that the message was written. -/
  | sent (sender : Sender) (cmd : MsgType) (seq : UInt16) (peer : UInt32) (msg : Payload) (ok : Bool)
  | close (fd : Nat)
  /-- A descriptor went to the application, by `ubus_request_get_caller_fd` or `fd_cb`. -/
  | handed (fd : Nat)

/-! ### The state -/

structure State where
  channel : Bool := false
  requests : List Nat := []
  pending : List (Msghdr × Nat) := []
  eof : Bool := false
  requestSeq : UInt16 := 0
  cancelPoll : Bool := false
  stackDepth : Nat := 0
  msgbufHdr : Msghdr := {}
  msgbufData : Option Nat := none
  msgbufDataLen : Nat := 0
  msgbufReductionCounter : Nat := 0
  /-- The array `attrbuf` of `libubus-io.c`. -/
  attrbuf : UbusAttr → Option Ptr := fun _ => none
  setup : Setup := {}
  req : Nat → Request := fun _ => {}
  rd : Nat → RequestData := fun _ => {}
  buf : Nat → Buffer := fun _ => {}
  brk : Nat := 0
  /-- A freed block was used. -/
  fault : Bool := false
  stack : List Frame := []
  /-- The value that the last function or callback returned. -/
  ret : UInt32 := 0
  trace : List Event := []

namespace State

def log (event : Event) (s : State) : State := { s with trace := event :: s.trace }

def push (frame : Frame) (s : State) : State := { s with stack := frame :: s.stack }

/-- Call the application. -/
def call (cb : Callback) (s : State) : State := (s.log (.call cb)).push (.app cb)

def mapReq (r : Nat) (f : Request → Request) (s : State) : State :=
  { s with req := Function.update s.req r (f (s.req r)) }

def mapRd (k : Nat) (f : RequestData → RequestData) (s : State) : State :=
  { s with rd := Function.update s.rd k (f (s.rd k)) }

def mapBuf (b : Nat) (f : Buffer → Buffer) (s : State) : State :=
  { s with buf := Function.update s.buf b (f (s.buf b)) }

def free (b : Nat) (s : State) : State := s.mapBuf b fun buf => { buf with live := false }

/-- `if (fd >= 0) close(fd)`. -/
def close (fd : Option Nat) (s : State) : State :=
  match fd with
  | none => s
  | some fd => s.log (.close fd)

/-- The pointer to the message in a buffer. -/
def ptr (s : State) (b : Nat) : Ptr := ⟨b, (s.buf b).gen, (s.buf b).content⟩

/-- The memory a pointer leads to still holds what it did. -/
def valid (s : State) (p : Ptr) : Bool := (s.buf p.buf).live && (s.buf p.buf).gen == p.gen

/-- `buf->hdr`. -/
def hdr (s : State) : MsghdrBuf → Msghdr
  | .msgbuf => s.msgbufHdr
  | .pending hdr _ => hdr

/-- `buf->data`. -/
def data (s : State) : MsghdrBuf → Option Nat
  | .msgbuf => s.msgbufData
  | .pending _ data => some data

/-- The message a buffer holds. -/
def content (s : State) (buf : MsghdrBuf) : Bytes :=
  match s.data buf with
  | none => []
  | some data => (s.buf data).content

end State

/-- What the outside decides in a step: what `get_next_msg` meets, the clock, `uloop_cancelling`, and
whether memory is available and a message can be written. -/
inductive Recv where
  /-- Nothing to read yet. -/
  | again
  /-- End of file, an error or a bad header, with the descriptor that came with it. -/
  | failed (fd : Option Nat)
  /-- A header, but not the whole message. -/
  | cut (hdr : Msghdr) (data : Bytes) (fd : Option Nat)
  | message (hdr : Msghdr) (data : Bytes) (fd : Option Nat)

structure Env where
  recv : Recv := .again
  expired : Bool := false
  cancelling : Bool := false
  alloc : Bool := true
  written : Bool := true

end Ubus.Libubus
