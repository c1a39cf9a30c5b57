/-
**The bus without its transport.**

What the daemon does for its clients, with message buffers, descriptors, sockets and queues left out:
a message that is submitted is a letter to a client, and nothing can fail for lack of memory. The
functions are those of the daemon, on the registry and the sequence numbers alone.

* `Bus.sendEvent` — an event goes to the objects whose patterns cover its id; there is no walk.
* `Bus.Looks` — a lookup, which may stop before any object and go on later.
* `Bus.connect`, `Bus.disconnect`, `Bus.aclLoad` — the rest of what the event loop reports.
-/

import Ubus.Main

namespace Ubus

open Lib

/-- A message that was submitted, and the work it belongs to. -/
structure Letter where
  cause : Cause
  dest : Nat
  hdr : Msghdr
  data : Payload

/-- **The bus.** -/
structure Bus where
  reg : Registry
  stamps : Stamps
  monitors : List Nat
  cause : Cause
  rnd : List UInt32
  out : List Letter

/-- The objects whose patterns cover an event id, once for each pattern. -/
def Registry.hearers (reg : Registry) (id : CString) : List Nat :=
  (reg.listeners id).map fun node => (reg.eventSource node.2).obj

/-- The paths from one on. -/
def Registry.pathsFrom (reg : Registry) (start : Option CString) : AvlTree CString :=
  match start with
  | some key => reg.path.findGe key
  | none => reg.path

namespace Bus

def submit (dest : Nat) (hdr : Msghdr) (data : Payload) (b : Bus) : Bus :=
  { b with out := b.out ++ [⟨b.cause, dest, hdr, data⟩] }

def submitTo (dest : Option Nat) (hdr : Msghdr) (data : Payload) (b : Bus) : Bus :=
  match dest with
  | none => b
  | some dest => b.submit dest hdr data

@[simp] theorem submitTo_reg (dest : Option Nat) (hdr : Msghdr) (data : Payload) (b : Bus) :
    (b.submitTo dest hdr data).reg = b.reg := by
  cases dest <;> rfl

def mapReg (f : Registry → Registry) (b : Bus) : Bus := { b with reg := f b.reg }

/-- A message about a message: `seq` and `peer` are copied. -/
def reply (dest : Option Nat) (hdr : Msghdr) (type : MsgType) (puts : List Put) (b : Bus) : Bus :=
  b.submitTo dest { type := type.code, seq := hdr.seq, peer := hdr.peer } (.built puts)

/-! ### Events -/

/-- The next event number. -/
def bumpObjEventSeq (b : Bus) : Bus :=
  { b with stamps := { b.stamps with
    objEventSeq := if b.stamps.objEventSeq + 1 = 0 then 1 else b.stamps.objEventSeq + 1 } }

/-- An event for one object, unless its owner sent it or the object has it already. -/
def eventMsg (cl : Option Nat) (rest : List Put) (b : Bus) (obj : Nat) : Bus :=
  if (b.reg.object obj).client = cl then b
  else if b.stamps.eventSeen obj = b.stamps.objEventSeq then b
  else
    submitTo (b.reg.object obj).client
      { type := MsgType.invoke.code, seq := b.stamps.eventSeq + 1, peer := 0 }
      (.built (.int32 .objid (b.reg.object obj).id :: rest))
      { b with stamps := { b.stamps with
        eventSeen := Function.update b.stamps.eventSeen obj b.stamps.objEventSeq
        eventSeq := b.stamps.eventSeq + 1 } }

variable (lib : Libubox)

/-- An event: every object that listens gets it. -/
def sendEvent (cl : Option Nat) (id : CString) (rest : List Put) (b : Bus) : Status × Bus :=
  if ubusdAclCheck lib b.reg.acl.entries (cl.map fun cl => (b.reg.client cl).cred) (some id) none
      .send ≠ 0 then (.permissionDenied, b)
  else (.ok, (b.reg.hearers id).foldl (eventMsg cl rest) b.bumpObjEventSeq)

def sendObjEvent (obj : Nat) (add : Bool) (b : Bus) : Bus :=
  (sendEvent lib none (objEventId add) (objectEventMsg (objEventId add) (b.reg.object obj)) b).2

@[simp] theorem eventMsg_reg (cl : Option Nat) (rest : List Put) (b : Bus) (obj : Nat) :
    (b.eventMsg cl rest obj).reg = b.reg := by
  unfold eventMsg
  split
  · rfl
  · split
    · rfl
    · rw [submitTo_reg]

theorem events_reg (cl : Option Nat) (rest : List Put) (objs : List Nat) (b : Bus) :
    (objs.foldl (eventMsg cl rest) b).reg = b.reg := by
  induction objs generalizing b with
  | nil => rfl
  | cons obj objs ih => rw [List.foldl_cons, ih, eventMsg_reg]

@[simp] theorem sendEvent_reg (cl : Option Nat) (id : CString) (rest : List Put) (b : Bus) :
    (b.sendEvent lib cl id rest).2.reg = b.reg := by
  unfold sendEvent
  split
  · rfl
  · exact events_reg cl rest _ _

@[simp] theorem sendObjEvent_reg (obj : Nat) (add : Bool) (b : Bus) :
    (b.sendObjEvent lib obj add).reg = b.reg := sendEvent_reg ..

def forwardEvent (cl : Nat) (msg : Option Bytes) (b : Bus) : Status × Bus :=
  match msg with
  | none => (.invalidArgument, b)
  | some msg =>
    let attr := lib.blobmsgParse evPolicy (lib.blobData msg)
    match attr (cstr "id"), attr (cstr "data") with
    | some id, some data =>
      let id := lib.blobmsgString id
      if reservedPrefix.isPrefixOf id then (.permissionDenied, b)
      else sendEvent lib (some cl) id (eventFromMsg lib id data) b
    | _, _ => (.invalidArgument, b)

def eventRecv (cl : Nat) (method : CString) (msg : Option Bytes) (b : Bus) : Status × Bus :=
  if method = cstr "register" then
    let (ret, reg) := ubusdAllocEventPattern lib cl msg b.reg
    (ret, { b with reg })
  else if method = cstr "send" then forwardEvent lib cl msg b
  else (.invalidCommand, b)

/-! ### Objects and subscriptions -/

/-- A numbered message to the owner of an object. -/
def sendNumbered (obj : Nat) (type : MsgType) (puts : List Put) (b : Bus) : Bus :=
  submitTo (b.reg.object obj).client
    { type := type.code, seq := b.stamps.invokeSeq obj + 1, peer := 0 } (.built puts)
    { b with stamps := { b.stamps with
      invokeSeq := Function.update b.stamps.invokeSeq obj (b.stamps.invokeSeq obj + 1) } }

@[simp] theorem sendNumbered_reg (obj : Nat) (type : MsgType) (puts : List Put) (b : Bus) :
    (b.sendNumbered obj type puts).reg = b.reg := submitTo_reg ..

def notifySubscription (obj : Nat) (b : Bus) : Bus :=
  let active : UInt8 := if (b.reg.object obj).subscribers.isEmpty then 0 else 1
  sendNumbered obj .notify [.int32 .objid (b.reg.object obj).id, .int8 .active active] b

def subscribe (obj target : Nat) (b : Bus) : Bus :=
  let first := (b.reg.object target).subscribers.isEmpty
  let b := b.mapReg (newSubscription obj target)
  if first then b.notifySubscription target else b

def unsubscribe (b : Bus) (sub : Nat) : Bus :=
  let target := (b.reg.subscription sub).target
  let b := b.mapReg (unlinkSubscription sub)
  if (b.reg.object target).subscribers.isEmpty then b.notifySubscription target else b

def notifyUnsubscribe (b : Bus) (sub : Nat) : Bus :=
  let subscriber := (b.reg.subscription sub).subscriber
  let target := (b.reg.subscription sub).target
  let b := sendNumbered subscriber .unsubscribe
    [.int32 .objid (b.reg.object subscriber).id, .int32 .target (b.reg.object target).id] b
  b.unsubscribe sub

@[simp] theorem subscribe_reg (obj target : Nat) (b : Bus) :
    (b.subscribe obj target).reg = newSubscription obj target b.reg := by
  unfold subscribe
  simp only
  split
  · exact sendNumbered_reg ..
  · rfl

@[simp] theorem unsubscribe_reg (b : Bus) (sub : Nat) :
    (b.unsubscribe sub).reg = unlinkSubscription sub b.reg := by
  unfold unsubscribe
  simp only
  split
  · exact sendNumbered_reg ..
  · rfl

@[simp] theorem notifyUnsubscribe_reg (b : Bus) (sub : Nat) :
    (b.notifyUnsubscribe sub).reg = unlinkSubscription sub b.reg := by
  rw [notifyUnsubscribe, unsubscribe_reg, sendNumbered_reg]

def announceRemoval (obj : Nat) (b : Bus) : Bus :=
  match (b.reg.object obj).path with
  | none => b
  | some _ => sendObjEvent lib obj false b

def freeObject (b : Bus) (obj : Nat) : Bus :=
  let b := (b.reg.object obj).targetList.foldl unsubscribe b
  let b := (b.reg.object obj).subscribers.foldl notifyUnsubscribe b
  let b := b.mapReg (ubusdEventCleanupObject obj)
  let b := announceRemoval lib obj b
  b.mapReg (dropObject obj)

def createObject (cl : Nat) (attr : Attrs) (b : Bus) : Option Nat × Bus :=
  let (obj, rnd, reg) := allocObject lib attr b.rnd b.reg
  let b := { b with reg, rnd }
  match obj with
  | none => (none, b)
  | some obj =>
    match attr .objpath with
    | none => (some obj, b.mapReg (linkObject cl obj))
    | some objpath =>
      let key := lib.blobString objpath
      if ubusdAclCheck lib b.reg.acl.entries (some (b.reg.client cl).cred) (some key) none
          .publish ≠ 0 then (none, freeObject lib b obj)
      else
        match insertPath obj key b.reg with
        | none => (none, freeObject lib b obj)
        | some reg =>
          let b := sendObjEvent lib obj true { b with reg }
          (some obj, b.mapReg (linkObject cl obj))

/-! ### Messages of a client -/

def pong (cl : Nat) (hdr : Msghdr) (data : Payload) (b : Bus) : Ret × Bus :=
  (.done .ok, b.submit cl { hdr with type := MsgType.data.code } data)

/-- The type id in the answer to a removal: the type goes with its last object. -/
def removedType (reg : Registry) (obj : Nat) : List Put :=
  match (reg.object obj).type with
  | none => []
  | some type => if (reg.objType type).refcount = 1 then
      [Put.int32 .objtype (reg.objType type).id] else []

def handleRemoveObject (cl : Nat) (hdr : Msghdr) (data : Payload) (b : Bus) : Ret × Bus :=
  match ubusParseMsg lib data .objid with
  | none => (.done .invalidArgument, b)
  | some objid =>
    match ubusdFindObject b.reg (lib.blobGetU32 objid) with
    | none => (.done .notFound, b)
    | some obj =>
      if (b.reg.object obj).client ≠ some cl then (.done .permissionDenied, b)
      else
        let b := b.reply (some cl) hdr .data
          (.int32 .objid (b.reg.object obj).id :: removedType b.reg obj)
        (.done .ok, freeObject lib b obj)

/-- The type id in the answer to an addition: a new type is named. -/
def addedType (attr : Attrs) (reg : Registry) (obj : Nat) : List Put :=
  match attr .signature, (reg.object obj).type with
  | some _, some type => [Put.int32 .objtype (reg.objType type).id]
  | _, _ => []

def handleAddObject (cl : Nat) (hdr : Msghdr) (data : Payload) (b : Bus) : Ret × Bus :=
  match createObject lib cl (ubusParseMsg lib data) b with
  | (none, b) => (.done .invalidArgument, b)
  | (some obj, b) => (.done .ok, b.reply (some cl) hdr .data
      (.int32 .objid (b.reg.object obj).id :: addedType (ubusParseMsg lib data) b.reg obj))

def forwardInvoke (cl obj : Nat) (method : CString) (hdr : Msghdr) (data : Option Bytes)
    (puts : List Put) (b : Bus) : Bus :=
  b.reply (b.reg.object obj).client hdr .invoke
    (puts ++ invokePuts lib (b.reg.client cl).cred (b.reg.object obj).id method data)

def replyQuery (cl : Nat) (hdr : Msghdr) (data : Payload) (b : Bus) : Status × Bus :=
  match ubusParseMsg lib data .objid with
  | none => (.invalidArgument, b)
  | some objid =>
    match ubusdFindObject b.reg (lib.blobGetU32 objid) with
    | none => (.notFound, b)
    | some obj =>
      let acl := (b.reg.client cl).objects.flatMap fun obj =>
        ubusdReplyAdd b.reg.acl.entries (b.reg.object obj).path
      (.ok, b.reply (some cl) hdr .data
        [.int32 .objid (b.reg.object obj).id,
          .nest .data [.msgU32 (cstr "seq") b.reg.acl.seq, .msgArray (cstr "acl") acl]])

def monitorRecv (cl : Nat) (method : CString) (b : Bus) : Status × Bus :=
  let cred := (b.reg.client cl).cred
  if cred.uid ≠ 0 ∨ cred.gid ≠ 0 then (.permissionDenied, b)
  else if method = cstr "add" then (.ok, { b with monitors := b.monitors.erase cl ++ [cl] })
  else if method = cstr "remove" then (.ok, { b with monitors := b.monitors.erase cl })
  else (.methodNotFound, b)

/-- A call of a system object. -/
def recvMsg (recv : Option RecvMsg) (cl : Nat) (hdr : Msghdr) (data : Payload) (method : CString)
    (b : Bus) : Status × Bus :=
  match recv with
  | none => (.ok, b)
  | some .event => eventRecv lib cl method (ubusParseMsg lib data .data) b
  | some .acl => if method = cstr "query" then replyQuery lib cl hdr data b else (.invalidCommand, b)
  | some .monitor => monitorRecv cl method b

def handleInvoke (cl : Nat) (hdr : Msghdr) (data : Payload) (b : Bus) : Ret × Bus :=
  match ubusParseMsg lib data .method, ubusParseMsg lib data .objid with
  | some method, some objid =>
    match ubusdFindObject b.reg (lib.blobGetU32 objid) with
    | none => (.done .notFound, b)
    | some obj =>
      let method := lib.blobString method
      if ubusdAclCheck lib b.reg.acl.entries (some (b.reg.client cl).cred) (b.reg.object obj).path
          (some method) .access ≠ 0 then (.done .permissionDenied, b)
      else
        match (b.reg.object obj).client with
        | none =>
          let (status, b) := recvMsg lib (b.reg.object obj).recvMsg cl hdr data method b
          (.done status, b)
        | some _ => (.silent, forwardInvoke lib cl obj method { hdr with peer := (b.reg.client cl).id }
            (ubusParseMsg lib data .data) [] b)
  | _, _ => (.done .invalidArgument, b)

/-- The attribute `NO_REPLY` of a notification is set. -/
def noReply (data : Payload) : Bool :=
  (ubusParseMsg lib data .noReply).any fun value => lib.blobGetInt8 value ≠ 0

def notifyRound (cl : Nat) (hdr : Msghdr) (noReply : Bool) (method : CString) (data : Option Bytes)
    (b : Bus) (sub : Nat) : Bus :=
  forwardInvoke lib cl (b.reg.subscription sub).subscriber method hdr data
    (if noReply then [.int8 .noReply 1] else []) b

def handleNotify (cl : Nat) (hdr : Msghdr) (data : Payload) (b : Bus) : Ret × Bus :=
  match ubusParseMsg lib data .method, ubusParseMsg lib data .objid with
  | some method, some objid =>
    match ubusdFindObject b.reg (lib.blobGetU32 objid) with
    | none => (.done .notFound, b)
    | some obj =>
      if (b.reg.object obj).client ≠ some cl then (.done .permissionDenied, b)
      else
        let b := if noReply lib data then b else
          b.reply (some cl) hdr .status (notifyStatusPuts b.reg obj)
        (.silent, (b.reg.object obj).subscribers.foldl
          (notifyRound lib cl { hdr with peer := (b.reg.client cl).id } (noReply lib data)
            (lib.blobString method) (ubusParseMsg lib data .data)) b)
  | _, _ => (.done .invalidArgument, b)

def handleResponse (cl : Nat) (hdr : Msghdr) (data : Payload) (b : Bus) : Ret × Bus :=
  match ubusParseMsg lib data .objid with
  | none => (.silent, b)
  | some objid =>
    if !responseComplete hdr.type (ubusParseMsg lib data) then (.silent, b)
    else
      match ubusdFindObject b.reg (lib.blobGetU32 objid) with
      | none => (.silent, b)
      | some obj =>
        if (b.reg.object obj).client ≠ some cl then (.silent, b)
        else
          match b.reg.clients.find hdr.peer with
          | none => (.silent, b)
          | some caller =>
            (.silent, b.submit caller { hdr with peer := lib.blobGetU32 objid } data)

def handleAddWatch (cl : Nat) (data : Payload) (b : Bus) : Ret × Bus :=
  match ubusParseMsg lib data .objid, ubusParseMsg lib data .target with
  | some objid, some targetid =>
    match ubusdFindObject b.reg (lib.blobGetU32 objid) with
    | none => (.done .notFound, b)
    | some obj =>
      if (b.reg.object obj).client ≠ some cl then (.done .invalidArgument, b)
      else
        match ubusdFindObject b.reg (lib.blobGetU32 targetid) with
        | none => (.done .notFound, b)
        | some target =>
          match (b.reg.object target).client with
          | none => (.done .notFound, b)
          | some owner =>
            if owner = cl then (.done .invalidArgument, b)
            else if !mayWatch lib b.reg cl target owner then (.done .notFound, b)
            else (.done .ok, b.subscribe obj target)
  | _, _ => (.done .invalidArgument, b)

def handleRemoveWatch (cl : Nat) (data : Payload) (b : Bus) : Ret × Bus :=
  match ubusParseMsg lib data .objid, ubusParseMsg lib data .target with
  | some objid, some targetid =>
    match ubusdFindObject b.reg (lib.blobGetU32 objid) with
    | none => (.done .notFound, b)
    | some obj =>
      if (b.reg.object obj).client ≠ some cl then (.done .invalidArgument, b)
      else
        match (b.reg.object obj).targetList.find? fun sub =>
            (b.reg.object (b.reg.subscription sub).target).id = lib.blobGetU32 targetid with
        | none => (.done .notFound, b)
        | some sub => (.done .ok, b.unsubscribe sub)
  | _, _ => (.done .invalidArgument, b)

/-- One object of a lookup. -/
def sendObj (cl : Nat) (hdr : Msghdr) (b : Bus) (obj : Nat) : Bus :=
  match (b.reg.object obj).type with
  | none => b
  | some type =>
    let methods := visibleMethods lib b.reg cl (b.reg.object obj) (b.reg.objType type)
    if methods.isEmpty && !(b.reg.objType type).methods.isEmpty then b
    else b.reply (some cl) hdr .data (objPuts (b.reg.object obj) (b.reg.objType type) methods)

/-- The objects of a lookup, one after the other. -/
def sendObjs (cl : Nat) (hdr : Msghdr) (nodes : AvlTree CString) (b : Bus) : Bus :=
  nodes.foldl (fun b node => b.sendObj lib cl hdr node.2) b

/-- A lookup by a path, which may end in a wildcard. -/
def find (cl : Nat) (hdr : Msghdr) (objpath : CString) (b : Bus) : Status × Bus :=
  if objpath.isEmpty then (.invalidArgument, b)
  else if objpath.getLast? ≠ some 42 then
    match b.reg.path.find objpath with
    | none => (.notFound, b)
    | some obj => (.ok, b.sendObj lib cl hdr obj)
  else
    let found := (b.reg.path.findGe objpath.dropLast).takeWhile fun node =>
      objpath.dropLast.isPrefixOf node.1
    if found.isEmpty then (.notFound, b) else (.ok, b.sendObjs lib cl hdr found)

/-- How a lookup ends for now: it is finished, or it waits before a path. -/
inductive Outcome where
  | finished (status : Status)
  | waits (key : CString)

/-- **A lookup.** One without a path goes through the tree from the place where it last stopped, and may
stop before any object. -/
inductive Looks (cl : Nat) (hdr : Msghdr) (data : Payload) (start : Option CString) (b : Bus) :
    Outcome → Bus → Prop where
  | path {objpath : Bytes} (named : ubusParseMsg lib data .objpath = some objpath) :
      Looks cl hdr data start b (.finished (b.find lib cl hdr (lib.blobString objpath)).1)
        (b.find lib cl hdr (lib.blobString objpath)).2
  | full (unnamed : ubusParseMsg lib data .objpath = none) :
      Looks cl hdr data start b (.finished .ok) (b.sendObjs lib cl hdr (b.reg.pathsFrom start))
  | parked (unnamed : ubusParseMsg lib data .objpath = none) {sent rest : AvlTree CString}
      {key : CString} {obj : Nat} (split : b.reg.pathsFrom start = sent ++ (key, obj) :: rest) :
      Looks cl hdr data start b (.waits key) (b.sendObjs lib cl hdr sent)

/-- What is done for a message of a client that is not a lookup. -/
def handle (cl : Nat) (hdr : Msghdr) (data : Payload) (b : Bus) : Ret × Bus :=
  match MsgType.ofCode? hdr.type with
  | some .ping => pong cl hdr data b
  | some .addObject => handleAddObject lib cl hdr data b
  | some .removeObject => handleRemoveObject lib cl hdr data b
  | some .invoke => handleInvoke lib cl hdr data b
  | some .status => handleResponse lib cl hdr data b
  | some .data => handleResponse lib cl hdr data b
  | some .subscribe => handleAddWatch lib cl data b
  | some .unsubscribe => handleRemoveWatch lib cl data b
  | some .notify => handleNotify lib cl hdr data b
  | _ => (.done .invalidCommand, b)

/-- The letter with the status for a message. -/
def statusLetter (cause : Cause) (cl : Nat) (hdr : Msghdr) (code : Status) : Letter :=
  ⟨cause, cl, { type := MsgType.status.code, seq := hdr.seq, peer := hdr.peer },
    .built [.int32 .status code.code]⟩

/-- The status that ends a message. -/
def status (cl : Nat) (hdr : Msghdr) (status : Status) (b : Bus) : Bus :=
  b.reply (some cl) hdr .status [.int32 .status status.code]

/-- The status for what a handler returned. -/
def finish (cl : Nat) (hdr : Msghdr) (result : Ret × Bus) : Bus :=
  match result with
  | (.done code, b) => b.status cl hdr code
  | (_, b) => b

/-! ### Clients and access lists -/

/-- The registry with a new client. -/
def enlistClient (id : UInt32) (clients : AvlTree UInt32) (cred : Cred) (reg : Registry) : Registry :=
  { reg with clients, brk := reg.brk + 1 }.mapClient reg.brk fun _ => { id, cred }

def connect (cred : Option Cred) (b : Bus) : Bus :=
  let b := { b with cause := .connect b.reg.brk }
  match cred with
  | none => b
  | some cred =>
    match ubusAllocId b.reg.clients b.reg.brk b.rnd with
    | (none, rnd) => { b with rnd }
    | (some (id, clients), rnd) =>
      let cl := b.reg.brk
      let b := { b with reg := enlistClient id clients cred b.reg, rnd }
      b.submit cl { type := MsgType.hello.code, peer := (b.reg.client cl).id } (.built [])

def disconnect (cl : Nat) (b : Bus) : Bus :=
  let b := { b with cause := .disconnect cl, monitors := b.monitors.erase cl }
  let b := (b.reg.client cl).objects.foldl (freeObject lib) b
  b.mapReg fun reg => { reg with clients := reg.clients.delete cl }

def aclLoad (host : Host) (dir : Directory) (fault : Bool) (b : Bus) : Bus :=
  let b := { b with cause := .aclLoad }
  match glob dir fault with
  | none => b
  | some _ =>
    let b := b.mapReg fun reg => { reg with acl := ubusdAclLoad lib host dir fault reg.acl }
    (sendEvent lib none (cstr "ubus.acl.sequence")
      (sequenceEventMsg (cstr "ubus.acl.sequence") b.reg.acl.seq) b).2

/-- **A message of a client, other than a lookup.** -/
def answer (cl : Nat) (hdr : Msghdr) (data : Payload) (b : Bus) : Bus :=
  finish cl hdr (handle lib cl hdr data b)

end Bus

end Ubus
