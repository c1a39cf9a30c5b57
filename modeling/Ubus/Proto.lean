/-
**The protocol handlers** (`ubusd_proto.c`, and the receiving functions of the system objects in
`ubusd_acl.c` and `ubusd_monitor.c`).

A handler gets the client, the received buffer and its attributes, and returns what the source
returns: a status for the caller (`Ret.done`), `-1` (`silent`: no status is sent) or `-2` (`queued`:
the command waits in the command queue of the client).
-/

import Ubus.Obj

namespace Ubus

open Lib

/-- The return value of a handler. -/
inductive Ret where
  | done (status : Status)
  | silent
  | queued
deriving DecidableEq, Repr

variable (lib : Libubox)

/-! ### Replies -/

/-- `ubus_proto_send_msg_from_blob`, with what was put into the blob `b`: the new message takes the
descriptor of the received one. -/
def ubusProtoSendMsgFromBlob (cl : Option Nat) (ub : Nat) (type : MsgType) (puts : List Put)
    (s : State) : State :=
  let fd := (s.buf ub).fd
  match ubusMsgNew (.built puts) true s with
  | (none, s) => closeFd fd s
  | (some new, s) =>
    let s := s.mapBuf new fun buf => { buf with
      hdr := { type := type.code, seq := (s.buf ub).hdr.seq, peer := (s.buf ub).hdr.peer }, fd }
    ubusMsgFree new (ubusMsgSendTo lib cl new s)

/-- `ubusd_send_hello`. -/
def ubusdSendHello (cl : Nat) (s : State) : Bool × State :=
  match ubusMsgNew (.built []) true s with
  | (none, s) => (false, s)
  | (some ub, s) =>
    let s := s.mapHdr ub fun _ => { type := MsgType.hello.code, peer := (s.reg.client cl).id }
    (true, ubusMsgFree ub (ubusMsgSend lib cl ub s))

/-- `ubusd_send_pong`. -/
def ubusdSendPong (cl ub : Nat) (_attr : Attrs) (s : State) : Ret × State :=
  let s := s.mapHdr ub fun hdr => { hdr with type := MsgType.data.code }
  (.done .ok, ubusMsgSend lib cl ub s)

/-! ### Objects -/

/-- `ubusd_handle_remove_object`. -/
def ubusdHandleRemoveObject (cl ub : Nat) (attr : Attrs) (s : State) : Ret × State :=
  match attr .objid with
  | none => (.done .invalidArgument, s)
  | some objid =>
    match ubusdFindObject s.reg (lib.blobGetU32 objid) with
    | none => (.done .notFound, s)
    | some obj =>
      if (s.reg.object obj).client ≠ some cl then (.done .permissionDenied, s)
      else
        let objtype := match (s.reg.object obj).type with
          | none => []
          | some type => if (s.reg.objType type).refcount = 1 then
              [Put.int32 .objtype (s.reg.objType type).id] else []
        let s := ubusProtoSendMsgFromBlob lib (some cl) ub .data
          (.int32 .objid (s.reg.object obj).id :: objtype) s
        (.done .ok, ubusdFreeObject lib s obj)

/-- `ubusd_handle_add_object`. -/
def ubusdHandleAddObject (cl ub : Nat) (attr : Attrs) (s : State) : Ret × State :=
  match ubusdCreateObject lib cl attr s with
  | (none, s) => (.done .invalidArgument, s)
  | (some obj, s) =>
    let objtype := match attr .signature, (s.reg.object obj).type with
      | some _, some type => [Put.int32 .objtype (s.reg.objType type).id]
      | _, _ => []
    (.done .ok, ubusProtoSendMsgFromBlob lib (some cl) ub .data
      (.int32 .objid (s.reg.object obj).id :: objtype) s)

/-! ### Lookup -/

/-- The methods of a type that the client may call on this path. -/
def visibleMethods (reg : Registry) (cl : Nat) (obj : Object) (type : ObjType) : List Bytes :=
  type.methods.filter fun m => ubusdAclCheck lib reg.acl.entries (some (reg.client cl).cred) obj.path
    (some (lib.blobmsgName m)) .access = 0

/-- What `ubusd_send_obj` puts into the blob. -/
def objPuts (obj : Object) (type : ObjType) (methods : List Bytes) : List Put :=
  [.string .objpath (obj.path.getD []), .int32 .objid obj.id, .int32 .objtype type.id,
    .nest .signature (methods.map Put.addBlob)]

/-- `ubusd_send_obj`. -/
def ubusdSendObj (cl ub obj : Nat) (s : State) : State :=
  let s := s.log (.sendObj s.moment cl ub obj)
  match (s.reg.object obj).type with
  | none => s
  | some type =>
    let methods := visibleMethods lib s.reg cl (s.reg.object obj) (s.reg.objType type)
    if methods.isEmpty && !(s.reg.objType type).methods.isEmpty then s
    else ubusProtoSendMsgFromBlob lib (some cl) ub .data
      (objPuts (s.reg.object obj) (s.reg.objType type) methods) s

/-- `ubus_client_cmd_queue_add`. -/
def ubusClientCmdQueueAdd (cl msg : Nat) (lookupPath : Option CString) (s : State) : Ret × State :=
  (.queued, s.mapSock cl fun sock => { sock with cmdQueue := sock.cmdQueue ++ [{ msg, lookupPath }] })

/-- The command that is being resumed stays in the queue; its path is set anew. -/
def setLookupPath (cl : Nat) (key : CString) (s : State) : State :=
  s.mapSock cl fun sock => { sock with
    cmdQueue := sock.cmdQueue.modifyHead fun cmd => { cmd with lookupPath := some key } }

/-- The loop of a full lookup over the nodes of the path tree: objects are sent until the transmit
queue is no longer empty. `resumed` is whether the command is already queued. -/
def lookupLoop (cl ub : Nat) (resumed : Bool) : AvlTree CString → State → Ret × State
  | [], s => (.done .ok, s)
  | (key, obj) :: rest, s =>
    if (s.tx cl).txQueue.isEmpty then lookupLoop cl ub resumed rest (ubusdSendObj lib cl ub obj s)
    else if resumed then (.queued, setLookupPath cl key s)
    else ubusClientCmdQueueAdd cl ub (some key) s

/-- Where a full lookup starts: at the beginning, or at or after the saved path. -/
def lookupStart (reg : Registry) (cmd : Option ClientCmd) : AvlTree CString :=
  match cmd.bind ClientCmd.lookupPath with
  | some key => reg.path.findGe key
  | none => reg.path

/-- `__ubusd_handle_lookup`. -/
def handleLookup (cl ub : Nat) (attr : Attrs) (cmd : Option ClientCmd) (s : State) : Ret × State :=
  match attr .objpath with
  | none => lookupLoop lib cl ub cmd.isSome (lookupStart s.reg cmd) s
  | some objpath =>
    let objpath := lib.blobString objpath
    if objpath.isEmpty then (.done .invalidArgument, s)
    else if objpath.getLast? ≠ some 42 then
      match s.reg.path.find objpath with
      | none => (.done .notFound, s)
      | some obj => (.done .ok, ubusdSendObj lib cl ub obj s)
    else
      let found := (s.reg.path.findGe objpath.dropLast).takeWhile fun node =>
        objpath.dropLast.isPrefixOf node.1
      if found.isEmpty then (.done .notFound, s)
      else (.done .ok, found.foldl (fun s node => ubusdSendObj lib cl ub node.2 s) s)

/-- `ubusd_handle_lookup`. -/
def ubusdHandleLookup (cl ub : Nat) (attr : Attrs) (s : State) : Ret × State :=
  if (s.tx cl).txQueue.isEmpty then handleLookup lib cl ub attr none s
  else ubusClientCmdQueueAdd cl ub none s

/-- `*retmsg_data = htonl(ret); ubus_msg_send(cl, retmsg)`. -/
def sendStatus (cl : Nat) (status : Status) (s : State) : State :=
  match (s.sock cl).retmsg with
  | none => { s with fault := true }
  | some retmsg => ubusMsgSend lib cl retmsg
      (s.mapBuf retmsg fun buf => { buf with data := .built [.int32 .status status.code] })

/-- `retmsg->hdr.seq` and `retmsg->hdr.peer` are copied from a message. -/
def setRetmsg (cl ub : Nat) (s : State) : State :=
  match (s.sock cl).retmsg with
  | none => { s with fault := true }
  | some retmsg => s.mapHdr retmsg fun hdr => { hdr with
      seq := (s.buf ub).hdr.seq, peer := (s.buf ub).hdr.peer }

/-- `ubusd_cmd_lookup`. -/
def ubusdCmdLookup (cl : Nat) (cmd : ClientCmd) (s : State) : Ret × State :=
  let ub := cmd.msg
  match handleLookup lib cl ub (ubusParseMsg lib (s.buf ub).data) (some cmd) s with
  | (.done status, s) => (.done status, sendStatus lib cl status (setRetmsg cl ub s))
  | (ret, s) => (ret, s)

/-! ### Invoke and notify -/

/-- What `ubusd_forward_invoke` appends to the blob. -/
def invokePuts (cred : Cred) (objid : UInt32) (method : CString) (data : Option Bytes) : List Put :=
  [.int32 .objid objid, .string .method method] ++
    (cred.user.map (Put.string .user)).toList ++ (cred.group.map (Put.string .group)).toList ++
    (data.map fun data => Put.blob .data (lib.blobData data)).toList

/-- `ubusd_forward_invoke`, with what is already in the blob. -/
def ubusdForwardInvoke (cl obj : Nat) (method : CString) (ub : Nat) (data : Option Bytes)
    (puts : List Put) (s : State) : State :=
  ubusProtoSendMsgFromBlob lib (s.reg.object obj).client ub .invoke
    (puts ++ invokePuts lib (s.reg.client cl).cred (s.reg.object obj).id method data) s

/-- `ubusd_reply_query`. -/
def ubusdReplyQuery (cl ub : Nat) (attr : Attrs) (s : State) : Status × State :=
  match attr .objid with
  | none => (.invalidArgument, s)
  | some objid =>
    match ubusdFindObject s.reg (lib.blobGetU32 objid) with
    | none => (.notFound, s)
    | some obj =>
      let acl := (s.reg.client cl).objects.flatMap fun obj =>
        ubusdReplyAdd s.reg.acl.entries (s.reg.object obj).path
      (.ok, ubusProtoSendMsgFromBlob lib (some cl) ub .data
        [.int32 .objid (s.reg.object obj).id,
          .nest .data [.msgU32 (cstr "seq") s.reg.acl.seq, .msgArray (cstr "acl") acl]] s)

/-- `ubusd_acl_recv`. -/
def ubusdAclRecv (cl ub : Nat) (method : CString) (s : State) : Status × State :=
  if method = cstr "query" then ubusdReplyQuery lib cl ub (ubusParseMsg lib (s.buf ub).data) s
  else (.invalidCommand, s)

/-- `ubusd_monitor_recv`. -/
def ubusdMonitorRecv (cl : Nat) (method : CString) (s : State) : Status × State :=
  let cred := (s.reg.client cl).cred
  if cred.uid ≠ 0 ∨ cred.gid ≠ 0 then (.permissionDenied, s)
  else if method = cstr "add" then (.ok, ubusdMonitorConnect cl s)
  else if method = cstr "remove" then (.ok, ubusdMonitorDisconnect cl s)
  else (.methodNotFound, s)

/-- `obj->recv_msg(cl, ub, method, attr[UBUS_ATTR_DATA])`. -/
def recvMsg (recv : Option RecvMsg) (cl ub : Nat) (method : CString) (data : Option Bytes)
    (s : State) : Status × State :=
  match recv with
  | none => (.ok, { s with fault := true })
  | some .event => ubusdEventRecv lib cl method data s
  | some .acl => ubusdAclRecv lib cl ub method s
  | some .monitor => ubusdMonitorRecv cl method s

/-- `ubusd_handle_invoke`. -/
def ubusdHandleInvoke (cl ub : Nat) (attr : Attrs) (s : State) : Ret × State :=
  match attr .method, attr .objid with
  | some method, some objid =>
    match ubusdFindObject s.reg (lib.blobGetU32 objid) with
    | none => (.done .notFound, s)
    | some obj =>
      let method := lib.blobString method
      if ubusdAclCheck lib s.reg.acl.entries (some (s.reg.client cl).cred) (s.reg.object obj).path
          (some method) .access ≠ 0 then (.done .permissionDenied, s)
      else
        match (s.reg.object obj).client with
        | none =>
          let (status, s) := recvMsg lib (s.reg.object obj).recvMsg cl ub method (attr .data) s
          (.done status, s)
        | some _ =>
          let s := s.mapHdr ub fun hdr => { hdr with peer := (s.reg.client cl).id }
          let s := ubusdForwardInvoke lib cl obj method ub (attr .data) [] s
          (.silent, s.mapBuf ub fun buf => { buf with fd := none })
  | _, _ => (.done .invalidArgument, s)

/-- The `UBUS_MSG_STATUS` that answers a notification: the ids of the subscribers, and status `0`. -/
def notifyStatusPuts (reg : Registry) (obj : Nat) : List Put :=
  [.int32 .objid (reg.object obj).id,
    .nest .subscribers ((reg.object obj).subscribers.map fun sub =>
      .int32 .unspec (reg.object (reg.subscription sub).subscriber).id),
    .int32 .status 0]

/-- One round of the loop of `ubusd_handle_notify`. -/
def notifyRound (cl ub : Nat) (noReply : Bool) (method : CString) (data : Option Bytes) (s : State)
    (sub : Nat) : State :=
  ubusdForwardInvoke lib cl (s.reg.subscription sub).subscriber method ub data
    (if noReply then [.int8 .noReply 1] else []) s

/-- `ubusd_handle_notify`. -/
def ubusdHandleNotify (cl ub : Nat) (attr : Attrs) (s : State) : Ret × State :=
  match attr .method, attr .objid with
  | some method, some objid =>
    let noReply := (attr .noReply).any fun value => lib.blobGetInt8 value ≠ 0
    match ubusdFindObject s.reg (lib.blobGetU32 objid) with
    | none => (.done .notFound, s)
    | some obj =>
      if (s.reg.object obj).client ≠ some cl then (.done .permissionDenied, s)
      else
        let s := if noReply then s else
          ubusProtoSendMsgFromBlob lib (some cl) ub .status (notifyStatusPuts s.reg obj) s
        let s := s.mapHdr ub fun hdr => { hdr with peer := (s.reg.client cl).id }
        (.silent, (s.reg.object obj).subscribers.foldl
          (notifyRound lib cl ub noReply (lib.blobString method) (attr .data)) s)
  | _, _ => (.done .invalidArgument, s)

/-! ### Responses -/

/-- The attributes that `ubusd_handle_response` asks for. -/
def responseComplete (type : UInt8) (attr : Attrs) : Bool :=
  !((type = MsgType.status.code && (attr .status).isNone) ||
    (type = MsgType.data.code && (attr .data).isNone))

/-- `ubusd_handle_response`. -/
def ubusdHandleResponse (cl ub : Nat) (attr : Attrs) (s : State) : Ret × State :=
  match attr .objid with
  | none => (.silent, s)
  | some objid =>
    if !responseComplete (s.buf ub).hdr.type attr then (.silent, s)
    else
      match ubusdFindObject s.reg (lib.blobGetU32 objid) with
      | none => (.silent, s)
      | some obj =>
        if (s.reg.object obj).client ≠ some cl then (.silent, s)
        else
          match s.reg.clients.find (s.buf ub).hdr.peer with
          | none => (.silent, s)
          | some caller =>
            let s := s.mapHdr ub fun hdr => { hdr with peer := lib.blobGetU32 objid }
            (.silent, ubusMsgSend lib caller ub s)

/-! ### Subscriptions -/

/-- Two optional names are both set and equal. -/
def sameName (first second : Option CString) : Bool := first.isSome && first = second

/-- The client may watch this target: by name for a target without a path, by the access lists
otherwise. -/
def mayWatch (reg : Registry) (cl target owner : Nat) : Bool :=
  match (reg.object target).path with
  | none => sameName (reg.client owner).cred.user (reg.client cl).cred.user ||
      sameName (reg.client owner).cred.group (reg.client cl).cred.group
  | some path => ubusdAclCheck lib reg.acl.entries (some (reg.client cl).cred) (some path) none
      .subscribe = 0

/-- `ubusd_handle_add_watch`. -/
def ubusdHandleAddWatch (cl _ub : Nat) (attr : Attrs) (s : State) : Ret × State :=
  match attr .objid, attr .target with
  | some objid, some targetid =>
    match ubusdFindObject s.reg (lib.blobGetU32 objid) with
    | none => (.done .notFound, s)
    | some obj =>
      if (s.reg.object obj).client ≠ some cl then (.done .invalidArgument, s)
      else
        match ubusdFindObject s.reg (lib.blobGetU32 targetid) with
        | none => (.done .notFound, s)
        | some target =>
          match (s.reg.object target).client with
          | none => (.done .notFound, s)
          | some owner =>
            if owner = cl then (.done .invalidArgument, s)
            else if !mayWatch lib s.reg cl target owner then (.done .notFound, s)
            else
              let (status, s) := ubusSubscribe lib obj target s
              (.done status, s)
  | _, _ => (.done .invalidArgument, s)

/-- `ubusd_handle_remove_watch`. -/
def ubusdHandleRemoveWatch (cl _ub : Nat) (attr : Attrs) (s : State) : Ret × State :=
  match attr .objid, attr .target with
  | some objid, some targetid =>
    match ubusdFindObject s.reg (lib.blobGetU32 objid) with
    | none => (.done .notFound, s)
    | some obj =>
      if (s.reg.object obj).client ≠ some cl then (.done .invalidArgument, s)
      else
        match (s.reg.object obj).targetList.find? fun sub =>
            (s.reg.object (s.reg.subscription sub).target).id = lib.blobGetU32 targetid with
        | none => (.done .notFound, s)
        | some sub => (.done .ok, ubusUnsubscribe lib s sub)
  | _, _ => (.done .invalidArgument, s)

/-! ### Dispatch -/

/-- A message type from its byte. -/
def MsgType.ofCode? (code : UInt8) : Option MsgType :=
  [.hello, .status, .data, .ping, .lookup, .invoke, .addObject, .removeObject, .subscribe,
    .unsubscribe, .notify, .monitor].find? fun type => type.code = code

/-- The table `handlers`. -/
def handlers : MsgType → Option (Nat → Nat → Attrs → State → Ret × State)
  | .ping => some (ubusdSendPong lib)
  | .addObject => some (ubusdHandleAddObject lib)
  | .removeObject => some (ubusdHandleRemoveObject lib)
  | .lookup => some (ubusdHandleLookup lib)
  | .invoke => some (ubusdHandleInvoke lib)
  | .status => some (ubusdHandleResponse lib)
  | .data => some (ubusdHandleResponse lib)
  | .subscribe => some (ubusdHandleAddWatch lib)
  | .unsubscribe => some (ubusdHandleRemoveWatch lib)
  | .notify => some (ubusdHandleNotify lib)
  | .hello => none
  | .monitor => none

/-- Only `UBUS_MSG_STATUS` and `UBUS_MSG_INVOKE` keep a descriptor that came with the message. -/
def dropFd (ub : Nat) (s : State) : State :=
  if (s.buf ub).hdr.type ≠ MsgType.status.code ∧ (s.buf ub).hdr.type ≠ MsgType.invoke.code then
    ubusMsgCloseFd ub s
  else s

/-- The callback of a message type, or `UBUS_STATUS_INVALID_COMMAND`. -/
def dispatch (cl ub : Nat) (s : State) : Ret × State :=
  match (MsgType.ofCode? (s.buf ub).hdr.type).bind (handlers lib) with
  | some cb => cb cl ub (ubusParseMsg lib (s.buf ub).data) s
  | none => (.done .invalidCommand, s)

/-- The end of `ubusd_proto_receive_message`: the buffer is freed and the status sent. -/
def finish (cl ub : Nat) (ret : Ret) (s : State) : State :=
  match ret with
  | .queued => s
  | .silent => ubusMsgFree ub s
  | .done status => sendStatus lib cl status (ubusMsgFree ub s)

/-- `ubusd_proto_receive_message`. -/
def ubusdProtoReceiveMessage (cl ub : Nat) (s : State) : State :=
  let s := dropFd ub (setRetmsg cl ub s)
  let (ret, s) := dispatch lib cl ub s
  finish lib cl ub ret s

end Ubus
