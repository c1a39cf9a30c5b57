/-
**Messages to objects** (`libubus-obj.c`, and the inline functions of `libubus.h` on a
`struct ubus_request_data`).

* `ubusProcessInvoke`: an answer goes out from the label `send` (`sendAnswer`), with whatever the
  request structure holds by then. `preInvoked` and `invoked` are the function after its two calls of
  the application; the arguments of the second one are read from the static array after the first.
* `ubusProcessObjMsg`: the receive buffer is detached while the message is worked on and put back
  afterwards, unless a new one was allocated (`restoreData`).
-/

import Ubus.Libubus.Request

namespace Ubus.Libubus

variable (lib : Libubox)

/-! ### The application's view of a call -/

/-- `ubus_defer_request`; the copy is at `s.brk`. -/
def ubusDeferRequest (k : Nat) (s : State) : State :=
  { s with rd := Function.update s.rd s.brk (s.rd k), brk := s.brk + 1 }.mapRd k
    fun req => { req with deferred := true }

/-- `ubus_request_set_fd`. -/
def ubusRequestSetFd (k : Nat) (fd : Option Nat) (s : State) : State :=
  s.mapRd k fun req => { req with fd }

/-- `ubus_request_get_caller_fd`. -/
def ubusRequestGetCallerFd (k : Nat) (s : State) : State :=
  let taken := s.mapRd k fun req => { req with reqFd := none }
  match (s.rd k).reqFd with
  | none => taken
  | some fd => taken.log (.handed fd)

/-! ### Invocations -/

/-- `ubus_object_find_method`. -/
def ubusObjectFindMethod (obj : Object) (name : CString) : Option Nat :=
  obj.methods.findIdx? fun method => method.isNone || method == some name

/-- `ubus_process_invoke` from `send` on. -/
def sendAnswer (env : Env) (k : Nat) (ret : UInt32) (s : State) : State :=
  let s := s.close (s.rd k).reqFd
  ubusCompleteDeferredRequest lib env (.invoke k) (s.rd k) ret s

/-- `ubus_process_invoke` after the handler. -/
def invoked (env : Env) (k : Nat) (noReply : Bool) (s : State) : State :=
  if (s.rd k).deferred || noReply then s.close (s.rd k).reqFd
  else sendAnswer lib env k s.ret s

/-- The call of the handler. -/
def callHandler (obj method : Option Nat) (k : Nat) (noReply : Bool) (s : State) : State :=
  (s.push (.invoked k noReply)).call
    (.handler obj method k (s.attrbuf .method) (s.attrbuf .data))

/-- `ubus_process_invoke` after `pre_invoke`. -/
def preInvoked (env : Env) (obj method : Nat) (k : Nat) (noReply : Bool) (s : State) : State :=
  if s.ret = 0 then callHandler (some obj) (some method) k noReply s
  else invoked lib env k noReply s

/-- `ubus_process_invoke` from `found` on. -/
def invokeFound (env : Env) (obj : Option Nat) (method : Option Nat) (k : Nat) (noReply : Bool)
    (s : State) : State :=
  match s.attrbuf .data with
  | none => sendAnswer lib env k Status.invalidArgument.code s
  | some data =>
    match obj, method with
    | some obj, some method =>
      if s.setup.preInvoke then
        (s.push (.preInvoked obj method k noReply)).call (.preInvoke obj method k data)
      else callHandler (some obj) (some method) k noReply s
    | _, _ => callHandler obj method k noReply s

/-- `ubus_process_invoke`; its request structure is at `s.brk`. -/
def ubusProcessInvoke (env : Env) (hdr : Msghdr) (obj : Option Nat) (fd : Option Nat)
    (s : State) : State :=
  let k := s.brk
  let s := { s with rd := Function.update s.rd k { reqFd := fd }, brk := k + 1 }
  if (obj.isNone && !s.channel) || (!s.setup.requestHandler && s.channel) then
    sendAnswer lib env k Status.notFound.code s
  else
    match s.attrbuf .method with
    | none => sendAnswer lib env k Status.invalidArgument.code s
    | some name =>
      let noReply :=
        match s.attrbuf .noReply with
        | none => false
        | some attr => lib.blobGetInt8 attr.bytes != 0
      let s := s.mapRd k fun req => { req with peer := hdr.peer, seq := hdr.seq }
      if s.channel then invokeFound lib env obj none k noReply s
      else
        match obj with
        | none => s
        | some o =>
          let acl :=
            match s.attrbuf .user, s.attrbuf .group with
            | some user, some group => some (user, group)
            | _, _ => none
          let s := s.mapRd k fun req => { req with object := (s.setup.object o).id, acl }
          match ubusObjectFindMethod (s.setup.object o) (lib.blobString name.bytes) with
          | none => sendAnswer lib env k Status.methodNotFound.code s
          | some method => invokeFound lib env obj (some method) k noReply s

/-! ### Subscriptions -/

/-- `ubus_process_unsubscribe`. -/
def ubusProcessUnsubscribe (obj : Option Nat) (fd : Option Nat) (s : State) : State :=
  let s := s.close fd
  match obj, s.attrbuf .target with
  | some o, some target =>
    if (s.setup.object o).watch && (s.setup.object o).removeCb then
      s.call (.remove o (lib.blobGetU32 target.bytes))
    else s
  | _, _ => s

/-- `ubus_process_notify`. -/
def ubusProcessNotify (obj : Option Nat) (fd : Option Nat) (s : State) : State :=
  let s := s.close fd
  match obj, s.attrbuf .active with
  | some o, some active =>
    let object := Function.update s.setup.object o
      { s.setup.object o with hasSubscribers := lib.blobGetInt8 active.bytes != 0 }
    let s := { s with setup := { s.setup with object } }
    if (s.setup.object o).subscribeCb then s.call (.subscribe o) else s
  | _, _ => s

/-! ### Dispatch -/

/-- The end of `ubus_process_obj_msg`. -/
def restoreData (prevData : Nat) (s : State) : State :=
  match s.msgbufData with
  | some _ => s.free prevData
  | none => { s with msgbufData := some prevData }

/-- `buf->data = NULL` for the context's own buffer. -/
def detachData (buf : MsghdrBuf) (s : State) : State :=
  match buf, s.msgbufData with
  | .msgbuf, some prevData => { s with msgbufData := none }.push (.restoreData prevData)
  | _, _ => s

/-- `avl_find_element` in `ctx->objects`. -/
def State.findObject (s : State) (id : UInt32) : Option Nat :=
  (s.setup.objects.find? fun entry => entry.1 = id).map Prod.snd

/-- `ubus_process_obj_msg`. -/
def ubusProcessObjMsg (env : Env) (buf : MsghdrBuf) (fd : Option Nat) (s : State) : State :=
  let hdr := s.hdr buf
  let content := s.content buf
  let s := (ubusParseMsg lib (s.data buf) s).log (.dispatched hdr content)
  match s.attrbuf .objid with
  | none => s.close fd
  | some attr =>
    let obj := s.findObject (lib.blobGetU32 attr.bytes)
    if hdr.type = MsgType.invoke.code then
      let s := detachData buf s
      ubusProcessInvoke lib env hdr obj fd (s.log (.invoke s.brk hdr content))
    else if hdr.type = MsgType.unsubscribe.code then
      ubusProcessUnsubscribe lib obj fd (detachData buf s)
    else if hdr.type = MsgType.notify.code then
      ubusProcessNotify lib obj fd (detachData buf s)
    else s.close fd

end Ubus.Libubus
