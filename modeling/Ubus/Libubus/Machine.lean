/-
**The context as a machine** (`libubus.c`, `libubus-io.c`).

While a callback is on top of the stack, or the stack is empty, the application has control and does
one of its `Action`s; otherwise the library continues at the frame on top (`resume`). `Env` is what
the outside decides in that step.

* `getNextMsg`, `allocMsgBuf`: reading a message into the receive buffer.
* `step`, `Step`, `Reachable`, `run`: the machine.
-/

import Mathlib.Logic.Relation
import Ubus.Libubus.Object

namespace Ubus.Libubus

variable (lib : Libubox)

/-! ### Reading -/

/-- `UBUS_MSG_CHUNK_SIZE`. -/
def ubusMsgChunkSize : Nat := 65536

/-- `UBUS_MSGBUF_REDUCTION_INTERVAL`. -/
def ubusMsgbufReductionInterval : Nat := 16

/-- `realloc` of the receive buffer; the block that is left is freed. -/
def State.realloc (len : Nat) (s : State) : State :=
  let freed := match s.msgbufData with
    | none => s
    | some b => s.free b
  { freed with
    buf := Function.update freed.buf s.brk { cap := len, live := true }
    brk := s.brk + 1
    msgbufData := some s.brk
    msgbufDataLen := len }

/-- The first test of `alloc_msg_buf`: the buffer length it goes on with, and the counter. -/
def reduction (len bufLen counter : Nat) : Nat × Nat :=
  if len < bufLen then
    if counter + 1 > ubusMsgbufReductionInterval then (0, 0) else (bufLen, counter + 1)
  else (bufLen, counter)

/-- A length in whole chunks. -/
def chunked (len : Nat) : Nat := (len + (ubusMsgChunkSize - 1)) / ubusMsgChunkSize * ubusMsgChunkSize

/-- `alloc_msg_buf` once the length is in whole chunks. -/
def allocChunks (env : Env) (len : Nat) (s : State) : Bool × State :=
  let bufLen := if s.msgbufData.isNone then 0 else s.msgbufDataLen
  let reduced := reduction len bufLen s.msgbufReductionCounter
  let s := { s with msgbufReductionCounter := reduced.2 }
  if len ≤ reduced.1 then (true, s)
  else if env.alloc then (true, s.realloc len)
  else (false, s)

/-- `alloc_msg_buf`. -/
def allocMsgBuf (env : Env) (len : Nat) (s : State) : Bool × State :=
  allocChunks env (chunked len) s

/-- Read into the receive buffer. -/
def State.fill (hdr : Msghdr) (data : Bytes) (s : State) : State :=
  match s.msgbufData with
  | none => { s with fault := true }
  | some b =>
    { s.mapBuf b fun buf => { buf with content := data, gen := buf.gen + 1 } with msgbufHdr := hdr }

/-- `ubus_validate_hdr`. -/
def ubusValidateHdr (hdr : Msghdr) (data : Bytes) : Bool :=
  hdr.version == 0 && decide (4 ≤ Blob.rawLen data) &&
    decide (Blob.padded (Blob.rawLen data) ≤ ubusMaxMsglen)

/-- `get_next_msg` after a valid header; `whole` says that the rest of the message arrives. -/
def readMsg (env : Env) (hdr : Msghdr) (data : Bytes) (whole : Bool) (s : State) : Bool × State :=
  let allocated := allocMsgBuf env (Blob.rawLen data) s
  if !allocated.1 then (false, { allocated.2 with eof := true })
  else if whole then (true, (allocated.2.fill hdr data).log (.read hdr data))
  else (false, { allocated.2.fill hdr data with eof := true })

/-- `get_next_msg`, with the descriptor it received. -/
def getNextMsg (env : Env) (s : State) : Option Nat × Bool × State :=
  match env.recv with
  | .again => (none, false, s)
  | .failed fd => (fd, false, { s with eof := true })
  | .cut hdr data fd =>
    if ubusValidateHdr hdr data then (fd, readMsg env hdr data false s)
    else (fd, false, { s with eof := true })
  | .message hdr data fd =>
    if ubusValidateHdr hdr data && data.length == Blob.rawLen data then
      (fd, readMsg env hdr data true s)
    else (fd, false, { s with eof := true })

/-! ### Dispatch -/

/-- `ubus_queue_msg`. -/
def ubusQueueMsg (env : Env) (buf : MsghdrBuf) (s : State) : State :=
  if env.alloc then
    { s.copy (s.content buf) with pending := s.pending ++ [(s.hdr buf, s.brk)] }
  else s

/-- The case of `ubus_process_msg` for messages to objects. -/
def processObj (env : Env) (buf : MsghdrBuf) (fd : Option Nat) (s : State) : State :=
  if s.stackDepth ≠ 0 then (ubusQueueMsg env buf s).close fd
  else
    let s := { s with stackDepth := s.stackDepth + 1 }.push .leaveObjMsg
    ubusProcessObjMsg lib env buf fd s

/-- `ubus_process_msg`. -/
def ubusProcessMsg (env : Env) (buf : MsghdrBuf) (fd : Option Nat) (s : State) : State :=
  let type := (s.hdr buf).type
  if type = MsgType.status.code ∨ type = MsgType.data.code then
    ubusProcessReqMsg lib env buf fd s
  else if type = MsgType.unsubscribe.code ∨ type = MsgType.notify.code then
    if s.channel then s.close fd else processObj lib env buf fd s
  else if type = MsgType.invoke.code then processObj lib env buf fd s
  else if type = MsgType.monitor.code then
    match s.data buf with
    | some data =>
      if !s.channel && s.setup.monitorCb then
        (s.push (.closeFd fd)).call (.monitor (s.hdr buf).seq (s.ptr data))
      else s.close fd
    | none => s.close fd
  else s.close fd

/-- `ubus_process_pending_msg`. -/
def ubusProcessPendingMsg (s : State) : State :=
  match s.pending with
  | [] => s
  | (hdr, data) :: rest =>
    if s.stackDepth ≠ 0 then s
    else
      (({ s with pending := rest } : State).push (.pendingDone data)).push
        (.processMsg (.pending hdr data) none)

/-! ### The read loop -/

/-- `if (!ctx->stack_depth) ctx->pending_timer.cb(&ctx->pending_timer)`. -/
def pendingTimer (s : State) : State :=
  if s.stackDepth = 0 then s.push .processPendingMsg else s

/-- `ubus_handle_data` at its loop. -/
def ubusHandleData (s : State) : State := pendingTimer (s.push .handleRead)

/-- `ubus_handle_data` from `get_next_msg` on. -/
def handleRead (env : Env) (s : State) : State :=
  match getNextMsg env s with
  | (fd, true, s) => (s.push .handled).push (.processMsg .msgbuf fd)
  | (fd, false, s) => pendingTimer ((s.close fd).push .handleEnd)

/-- `ubus_handle_data` after `ubus_process_msg`. -/
def handled (env : Env) (s : State) : State :=
  if env.cancelling || s.cancelPoll then pendingTimer (s.push .handleEnd) else s.push .handleData

/-- The end of `ubus_handle_data`. -/
def handleEnd (s : State) : State :=
  if s.eof then (s.push .handleLost).push .flushRequests else s

/-! ### Steps -/

/-- What the application does. -/
inductive Action where
  | ret (value : UInt32)
  | setup (setup : Setup)
  /-- A request of any kind, with the callbacks that are set in it. -/
  | start (cbs : Callbacks) (msg : Payload) (cmd : MsgType) (peer : UInt32) (fd : Option Nat)
  | invokeAsync (cbs : Callbacks) (obj : UInt32) (method : CString) (msg : Bytes) (fd : Option Nat)
  | notifyAsync (cbs : Callbacks) (obj : UInt32) (type : CString) (msg : Bytes) (reply : Bool)
  | completeAsync (req : Nat)
  | complete (req : Nat) (timed : Bool)
  | abort (req : Nat)
  | flush
  | handleEvent
  /-- The timer of the pending messages. -/
  | timer
  /-- The socket part of `ubus_reconnect`. -/
  | reconnect
  | defer (rd : Nat)
  | setFd (rd : Nat) (fd : Option Nat)
  | getCallerFd (rd : Nat)
  | completeDeferred (rd : Nat) (ret : UInt32)
  | sendReply (rd : Nat) (msg : Bytes)

/-- An action; `ret` leaves the callback on top. -/
def act (env : Env) (action : Action) (s : State) : State :=
  match action with
  | .ret value => { s with stack := s.stack.tail, ret := value }
  | .setup setup => { s with setup }
  | .start cbs msg cmd peer fd =>
    started (ubusStartRequest lib env cbs.request msg cmd peer fd s)
  | .invokeAsync cbs obj method msg fd => ubusInvokeAsyncFd lib env cbs obj method msg fd s
  | .notifyAsync cbs obj type msg reply => ubusNotifyAsync lib env cbs obj type msg reply s
  | .completeAsync r => ubusCompleteRequestAsync r s
  | .complete r timed => ubusCompleteRequest r timed s
  | .abort r => ubusAbortRequest r s
  | .flush => s.push .flushRequests
  | .handleEvent => s.push .handleData
  | .timer => s.push .processPendingMsg
  | .reconnect => { s with eof := false }
  | .defer k => ubusDeferRequest k s
  | .setFd k fd => ubusRequestSetFd k fd s
  | .getCallerFd k => ubusRequestGetCallerFd k s
  | .completeDeferred k ret => ubusCompleteDeferredRequest lib env .other (s.rd k) ret s
  | .sendReply k msg => ubusSendReply lib env (s.rd k) msg s

/-- The library continues at a frame, which has left the stack. -/
def resume (env : Env) (frame : Frame) (s : State) : State :=
  match frame with
  | .app _ => s
  | .reqDataCb r type data => reqDataCb lib r type data s
  | .reqDataCbParse r type data => reqDataCbParse lib r type data s
  | .processReqData r => processReqDataLoop r ((s.req r).pending.head?.map Prod.snd) s
  | .drain r data tmp => processReqDataLoop r tmp (s.free data)
  | .setReqStatus r ret => ubusSetReqStatus r ret s
  | .processStatus r id buf => processStatus lib r id buf s
  | .closeFd fd => s.close fd
  | .notifyStatus r => notifyStatusEnd r s
  | .flushRequests => ubusFlushRequests s
  | .waitLoop r completeCb timed => waitLoop env r completeCb timed s
  | .waitPolled r completeCb timed => waitPolled r completeCb timed s
  | .waitEnd r completeCb lost =>
    waitEnd r completeCb { s with cancelPoll := lost || s.cancelPoll }
  | .waitCompleted r completeCb status => waitCompleted r completeCb status s
  | .waitReturn r _ status => { s with ret := status }.log (.returned r status)
  | .handleData => ubusHandleData s
  | .handleRead => handleRead env s
  | .handled => handled env s
  | .handleEnd => handleEnd s
  | .handleLost => s.call .connectionLost
  | .processMsg buf fd => ubusProcessMsg lib env buf fd s
  | .processPendingMsg => ubusProcessPendingMsg s
  | .pendingDone data => (s.free data).push .processPendingMsg
  | .leaveObjMsg => { s with stackDepth := s.stackDepth - 1 }
  | .restoreData prevData => restoreData prevData s
  | .preInvoked obj method k noReply => preInvoked lib env obj method k noReply s
  | .invoked k noReply => invoked lib env k noReply s

/-- The application has control. -/
def State.idle (s : State) : Bool :=
  match s.stack with
  | [] => true
  | .app _ :: _ => true
  | _ => false

/-- **One step.** -/
def step (env : Env) (action : Action) (s : State) : State :=
  match s.stack with
  | [] => act lib env action s
  | .app _ :: _ => act lib env action s
  | frame :: rest => resume lib env frame { s with stack := rest }

/-- A context after `ubus_connect` or `ubus_channel_connect`. -/
def init (channel : Bool) (setup : Setup) : State :=
  { channel
    setup
    msgbufData := some 0
    msgbufDataLen := ubusMsgChunkSize
    buf := Function.update (fun _ => {}) 0 { cap := ubusMsgChunkSize, live := true }
    brk := 1 }

def Step (s s' : State) : Prop := ∃ env action, s' = step lib env action s

/-- A state that a run of the context can come to. -/
def Reachable (s : State) : Prop :=
  ∃ channel setup, Relation.ReflTransGen (Step lib) (init channel setup) s

/-- Steps of the library in which nothing arrives. -/
def quietly (n : Nat) : List (Env × Action) := List.replicate n (⟨.again, false, false, true, true⟩, .ret 0)

/-- A step of the library in which a message arrives. -/
def receiving (hdr : Msghdr) (data : Bytes) (fd : Option Nat) : Env × Action :=
  (⟨.message hdr data fd, false, false, true, true⟩, .ret 0)

/-- A step of the application. -/
def doing (action : Action) : Env × Action := (⟨.again, false, false, true, true⟩, action)

/-- A run on given inputs. -/
def run : List (Env × Action) → State → State
  | [], s => s
  | (env, action) :: rest, s => run rest (step lib env action s)

end Ubus.Libubus
