/-
**Requests** (`libubus-req.c`, with `ubus_parse_msg` and `ubus_send_msg` of `libubus-io.c`).

Every definition is the part of a function up to the next call that can reach the application: it
pushes the frame that control returns to, and then the call. `ubusReqCompleteCb`, `runCompleteCb`:
`complete_cb` is cleared before it is called, except at the end of `ubus_complete_request`.

* `ubusStartRequest`, `ubusNotifyAsync`, `ubusCompleteRequestAsync`, `ubusAbortRequest`,
  `ubusCompleteRequest`: what the application calls.
* `ubusProcessReqMsg`: a status or data message, credited to the request `ubusFindRequest` returns.
-/

import Ubus.Libubus.Context

namespace Ubus.Libubus

variable (lib : Libubox)

/-! ### Parsing and sending -/

/-- `ubus_parse_msg`: the result is the one static array. -/
def ubusParseMsg (data : Option Nat) (s : State) : State :=
  match data with
  | none =>
    { s with
      attrbuf := fun id => (lib.blobParse [] id).map fun bytes => ⟨0, 0, bytes⟩
      fault := true }
  | some b =>
    { s with
      attrbuf := fun id =>
        (lib.blobParse (s.buf b).content id).map fun bytes => ⟨b, (s.buf b).gen, bytes⟩
      fault := s.fault || !(s.buf b).live }

theorem parseMsg_attrbuf (buf : MsghdrBuf) (s t : State) (same : t.buf = s.buf) (id : UbusAttr) :
    ((ubusParseMsg lib (s.data buf) t).attrbuf id).map Ptr.bytes = lib.blobParse (s.content buf) id := by
  unfold State.content
  cases s.data buf with
  | none => simp [ubusParseMsg, Function.comp_def]
  | some b => simp [ubusParseMsg, same, Function.comp_def]

/-- A copy of a message in a block of its own, at `s.brk`. -/
def State.copy (bytes : Bytes) (s : State) : State :=
  { s with
    buf := Function.update s.buf s.brk { cap := bytes.length, content := bytes, live := true }
    brk := s.brk + 1 }

/-- `ubus_send_msg`. -/
def ubusSendMsg (env : Env) (sender : Sender) (seq : UInt16) (msg : Payload) (cmd : MsgType)
    (peer : UInt32) (fd : Option Nat) (s : State) : Bool × State :=
  if Blob.padded (msg.len lib) > ubusMaxMsglen then
    (false, (s.log (.sent sender cmd seq peer msg false)).close fd)
  else
    let s := (s.log (.sent sender cmd seq peer msg env.written)).close fd
    (env.written, { s with eof := s.eof || !env.written })

/-! ### Starting a request -/

/-- `__ubus_start_request`. The fields the caller sets after it are given in `req`. -/
def ubusStartRequest (env : Env) (req : Request) (msg : Payload) (cmd : MsgType) (peer : UInt32)
    (fd : Option Nat) (s : State) : Bool × State :=
  let started := { s with brk := s.brk + 1 }
  if Blob.padded (msg.len lib) > ubusMaxMsglen then (false, started.close fd)
  else
    let seq := s.requestSeq + 1
    let started :=
      { started with
        requestSeq := seq
        req := Function.update s.req s.brk { req with peer := peer, seq := seq } }
    ubusSendMsg lib env .other seq msg cmd peer fd started

/-- What a function that starts a request returns. -/
def started (result : Bool × State) : State :=
  { result.2 with ret := if result.1 then Status.ok.code else Status.invalidArgument.code }

/-- The callbacks the application sets in a request. -/
structure Callbacks where
  rawDataCb : Bool := false
  dataCb : Bool := false
  fdCb : Bool := false
  completeCb : Bool := false
  notifyStatusCb : Bool := false

/-- The request of `ubus_start_request` or `ubus_invoke_async_fd`. -/
def Callbacks.request (cbs : Callbacks) : Request :=
  { rawDataCb := cbs.rawDataCb
    dataCb := cbs.dataCb
    fdCb := cbs.fdCb
    completeCb := if cbs.completeCb then .user else .null }

/-- The request of `__ubus_notify_async`. -/
def Callbacks.notifyRequest (cbs : Callbacks) (obj : UInt32) : Request :=
  { notify := true
    rawDataCb := cbs.rawDataCb
    dataCb := true
    fdCb := cbs.fdCb
    completeCb := .notify
    notifyStatusCb := cbs.notifyStatusCb
    notifyCompleteCb := cbs.completeCb
    notifyDataCb := cbs.dataCb
    notifyPending := 1
    notifyId := Function.update (fun _ => 0) 0 obj }

/-- `ubus_invoke_async_fd`. -/
def ubusInvokeAsyncFd (env : Env) (cbs : Callbacks) (obj : UInt32) (method : CString) (msg : Bytes)
    (fd : Option Nat) (s : State) : State :=
  started (ubusStartRequest lib env cbs.request
    (.built [.int32 .objid obj, .string .method method, .blob .data msg]) .invoke obj fd s)

/-- `__ubus_notify_async`. -/
def ubusNotifyAsync (env : Env) (cbs : Callbacks) (obj : UInt32) (type : CString) (msg : Bytes)
    (reply : Bool) (s : State) : State :=
  if s.channel then { s with ret := Status.invalidArgument.code }
  else
    started (ubusStartRequest lib env (cbs.notifyRequest obj)
      (.built ([.int32 .objid obj, .string .method type, .blob .data msg] ++
        if reply then [] else [.int8 .noReply 1])) .notify obj none s)

/-- `ubus_complete_request_async`. -/
def ubusCompleteRequestAsync (r : Nat) (s : State) : State :=
  if r ∈ s.requests then s else { s with requests := r :: s.requests }

/-- `list_del_init`. -/
def unlink (r : Nat) (requests : List Nat) : List Nat := requests.filter fun other => other ≠ r

theorem mem_unlink {r other : Nat} {requests : List Nat} :
    other ∈ unlink r requests ↔ other ∈ requests ∧ other ≠ r := by
  simp [unlink]

/-- `ubus_abort_request`; the list is emptied by `__ubus_process_req_data` of a cancelled request. -/
def ubusAbortRequest (r : Nat) (s : State) : State :=
  if r ∉ s.requests then s
  else
    let freed := (s.req r).pending.foldl (fun s entry => s.free entry.2) s
    { freed.mapReq r fun req => { req with cancelled := true, pending := [] } with
      requests := unlink r s.requests }

theorem freeAll_eq (entries : List (UInt8 × Nat)) (s : State) :
    entries.foldl (fun s entry => s.free entry.2) s = { s with
      buf := fun b => if b ∈ entries.map Prod.snd then { s.buf b with live := false } else s.buf b } := by
  induction entries generalizing s with
  | nil => rfl
  | cons entry rest ih =>
    rw [List.foldl_cons, ih]
    refine congrArg (fun buf => { s with buf }) (funext fun b => ?_)
    have listed : b ∈ (entry :: rest).map Prod.snd ↔ b = entry.2 ∨ b ∈ rest.map Prod.snd := by
      rw [List.map_cons, List.mem_cons]
    simp only [State.free, State.mapBuf, listed]
    by_cases same : b = entry.2
    · subst same
      simp
    · rw [Function.update_of_ne same]
      simp only [same, false_or]

/-! ### Completion -/

/-- `ubus_sync_req_cb`. -/
def ubusSyncReqCb (r : Nat) (ret : UInt32) (s : State) : State :=
  { s.mapReq r fun req => { req with statusMsg := true, statusCode := ret } with cancelPoll := true }

/-- Call a completion callback. -/
def runCompleteCb (cb : CompleteCb) (r : Nat) (ret : UInt32) (s : State) : State :=
  match cb with
  | .null => s
  | .sync => ubusSyncReqCb r ret s
  | .user => (s.log (.completed r ret)).call (.complete r ret)
  | .notify =>
    -- `ubus_notify_complete_cb`
    let s := s.log (.completed r ret)
    if (s.req r).notifyCompleteCb then s.call (.notifyComplete r) else s

/-- `ubus_req_complete_cb`. -/
def ubusReqCompleteCb (r : Nat) (s : State) : State :=
  runCompleteCb (s.req r).completeCb r (s.req r).statusCode
    (s.mapReq r fun req => { req with completeCb := .null })

/-- `ubus_set_req_status` up to its last test. -/
def markStatus (r : Nat) (ret : UInt32) (s : State) : State :=
  ({ s with requests := unlink r s.requests } : State).mapReq r fun req =>
    { req with statusMsg := true, statusCode := ret }

/-- `ubus_set_req_status`. -/
def ubusSetReqStatus (r : Nat) (ret : UInt32) (s : State) : State :=
  let s := markStatus r ret s
  if (s.req r).blocked then s else ubusReqCompleteCb r s

/-- `ubus_flush_requests`. -/
def ubusFlushRequests (s : State) : State :=
  match s.requests with
  | [] => s
  | r :: _ => (s.push .flushRequests).push (.setReqStatus r Status.timeout.code)

/-! ### Waiting for a request -/

/-- `ubus_poll_data`. -/
def ubusPollData (s : State) : State := { s with cancelPoll := false }.push .handleData

/-- `ubus_complete_request`, up to its loop. -/
def ubusCompleteRequest (r : Nat) (timed : Bool) (s : State) : State :=
  let s := (ubusCompleteRequestAsync r s).push (.waitLoop r (s.req r).completeCb timed)
  let s := s.mapReq r fun req => { req with completeCb := .sync }
  { s with stackDepth := s.stackDepth + 1 }

/-- The status that `ubus_complete_request` returns. -/
def waitStatus (r : Nat) (s : State) : UInt32 :=
  if (s.req r).statusMsg then (s.req r).statusCode else Status.noData.code

/-- `ubus_complete_request` after its loop, up to the callback. -/
def waitLower (r : Nat) (completeCb : CompleteCb) (s : State) : State :=
  let depth := s.stackDepth - 1
  let s := s.mapReq r fun req => { req with completeCb }
  { s with stackDepth := depth, cancelPoll := if depth ≠ 0 then true else s.cancelPoll }

/-- `ubus_complete_request` after its loop. -/
def waitEnd (r : Nat) (completeCb : CompleteCb) (s : State) : State :=
  let status := waitStatus r s
  runCompleteCb completeCb r status
    ((waitLower r completeCb s).push (.waitCompleted r completeCb status))

/-- The loop of `ubus_complete_request`. -/
def waitLoop (env : Env) (r : Nat) (completeCb : CompleteCb) (timed : Bool) (s : State) : State :=
  if (s.req r).statusMsg then waitEnd r completeCb s
  else if timed && env.expired then
    (s.push (.waitEnd r completeCb false)).push (.setReqStatus r Status.timeout.code)
  else ubusPollData (s.push (.waitPolled r completeCb timed))

/-- The loop after `ubus_poll_data`. -/
def waitPolled (r : Nat) (completeCb : CompleteCb) (timed : Bool) (s : State) : State :=
  if s.eof then
    (s.push (.waitEnd r completeCb true)).push (.setReqStatus r Status.connectionFailed.code)
  else s.push (.waitLoop r completeCb timed)

/-- The end of `ubus_complete_request` after `complete_cb`. -/
def waitCompleted (r : Nat) (completeCb : CompleteCb) (status : UInt32) (s : State) : State :=
  let s := s.push (.waitReturn r completeCb status)
  if s.stackDepth = 0 && !s.setup.registered then s.push .processPendingMsg else s

/-! ### Replies to a call -/

/-- `ubus_complete_deferred_request`. -/
def ubusCompleteDeferredRequest (env : Env) (sender : Sender) (req : RequestData) (ret : UInt32)
    (s : State) : State :=
  (ubusSendMsg lib env sender req.seq
    (.built [.int32 .status ret, .int32 .objid req.object]) .status req.peer req.fd s).2

/-- `ubus_send_reply`. -/
def ubusSendReply (env : Env) (req : RequestData) (msg : Bytes) (s : State) : State :=
  let result := ubusSendMsg lib env .other req.seq
    (.built [.int32 .objid req.object, .blob .data msg]) .data req.peer none s
  { result.2 with ret := if result.1 then Status.ok.code else Status.noData.code }

/-! ### Data -/

/-- `req_data_cb` after `raw_data_cb`. -/
def reqDataCbParse (r : Nat) (type : UInt8) (data : Nat) (s : State) : State :=
  if !(s.req r).dataCb then s
  else
    let s := ubusParseMsg lib (some data) s
    match s.attrbuf .data with
    | none => s
    | some attr =>
      -- `ubus_notify_data_cb`
      if (s.req r).notify && !(s.req r).notifyDataCb then s else s.call (.data r type attr)

/-- `req_data_cb`. -/
def reqDataCb (r : Nat) (type : UInt8) (data : Nat) (s : State) : State :=
  if (s.req r).rawDataCb then
    (s.push (.reqDataCbParse r type data)).call (.rawData r type (s.ptr data))
  else reqDataCbParse lib r type data s

def unblock (r : Nat) (s : State) : State := s.mapReq r fun req => { req with blocked := false }

/-- The end of `ubus_process_req_data`. -/
def processReqDataEnd (r : Nat) (s : State) : State :=
  let s := unblock r s
  if (s.req r).statusMsg then ubusReqCompleteCb r s else s

/-- The `next` of an entry. -/
def nextEntry (data : Nat) (entries : List (UInt8 × Nat)) : Option Nat :=
  ((entries.dropWhile fun entry => entry.2 ≠ data).drop 1).head?.map Prod.snd

/-- `__ubus_process_req_data` at a list entry, and the end of `ubus_process_req_data`. -/
def processReqDataLoop (r : Nat) (entry : Option Nat) (s : State) : State :=
  match entry with
  | none => processReqDataEnd r s
  | some data =>
    match (s.req r).pending.find? fun entry => entry.2 = data with
    | none => { s with fault := true }
    | some (type, _) =>
      let taken := s.mapReq r fun req =>
        { req with pending := req.pending.filter fun entry => entry.2 ≠ data }
      let s := taken.push (.drain r data (nextEntry data (s.req r).pending))
      if (s.req r).cancelled then s else s.push (.reqDataCb r type data)

/-- `ubus_process_req_data`. -/
def ubusProcessReqData (env : Env) (r : Nat) (buf : MsghdrBuf) (s : State) : State :=
  match s.data buf with
  | none => { s with fault := true }
  | some data =>
    let type := (s.hdr buf).type
    let content := (s.buf data).content
    if !(s.req r).blocked then
      let s := s.mapReq r fun req => { req with blocked := true }
      let s := s.log (.gotData r type content)
      (s.push (.processReqData r)).push (.reqDataCb r type data)
    else if env.alloc then
      let s := s.log (.gotData r type content)
      (s.copy content).mapReq r fun req => { req with pending := (type, s.brk) :: req.pending }
    else s

/-! ### Status messages -/

/-- The value of a `STATUS` attribute, as `ubus_get_status` leaves it. -/
def statusOf (s : State) (ret : UInt32) : UInt32 :=
  match s.attrbuf .status with
  | none => ret
  | some attr => lib.blobGetU32 attr.bytes

/-- `ubus_process_req_status`. -/
def ubusProcessReqStatus (r : Nat) (buf : MsghdrBuf) (s : State) : State :=
  let s := ubusParseMsg lib (s.data buf) s
  let s := s.mapReq r fun req => { req with peer := (s.hdr buf).peer }
  s.push (.setReqStatus r (statusOf lib s Status.invalidArgument.code))

/-- The loop of `ubus_find_notify_id`; the mask has 32 bits. -/
def findNotifyId (id : Nat → UInt32) (objid : UInt32) : Nat → Nat → BitVec 32 → Option Nat
  | 0, _, _ => none
  | fuel + 1, i, pending =>
    if pending = 0 then none
    else if pending &&& 1 ≠ 0 ∧ id i = objid then some i
    else findNotifyId id objid fuel (i + 1) (pending >>> 1)

/-- `ubus_find_notify_id`. -/
def ubusFindNotifyId (n : Request) (objid : UInt32) : Option Nat :=
  findNotifyId n.notifyId objid 32 0 n.notifyPending

/-- A request matches a message: the slot of a notification, or `none` for another request. -/
def Request.matches (req : Request) (seq : UInt16) (peer : UInt32) : Option (Option Nat) :=
  if seq ≠ req.seq then none
  else if req.notify then
    if req.notifyPending = 0 then none else (ubusFindNotifyId req peer).map some
  else if peer ≠ req.peer then none
  else some none

/-- `ubus_find_request`: the request, and the slot of a notification. -/
def ubusFindRequest (s : State) (seq : UInt16) (peer : UInt32) : Option (Nat × Option Nat) :=
  s.requests.findSome? fun r => ((s.req r).matches seq peer).map fun id => (r, id)

/-- The loop of `ubus_process_notify_status` over the subscribers. -/
def addPeers : Nat → List Bytes → Request → Request
  | _, [], n => n
  | idx, cur :: rest, n =>
    if (lib.blobData cur).length ≠ 4 then addPeers idx rest n
    else
      let n :=
        { n with
          notifyPending := n.notifyPending ||| (1#32 <<< idx)
          notifyId := Function.update n.notifyId idx (lib.blobGetU32 cur) }
      if idx + 1 = ubusMaxNotifyPeers + 1 then n else addPeers (idx + 1) rest n

/-- The end of `ubus_process_notify_status`. -/
def notifyStatusEnd (r : Nat) (s : State) : State :=
  if (s.req r).notifyPending = 0 then s.push (.setReqStatus r Status.ok.code) else s

/-- The subscribers in a message that was parsed. -/
def subscribersOf (s : State) : List Bytes :=
  match s.attrbuf .subscribers with
  | none => []
  | some attr => lib.blobForEachAttr attr.bytes

/-- `ubus_process_notify_status` up to its loop or `status_cb`. -/
def notifyParsed (r : Nat) (id : Nat) (buf : MsghdrBuf) (s : State) : State :=
  let cleared := s.mapReq r fun n =>
    { n with notifyPending := n.notifyPending &&& ~~~(1#32 <<< id) }
  (ubusParseMsg lib (s.data buf) cleared).log (.notified r id (s.content buf))

/-- `ubus_process_notify_status`. -/
def ubusProcessNotifyStatus (r : Nat) (id : Nat) (buf : MsghdrBuf) (s : State) : State :=
  let s := notifyParsed lib r id buf s
  if id = 0 then
    notifyStatusEnd r (s.mapReq r (addPeers lib 1 (subscribersOf lib s)))
  else if (s.req r).notifyStatusCb then
    (s.push (.notifyStatus r)).call (.notifyStatus r id (statusOf lib s Status.ok.code))
  else notifyStatusEnd r s

/-- `ubus_process_req_msg` once `fd_cb` is done. -/
def processStatus (r : Nat) (id : Option Nat) (buf : MsghdrBuf) (s : State) : State :=
  match id with
  | some id => ubusProcessNotifyStatus lib r id buf s
  | none => ubusProcessReqStatus lib r buf s

/-- `ubus_process_req_msg`. -/
def ubusProcessReqMsg (env : Env) (buf : MsghdrBuf) (fd : Option Nat) (s : State) : State :=
  let hdr := s.hdr buf
  match ubusFindRequest s hdr.seq hdr.peer with
  | none => s.close fd
  | some (r, id) =>
    if hdr.type = MsgType.status.code then
      match fd with
      | some sock =>
        if (s.req r).fdCb then
          ((s.push (.processStatus r id buf)).log (.handed sock)).call (.fd r sock)
        else processStatus lib r id buf (s.push (.closeFd fd))
      | none => processStatus lib r id buf s
    else if (s.req r).dataCb || (s.req r).rawDataCb then
      ubusProcessReqData env r buf (s.push (.closeFd fd))
    else s.close fd

end Ubus.Libubus
