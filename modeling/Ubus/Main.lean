/-
**Clients and the event loop** (`ubusd_main.c`, and the life of a client in `ubusd_proto.c`).

* `ubusdProtoNewClient`, `handleClientDisconnect` — a client comes and goes.
* `Input`, `step`, `run` — the daemon reacts to one input of the event loop after another, from the
  state `State.init` that the constructors leave.
-/

import Ubus.Proto

namespace Ubus

open Lib

variable (lib : Libubox)

/-! ### Clients -/

/-- `ubusd_proto_init_retmsg`. -/
def ubusdProtoInitRetmsg (cl : Nat) (s : State) : Bool × State :=
  match ubusMsgNew (.built [.int32 .status 0]) true s with
  | (none, s) => (false, s)
  | (some retmsg, s) =>
    let s := s.mapHdr retmsg fun hdr => { hdr with type := MsgType.status.code }
    (true, s.mapSock cl fun sock => { sock with retmsg := some retmsg })

/-- `ubus_msg_free(cl->retmsg)`. -/
def freeRetmsg (cl : Nat) (s : State) : State :=
  match (s.sock cl).retmsg with
  | none => s
  | some retmsg => ubusMsgFree retmsg (s.mapSock cl fun sock => { sock with retmsg := none })

/-- `ubus_free_id(&clients, &cl->id)`. -/
def freeClientId (cl : Nat) (s : State) : State :=
  s.mapReg fun reg => { reg with clients := reg.clients.delete cl }

/-- `free(cl)`. -/
def freeSock (cl : Nat) (s : State) : State :=
  { s with net := { s.net with socks := s.net.socks.erase cl } }

/-- The first half of `ubusd_proto_new_client`: the client has an id and a socket. -/
def admitClient (id : UInt32) (clients : AvlTree UInt32) (cred : Cred) (s : State) : State :=
  let cl := s.reg.brk
  let reg := { s.reg with clients, brk := cl + 1 }
  let s := { s with reg := reg.mapClient cl fun _ => { id, cred } }
  let s := { s with net := { s.net with socks := cl :: s.net.socks } }
  s.mapSock cl fun _ => {}

/-- The second half: the client gets its status message and the hello, or is given up. The socket of
an accepted client is then registered for reading, in `get_next_connection`. -/
def greetClient (cl : Nat) (s : State) : State :=
  match ubusdProtoInitRetmsg cl s with
  | (false, s) => freeSock cl (freeClientId cl s)
  | (true, s) =>
    match ubusdSendHello lib cl s with
    | (false, s) => freeSock cl (freeClientId cl (freeRetmsg cl s))
    | (true, s) => s.mapTx cl fun tx => { tx with writeInterest := false }

/-- `ubusd_proto_new_client`. `cred` is what `ubusd_acl_init_client` finds out. -/
def ubusdProtoNewClient (cred : Option Cred) (s : State) : State :=
  match cred with
  | none => s
  | some cred =>
    match ubusAllocId s.reg.clients s.reg.brk s.rnd with
    | (none, rnd) => { s with rnd }
    | (some (id, clients), rnd) =>
      greetClient lib s.reg.brk (admitClient id clients cred { s with rnd })

/-- `ubusd_proto_free_client`, up to the end of the client's id. -/
def ubusdProtoFreeClient (cl : Nat) (s : State) : State :=
  let s := (s.reg.client cl).objects.foldl (ubusdFreeObject lib) s
  freeClientId cl (freeRetmsg cl s)

/-- `ubus_client_cmd_free` for the first command of the queue. -/
def ubusClientCmdFree (cl : Nat) (s : State) (cmd : ClientCmd) : State :=
  ubusMsgFree cmd.msg (s.mapSock cl fun sock => { sock with cmdQueue := sock.cmdQueue.tail })

/-- `ubus_msg_list_free` for the first message of the transmit queue. -/
def ubusMsgListFree (cl : Nat) (s : State) (ub : Nat) : State :=
  ubusMsgFree ub (s.mapTx cl fun tx => { tx with txQueue := tx.txQueue.tail })

/-- A descriptor and a message that are only partly received go with the client. -/
def dropPending (cl : Nat) (s : State) : State :=
  let rx := s.rx cl
  let s := closeFd rx.pendingMsgFd (s.mapRx cl fun rx => { rx with
    pendingMsgFd := none, pendingMsg := none })
  match rx.pendingMsg with
  | none => s
  | some ub => ubusMsgFree ub s

/-- `handle_client_disconnect`. -/
def handleClientDisconnect (cl : Nat) (s : State) : State :=
  let s := { s with cause := .disconnect cl }
  let s := (s.sock cl).cmdQueue.foldl (ubusClientCmdFree cl) s
  let s := ubusdMonitorDisconnect cl s
  let s := ubusdProtoFreeClient lib cl s
  let s := (s.tx cl).txQueue.foldl (ubusMsgListFree cl) s
  freeSock cl (dropPending cl s)

/-! ### The socket callback -/

/-- Bytes of the first message of the queue are sent; it is freed with its last byte. -/
def txAdvance (cl ub written : Nat) (s : State) : State :=
  let s := s.mapTx cl fun tx => { tx with
    txqOfs := tx.txqOfs + written, txqLen := tx.txqLen - written }
  if (s.tx cl).txqOfs < (s.buf ub).size lib then s
  else ubusMsgListFree cl (s.mapTx cl fun tx => { tx with txqOfs := 0 }) ub

/-- The first loop of `client_cb`: send what is queued. The second component is `goto disconnect`. -/
def txDrain (cl : Nat) : List WriteOutcome → State → State × Bool
  | [], s => (s, false)
  | out :: outs, s =>
    match (s.tx cl).txQueue with
    | [] => (s, false)
    | ub :: _ =>
      match ubusMsgWritev lib cl ub (s.tx cl).txqOfs out s with
      | (none, s) => (s, out = .error)
      | (some written, s) => txDrain cl outs (txAdvance lib cl ub written s)

/-- One round of `ubus_client_cmd_queue_process`; whether the loop goes on. -/
def resumeCmd (cl : Nat) (cmd : ClientCmd) (s : State) : State × Bool :=
  let s := { s with cause := .resume cl cmd.msg (s.buf cmd.msg).hdr (s.buf cmd.msg).data }
  match ubusdCmdLookup lib cl cmd s with
  | (.queued, s) => (s, false)
  | (_, s) => (ubusClientCmdFree cl s cmd, true)

/-- `ubus_client_cmd_queue_process`: resume the queued lookups until one of them is queued again. -/
def cmdQueueProcess (cl : Nat) : List ClientCmd → State → State
  | [], s => s
  | cmd :: rest, s =>
    match resumeCmd lib cl cmd s with
    | (s, true) => cmdQueueProcess cl rest s
    | (s, false) => s

/-- The middle of `client_cb`: with an empty transmit queue and a write event, queued commands run,
and write events are turned off again when nothing was queued. -/
def processQueued (cl : Nat) (s : State) : State :=
  if (s.tx cl).txQueue.isEmpty then
    let s := cmdQueueProcess lib cl (s.sock cl).cmdQueue s
    if (s.tx cl).txQueue.isEmpty then
      s.mapTx cl fun tx => { tx with writeInterest := false }
    else s
  else s

/-- `blob_raw_len` of a blob header. -/
def blobRawLen (bytes : Bytes) : Nat :=
  ((bytes.take 4).foldl (fun acc byte => acc * 256 + byte.toNat) 0) % 2 ^ 24

/-- `blob_pad_len`, from the raw length. -/
def blobPadLen (rawLen : Nat) : Nat := (rawLen + 3) / 4 * 4

/-- The header in host order. -/
def parseHdr : Bytes → Msghdr
  | version :: type :: s1 :: s0 :: p3 :: p2 :: p1 :: p0 :: _ =>
    { version, type
      seq := s1.toUInt16 <<< 8 ||| s0.toUInt16
      peer := p3.toUInt32 <<< 24 ||| p2.toUInt32 <<< 16 ||| p1.toUInt32 <<< 8 ||| p0.toUInt32 }
  | _ => {}

/-- The result of one `recvmsg` or `read`: `EAGAIN`, or `extra + 1` bytes cut to what is asked for
and what is there; `recvmsg` may bring a descriptor. -/
inductive ReadOutcome where
  | again
  | got (extra : Nat) (fd : Bool)
deriving DecidableEq, Repr

/-- How the receive loop of `client_cb` ends or goes on. -/
inductive Recv where
  | retry
  | out
  | disconnect
deriving DecidableEq, Repr

/-- Bytes move from the socket to the daemon. -/
def takeBytes (cl count : Nat) (s : State) : Bytes × State :=
  let bytes := (s.rx cl).inbox.take count
  (bytes, s.mapRx cl fun rx => { rx with
    inbox := rx.inbox.drop count, consumed := rx.consumed ++ bytes })

/-- A descriptor is only asked for while none is pending. -/
def recvFd (cl : Nat) (fd : Bool) (s : State) : State :=
  if fd && (s.rx cl).pendingMsgFd.isNone then
    let s := s.mapRx cl fun rx => { rx with pendingMsgFd := some s.net.fdBrk }
    { s with net := { s.net with fdBrk := s.net.fdBrk + 1 } }
  else s

/-- A complete header: check the length and make the message buffer. -/
def headerDone (cl : Nat) (s : State) : Recv × State :=
  let hdrbuf := (s.rx cl).hdrbuf
  let rawLen := blobRawLen (hdrbuf.drop 8)
  if rawLen < 4 then (.disconnect, s)
  else if blobPadLen rawLen > ubusMaxMsglen then (.disconnect, s)
  else
    match ubusMsgNew (.received (hdrbuf.drop 8)) false s with
    | (none, s) => (.disconnect, s)
    | (some ub, s) =>
      let s := s.mapHdr ub fun _ => parseHdr hdrbuf
      (.retry, s.mapRx cl fun rx => { rx with pendingMsg := some ub })

/-- The part of `client_cb` that reads a header. -/
def recvHeader (cl : Nat) (out : ReadOutcome) (s : State) : Recv × State :=
  match out with
  | .again => (.out, s)
  | .got extra fd =>
    let offset := (s.rx cl).pendingMsgOffset
    let (bytes, s) := takeBytes cl (min (extra + 1) (12 - offset)) s
    let s := recvFd cl fd s
    let s := s.mapRx cl fun rx => { rx with
      hdrbuf := rx.hdrbuf.take offset ++ bytes, pendingMsgOffset := offset + bytes.length }
    if (s.rx cl).pendingMsgOffset < 12 then (.out, s) else headerDone cl s

/-- What is missing of the payload of a pending message. -/
def bodyLeft (cl ub : Nat) (s : State) : Nat :=
  blobRawLen ((s.buf ub).data.bytes lib) - ((s.rx cl).pendingMsgOffset - 8)

/-- A complete message is taken from the receive buffer, with the descriptor that came with it. -/
def takeMessage (cl ub : Nat) (s : State) : State :=
  let fd := (s.rx cl).pendingMsgFd
  let s := s.mapBuf ub fun buf => { buf with fd }
  let s := s.mapRx cl fun rx => { rx with
    pendingMsgFd := none, pendingMsgOffset := 0, pendingMsg := none }
  let s := { s with cause := .message cl ub (s.buf ub).hdr (s.buf ub).data }
  s.log (.accept s.moment cl ub (s.buf ub).hdr (s.buf ub).data fd)

/-- A complete message is reported to the monitors and handled. -/
def acceptMessage (cl ub : Nat) (s : State) : State :=
  let s := ubusdMonitorMessage lib cl ub false (takeMessage cl ub s)
  ubusdProtoReceiveMessage lib cl ub s

/-- The part of `client_cb` that reads a payload of which something is missing. -/
def recvBody (cl ub : Nat) (out : ReadOutcome) (s : State) : Recv × State :=
  match out with
  | .again => (.out, s)
  | .got extra _ =>
    let len := bodyLeft lib cl ub s
    let (bytes, s) := takeBytes cl (min (extra + 1) len) s
    if bytes.isEmpty then (.out, s)
    else
      let s := s.mapBuf ub fun buf => { buf with
        data := .received (buf.data.bytes lib ++ bytes) }
      if bytes.length < len then
        (.out, s.mapRx cl fun rx => { rx with
          pendingMsgOffset := rx.pendingMsgOffset + bytes.length })
      else (.retry, acceptMessage lib cl ub s)

/-- A pending message without a missing byte is accepted without a `read`. -/
def acceptComplete (cl : Nat) (s : State) : State :=
  match (s.rx cl).pendingMsg with
  | none => s
  | some ub => if bodyLeft lib cl ub s = 0 then acceptMessage lib cl ub s else s

/-- One system call of the receive loop. -/
def recvStep (cl : Nat) (out : ReadOutcome) (s : State) : Recv × State :=
  match (s.rx cl).pendingMsg with
  | some ub => recvBody lib cl ub out s
  | none =>
    if !(s.tx cl).eof && (s.rx cl).pendingMsgOffset < 12 then recvHeader cl out s else (.out, s)

/-- The receive loop of `client_cb`, from the label `retry` on. -/
def recvLoop (cl : Nat) : List ReadOutcome → State → State × Bool
  | [], s => (acceptComplete lib cl s, false)
  | out :: outs, s =>
    match recvStep lib cl out (acceptComplete lib cl s) with
    | (.retry, s) => recvLoop cl outs s
    | (.out, s) => (s, false)
    | (.disconnect, s) => (s, true)

/-- The label `out`: the client stays unless its stream has ended and nothing is left to send. -/
def endCb (cl : Nat) (s : State) : State :=
  if !(s.tx cl).eof || !(s.tx cl).txQueue.isEmpty then s else handleClientDisconnect lib cl s

/-- `client_cb`. -/
def clientCb (cl : Nat) (write : Bool) (outs : List WriteOutcome) (reads : List ReadOutcome)
    (s : State) : State :=
  match txDrain lib cl outs s with
  | (s, true) => handleClientDisconnect lib cl s
  | (s, false) =>
    let s := if write then processQueued lib cl s else s
    match recvLoop lib cl reads s with
    | (s, true) => handleClientDisconnect lib cl s
    | (s, false) => endCb lib cl s

/-! ### Runs -/

/-- What the event loop reports. -/
inductive Action where
  /-- A connection is accepted. -/
  | connect (cred : Option Cred)
  /-- The socket of a client has an event: bytes have arrived, the peer may have closed it, and
  `sendmsg`, `recvmsg` and `read` behave as listed. -/
  | client (cl : Nat) (write hup : Bool) (arrived : Bytes) (outs : List WriteOutcome)
      (reads : List ReadOutcome)
  /-- `SIGHUP`, or the load at start-up. -/
  | aclLoad (host : Host) (dir : Directory) (fault : Bool)

/-- An action, and what the outside decides while it is handled. -/
structure Input where
  action : Action
  writes : List WriteOutcome := []
  allocs : List Bool := []
  rnd : List UInt32 := []

/-- `ubusd_acl_load`, with the event it sends. -/
def aclLoadAndAnnounce (host : Host) (dir : Directory) (fault : Bool) (s : State) : State :=
  let s := { s with cause := .aclLoad }
  match glob dir fault with
  | none => s
  | some _ =>
    let s := s.mapReg fun reg => { reg with acl := ubusdAclLoad lib host dir fault reg.acl }
    (ubusdSendEvent lib none (cstr "ubus.acl.sequence")
      (sequenceEventMsg (cstr "ubus.acl.sequence") s.reg.acl.seq) s).2

/-- One action. An event for a socket that is not registered does not happen. -/
def act (action : Action) (s : State) : State :=
  match action with
  | .connect cred => ubusdProtoNewClient lib cred { s with cause := .connect s.reg.brk }
  | .client cl write hup arrived outs reads =>
    if s.reg.HasClient cl then
      let s := s.mapRx cl fun rx => { rx with inbox := rx.inbox ++ arrived }
      let s := s.mapTx cl fun tx => { tx with eof := tx.eof || hup }
      clientCb lib cl write outs reads s
    else s
  | .aclLoad host dir fault => aclLoadAndAnnounce lib host dir fault s

def step (s : State) (input : Input) : State :=
  act lib input.action
    { s with writes := input.writes, allocs := input.allocs, rnd := input.rnd, cause := .idle }

def run (inputs : List Input) (s : State) : State := inputs.foldl (step lib) s

/-- `ubusd_create_object_internal(NULL, id)` for a system object. -/
def systemObject (id : UInt32) (recv : RecvMsg) (reg : Registry) : Registry :=
  let obj := reg.brk
  let reg := { reg with objects := reg.objects.insert id obj, brk := obj + 1 }
  reg.mapObject obj fun _ => { id, recvMsg := some recv }

/-- The registry that the constructors leave: the event, ACL and monitor objects. -/
def Registry.init : Registry :=
  systemObject ubusSystemObjectMonitor .monitor
    (systemObject ubusSystemObjectAcl .acl (systemObject ubusSystemObjectEvent .event {}))

def State.init : State := { reg := Registry.init }

end Ubus
