/-
**Message buffers and the transmit path** (`ubusd.c`, `ubusd_monitor.c`).

* `ubusMsgWritev` — one `sendmsg` at an offset into header and payload.
* `ubusMsgSend` — write directly when nothing is queued, queue the rest; every message is reported
  to the monitors first (`ubusdMonitorMessage`).
-/

import Ubus.State

namespace Ubus

/-! ### Buffers -/

/-- A new buffer at the next address. -/
def allocBuf (data : Payload) (shared : Bool) (s : State) : State :=
  let s' := s.mapBuf s.net.brk fun _ =>
    { refcount := if shared then .external else .count 1, data, live := true }
  { s' with net := { s'.net with brk := s.net.brk + 1 } }

/-- `ubus_msg_new`. -/
def ubusMsgNew (data : Payload) (shared : Bool) (s : State) : Option Nat × State :=
  match s.calloc with
  | (false, s) => (none, s)
  | (true, s) => (some s.net.brk, allocBuf data shared s)

/-- The copy of an external buffer gets its header and takes over its descriptor. -/
def moveToCopy (ub new : Nat) (s : State) : State :=
  (s.mapBuf new fun buf => { buf with hdr := (s.buf ub).hdr, fd := (s.buf ub).fd }).mapBuf ub
    fun buf => { buf with fd := none }

/-- `ubus_msg_ref`. -/
def ubusMsgRef (ub : Nat) (s : State) : Option Nat × State :=
  match (s.buf ub).refcount with
  | .external =>
    match ubusMsgNew (s.buf ub).data false s with
    | (none, s) => (none, s)
    | (some new, s) => (some new, moveToCopy ub new s)
  | .count n => (some ub, s.mapBuf ub fun buf => { buf with refcount := .count (n + 1) })

/-- `close(fd)` where there is one. -/
def closeFd (fd : Option Nat) (s : State) : State :=
  match fd with
  | none => s
  | some fd => s.close fd

/-- The last reference: close the descriptor and free the buffer. -/
def msgRelease (ub : Nat) (s : State) : State :=
  (closeFd (s.buf ub).fd s).mapBuf ub fun buf => { buf with live := false }

/-- `ubus_msg_free`. -/
def ubusMsgFree (ub : Nat) (s : State) : State :=
  match (s.buf ub).refcount with
  | .external => msgRelease ub s
  | .count 1 => msgRelease ub s
  | .count n => s.mapBuf ub fun buf => { buf with refcount := .count (n - 1) }

/-- `ubus_msg_close_fd`. -/
def ubusMsgCloseFd (ub : Nat) (s : State) : State :=
  (closeFd (s.buf ub).fd s).mapBuf ub fun buf => { buf with fd := none }

variable (lib : Libubox)

/-! ### Writing -/

/-- The bytes `ubus_msg_writev` offers from an offset on: the rest of the header and the payload, or
the rest of the payload. -/
def msgIov (buf : MsgBuf) (offset : Nat) : Bytes :=
  if offset < 8 then buf.hdr.bytes.drop offset ++ buf.data.bytes lib
  else (buf.data.bytes lib).drop (offset - 8)

/-- `ub->len + sizeof(ub->hdr)`. -/
def MsgBuf.size (buf : MsgBuf) : Nat := buf.data.len lib + 8

/-- `ubus_msg_writev` with the result of its `sendmsg`; `none` is a negative return. -/
def ubusMsgWritev (cl ub offset : Nat) (out : WriteOutcome) (s : State) : Option Nat × State :=
  match out with
  | .again => (none, s)
  | .error => (none, s)
  | .sent extra =>
    let iov := msgIov lib (s.buf ub) offset
    let written := min (extra + 1) iov.length
    (some written, s.mapTx cl fun tx => { tx with wire := tx.wire ++ iov.take written })

/-- The sum that `ubus_msg_enqueue` compares with the limit, in `size_t`. -/
def txqTotal (txqLen : Int) (buf : MsgBuf) : Int := (txqLen + buf.size lib) % 2 ^ 64

/-- `ubus_msg_enqueue`. -/
def ubusMsgEnqueue (cl ub : Nat) (s : State) : Bool × State :=
  if txqTotal lib (s.tx cl).txqLen (s.buf ub) > ubusClientMaxTxqLen then (false, s)
  else
    match s.calloc with
    | (false, s) => (false, s)
    | (true, s) =>
      match ubusMsgRef ub s with
      | (none, s) => (false, s)
      | (some msg, s) => (true, s.mapTx cl fun tx => { tx with
          txQueue := tx.txQueue ++ [msg], txqLen := tx.txqLen + (s.buf ub).size lib })

/-- Queue a message; one that is already partly written and cannot be queued ends the stream. -/
def enqueueRest (cl ub : Nat) (started : Bool) (s : State) : State :=
  match ubusMsgEnqueue lib cl ub s with
  | (true, s) => s
  | (false, s) => if started then s.mapTx cl fun tx => { tx with eof := true } else s

/-- `ubus_msg_send` from the test of the transmit queue on. -/
def transmit (cl ub : Nat) (s : State) : State :=
  if (s.tx cl).txQueue.isEmpty then
    let (out, s) := s.nextWrite
    let (ret, s) := ubusMsgWritev lib cl ub 0 out s
    let written := ret.getD 0
    if written ≥ (s.buf ub).size lib then s
    else
      let s := s.mapTx cl fun tx => { tx with
        txqOfs := written, txqLen := -(written : Int), writeInterest := true }
      enqueueRest lib cl ub (0 < written) s
  else enqueueRest lib cl ub false s

/-- The call is recorded with the message as it is now. -/
def logSubmit (cl ub : Nat) (s : State) : State :=
  s.log (.submit s.moment cl (s.buf ub).hdr (s.buf ub).data)

/-- `ubus_msg_send` of a `UBUS_MSG_MONITOR` message, which is not itself monitored. -/
def monitorSend (cl ub : Nat) (s : State) : State :=
  let s := logSubmit cl ub s
  if (s.tx cl).eof then s else transmit lib cl ub s

/-- `++m->seq`. -/
def bumpMonitor (m : Monitor) (s : State) : State :=
  { s with net := { s.net with monitors := s.net.monitors.map fun other =>
    if other.cl = m.cl then { other with seq := m.seq + 1 } else other } }

/-- `ub->hdr.seq = ++m->seq`. -/
def monitorStamp (ub : Nat) (m : Monitor) (s : State) : State :=
  (bumpMonitor m s).mapHdr ub fun hdr => { hdr with seq := m.seq + 1 }

/-- One round of the loop in `ubusd_monitor_message`. -/
def monitorDeliver (ub : Nat) (s : State) (m : Monitor) : State :=
  monitorSend lib m.cl ub (monitorStamp ub m s)

/-- The record of a message to or from a client. -/
def monitorRecord (cl : Client) (buf : MsgBuf) (send : Bool) : MonitorRecord :=
  { client := cl.id, peer := buf.hdr.peer, seq := buf.hdr.seq.toUInt32,
    type := buf.hdr.type.toUInt32, send, data := lib.blobData (buf.data.bytes lib) }

/-- `ubusd_monitor_message`. -/
def ubusdMonitorMessage (cl ub : Nat) (send : Bool) (s : State) : State :=
  if s.net.monitors.isEmpty then s
  else
    match ubusMsgNew (.monitor (monitorRecord lib (s.reg.client cl) (s.buf ub) send)) true s with
    | (none, s) => s
    | (some new, s) =>
      let s := s.mapHdr new fun hdr => { hdr with type := MsgType.monitor.code }
      ubusMsgFree new (s.net.monitors.foldl (monitorDeliver lib new) s)

/-- `ubus_msg_send`. -/
def ubusMsgSend (cl ub : Nat) (s : State) : State :=
  if (s.tx cl).eof then logSubmit cl ub s
  else
    let s := if (s.buf ub).hdr.type ≠ MsgType.monitor.code then
      ubusdMonitorMessage lib cl ub true s else s
    transmit lib cl ub (logSubmit cl ub s)

theorem ubusMsgSend_of_monitor {cl ub : Nat} {s : State}
    (record : (s.buf ub).hdr.type = MsgType.monitor.code) :
    ubusMsgSend lib cl ub s = monitorSend lib cl ub s := by
  simp only [ubusMsgSend, monitorSend, record, ne_eq, not_true_eq_false, if_false]
  rfl

/-- `ubus_msg_send(obj->client, ub)`. -/
def ubusMsgSendTo (cl : Option Nat) (ub : Nat) (s : State) : State :=
  match cl with
  | none => { s with fault := true }
  | some cl => ubusMsgSend lib cl ub s

/-! ### Monitors -/

/-- `ubusd_monitor_disconnect`. -/
def ubusdMonitorDisconnect (cl : Nat) (s : State) : State :=
  { s with net := { s.net with monitors := s.net.monitors.eraseP fun m => m.cl = cl } }

/-- `ubusd_monitor_connect`. -/
def ubusdMonitorConnect (cl : Nat) (s : State) : State :=
  let s := ubusdMonitorDisconnect cl s
  { s with net := { s.net with monitors := s.net.monitors ++ [{ cl }] } }

end Ubus
