/-
**The state of the daemon** (`ubusd.h`, `ubusd_obj.h`, `ubusd_monitor.c`).

Records live at addresses that are handed out once and never reused; a tree or a list holds the
addresses of its members. They stand in two parts of the state.

* `Registry` — clients, objects, object types, subscriptions, event patterns and access lists.
* `Net` — message buffers, the sockets of the clients with their queues, monitors, and the
  descriptors that were closed.
-/

import Mathlib.Logic.Function.Basic
import Ubus.AclLoad

namespace Ubus

open Lib

/-! ### The registry -/

/-- `struct ubus_client`, without its socket. -/
structure Client where
  id : UInt32 := 0
  cred : Cred := default
  objects : List Nat := []

/-- The `recv_msg` functions of the three system objects. -/
inductive RecvMsg where
  | event | acl | monitor
deriving DecidableEq, Repr

/-- `struct ubus_object`, without its sequence numbers (see `Stamps`). -/
structure Object where
  id : UInt32 := 0
  type : Option Nat := none
  path : Option CString := none
  client : Option Nat := none
  recvMsg : Option RecvMsg := none
  events : List Nat := []
  subscribers : List Nat := []
  targetList : List Nat := []

/-- `struct ubus_object_type`. -/
structure ObjType where
  id : UInt32 := 0
  refcount : Nat := 0
  methods : List Bytes := []

/-- `struct ubus_subscription`. -/
structure Subscription where
  subscriber : Nat := 0
  target : Nat := 0

/-- `struct event_source`. -/
structure EventSource where
  obj : Nat := 0
  key : CString := []
  isPartial : Bool := false

/-- The trees of the daemon and the records they lead to. -/
structure Registry where
  client : Nat → Client := fun _ => {}
  object : Nat → Object := fun _ => {}
  objType : Nat → ObjType := fun _ => {}
  subscription : Nat → Subscription := fun _ => {}
  eventSource : Nat → EventSource := fun _ => {}
  clients : AvlTree UInt32 := []
  objects : AvlTree UInt32 := []
  objTypes : AvlTree UInt32 := []
  path : AvlTree CString := []
  patterns : AvlTree CString := []
  brk : Nat := 0
  acl : AclState := {}

/-- The client is connected. -/
def Registry.HasClient (reg : Registry) (cl : Nat) : Prop := reg.clients.Has cl

/-- The object is live. -/
def Registry.HasObject (reg : Registry) (obj : Nat) : Prop := reg.objects.Has obj

instance (reg : Registry) (cl : Nat) : Decidable (reg.HasClient cl) :=
  inferInstanceAs (Decidable (AvlTree.Has _ _))

instance (reg : Registry) (obj : Nat) : Decidable (reg.HasObject obj) :=
  inferInstanceAs (Decidable (AvlTree.Has _ _))

def Registry.mapClient (cl : Nat) (f : Client → Client) (reg : Registry) : Registry :=
  { reg with client := Function.update reg.client cl (f (reg.client cl)) }

def Registry.mapObject (obj : Nat) (f : Object → Object) (reg : Registry) : Registry :=
  { reg with object := Function.update reg.object obj (f (reg.object obj)) }

def Registry.mapObjType (type : Nat) (f : ObjType → ObjType) (reg : Registry) : Registry :=
  { reg with objType := Function.update reg.objType type (f (reg.objType type)) }

/-! ### Message buffers and sockets -/

/-- The `refcount` of a message buffer; `~0` is `external`. -/
inductive Refcount where
  | external
  | count (n : Nat)
deriving DecidableEq, Repr

/-- `struct ubus_msg_buf`; `live` between `ubus_msg_new` and the `free` of `ubus_msg_free`. -/
structure MsgBuf where
  refcount : Refcount := .count 0
  hdr : Msghdr := {}
  data : Payload := .received []
  fd : Option Nat := none
  live : Bool := false

/-- `struct ubus_client_cmd`. -/
structure ClientCmd where
  msg : Nat
  lookupPath : Option CString := none
deriving DecidableEq, Repr

/-- The receiving side of a client. `inbox` holds the bytes its socket has for the daemon,
`consumed` those the daemon has read. -/
structure Rx where
  pendingMsg : Option Nat := none
  pendingMsgOffset : Nat := 0
  pendingMsgFd : Option Nat := none
  hdrbuf : Bytes := []
  inbox : Bytes := []
  consumed : Bytes := []

/-- The sending side of a client. `wire` holds the bytes its socket has taken; `writeInterest` is
whether `ULOOP_WRITE` is asked for. -/
structure Tx where
  eof : Bool := false
  writeInterest : Bool := false
  txQueue : List Nat := []
  txqOfs : Nat := 0
  txqLen : Int := 0
  wire : Bytes := []

/-- The part of `struct ubus_client` that belongs to its socket. -/
structure Sock where
  rx : Rx := {}
  tx : Tx := {}
  cmdQueue : List ClientCmd := []
  retmsg : Option Nat := none

/-- `struct ubus_monitor`. -/
structure Monitor where
  cl : Nat
  seq : UInt16 := 0
deriving DecidableEq, Repr

/-- Buffers, sockets, monitors, and the descriptors closed so far. `socks` lists the clients whose
memory is allocated; the next descriptor to arrive is `fdBrk`. -/
structure Net where
  buf : Nat → MsgBuf := fun _ => {}
  sock : Nat → Sock := fun _ => {}
  socks : List Nat := []
  monitors : List Monitor := []
  brk : Nat := 0
  fdBrk : Nat := 0
  closed : List Nat := []

/-- The sequence numbers `invoke_seq` and `event_seen` of the objects, `event_seq` and
`obj_event_seq`. -/
structure Stamps where
  invokeSeq : Nat → UInt16 := fun _ => 0
  eventSeen : Nat → UInt32 := fun _ => 0
  eventSeq : UInt16 := 0
  objEventSeq : UInt32 := 1

/-! ### What the daemon is working on, and what it did -/

/-- What the daemon is working on; a message is given as it was received. -/
inductive Cause where
  | idle
  | connect (cl : Nat)
  | message (cl ub : Nat) (hdr : Msghdr) (data : Payload)
  | resume (cl ub : Nat) (hdr : Msghdr) (data : Payload)
  | disconnect (cl : Nat)
  | aclLoad

/-- When something happened: the registry then, and the work it belongs to. -/
structure Moment where
  reg : Registry
  cause : Cause

/-- An entry of the trace. -/
inductive Event where
  /-- A message is passed to `ubusd_proto_receive_message`. -/
  | accept (moment : Moment) (cl ub : Nat) (hdr : Msghdr) (data : Payload) (fd : Option Nat)
  /-- `ubus_msg_send` is called. -/
  | submit (moment : Moment) (dest : Nat) (hdr : Msghdr) (data : Payload)
  /-- `ubusd_send_obj` is called. -/
  | sendObj (moment : Moment) (cl ub obj : Nat)

/-- The result of one `sendmsg`: `EAGAIN` or `EACCES`, another error, or `extra + 1` bytes, cut to
what was offered. -/
inductive WriteOutcome where
  | again
  | error
  | sent (extra : Nat)
deriving DecidableEq, Repr

/-- The daemon. `fault` is set where the source would follow a null pointer. -/
structure State where
  reg : Registry := {}
  net : Net := {}
  stamps : Stamps := {}
  writes : List WriteOutcome := []
  allocs : List Bool := []
  rnd : List UInt32 := []
  fault : Bool := false
  cause : Cause := .idle
  trace : List Event := []

namespace State

def moment (s : State) : Moment := ⟨s.reg, s.cause⟩

def log (event : Event) (s : State) : State := { s with trace := event :: s.trace }

def mapReg (f : Registry → Registry) (s : State) : State := { s with reg := f s.reg }

def mapSock (cl : Nat) (f : Sock → Sock) (s : State) : State :=
  { s with net := { s.net with sock := Function.update s.net.sock cl (f (s.net.sock cl)) } }

def mapTx (cl : Nat) (f : Tx → Tx) (s : State) : State :=
  s.mapSock cl fun sock => { sock with tx := f sock.tx }

def mapRx (cl : Nat) (f : Rx → Rx) (s : State) : State :=
  s.mapSock cl fun sock => { sock with rx := f sock.rx }

def mapBuf (ub : Nat) (f : MsgBuf → MsgBuf) (s : State) : State :=
  { s with net := { s.net with buf := Function.update s.net.buf ub (f (s.net.buf ub)) } }

def mapHdr (ub : Nat) (f : Msghdr → Msghdr) (s : State) : State :=
  s.mapBuf ub fun buf => { buf with hdr := f buf.hdr }

/-- `close` on a received descriptor. -/
def close (fd : Nat) (s : State) : State :=
  { s with net := { s.net with closed := fd :: s.net.closed } }

/-- `calloc` for a message buffer or a queue entry; it succeeds unless the list says otherwise. -/
def calloc (s : State) : Bool × State :=
  match s.allocs with
  | [] => (true, s)
  | ok :: rest => (ok, { s with allocs := rest })

/-- The result of the next `sendmsg`. -/
def nextWrite (s : State) : WriteOutcome × State :=
  match s.writes with
  | [] => (.again, s)
  | out :: rest => (out, { s with writes := rest })

@[simp] abbrev buf (s : State) (ub : Nat) : MsgBuf := s.net.buf ub

@[simp] abbrev sock (s : State) (cl : Nat) : Sock := s.net.sock cl

@[simp] abbrev tx (s : State) (cl : Nat) : Tx := (s.net.sock cl).tx

@[simp] abbrev rx (s : State) (cl : Nat) : Rx := (s.net.sock cl).rx

end State

theorem update_keeps {α β : Type} {k : Nat} (g : α → β) (record : Nat → α) {x : α}
    (same : g x = g (record k)) (other : Nat) :
    g (Function.update record k x other) = g (record other) := by
  rw [Function.update_apply]
  split
  · rename_i here
    rw [same, here]
  · rfl

end Ubus
