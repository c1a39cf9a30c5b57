/-
**Messages: headers, attributes and payloads** (`ubusmsg.h`, `ubus_common.h`).

A message is an eight byte header and a blob. The blob library is not part of the repository; it is
the parameter `Libubox`, whose fields are the library calls the daemon makes: reading a received
blob (`blobParse` is `blob_parse_untrusted` with `ubus_policy`, the `blobmsg` fields read the nested
tables) and producing the bytes of a blob the daemon built itself (`rawBlob`, `rawMonitor`).

* `Payload` — what a message buffer holds: bytes that were received, or a blob built by the daemon,
  kept as the list of attributes that were put into it.
* `Msghdr.bytes`, `msgBytes` — the encoding on the socket: the header in network byte order, then
  the payload.
-/

import Mathlib.Algebra.Order.Ring.Int
import Mathlib.Order.Basic
import Mathlib.Data.List.Lex

namespace Ubus

/-- A C string, without its final zero byte. -/
abbrev CString := List UInt8

abbrev Bytes := List UInt8

/-- A string constant of the source. -/
def cstr (text : String) : CString := text.toList.map fun letter => letter.toNat.toUInt8

/-- `strcmp` compares bytes as unsigned numbers. -/
instance linearOrderUInt8 : LinearOrder UInt8 where
  le_refl := UInt8.le_refl
  le_trans _ _ _ := UInt8.le_trans
  le_antisymm _ _ := UInt8.le_antisymm
  le_total := UInt8.le_total
  lt_iff_le_not_ge _ _ := by
    rw [UInt8.not_le]
    exact ⟨fun less => ⟨UInt8.le_of_lt less, less⟩, fun both => both.2⟩
  toDecidableLE := inferInstance
  toDecidableEq := inferInstance
  toDecidableLT := inferInstance

instance linearOrderUInt32 : LinearOrder UInt32 where
  le_refl := UInt32.le_refl
  le_trans _ _ _ := UInt32.le_trans
  le_antisymm _ _ := UInt32.le_antisymm
  le_total := UInt32.le_total
  lt_iff_le_not_ge _ _ := by
    rw [UInt32.not_le]
    exact ⟨fun less => ⟨UInt32.le_of_lt less, less⟩, fun both => both.2⟩
  toDecidableLE := inferInstance
  toDecidableEq := inferInstance
  toDecidableLT := inferInstance

/-! ### Constants -/

/-- `UBUS_MAX_MSGLEN`. -/
def ubusMaxMsglen : Nat := 1048576

/-- `UBUS_CLIENT_MAX_TXQ_LEN`. -/
def ubusClientMaxTxqLen : Nat := ubusMaxMsglen

def ubusSystemObjectEvent : UInt32 := 1

def ubusSystemObjectAcl : UInt32 := 2

def ubusSystemObjectMonitor : UInt32 := 3

def ubusSystemObjectMax : UInt32 := 1024

/-- `enum ubus_msg_type`. -/
inductive MsgType where
  | hello | status | data | ping | lookup | invoke | addObject | removeObject
  | subscribe | unsubscribe | notify | monitor
deriving DecidableEq, Repr

/-- The type byte of a header. -/
def MsgType.code : MsgType → UInt8
  | .hello => 0
  | .status => 1
  | .data => 2
  | .ping => 3
  | .lookup => 4
  | .invoke => 5
  | .addObject => 6
  | .removeObject => 7
  | .subscribe => 8
  | .unsubscribe => 9
  | .notify => 10
  | .monitor => 11

theorem MsgType.code_injective : Function.Injective MsgType.code := by
  intro first second same
  cases first <;> cases second <;> first | rfl | exact absurd same (by decide)

@[simp] theorem MsgType.code_inj {first second : MsgType} :
    first.code = second.code ↔ first = second :=
  MsgType.code_injective.eq_iff

/-- `enum ubus_msg_attr`. -/
inductive UbusAttr where
  | unspec | status | objpath | objid | method | objtype | signature | data | target | active
  | noReply | subscribers | user | group
deriving DecidableEq, Repr

/-- `enum ubus_msg_status`. -/
inductive Status where
  | ok | invalidCommand | invalidArgument | methodNotFound | notFound | noData | permissionDenied
  | timeout | notSupported | unknownError | connectionFailed | noMemory | parseError | systemError
deriving DecidableEq, Repr

def Status.code : Status → UInt32
  | .ok => 0
  | .invalidCommand => 1
  | .invalidArgument => 2
  | .methodNotFound => 3
  | .notFound => 4
  | .noData => 5
  | .permissionDenied => 6
  | .timeout => 7
  | .notSupported => 8
  | .unknownError => 9
  | .connectionFailed => 10
  | .noMemory => 11
  | .parseError => 12
  | .systemError => 13

/-! ### Headers -/

/-- `struct ubus_msghdr`, in host order. -/
structure Msghdr where
  version : UInt8 := 0
  type : UInt8 := 0
  seq : UInt16 := 0
  peer : UInt32 := 0
deriving DecidableEq, Repr, Inhabited

def be16 (value : UInt16) : Bytes :=
  [(value >>> 8).toUInt8, value.toUInt8]

def be32 (value : UInt32) : Bytes :=
  [(value >>> 24).toUInt8, (value >>> 16).toUInt8, (value >>> 8).toUInt8, value.toUInt8]

/-- The header on the socket: `seq` and `peer` in network byte order. -/
def Msghdr.bytes (hdr : Msghdr) : Bytes :=
  hdr.version :: hdr.type :: (be16 hdr.seq ++ be32 hdr.peer)

@[simp] theorem Msghdr.length_bytes (hdr : Msghdr) : hdr.bytes.length = 8 := rfl

/-! ### Payloads and the blob library -/

/-- What the daemon puts into a blob buffer, in the order of the calls. -/
inductive Put where
  | int32 (id : UbusAttr) (value : UInt32)
  | int8 (id : UbusAttr) (value : UInt8)
  | string (id : UbusAttr) (value : CString)
  /-- `blob_put`: the payload of another attribute, copied. -/
  | blob (id : UbusAttr) (payload : Bytes)
  /-- `blob_nest_start` … `blob_nest_end`. -/
  | nest (id : UbusAttr) (children : List Put)
  /-- `blobmsg_add_blob`: a whole attribute, copied. -/
  | addBlob (attr : Bytes)
  | msgU32 (name : CString) (value : UInt32)
  | msgString (name : CString) (value : CString)
  /-- `blobmsg_add_field`: the data of another attribute under a new name. -/
  | msgField (name : CString) (attr : Bytes)
  /-- `blobmsg_open_table`, up to its close. -/
  | msgTable (name : Option CString) (children : List Put)
  /-- `blobmsg_open_array`, up to its close. -/
  | msgArray (name : CString) (children : List Put)

/-- The record `ubusd_monitor_message` builds of a message (`enum ubus_monitor_attr`). -/
structure MonitorRecord where
  client : UInt32
  peer : UInt32
  seq : UInt32
  type : UInt32
  send : Bool
  data : Bytes

/-- The contents of a message buffer. -/
inductive Payload where
  | received (bytes : Bytes)
  | built (puts : List Put)
  | monitor (record : MonitorRecord)

instance : Inhabited Payload := ⟨.received []⟩

/-- `enum blobmsg_type`, as far as the daemon asks for it. -/
inductive BlobmsgType where
  | unspec | array | table | string | int64 | int32 | int16 | int8 | double
deriving DecidableEq, Repr

/-- **The blob library, as the daemon uses it.** An attribute is the bytes it occupies. -/
structure Libubox where
  /-- `blob_parse_untrusted(msg, len, attrbuf, ubus_policy, UBUS_ATTR_MAX)`. -/
  blobParse : Bytes → UbusAttr → Option Bytes
  blobGetU32 : Bytes → UInt32
  blobGetInt8 : Bytes → UInt8
  /-- `blob_data`, read as a C string. -/
  blobString : Bytes → CString
  /-- The `blob_len` bytes at `blob_data`. -/
  blobData : Bytes → Bytes
  /-- The attributes `blob_for_each_attr` visits. -/
  blobForEachAttr : Bytes → List Bytes
  /-- `blobmsg_check_attr(attr, true)`. -/
  blobmsgCheckAttr : Bytes → Bool
  blobmsgName : Bytes → CString
  blobmsgType : Bytes → BlobmsgType
  /-- `blobmsg_data` or `blobmsg_get_string`, read as a C string. -/
  blobmsgString : Bytes → CString
  blobmsgGetU32 : Bytes → UInt32
  /-- The `blobmsg_data_len` bytes at `blobmsg_data`. -/
  blobmsgData : Bytes → Bytes
  /-- The attributes `blobmsg_for_each_attr` visits. -/
  blobmsgForEachAttr : Bytes → List Bytes
  /-- `blobmsg_parse`: for a policy of names and types, the attribute found for each name. -/
  blobmsgParse : List (CString × BlobmsgType) → Bytes → CString → Option Bytes
  /-- The bytes of a finished blob buffer, `blob_raw_len` of them from its head. -/
  rawBlob : List Put → Bytes
  /-- The same for a monitor record. -/
  rawMonitor : MonitorRecord → Bytes

variable (lib : Libubox)

/-- The bytes a buffer's `data` points to. -/
def Payload.bytes : Payload → Bytes
  | .received bytes => bytes
  | .built puts => lib.rawBlob puts
  | .monitor record => lib.rawMonitor record

/-- `ub->len`. -/
def Payload.len (data : Payload) : Nat := (data.bytes lib).length

/-- **The encoding of a message**: header, then payload. -/
def msgBytes (hdr : Msghdr) (data : Payload) : Bytes := hdr.bytes ++ data.bytes lib

@[simp] theorem length_msgBytes (hdr : Msghdr) (data : Payload) :
    (msgBytes lib hdr data).length = data.len lib + 8 := by
  rw [msgBytes, List.length_append, Msghdr.length_bytes, Payload.len, Nat.add_comm]

/-- The attribute table of a parsed message. -/
abbrev Attrs := UbusAttr → Option Bytes

/-- `ubus_parse_msg`. -/
def ubusParseMsg (data : Payload) : Attrs := lib.blobParse (data.bytes lib)

end Ubus
