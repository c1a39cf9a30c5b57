/-
**The blob format.** The library behaviour that the daemon relies on, written out, so that the model
can be run on concrete messages.

An attribute is four bytes of big-endian `id_len` (the extended bit, a seven bit id, the length with
this header in the low 24 bits), then the payload; attributes follow each other padded to four bytes.
A `blobmsg` attribute sets the extended bit, carries its type as id, and starts its payload with the
length of its name, the name and a zero byte, padded to four bytes.
-/

import Ubus.Msg

namespace Ubus.Blob

/-! ### Reading -/

def be (bytes : Bytes) : Nat := bytes.foldl (fun acc byte => acc * 256 + byte.toNat) 0

def idLen (attr : Bytes) : Nat := be (attr.take 4)

def rawLen (attr : Bytes) : Nat := idLen attr % 2 ^ 24

def padded (len : Nat) : Nat := (len + 3) / 4 * 4

def attrId (attr : Bytes) : Nat := idLen attr / 2 ^ 24 % 128

/-- The payload of an attribute. -/
def blobData (attr : Bytes) : Bytes := (attr.take (rawLen attr)).drop 4

def cString (bytes : Bytes) : CString := bytes.takeWhile fun byte => byte ≠ 0

/-- The attributes in a payload, up to the first malformed one. -/
def attrs : Nat → Bytes → List Bytes
  | 0, _ => []
  | fuel + 1, bytes =>
    let pad := padded (rawLen bytes)
    if bytes.length < 4 || pad > bytes.length || pad < 4 then []
    else bytes.take (rawLen bytes) :: attrs fuel (bytes.drop pad)

def forEach (payload : Bytes) : List Bytes := attrs payload.length payload

/-! ### Messages -/

/-- The attributes of `enum ubus_msg_attr`, in order. -/
def attrTable : List UbusAttr :=
  [.unspec, .status, .objpath, .objid, .method, .objtype, .signature, .data, .target, .active,
    .noReply, .subscribers, .user, .group]

def attrCode (id : UbusAttr) : Nat := attrTable.idxOf id

/-- `ubus_policy`: integers have four bytes and strings end in a zero byte. -/
def policyOk (id : UbusAttr) (data : Bytes) : Bool :=
  match id with
  | .objtype | .objid | .status => data.length == 4
  | .objpath | .method | .user | .group => data.getLast? == some 0
  | _ => true

/-- `blob_parse_untrusted` with `ubus_policy`: of several attributes the last one counts. -/
def blobParse (msg : Bytes) (id : UbusAttr) : Option Bytes :=
  if msg.length < rawLen msg then none
  else ((forEach (blobData msg)).filter fun attr =>
    attrId attr == attrCode id && policyOk id (blobData attr)).getLast?

/-! ### Tables -/

def msgTypeTable : List BlobmsgType :=
  [.unspec, .array, .table, .string, .int64, .int32, .int16, .int8, .double]

def msgType (attr : Bytes) : BlobmsgType := msgTypeTable.getD (attrId attr) .unspec

def nameLen (attr : Bytes) : Nat := be ((attr.drop 4).take 2)

def msgName (attr : Bytes) : CString := cString ((attr.drop 6).take (nameLen attr))

/-- The payload after the name. -/
def msgData (attr : Bytes) : Bytes := (blobData attr).drop (padded (nameLen attr + 3))

/-- `blobmsg_check_attr`. -/
def checkAttr (named : Bool) (attr : Bytes) : Bool :=
  padded (nameLen attr + 3) ≤ (blobData attr).length && !(named && nameLen attr == 0) &&
    (attr.drop (6 + nameLen attr)).head? == some 0 &&
    match msgType attr with
    | .string => (msgData attr).getLast? == some 0
    | .int32 => (msgData attr).length == 4
    | .int8 => (msgData attr).length == 1
    | .int16 => (msgData attr).length == 2
    | .int64 => (msgData attr).length == 8
    | .double => (msgData attr).length == 8
    | _ => true

/-- `blobmsg_parse`: the first attribute with the name and the type asked for. -/
def msgParse (policy : List (CString × BlobmsgType)) (payload : Bytes) (name : CString) :
    Option Bytes :=
  if !(forEach payload).all (checkAttr false) then none
  else (forEach payload).find? fun attr =>
    msgName attr == name && policy.any fun entry => entry.1 == name && entry.2 == msgType attr

/-! ### Writing -/

def pad (bytes : Bytes) : Bytes :=
  bytes ++ List.replicate (padded bytes.length - bytes.length) 0

/-- An attribute with its padding. -/
def attr (ext : Bool) (id : Nat) (payload : Bytes) : Bytes :=
  be32 (UInt32.ofNat ((if ext then 2 ^ 31 else 0) + id * 2 ^ 24 + (payload.length + 4))) ++
    pad payload

/-- A named attribute. -/
def msgAttr (type : BlobmsgType) (name : CString) (data : Bytes) : Bytes :=
  attr true (msgTypeTable.idxOf type)
    (pad (be16 (UInt16.ofNat name.length) ++ name ++ [0]) ++ data)

mutual

def putBytes : Put → Bytes
  | .int32 id value => attr false (attrCode id) (be32 value)
  | .int8 id value => attr false (attrCode id) [value]
  | .string id value => attr false (attrCode id) (value ++ [0])
  | .blob id payload => attr false (attrCode id) payload
  | .nest id children => attr false (attrCode id) (putsBytes children)
  | .addBlob bytes => pad bytes
  | .msgU32 name value => msgAttr .int32 name (be32 value)
  | .msgString name value => msgAttr .string name (value ++ [0])
  | .msgField name field => msgAttr (msgType field) name (msgData field)
  | .msgTable name children => msgAttr .table (name.getD []) (putsBytes children)
  | .msgArray name children => msgAttr .array name (putsBytes children)

def putsBytes : List Put → Bytes
  | [] => []
  | put :: rest => putBytes put ++ putsBytes rest

end

/-- A finished blob. -/
def rawBlob (puts : List Put) : Bytes := attr false 0 (putsBytes puts)

/-- The record of `ubusd_monitor_message`, with the numbers of `enum ubus_monitor_attr`. -/
def rawMonitor (record : MonitorRecord) : Bytes :=
  attr false 0 (attr false 0 (be32 record.client) ++ attr false 1 (be32 record.peer) ++
    attr false 3 (be32 record.seq) ++ attr false 4 (be32 record.type) ++
    attr false 2 [if record.send then 1 else 0] ++ attr false 5 record.data)

/-- The library. -/
def libubox : Libubox where
  blobParse := blobParse
  blobGetU32 attr := UInt32.ofNat (be ((blobData attr).take 4))
  blobGetInt8 attr := (blobData attr).headD 0
  blobString attr := cString (blobData attr)
  blobData := blobData
  blobForEachAttr attr := forEach (blobData attr)
  blobmsgCheckAttr := checkAttr true
  blobmsgName := msgName
  blobmsgType := msgType
  blobmsgString attr := cString (msgData attr)
  blobmsgGetU32 attr := UInt32.ofNat (be ((msgData attr).take 4))
  blobmsgData := msgData
  blobmsgForEachAttr attr := forEach (msgData attr)
  blobmsgParse := msgParse
  rawBlob := rawBlob
  rawMonitor := rawMonitor

/-- A message as a client sends it. -/
def message (type : MsgType) (seq : UInt16) (peer : UInt32) (puts : List Put) : Bytes :=
  msgBytes libubox { type := type.code, seq, peer } (.built puts)

end Ubus.Blob
