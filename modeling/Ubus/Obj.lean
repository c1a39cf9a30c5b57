/-
**Ids, objects, types and subscriptions** (`ubusd_id.c`, `ubusd_obj.c`).

An object is made in steps: its type is found or created, the object gets an id, its path enters the
path tree and is announced, and only then it is linked to its client. Removing one unlinks its
subscriptions in both directions, its event patterns, its path and its type. Messages are sent in
the middle of both.
-/

import Ubus.Event

namespace Ubus

open Lib

/-- `ubus_alloc_id(tree, id, 0)`: random numbers until one is neither reserved nor in use; `none` when
`getrandom` fails. The numbers not yet used are returned. -/
def ubusAllocId (tree : AvlTree UInt32) (addr : Nat) :
    List UInt32 → Option (UInt32 × AvlTree UInt32) × List UInt32
  | [] => (none, [])
  | id :: rest =>
    if id < ubusSystemObjectMax then ubusAllocId tree addr rest
    else
      match tree.insertNew id addr with
      | none => ubusAllocId tree addr rest
      | some tree => (some (id, tree), rest)

/-! ### Types -/

/-- `ubus_unref_object_type`. -/
def ubusUnrefObjectType (type : Nat) (reg : Registry) : Registry :=
  let reg := reg.mapObjType type fun type => { type with refcount := type.refcount - 1 }
  if 0 < (reg.objType type).refcount then reg
  else { reg with objTypes := reg.objTypes.delete type }

variable (lib : Libubox)

/-- The methods of a new type, or `none` when an attribute of the signature is malformed. -/
def signatureMethods (sig : Bytes) : Option (List Bytes) :=
  (lib.blobForEachAttr sig).foldl (fun methods pos =>
    methods.bind fun methods => if lib.blobmsgCheckAttr pos then some (methods ++ [pos]) else none)
    (some [])

/-- `ubus_create_obj_type`: a type with one reference; a malformed signature gives it up again. -/
def ubusCreateObjType (sig : Bytes) (rnd : List UInt32) (reg : Registry) :
    Option Nat × List UInt32 × Registry :=
  let type := reg.brk
  match ubusAllocId reg.objTypes type rnd with
  | (none, rnd) => (none, rnd, reg)
  | (some (id, objTypes), rnd) =>
    let reg := { reg with objTypes, brk := type + 1 }
    match signatureMethods lib sig with
    | none =>
      (none, rnd, ubusUnrefObjectType type (reg.mapObjType type fun _ => { id, refcount := 1 }))
    | some methods => (some type, rnd, reg.mapObjType type fun _ => { id, refcount := 1, methods })

/-- `ubus_get_obj_type`. -/
def ubusGetObjType (id : UInt32) (reg : Registry) : Option Nat × Registry :=
  match reg.objTypes.find id with
  | none => (none, reg)
  | some type =>
    (some type, reg.mapObjType type fun type => { type with refcount := type.refcount + 1 })

/-! ### Objects -/

/-- The object of `ubusd_create_object_internal` once its id is in the tree. -/
def newObject (id : UInt32) (objects : AvlTree UInt32) (type : Option Nat) (reg : Registry) : Registry :=
  let obj := reg.brk
  let reg := { reg with objects, brk := obj + 1 }
  let reg := reg.mapObject obj fun _ => { id, type }
  match type with
  | none => reg
  | some type => reg.mapObjType type fun type => { type with refcount := type.refcount + 1 }

/-- `ubusd_create_object_internal(type, 0)`. -/
def ubusdCreateObjectInternal (type : Option Nat) (rnd : List UInt32) (reg : Registry) :
    Option Nat × List UInt32 × Registry :=
  let obj := reg.brk
  match ubusAllocId reg.objects obj rnd with
  | (none, rnd) => (none, rnd, reg)
  | (some (id, objects), rnd) => (some obj, rnd, newObject id objects type reg)

/-- The type that `ubusd_create_object` takes a reference to. -/
def objectType (attr : Attrs) (rnd : List UInt32) (reg : Registry) :
    Option Nat × List UInt32 × Registry :=
  match attr .objtype, attr .signature with
  | some objtype, _ =>
    let (type, reg) := ubusGetObjType (lib.blobGetU32 objtype) reg
    (type, rnd, reg)
  | none, some sig => ubusCreateObjType lib sig rnd reg
  | none, none => (none, rnd, reg)

/-- Drop the reference of `ubusd_create_object` itself. -/
def unrefType (type : Option Nat) (reg : Registry) : Registry :=
  match type with
  | none => reg
  | some type => ubusUnrefObjectType type reg

/-- The first half of `ubusd_create_object`: an object with an id and a type. -/
def allocObject (attr : Attrs) (rnd : List UInt32) (reg : Registry) :
    Option Nat × List UInt32 × Registry :=
  let (type, rnd, reg) := objectType lib attr rnd reg
  let (obj, rnd, reg) := ubusdCreateObjectInternal type rnd reg
  (obj, rnd, unrefType type reg)

/-- The path enters the tree, unless it is there already. -/
def insertPath (obj : Nat) (key : CString) (reg : Registry) : Option Registry :=
  (reg.path.insertNew key obj).map fun path =>
    { reg.mapObject obj fun obj => { obj with path := some key } with path }

/-- `obj->client = cl; list_add(&obj->list, &cl->objects)`. -/
def linkObject (cl obj : Nat) (reg : Registry) : Registry :=
  (reg.mapObject obj fun obj => { obj with client := some cl }).mapClient cl fun cl =>
    { cl with objects := obj :: cl.objects }

/-! ### Notifications -/

/-- A message the daemon builds for the owner of an object, `ubus_msg_from_blob(false)`: number it,
send it, free it. -/
def sendNumbered (obj : Nat) (type : MsgType) (puts : List Put) (s : State) : State :=
  match ubusMsgNew (.built puts) false s with
  | (none, s) => s
  | (some ub, s) =>
    let seq := s.stamps.invokeSeq obj + 1
    let s := { s with stamps := { s.stamps with
      invokeSeq := Function.update s.stamps.invokeSeq obj seq } }
    let s := s.mapHdr ub fun _ => { type := type.code, seq, peer := 0 }
    ubusMsgFree ub (ubusMsgSendTo lib (s.reg.object obj).client ub s)

/-- `ubus_notify_subscription`. -/
def ubusNotifySubscription (obj : Nat) (s : State) : State :=
  let active : UInt8 := if (s.reg.object obj).subscribers.isEmpty then 0 else 1
  sendNumbered lib obj .notify [.int32 .objid (s.reg.object obj).id, .int8 .active active] s

/-! ### Subscriptions -/

/-- The new `struct ubus_subscription`. -/
def newSubscription (obj target : Nat) (reg : Registry) : Registry :=
  let sub := reg.brk
  let reg := reg.mapObject target fun obj => { obj with subscribers := sub :: obj.subscribers }
  let reg := reg.mapObject obj fun obj => { obj with targetList := sub :: obj.targetList }
  { reg with
    subscription := Function.update reg.subscription sub { subscriber := obj, target }
    brk := sub + 1 }

/-- `ubus_subscribe`. -/
def ubusSubscribe (obj target : Nat) (s : State) : Status × State :=
  let first := (s.reg.object target).subscribers.isEmpty
  let s := s.mapReg (newSubscription obj target)
  (.ok, if first then ubusNotifySubscription lib target s else s)

/-- The two `list_del` of `ubus_unsubscribe`. -/
def unlinkSubscription (sub : Nat) (reg : Registry) : Registry :=
  let s := reg.subscription sub
  (reg.mapObject s.target fun obj => { obj with subscribers := obj.subscribers.erase sub }).mapObject
    s.subscriber fun obj => { obj with targetList := obj.targetList.erase sub }

/-- `ubus_unsubscribe`. -/
def ubusUnsubscribe (s : State) (sub : Nat) : State :=
  let target := (s.reg.subscription sub).target
  let s := s.mapReg (unlinkSubscription sub)
  if (s.reg.object target).subscribers.isEmpty then ubusNotifySubscription lib target s else s

/-- `ubus_notify_unsubscribe`. -/
def ubusNotifyUnsubscribe (s : State) (sub : Nat) : State :=
  let subscriber := (s.reg.subscription sub).subscriber
  let target := (s.reg.subscription sub).target
  let s := sendNumbered lib subscriber .unsubscribe
    [.int32 .objid (s.reg.object subscriber).id, .int32 .target (s.reg.object target).id] s
  ubusUnsubscribe lib s sub

/-! ### Removal -/

/-- The path leaves its tree. -/
def removePath (obj : Nat) (reg : Registry) : Registry :=
  match (reg.object obj).path with
  | none => reg
  | some _ => { reg with path := reg.path.delete obj }

/-- The object leaves the list of its client. -/
def unlinkObject (obj : Nat) (reg : Registry) : Registry :=
  match (reg.object obj).client with
  | none => reg
  | some cl => reg.mapClient cl fun cl => { cl with objects := cl.objects.erase obj }

/-- The end of `ubusd_free_object`: path, client list, id and type. -/
def dropObject (obj : Nat) (reg : Registry) : Registry :=
  let reg := unlinkObject obj (removePath obj reg)
  let reg := { reg with objects := reg.objects.delete obj }
  unrefType (reg.object obj).type reg

/-- Announce that the path of an object goes. -/
def announceRemoval (obj : Nat) (s : State) : State :=
  match (s.reg.object obj).path with
  | none => s
  | some _ => ubusdSendObjEvent lib obj false s

/-- `ubusd_free_object`. -/
def ubusdFreeObject (s : State) (obj : Nat) : State :=
  let s := (s.reg.object obj).targetList.foldl (ubusUnsubscribe lib) s
  let s := (s.reg.object obj).subscribers.foldl (ubusNotifyUnsubscribe lib) s
  let s := s.mapReg (ubusdEventCleanupObject obj)
  let s := announceRemoval lib obj s
  s.mapReg (dropObject obj)

/-- `ubusd_create_object`. -/
def ubusdCreateObject (cl : Nat) (attr : Attrs) (s : State) : Option Nat × State :=
  let (obj, rnd, reg) := allocObject lib attr s.rnd s.reg
  let s := { s with reg, rnd }
  match obj with
  | none => (none, s)
  | some obj =>
    match attr .objpath with
    | none => (some obj, s.mapReg (linkObject cl obj))
    | some objpath =>
      let key := lib.blobString objpath
      if ubusdAclCheck lib s.reg.acl.entries (some (s.reg.client cl).cred) (some key) none
          .publish ≠ 0 then (none, ubusdFreeObject lib s obj)
      else
        match insertPath obj key s.reg with
        | none => (none, ubusdFreeObject lib s obj)
        | some reg =>
          let s := ubusdSendObjEvent lib obj true { s with reg }
          (some obj, s.mapReg (linkObject cl obj))

end Ubus
