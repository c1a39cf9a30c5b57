/-
**Who is behind a message.**

Every message that the daemon submits is in the catalogue of `Emission`, with the registry at that
moment. Two consequences:

* `replies_authentic`: a status or data message was made while a message of its receiver was worked
  on, or it was relayed for the owner of the live object that its `peer` names. A request that waits
  in `libubus` (`ubusFindRequest`) is therefore answered by the daemon or by that owner.
* `calls_authentic`: a call names an object of its receiver, and says truly who made it.
-/

import Ubus.Safety

namespace Ubus

open Lib

variable {lib : Libubox} {reg : Registry} {cause : Cause} {dest : Nat} {hdr : Msghdr}
  {objid : UInt32} {data : Payload} {noReply : List Put}

/-! ### Requests that wait for an answer (`libubus-req.c`) -/

/-- `struct ubus_request`, and the `pending` and `id` of a `struct ubus_notify_request`. -/
structure Request where
  seq : UInt16
  peer : UInt32
  notify : Bool := false
  pending : Nat := 0
  id : Nat → UInt32 := fun _ => 0

/-- The loop of `ubus_find_notify_id`. -/
def ubusFindNotifyId (id : Nat → UInt32) (objid : UInt32) (pending i : Nat) : Option Nat :=
  if pending = 0 then none
  else if pending % 2 = 1 ∧ id i = objid then some i
  else ubusFindNotifyId id objid (pending / 2) (i + 1)
termination_by pending

/-- `ubus_find_request`: the request that a message answers, and for a notification which of its
receivers answers. -/
def ubusFindRequest (seq : UInt16) (peer : UInt32) : List Request → Option (Request × Option Nat)
  | [] => none
  | req :: rest =>
    if seq ≠ req.seq then ubusFindRequest seq peer rest
    else if req.notify then
      match ubusFindNotifyId req.id peer req.pending 0 with
      | none => ubusFindRequest seq peer rest
      | some i => some (req, some i)
    else if peer ≠ req.peer then ubusFindRequest seq peer rest
    else some (req, none)

/-- The peer whose answer is taken. -/
def Request.awaits (req : Request) : Option Nat → UInt32
  | none => req.peer
  | some i => req.id i

theorem ubusFindNotifyId_id {id : Nat → UInt32} {pending i k : Nat}
    (found : ubusFindNotifyId id objid pending i = some k) : id k = objid := by
  fun_induction ubusFindNotifyId id objid pending i with
  | case1 => cases found
  | case2 => cases found; simp_all
  | case3 _ _ _ _ ih => exact ih found

/-- **A message answers only a request with its `seq` that waits for its `peer`.** -/
theorem ubusFindRequest_awaits {seq : UInt16} {peer : UInt32} {requests : List Request}
    {req : Request} {id : Option Nat} (found : ubusFindRequest seq peer requests = some (req, id)) :
    req ∈ requests ∧ req.seq = seq ∧ req.awaits id = peer := by
  induction requests with
  | nil => cases found
  | cons first rest ih =>
    have later (found : ubusFindRequest seq peer rest = some (req, id)) :
        req ∈ first :: rest ∧ req.seq = seq ∧ req.awaits id = peer := by
      obtain ⟨member, same⟩ := ih found
      exact ⟨List.mem_cons_of_mem _ member, same⟩
    unfold ubusFindRequest at found
    split at found
    · exact later found
    rename_i sameSeq
    split at found
    · split at found
      · exact later found
      · rename_i i isId
        cases found
        exact ⟨List.mem_cons_self, (not_not.mp sameSeq).symm, ubusFindNotifyId_id isId⟩
    · split at found
      · exact later found
      · rename_i samePeer
        cases found
        exact ⟨List.mem_cons_self, (not_not.mp sameSeq).symm, (not_not.mp samePeer).symm⟩

/-! ### Replies -/

/-- The client whose message is worked on. -/
def Cause.client : Cause → Option Nat
  | .message cl _ _ _ | .resume cl _ _ _ => some cl
  | _ => none

/-- The message was made by the daemon, for a message of its receiver. -/
def Generated (moment : Moment) (cl : Nat) (hdr : Msghdr) : Prop :=
  ∃ ub asked data, moment.cause.On cl ub asked data ∧ hdr.seq = asked.seq ∧ hdr.peer = asked.peer

/-- A client owns the live object with an id. -/
def Registry.Owns (reg : Registry) (cl : Nat) (id : UInt32) : Prop :=
  ∃ obj, ubusdFindObject reg id = some obj ∧ (reg.object obj).client = some cl

/-- The message was sent by the owner of the object that its `peer` names. -/
def Relayed (moment : Moment) (hdr : Msghdr) (data : Payload) : Prop :=
  ∃ owner ub asked, moment.cause = .message owner ub asked data ∧
    moment.reg.Owns owner hdr.peer ∧ ubusSystemObjectMax ≤ hdr.peer

theorem Emission.reply_origin (emission : Emission lib reg cause dest hdr data)
    (answer : hdr.type = MsgType.status.code ∨ hdr.type = MsgType.data.code) :
    Generated ⟨reg, cause⟩ dest hdr ∨ Relayed ⟨reg, cause⟩ hdr data := by
  have isAnswer (type : MsgType) (same : hdr.type = type.code) : type = .status ∨ type = .data := by
    rw [same] at answer
    revert answer
    cases type <;> decide
  cases emission with
  | received typed _ => exact absurd (isAnswer .monitor typed) (by decide)
  | submitted _ _ typed _ => exact absurd (isAnswer .monitor typed) (by decide)
  | hello => exact absurd (isAnswer .hello rfl) (by decide)
  | pong _ => exact Or.inl ⟨_, _, _, Or.inl rfl, rfl, rfl⟩
  | reply on _ => exact Or.inl ⟨_, _, _, on, rfl, rfl⟩
  | status on => exact Or.inl ⟨_, _, _, on, rfl, rfl⟩
  | invoke => exact absurd (isAnswer .invoke rfl) (by decide)
  | notification => exact absurd (isAnswer .invoke rfl) (by decide)
  | response _ _ found mine range _ => exact Or.inr ⟨_, _, _, rfl, ⟨_, found, mine⟩, range⟩
  | event _ _ fixed _ => exact absurd (isAnswer .invoke fixed.1) (by decide)
  | numbered notice =>
    cases notice with
    | active => exact absurd (isAnswer .notify rfl) (by decide)
    | gone => exact absurd (isAnswer .unsubscribe rfl) (by decide)

/-- **Replies cannot be forged.** Whatever requests the receiver waits for, only the owner of an
object answers for it, and only the daemon for a reserved id. -/
theorem replies_authentic {lib : Libubox} {s : State} (reachable : Reachable lib s) {moment : Moment}
    {dest : Nat} {hdr : Msghdr} {data : Payload} (sent : .submit moment dest hdr data ∈ s.trace)
    (answer : hdr.type = MsgType.status.code ∨ hdr.type = MsgType.data.code) :
    (Generated moment dest hdr ∨ Relayed moment hdr data) ∧
      ∀ requests req id, ubusFindRequest hdr.seq hdr.peer requests = some (req, id) →
        (∀ other, moment.cause.client = some other → other ≠ dest →
          moment.reg.Owns other (req.awaits id)) ∧
        (req.awaits id < ubusSystemObjectMax → Generated moment dest hdr) := by
  have origin := (reachable.inv.trace _ sent).2.reply_origin answer
  refine ⟨origin, fun requests req id found => ?_⟩
  rw [(ubusFindRequest_awaits found).2.2]
  constructor
  · intro other isOther differs
    rcases origin with ⟨_, _, _, on, _⟩ | ⟨owner, _, _, cause, owns, _⟩
    · rcases on with on | on <;> rw [on] at isOther <;> exact absurd (Option.some.inj isOther).symm differs
    · rw [cause] at isOther
      exact Option.some.inj isOther ▸ owns
  · intro reserved
    exact origin.resolve_right fun ⟨_, _, _, _, _, range⟩ => absurd range (UInt32.not_le.mpr reserved)

/-- A client serves an object, another one calls it and gets an answer. -/
def callRun : List Input :=
  [connects rootCred 5000,
    receives 3 (Blob.message .addObject 1 0 [.string .objpath (cstr "foo")]) false,
    connects rootCred 6000,
    receives 5 (Blob.message .invoke 7 4001 [.int32 .objid 4001, .string .method (cstr "go")]) false,
    receives 3 (Blob.message .status 7 6000 [.int32 .status 0, .int32 .objid 4001]) false]

/-- Some message with a given receiver and header was submitted. -/
def submitted (trace : List Event) (dest : Nat) (hdr : Msghdr) : Bool :=
  trace.any fun
    | .submit _ dest' hdr' _ => decide (dest' = dest ∧ hdr' = hdr)
    | _ => false

theorem exists_of_submitted {trace : List Event} (found : submitted trace dest hdr = true) :
    ∃ moment data, .submit moment dest hdr data ∈ trace := by
  obtain ⟨event, member, holds⟩ := List.any_eq_true.mp found
  cases event with
  | accept => cases holds
  | sendObj => cases holds
  | submit moment dest' hdr' data =>
    obtain ⟨rfl, rfl⟩ := of_decide_eq_true holds
    exact ⟨moment, data, member⟩

theorem replies_authentic_call : ∃ moment data,
    .submit moment 5 { type := MsgType.status.code, seq := 7, peer := 4001 } data ∈
      (run Blob.libubox callRun State.init).trace ∧
    (moment.cause.client = some 3 → moment.reg.Owns 3 4001) := by
  have found : submitted (run Blob.libubox callRun State.init).trace 5
      { type := MsgType.status.code, seq := 7, peer := 4001 } = true := by decide +kernel
  obtain ⟨moment, data, sent⟩ := exists_of_submitted found
  obtain ⟨_, requests⟩ := replies_authentic (reachable_run _ _) sent (Or.inl rfl)
  obtain ⟨owner, _⟩ := requests [{ seq := 7, peer := 4001 }] { seq := 7, peer := 4001 } none rfl
  exact ⟨moment, data, sent, fun served => owner 3 served (by decide)⟩

/-! ### Calls -/

/-- The attribute that a put makes. -/
def Put.attr : Put → Option UbusAttr
  | .int32 id _ | .int8 id _ | .string id _ | .blob id _ | .nest id _ => some id
  | _ => none

/-- The only attribute of a kind. -/
def Only (puts : List Put) (id : UbusAttr) (put : Put) : Prop :=
  put ∈ puts ∧ ∀ other ∈ puts, other.attr = some id → other = put

/-- The only attribute of a kind, if there is one, is the given string. -/
def AtMost (puts : List Put) (id : UbusAttr) (value : Option CString) : Prop :=
  ∀ put ∈ puts, put.attr = some id → ∃ text, value = some text ∧ put = .string id text

/-- The call is for an object of the client `dest`. -/
structure Addressed (reg : Registry) (dest obj : Nat) (puts : List Put) : Prop where
  objid : Only puts .objid (.int32 .objid (reg.object obj).id)
  named : ubusdFindObject reg (reg.object obj).id = some obj
  owner : (reg.object obj).client = some dest

/-- The client made a call of the object, and was allowed to. -/
def Called (lib : Libubox) (reg : Registry) (cl : Nat) (asked : Msghdr) (body : Payload) (obj : Nat)
    (puts : List Put) : Prop :=
  asked.type = MsgType.invoke.code ∧
    (∃ objid, ubusParseMsg lib body .objid = some objid ∧
      ubusdFindObject reg (lib.blobGetU32 objid) = some obj) ∧
    ∃ method, Only puts .method (.string .method method) ∧
      ubusdAclCheck lib reg.acl.entries (some (reg.client cl).cred) (reg.object obj).path
        (some method) .access = 0

/-- The client notified the subscribers of an object it owns, and the object is one of them. -/
def Notified (lib : Libubox) (reg : Registry) (cl : Nat) (asked : Msghdr) (body : Payload)
    (obj : Nat) : Prop :=
  asked.type = MsgType.notify.code ∧ ∃ objid target sub,
    ubusParseMsg lib body .objid = some objid ∧
    ubusdFindObject reg (lib.blobGetU32 objid) = some target ∧
    (reg.object target).client = some cl ∧ sub ∈ (reg.object target).subscribers ∧
    (reg.subscription sub).subscriber = obj

/-- The client with the id `peer` is behind the call. -/
def CalledBy (lib : Libubox) (moment : Moment) (peer : UInt32) (obj : Nat) (puts : List Put) : Prop :=
  ∃ cl ub asked body, moment.cause = .message cl ub asked body ∧
    moment.reg.clients.find peer = some cl ∧
    AtMost puts .user (moment.reg.client cl).cred.user ∧
    AtMost puts .group (moment.reg.client cl).cred.group ∧
    (Called lib moment.reg cl asked body obj puts ∨ Notified lib moment.reg cl asked body obj)

/-- The call delivers an event; a reserved one is an announcement of the daemon. -/
def Delivers (lib : Libubox) (moment : Moment) (obj : Nat) (puts : List Put) : Prop :=
  ∃ rest name, puts = .int32 .objid (moment.reg.object obj).id :: rest ∧
    EventOrigin lib moment.reg moment.cause rest ∧ Only puts .method (.string .method name) ∧
    (reservedPrefix.isPrefixOf name →
      moment.cause = .aclLoad ∨ ∃ add, Occasion add moment.cause)

theorem mem_callPuts {cred : Cred} {method : CString} {data : Option Bytes}
    (plain : noReply = [] ∨ noReply = [.int8 .noReply 1]) {put : Put}
    (member : put ∈ noReply ++ invokePuts lib cred objid method data) :
    put = .int32 .objid objid ∨ put = .string .method method ∨
      (∃ user, cred.user = some user ∧ put = .string .user user) ∨
      (∃ group, cred.group = some group ∧ put = .string .group group) ∨
      put.attr = some .noReply ∨ put.attr = some .data := by
  simp only [invokePuts, List.mem_append, List.mem_cons, List.not_mem_nil, or_false,
    Option.mem_toList, Option.map_eq_some_iff] at member
  rcases member with first | ((((rfl | rfl) | ⟨user, isUser, rfl⟩) | ⟨group, isGroup, rfl⟩) | ⟨_, _, rfl⟩)
  · rcases plain with rfl | rfl
    · cases first
    · rw [List.mem_singleton.mp first]
      simp [Put.attr]
  · exact Or.inl rfl
  · exact Or.inr (Or.inl rfl)
  · exact Or.inr (Or.inr (Or.inl ⟨user, isUser, rfl⟩))
  · exact Or.inr (Or.inr (Or.inr (Or.inl ⟨group, isGroup, rfl⟩)))
  · exact Or.inr (Or.inr (Or.inr (Or.inr (Or.inr rfl))))

theorem only_callPuts (lib : Libubox) (cred : Cred) (objid : UInt32) (method : CString)
    (data : Option Bytes) (plain : noReply = [] ∨ noReply = [.int8 .noReply 1]) :
    let puts := noReply ++ invokePuts lib cred objid method data
    Only puts .objid (.int32 .objid objid) ∧ Only puts .method (.string .method method) ∧
      AtMost puts .user cred.user ∧ AtMost puts .group cred.group := by
  have kind {put : Put} {first second : UbusAttr} (differ : first ≠ second)
      (one : put.attr = some first) (two : put.attr = some second) : False :=
    differ (Option.some.inj (one.symm.trans two))
  refine ⟨⟨by simp [invokePuts], ?_⟩, ⟨by simp [invokePuts], ?_⟩, ?_, ?_⟩ <;>
    intro put member isAttr <;>
    rcases mem_callPuts plain member with
      rfl | rfl | ⟨user, isUser, rfl⟩ | ⟨group, isGroup, rfl⟩ | other | other
  all_goals first
    | rfl
    | exact ⟨_, isUser, rfl⟩
    | exact ⟨_, isGroup, rfl⟩
    | exact (kind (by decide) isAttr other).elim
    | exact (kind (by decide) isAttr rfl).elim

theorem only_event (objid : UInt32) (name : CString) (body : Put) (isData : body.attr = some .data) :
    let puts := [.int32 .objid objid, .string .method name, .int8 .noReply 1, body]
    Only puts .objid (.int32 .objid objid) ∧ Only puts .method (.string .method name) := by
  have objidAttr : (Put.int32 .objid objid).attr = some .objid := rfl
  have methodAttr : (Put.string .method name).attr = some .method := rfl
  have noReplyAttr : (Put.int8 .noReply 1).attr = some .noReply := rfl
  simp [Only, objidAttr, methodAttr, noReplyAttr, isData]

theorem EventOrigin.only {rest : List Put} (origin : EventOrigin lib reg cause rest)
    (objid : UInt32) :
    Only (.int32 .objid objid :: rest) .objid (.int32 .objid objid) ∧
      ∃ name, Only (.int32 .objid objid :: rest) .method (.string .method name) ∧
        (reservedPrefix.isPrefixOf name → cause = .aclLoad ∨ ∃ add, Occasion add cause) := by
  cases origin with
  | sent _ _ _ _ free =>
    obtain ⟨isObjid, isMethod⟩ := only_event objid _ (.blob .data (lib.blobmsgData _)) rfl
    exact ⟨isObjid, _, isMethod, fun reserved => absurd reserved free⟩
  | object _ occasion =>
    obtain ⟨isObjid, isMethod⟩ := only_event objid _ (.nest .data _) rfl
    exact ⟨isObjid, _, isMethod, fun _ => Or.inr ⟨_, occasion⟩⟩
  | acl =>
    obtain ⟨isObjid, isMethod⟩ := only_event objid _ (.nest .data _) rfl
    exact ⟨isObjid, _, isMethod, fun _ => Or.inl rfl⟩

theorem Emission.call_origin (emission : Emission lib reg cause dest hdr data)
    (call : hdr.type = MsgType.invoke.code) :
    ∃ puts obj, data = .built puts ∧ Addressed reg dest obj puts ∧
      (hdr.peer ≠ 0 → CalledBy lib ⟨reg, cause⟩ hdr.peer obj puts) ∧
      (hdr.peer = 0 → Delivers lib ⟨reg, cause⟩ obj puts) := by
  have isCall (type : MsgType) (same : hdr.type = type.code) : type = .invoke := by
    rw [same] at call
    revert call
    cases type <;> decide
  have notZero {cl : Nat} (caller : Caller reg cl) : (reg.client cl).id ≠ 0 := fun zero =>
    absurd caller.range (by rw [zero]; decide)
  cases emission with
  | received typed _ => exact absurd (isCall .monitor typed) (by decide)
  | submitted _ _ typed _ => exact absurd (isCall .monitor typed) (by decide)
  | hello => exact absurd (isCall .hello rfl) (by decide)
  | pong _ => exact absurd (isCall .data rfl) (by decide)
  | @reply _ _ _ _ _ type _ _ answer =>
    have isType := isCall type rfl
    subst isType
    cases answer
  | status _ => exact absurd (isCall .status rfl) (by decide)
  | invoke asked hasMethod hasObjid found allowed named owner caller =>
    obtain ⟨objid, method, user, group⟩ := only_callPuts lib (reg.client _).cred
      (reg.object _).id (lib.blobString _) (ubusParseMsg lib _ .data) (Or.inl rfl)
    exact ⟨_, _, rfl, ⟨objid, named, owner⟩, fun _ => ⟨_, _, _, _, rfl, caller.found, user, group,
      Or.inl ⟨asked, ⟨_, hasObjid, found⟩, _, method, allowed⟩⟩, fun zero => absurd zero (notZero caller)⟩
  | notification asked hasMethod hasObjid found mine listed named owner caller plain =>
    obtain ⟨objid, method, user, group⟩ := only_callPuts lib (reg.client _).cred
      (reg.object _).id (lib.blobString _) (ubusParseMsg lib _ .data) plain
    exact ⟨_, _, rfl, ⟨objid, named, owner⟩, fun _ => ⟨_, _, _, _, rfl, caller.found, user, group,
      Or.inr ⟨asked, _, _, _, hasObjid, found, mine, listed, rfl⟩⟩,
      fun zero => absurd zero (notZero caller)⟩
  | response asked _ _ _ _ _ =>
    rcases asked with asked | asked
    · exact absurd (isCall .status asked) (by decide)
    · exact absurd (isCall .data asked) (by decide)
  | event named owner fixed origin =>
    obtain ⟨objid, name, method, reserved⟩ := origin.only (reg.object _).id
    exact ⟨_, _, rfl, ⟨objid, named, owner⟩, fun notZero => absurd fixed.2.1 notZero,
      fun _ => ⟨_, name, rfl, origin, method, reserved⟩⟩
  | numbered notice =>
    cases notice with
    | active => exact absurd (isCall .notify rfl) (by decide)
    | gone => exact absurd (isCall .unsubscribe rfl) (by decide)

/-- **Calls carry authentic information about the caller.** -/
theorem calls_authentic {lib : Libubox} {s : State} (reachable : Reachable lib s) {moment : Moment}
    {dest : Nat} {hdr : Msghdr} {data : Payload} (sent : .submit moment dest hdr data ∈ s.trace)
    (call : hdr.type = MsgType.invoke.code) :
    ∃ puts obj, data = .built puts ∧ Addressed moment.reg dest obj puts ∧
      (hdr.peer ≠ 0 → CalledBy lib moment hdr.peer obj puts) ∧
      (hdr.peer = 0 → Delivers lib moment obj puts) :=
  (reachable.inv.trace _ sent).2.call_origin call

theorem calls_authentic_call : ∃ moment data puts,
    .submit moment 3 { type := MsgType.invoke.code, seq := 7, peer := 6000 } data ∈
      (run Blob.libubox callRun State.init).trace ∧
    data = .built puts ∧ ∃ obj, CalledBy Blob.libubox moment 6000 obj puts := by
  have found : submitted (run Blob.libubox callRun State.init).trace 3
      { type := MsgType.invoke.code, seq := 7, peer := 6000 } = true := by decide +kernel
  obtain ⟨moment, data, sent⟩ := exists_of_submitted found
  obtain ⟨puts, obj, built, _, called, _⟩ := calls_authentic (reachable_run _ _) sent rfl
  exact ⟨moment, data, puts, sent, built, obj, called (by decide)⟩

end Ubus
