/-
**What a message does to the registry and to the queues.**

Sending never changes the registry, and queues are only appended to, whether or not memory lasts. So the
work for one message of a client is one change of the registry.

* `Registry.freeObject`, `Registry.createObject` — removing and adding an object, on the registry alone.
* `Effect lib cl reg reg'` — the changes that a message of a client can make.
* `performs_dispatch`, `deals_receiveMessage`: handling a message is acts and an ending, with such an effect.
-/

import Ubus.Dispatch
import Ubus.Refine

namespace Ubus

open Lib Relation

/-- The registry is now `reg`, and apart from that messages were queued. -/
structure Mails (reg : Registry) (s s' : State) : Prop where
  reg : s'.reg = reg
  monitors : s'.net.monitors.map Monitor.cl = s.net.monitors.map Monitor.cl
  cmdQueue : ∀ cl, (s'.net.sock cl).cmdQueue = (s.net.sock cl).cmdQueue
  txQueue : ∀ cl, (s.net.sock cl).tx.txQueue <+: (s'.net.sock cl).tx.txQueue

namespace Mails

variable {reg reg' : Registry} {s s' s'' : State}

theorem refl (s : State) : Mails s.reg s s := ⟨rfl, rfl, fun _ => rfl, fun _ => List.prefix_rfl⟩

theorem trans (one : Mails reg s s') (two : Mails reg' s' s'') : Mails reg' s s'' :=
  ⟨two.reg, two.monitors.trans one.monitors, fun cl => (two.cmdQueue cl).trans (one.cmdQueue cl),
    fun cl => (one.txQueue cl).trans (two.txQueue cl)⟩

theorem andThen (one : Mails reg s s') (two : Mails s'.reg s' s'') : Mails reg s s'' :=
  one.trans (one.reg ▸ two)

theorem of_sock (same : s'.reg = reg) (monitors : s'.net.monitors = s.net.monitors)
    (sock : s'.net.sock = s.net.sock) : Mails reg s s' :=
  ⟨same, by rw [monitors], fun _ => by rw [sock], fun _ => by simp only [sock, List.prefix_rfl]⟩

end Mails

/-! ### The transport -/

section Transport

variable (lib : Libubox) {s s' : State}

/-- Whatever is sent, and whatever changes in the buffers. -/
abbrev Sent (s s' : State) : Prop := Wire (fun _ => True) (fun _ => False) (fun _ => False) s s'

theorem Wire.mails {events : Event → Prop} {keep keepFd : Nat → Prop}
    (wire : Wire events keep keepFd s s') : Mails s.reg s s' :=
  ⟨wire.reg, wire.monitors, wire.cmdQueue, wire.txQueue⟩

theorem mails_closeFd (fd : Option Nat) (s : State) : Mails s.reg s (closeFd fd s) :=
  (wire_closeFd fd s : Sent s _).mails

theorem mails_free (ub : Nat) (s : State) : Mails s.reg s (ubusMsgFree ub s) :=
  (wire_free ub s : Sent s _).mails

theorem mails_new (data : Payload) (shared : Bool) (s : State) :
    Mails s.reg s (ubusMsgNew data shared s).2 :=
  (wire_new data shared (by simp) : Sent s _).mails

theorem mails_monitorMessage (cl ub : Nat) (send : Bool) (s : State) :
    Mails s.reg s (ubusdMonitorMessage lib cl ub send s) :=
  (wire_monitorMessage lib (by simp) fun _ _ _ _ => trivial : Sent s _).mails

theorem mails_send (cl ub : Nat) (s : State) : Mails s.reg s (ubusMsgSend lib cl ub s) := by
  have logged : ∀ t, Mails t.reg t (logSubmit cl ub t) := fun t => Mails.of_sock rfl rfl rfl
  have transmitted : ∀ t, Mails t.reg t (transmit lib cl ub t) := fun t =>
    (wire_transmit lib (by simp) id : Sent t _).mails
  unfold ubusMsgSend
  split
  · exact logged s
  simp only
  split
  · exact ((mails_monitorMessage lib cl ub true s).andThen (logged _)).andThen (transmitted _)
  · exact (logged s).andThen (transmitted _)

theorem mails_sendTo (dest : Option Nat) (ub : Nat) (s : State) :
    Mails s.reg s (ubusMsgSendTo lib dest ub s) := by
  cases dest with
  | none => exact Mails.of_sock rfl rfl rfl
  | some cl => exact mails_send lib cl ub s

end Transport

/-! ### Messages -/

section Messages

variable (lib : Libubox)

theorem mails_sendNumbered (obj : Nat) (type : MsgType) (puts : List Put) (s : State) :
    Mails s.reg s (sendNumbered lib obj type puts s) := by
  have made := mails_new (.built puts) false s
  unfold sendNumbered
  rcases result : ubusMsgNew (.built puts) false s with ⟨_ | ub, t⟩
  · rw [result] at made
    exact made
  rw [result] at made
  simp only
  generalize filled : State.mapHdr ub _ _ = u
  have numbered : Mails t.reg t u := by
    rw [← filled]
    exact Mails.of_sock rfl rfl rfl
  exact ((made.andThen numbered).andThen (mails_sendTo lib _ ub u)).andThen (mails_free ub _)

theorem mails_fromBlob (dest : Option Nat) (ub : Nat) (type : MsgType) (puts : List Put) (s : State) :
    Mails s.reg s (ubusProtoSendMsgFromBlob lib dest ub type puts s) := by
  have made := mails_new (.built puts) true s
  unfold ubusProtoSendMsgFromBlob
  simp only
  rcases result : ubusMsgNew (.built puts) true s with ⟨_ | new, t⟩
  · rw [result] at made
    exact made.andThen (mails_closeFd _ t)
  rw [result] at made
  simp only
  generalize filled : State.mapBuf new _ t = u
  have addressed : Mails t.reg t u := by
    rw [← filled]
    exact Mails.of_sock rfl rfl rfl
  exact ((made.andThen addressed).andThen (mails_sendTo lib dest new u)).andThen (mails_free new _)

theorem mails_sendEventMsg (cl : Option Nat) (obj : Nat) (rest : List Put) (ub : Option Nat)
    (s : State) : Mails s.reg s (ubusdSendEventMsg lib cl obj rest ub s).2.2 := by
  have marked : Mails s.reg s (markSeen obj s) := Mails.of_sock rfl rfl rfl
  have filled : Mails s.reg s (eventFill rest ub (markSeen obj s)).2 := by
    unfold eventFill
    cases ub with
    | some ub => exact marked
    | none =>
      have made := mails_new (.built (.int32 .objid 0 :: rest)) true (markSeen obj s)
      simp only
      rcases result : ubusMsgNew (.built (.int32 .objid 0 :: rest)) true (markSeen obj s) with
        ⟨_ | new, t⟩
      · rw [result] at made
        exact marked.andThen made
      · rw [result] at made
        exact (marked.andThen made).andThen (Mails.of_sock rfl rfl rfl)
  unfold ubusdSendEventMsg
  split
  · exact Mails.refl s
  split
  · exact Mails.refl s
  rcases result : eventFill rest ub (markSeen obj s) with ⟨_ | new, t⟩
  · rw [result] at filled
    exact filled
  rw [result] at filled
  simp only [eventDeliver]
  generalize numbered : State.mapBuf new _ _ = u
  have addressed : Mails t.reg t u := by
    rw [← numbered]
    exact Mails.of_sock rfl rfl rfl
  exact (filled.andThen addressed).andThen (mails_sendTo lib _ new u)

theorem mails_sendEvent (cl : Option Nat) (id : CString) (rest : List Put) (s : State) :
    Mails s.reg s (ubusdSendEvent lib cl id rest s).2 := by
  have walked : Mails s.reg s (eventWalk lib cl id rest (bumpObjEventSeq s)).2.2 := by
    refine prunedWalk_invariant (fun acc : Status × Option Nat × State => Mails s.reg s acc.2.2) _ ?_
      _ _ (Mails.of_sock rfl rfl rfl)
    exact fun node _ acc mails => mails.andThen (mails_sendEventMsg lib cl _ rest acc.2.1 acc.2.2)
  unfold ubusdSendEvent
  split
  · exact Mails.refl s
  generalize eventWalk lib cl id rest (bumpObjEventSeq s) = result at walked ⊢
  obtain ⟨ret, _ | ub, t⟩ := result
  · exact walked
  · exact walked.andThen (mails_free ub t)

end Messages

/-! ### Objects and subscriptions -/

section Objects

variable (lib : Libubox)

/-- The subscriptions end. -/
def Registry.unlinkAll (subs : List Nat) (reg : Registry) : Registry :=
  subs.foldl (fun reg sub => unlinkSubscription sub reg) reg

/-- `ubusd_free_object`, without the messages. -/
def Registry.freeObject (obj : Nat) (reg : Registry) : Registry :=
  let reg := reg.unlinkAll (reg.object obj).targetList
  let reg := reg.unlinkAll (reg.object obj).subscribers
  dropObject obj (ubusdEventCleanupObject obj reg)

/-- `ubusd_create_object`, without the messages. -/
def Registry.createObject (cl : Nat) (attr : Attrs) (rnd : List UInt32) (reg : Registry) :
    Option Nat × Registry :=
  let (obj, _, reg) := allocObject lib attr rnd reg
  match obj with
  | none => (none, reg)
  | some obj =>
    match attr .objpath with
    | none => (some obj, linkObject cl obj reg)
    | some objpath =>
      let key := lib.blobString objpath
      if ubusdAclCheck lib reg.acl.entries (some (reg.client cl).cred) (some key) none
          .publish ≠ 0 then (none, reg.freeObject obj)
      else
        match insertPath obj key reg with
        | none => (none, reg.freeObject obj)
        | some reg => (some obj, linkObject cl obj reg)

/-- **One thing that is done for a message.** The buffers of `own` are those that the handler may
change, as the one of the received message. -/
inductive Act (own : Nat → Prop) (s : State) : State → Prop where
  | set (reg : Registry) (rnd : List UInt32) (fault : Bool) : Act own s { s with reg, rnd, fault }
  | log (cl ub obj : Nat) : Act own s (s.log (.sendObj s.moment cl ub obj))
  | blob (dest : Option Nat) (ub : Nat) (type : MsgType) (puts : List Put) :
      Act own s (ubusProtoSendMsgFromBlob lib dest ub type puts s)
  | numbered (obj : Nat) (type : MsgType) (puts : List Put) : Act own s (sendNumbered lib obj type puts s)
  | event (cl : Option Nat) (id : CString) (rest : List Put) :
      Act own s (ubusdSendEvent lib cl id rest s).2
  | touch {ub : Nat} (mine : own ub) {f : MsgBuf → MsgBuf}
      (refcount : ∀ buf, (f buf).refcount = buf.refcount) : Act own s (s.mapBuf ub f)

/-- **Acts that lead to the registry** `reg`. -/
structure Acts (own : Nat → Prop) (reg : Registry) (s s' : State) : Prop where
  path : ReflTransGen (Act lib own) s s'
  reg : s'.reg = reg

variable {lib} {own : Nat → Prop} {reg reg' : Registry} {s s' s'' : State}

theorem Act.mails (act : Act lib own s s') : Mails s'.reg s s' := by
  cases act with
  | set => exact Mails.of_sock rfl rfl rfl
  | log => exact Mails.of_sock rfl rfl rfl
  | blob dest ub type puts =>
    have sent := mails_fromBlob lib dest ub type puts s
    exact sent.reg ▸ sent
  | numbered obj type puts =>
    have sent := mails_sendNumbered lib obj type puts s
    exact sent.reg ▸ sent
  | event cl id rest =>
    have sent := mails_sendEvent lib cl id rest s
    exact sent.reg ▸ sent
  | touch => exact Mails.of_sock rfl rfl rfl

/-- No buffer. -/
def Nothing (_ub : Nat) : Prop := False

namespace Acts

theorem refl (s : State) : Acts lib own s.reg s s := ⟨.refl, rfl⟩

theorem trans (one : Acts lib own reg s s') (two : Acts lib own reg' s' s'') : Acts lib own reg' s s'' :=
  ⟨one.path.trans two.path, two.reg⟩

theorem andThen (one : Acts lib own reg s s') (two : Acts lib own s'.reg s' s'') : Acts lib own reg s s'' :=
  one.trans (one.reg ▸ two)

theorem mails (acts : Acts lib own reg s s') : Mails reg s s' := by
  obtain ⟨path, rfl⟩ := acts
  induction path with
  | refl => exact Mails.refl s
  | tail _ act ih => exact ih.trans act.mails

theorem mapReg (f : Registry → Registry) (s : State) : Acts lib own (f s.reg) s (s.mapReg f) :=
  ⟨.single (.set (f s.reg) s.rnd s.fault), rfl⟩

theorem blob (dest : Option Nat) (ub : Nat) (type : MsgType) (puts : List Put) (s : State) :
    Acts lib own s.reg s (ubusProtoSendMsgFromBlob lib dest ub type puts s) :=
  ⟨.single (.blob ..), (mails_fromBlob lib dest ub type puts s).reg⟩

theorem numbered (obj : Nat) (type : MsgType) (puts : List Put) (s : State) :
    Acts lib own s.reg s (sendNumbered lib obj type puts s) :=
  ⟨.single (.numbered ..), (mails_sendNumbered lib obj type puts s).reg⟩

theorem event (cl : Option Nat) (id : CString) (rest : List Put) (s : State) :
    Acts lib own s.reg s (ubusdSendEvent lib cl id rest s).2 :=
  ⟨.single (.event ..), (mails_sendEvent lib cl id rest s).reg⟩

theorem weaken (acts : Acts lib Nothing reg s s') : Acts lib own reg s s' := by
  refine ⟨ReflTransGen.mono (fun _ _ act => ?_) _ _ acts.path, acts.reg⟩
  cases act with
  | set reg rnd fault => exact .set reg rnd fault
  | log cl ub obj => exact .log cl ub obj
  | blob dest ub type puts => exact .blob dest ub type puts
  | numbered obj type puts => exact .numbered obj type puts
  | event cl id rest => exact .event cl id rest
  | touch mine _ => exact mine.elim

theorem foldl {ι : Type} {body : State → ι → State} {f : Registry → ι → Registry}
    (round : ∀ s item, Acts lib own (f s.reg item) s (body s item)) (items : List ι) (s : State) :
    Acts lib own (items.foldl f s.reg) s (items.foldl body s) := by
  induction items generalizing s with
  | nil => exact refl s
  | cons item rest ih =>
    have later := ih (body s item)
    rw [(round s item).reg] at later
    exact (round s item).trans later

theorem loop {ι : Type} {body : State → ι → State} (round : ∀ s item, Acts lib own s.reg s (body s item))
    (items : List ι) (s : State) : Acts lib own s.reg s (items.foldl body s) := by
  have all := foldl (f := fun reg _ => reg) round items s
  rwa [List.foldl_fixed] at all

end Acts

theorem acts_subscribe (obj target : Nat) (s : State) :
    Acts lib own (newSubscription obj target s.reg) s (ubusSubscribe lib obj target s).2 := by
  have linked : Acts lib own _ s _ := Acts.mapReg (newSubscription obj target) s
  unfold ubusSubscribe
  simp only
  split
  · exact linked.andThen (Acts.numbered target _ _ _)
  · exact linked

theorem acts_unsubscribe (s : State) (sub : Nat) :
    Acts lib own (unlinkSubscription sub s.reg) s (ubusUnsubscribe lib s sub) := by
  have unlinked : Acts lib own _ s _ := Acts.mapReg (unlinkSubscription sub) s
  unfold ubusUnsubscribe
  simp only
  split
  · exact unlinked.andThen (Acts.numbered _ _ _ _)
  · exact unlinked

theorem acts_notifyUnsubscribe (s : State) (sub : Nat) :
    Acts lib own (unlinkSubscription sub s.reg) s (ubusNotifyUnsubscribe lib s sub) := by
  unfold ubusNotifyUnsubscribe
  simp only
  generalize notified : sendNumbered lib _ _ _ s = t
  have told : Acts lib own s.reg s t := notified ▸ Acts.numbered _ _ _ s
  have ended : Acts lib own _ t _ := acts_unsubscribe t sub
  rw [told.reg] at ended
  exact told.trans ended

theorem acts_freeObject (s : State) (obj : Nat) :
    Acts lib own (s.reg.freeObject obj) s (ubusdFreeObject lib s obj) := by
  have targets : Acts lib own (s.reg.unlinkAll (s.reg.object obj).targetList) s _ :=
    Acts.foldl acts_unsubscribe _ s
  unfold ubusdFreeObject Registry.freeObject
  simp only
  generalize (s.reg.object obj).targetList.foldl (ubusUnsubscribe lib) s = t at targets ⊢
  rw [← targets.reg]
  have subscribers : Acts lib own (t.reg.unlinkAll (t.reg.object obj).subscribers) t _ :=
    Acts.foldl acts_notifyUnsubscribe _ t
  generalize (t.reg.object obj).subscribers.foldl (ubusNotifyUnsubscribe lib) t = u at subscribers ⊢
  rw [← subscribers.reg]
  have cleaned : Acts lib own _ u _ := Acts.mapReg (ubusdEventCleanupObject obj) u
  generalize u.mapReg (ubusdEventCleanupObject obj) = v at cleaned ⊢
  have announced : Acts lib own v.reg v (announceRemoval lib obj v) := by
    unfold announceRemoval
    split
    · exact Acts.refl v
    · exact Acts.event none _ _ v
  have dropped : Acts lib own _ _ _ := Acts.mapReg (dropObject obj) (announceRemoval lib obj v)
  rw [announced.reg, cleaned.reg] at dropped
  exact (((targets.trans subscribers).trans cleaned).andThen announced).trans dropped

theorem acts_createObject (cl : Nat) (attr : Attrs) (s : State) :
    Acts lib own (s.reg.createObject lib cl attr s.rnd).2 s (ubusdCreateObject lib cl attr s).2 := by
  have set : ∀ reg rnd, Acts lib own reg s { s with reg, rnd } := fun reg rnd =>
    ⟨.single (.set reg rnd s.fault), rfl⟩
  unfold ubusdCreateObject Registry.createObject
  rcases allocObject lib attr s.rnd s.reg with ⟨_ | obj, rnd, reg⟩
  · exact set reg rnd
  have freed := (set reg rnd).trans (acts_freeObject { s with reg, rnd } obj)
  simp only
  cases attr .objpath with
  | none => exact (set reg rnd).trans (Acts.mapReg (linkObject cl obj) { s with reg, rnd })
  | some objpath =>
    simp only
    split
    · exact freed
    rcases insertPath obj _ reg with _ | after
    · exact freed
    have announced : Acts lib own after s (ubusdSendObjEvent lib obj true { s with reg := after, rnd }) :=
      (set after rnd).andThen (Acts.event none _ _ _)
    have linked : Acts lib own _ _ _ := Acts.mapReg (linkObject cl obj)
      (ubusdSendObjEvent lib obj true { s with reg := after, rnd })
    rw [announced.reg] at linked
    exact announced.trans linked

theorem acts_sendObj (cl ub obj : Nat) (s : State) : Acts lib own s.reg s (ubusdSendObj lib cl ub obj s) := by
  have logged : Acts lib own s.reg s (s.log (.sendObj s.moment cl ub obj)) := ⟨.single (.log ..), rfl⟩
  unfold ubusdSendObj
  simp only
  split
  · exact logged
  · split
    · exact logged
    · exact logged.andThen (Acts.blob _ ub _ _ _)

theorem acts_sendObjs (cl ub : Nat) (nodes : AvlTree CString) (s : State) :
    Acts lib own s.reg s (sendObjs lib cl ub nodes s) :=
  Acts.loop (by exact fun s node => acts_sendObj cl ub node.2 s) nodes s

end Objects

/-! ### Messages of a client -/

/-- **What a message of a client can do to the registry.** -/
inductive Effect (lib : Libubox) (cl : Nat) (reg : Registry) : Registry → Prop where
  | same : Effect lib cl reg reg
  | created (attr : Attrs) (rnd : List UInt32) :
      Effect lib cl reg (reg.createObject lib cl attr rnd).2
  | freed {obj : Nat} (has : reg.HasObject obj) (mine : (reg.object obj).client = some cl) :
      Effect lib cl reg (reg.freeObject obj)
  | subscribed {obj target owner : Nat} (has : reg.HasObject obj)
      (mine : (reg.object obj).client = some cl) (hasTarget : reg.HasObject target)
      (owned : (reg.object target).client = some owner) (differs : cl ≠ owner) :
      Effect lib cl reg (newSubscription obj target reg)
  | unsubscribed {obj sub : Nat} (has : reg.HasObject obj)
      (mine : (reg.object obj).client = some cl) (listed : sub ∈ (reg.object obj).targetList) :
      Effect lib cl reg (unlinkSubscription sub reg)
  | registered {obj : Nat} (has : reg.HasObject obj) (mine : (reg.object obj).client = some cl)
      (key : CString) (isPartial : Bool) : Effect lib cl reg (newEventSource obj key isPartial reg)

/-- **Only one client is concerned**: the others keep their monitors and their queued commands, and
messages are appended to what is queued for them. -/
structure Apart (cl : Nat) (s s' : State) : Prop where
  monitors : ∀ other, other ≠ cl → (other ∈ s'.net.monitors.map Monitor.cl ↔
    other ∈ s.net.monitors.map Monitor.cl)
  cmdQueue : ∀ other, other ≠ cl → (s'.net.sock other).cmdQueue = (s.net.sock other).cmdQueue
  txQueue : ∀ other, other ≠ cl →
    (s.net.sock other).tx.txQueue <+: (s'.net.sock other).tx.txQueue

/-- A message of a client was handled: one change of the registry, and only the client itself is
concerned. -/
structure Deals (lib : Libubox) (cl : Nat) (s s' : State) : Prop where
  effect : Effect lib cl s.reg s'.reg
  apart : Apart cl s s'

section Deals

variable {lib : Libubox} {cl : Nat} {s t s' : State} {reg : Registry}

theorem Apart.trans (one : Apart cl s t) (two : Apart cl t s') : Apart cl s s' where
  monitors other differs := (two.monitors other differs).trans (one.monitors other differs)
  cmdQueue other differs := (two.cmdQueue other differs).trans (one.cmdQueue other differs)
  txQueue other differs := (one.txQueue other differs).trans (two.txQueue other differs)

theorem Mails.apart (mails : Mails reg s s') : Apart cl s s' :=
  ⟨fun _ _ => by rw [mails.monitors], fun other _ => mails.cmdQueue other,
    fun other _ => mails.txQueue other⟩

theorem Apart.of_sock (monitors : ∀ other, other ≠ cl → (other ∈ s'.net.monitors.map Monitor.cl ↔
      other ∈ s.net.monitors.map Monitor.cl))
    (sock : ∀ other, other ≠ cl → s'.net.sock other = s.net.sock other) : Apart cl s s' :=
  ⟨monitors, fun other differs => by rw [sock other differs], fun other differs => by
    simp only [sock other differs, List.prefix_rfl]⟩

theorem Apart.mapSock (cl : Nat) (f : Sock → Sock) (s : State) : Apart cl s (s.mapSock cl f) :=
  Apart.of_sock (fun _ _ => Iff.rfl) fun _ differs => mapSock_of_ne s differs f

theorem Mails.deals (mails : Mails reg s s') (effect : Effect lib cl s.reg reg) :
    Deals lib cl s s' := ⟨mails.reg ▸ effect, mails.apart⟩

theorem Deals.after (deals : Deals lib cl t s') (mails : Mails s.reg s t) : Deals lib cl s s' := by
  refine ⟨?_, mails.apart.trans deals.apart⟩
  rw [← mails.reg]
  exact deals.effect

theorem Deals.andThen (deals : Deals lib cl s t) (mails : Mails t.reg t s') : Deals lib cl s s' := by
  refine ⟨?_, deals.apart.trans mails.apart⟩
  rw [mails.reg]
  exact deals.effect

theorem apart_monitorDisconnect (cl : Nat) (s : State) : Apart cl s (ubusdMonitorDisconnect cl s) := by
  refine Apart.of_sock (fun other differs => ?_) fun _ _ => rfl
  simp only [ubusdMonitorDisconnect, List.mem_map]
  refine exists_congr fun m => and_congr_left fun same => ?_
  exact List.mem_eraseP_of_neg (by simpa [same] using differs)

/-- **How a handler may end**: the message itself is sent on, if `sends` holds; it is queued; or the
client ceases to be a monitor, or becomes one, if `watch` holds. -/
inductive Ending (lib : Libubox) (cl ub : Nat) (watch sends : Prop) (s : State) : State → Prop where
  | done : Ending lib cl ub watch sends s s
  | sent (may : sends) (dest : Nat) : Ending lib cl ub watch sends s (ubusMsgSend lib dest ub s)
  | queued {f : Sock → Sock} (tx : ∀ sock, (f sock).tx = sock.tx)
      (retmsg : ∀ sock, (f sock).retmsg = sock.retmsg) : Ending lib cl ub watch sends s (s.mapSock cl f)
  | left : Ending lib cl ub watch sends s (ubusdMonitorDisconnect cl s)
  | joined (adds : watch) : Ending lib cl ub watch sends s (ubusdMonitorConnect cl s)

variable {ub : Nat} {watch sends : Prop}

theorem Ending.same (ending : Ending lib cl ub watch sends s s') : s'.reg = s.reg := by
  cases ending with
  | sent may dest => exact (mails_send lib dest ub s).reg
  | done | queued | left | joined => rfl

theorem Ending.apart (ending : Ending lib cl ub watch sends s s') : Apart cl s s' := by
  cases ending with
  | done => exact (Mails.refl s).apart
  | sent may dest => exact (mails_send lib dest ub s).apart
  | queued => exact Apart.mapSock cl _ s
  | left => exact apart_monitorDisconnect cl s
  | joined =>
    refine (apart_monitorDisconnect cl s).trans (Apart.of_sock (fun other differs => ?_) fun _ _ => rfl)
    simp [ubusdMonitorConnect, differs]

/-- **What the handler of a message does**: acts with an effect on the registry, and an ending. -/
structure Performs (lib : Libubox) (cl ub : Nat) (watch sends : Prop) (s s' : State) : Prop where
  effect : Effect lib cl s.reg s'.reg
  acts : ∃ t, ReflTransGen (Act lib (· = ub)) s t ∧ Ending lib cl ub watch sends t s'

theorem Performs.deals (performs : Performs lib cl ub watch sends s s') : Deals lib cl s s' := by
  obtain ⟨effect, t, path, ending⟩ := performs
  exact ⟨effect, (Acts.mk path rfl).mails.apart.trans ending.apart⟩

theorem Acts.performs (acts : Acts lib (· = ub) reg s s') (effect : Effect lib cl s.reg reg) :
    Performs lib cl ub watch sends s s' := ⟨acts.reg ▸ effect, s', acts.path, .done⟩

theorem Acts.ends (acts : Acts lib (· = ub) s.reg s t) (ending : Ending lib cl ub watch sends t s') :
    Performs lib cl ub watch sends s s' :=
  ⟨(ending.same.trans acts.reg).symm ▸ .same, t, acts.path, ending⟩

theorem Performs.refl (s : State) : Performs lib cl ub watch sends s s := (Acts.refl s).performs .same

end Deals

/-- The message asks the monitor object to add a monitor. -/
def AddsMonitor (lib : Libubox) (reg : Registry) (attr : Attrs) : Prop :=
  ∃ method objid obj, attr .method = some method ∧ attr .objid = some objid ∧
    ubusdFindObject reg (lib.blobGetU32 objid) = some obj ∧ (reg.object obj).client = none ∧
    (reg.object obj).recvMsg = some .monitor ∧ lib.blobString method = cstr "add"

theorem has_of_found {reg : Registry} {id : UInt32} {obj : Nat}
    (found : ubusdFindObject reg id = some obj) : reg.HasObject obj :=
  AvlTree.has_of_mem (AvlTree.mem_of_find found)

section Handlers

variable {lib : Libubox} {cl ub : Nat} {attr : Attrs} {s : State} {watch sends : Prop}

theorem acts_touch {f : MsgBuf → MsgBuf} (refcount : ∀ buf, (f buf).refcount = buf.refcount) :
    Acts lib (· = ub) s.reg s (s.mapBuf ub f) := ⟨.single (.touch (by exact rfl) refcount), rfl⟩

theorem performs_pong (may : sends) : Performs lib cl ub watch sends s (ubusdSendPong lib cl ub attr s).2 := by
  unfold ubusdSendPong
  exact Acts.ends (acts_touch (by exact fun _ => rfl)) (.sent may cl)

theorem performs_removeObject :
    Performs lib cl ub watch sends s (ubusdHandleRemoveObject lib cl ub attr s).2 := by
  unfold ubusdHandleRemoveObject
  split
  · exact .refl s
  split
  · exact .refl s
  rename_i obj found
  split
  · exact .refl s
  rename_i mine
  simp only
  generalize replied : ubusProtoSendMsgFromBlob lib _ ub _ _ s = t
  have told : Acts lib (· = ub) s.reg s t := replied ▸ Acts.blob _ ub _ _ s
  have freed : Acts lib (· = ub) _ t _ := acts_freeObject t obj
  rw [told.reg] at freed
  exact (told.trans freed).performs (.freed (has_of_found found) (not_not.mp mine))

theorem performs_addObject : Performs lib cl ub watch sends s (ubusdHandleAddObject lib cl ub attr s).2 := by
  have made : Acts lib (· = ub) _ s _ := acts_createObject cl attr s
  unfold ubusdHandleAddObject
  rcases result : ubusdCreateObject lib cl attr s with ⟨_ | obj, t⟩
  · rw [result] at made
    exact made.performs (.created attr s.rnd)
  · rw [result] at made
    exact (made.andThen (Acts.blob _ ub _ _ t)).performs (.created attr s.rnd)

theorem ending_queueAdd (path : Option CString) (s : State) :
    Ending lib cl ub watch sends s (ubusClientCmdQueueAdd cl ub path s).2 := by
  simp only [ubusClientCmdQueueAdd]
  exact .queued (by exact fun _ => rfl) (by exact fun _ => rfl)

theorem performs_handleLookup (attr : Attrs) (cmd : Option ClientCmd) (s : State) :
    ∃ t, Acts lib Nothing s.reg s t ∧
      Ending lib cl ub watch sends t (handleLookup lib cl ub attr cmd s).2 := by
  obtain ⟨sent, -, -, ⟨status, result, -⟩ | ⟨node, others, -, -, -, result⟩⟩ :=
    handleLookup_eq lib cl ub attr cmd s
  · rw [result]
    exact ⟨_, acts_sendObjs cl ub sent s, .done⟩
  rw [result]
  refine ⟨_, acts_sendObjs cl ub sent s, ?_⟩
  cases cmd with
  | none => exact ending_queueAdd (some node.1) _
  | some cmd =>
    show Ending lib cl ub watch sends _ (setLookupPath cl node.1 _)
    unfold setLookupPath
    exact .queued (by exact fun _ => rfl) (by exact fun _ => rfl)

theorem performs_lookup : Performs lib cl ub watch sends s (ubusdHandleLookup lib cl ub attr s).2 := by
  unfold ubusdHandleLookup
  split
  · obtain ⟨t, acts, ending⟩ : ∃ t, Acts lib Nothing s.reg s t ∧ _ := performs_handleLookup attr none s
    exact acts.weaken.ends ending
  · exact (Acts.refl s).ends (ending_queueAdd none s)

theorem performs_eventRecv (method : CString) (msg : Option Bytes) :
    Performs lib cl ub watch sends s (ubusdEventRecv lib cl method msg s).2 := by
  unfold ubusdEventRecv
  split
  · have set : Acts lib (· = ub) (ubusdAllocEventPattern lib cl msg s.reg).2 s
        { s with reg := (ubusdAllocEventPattern lib cl msg s.reg).2 } :=
      ⟨.single (.set _ s.rnd s.fault), rfl⟩
    refine set.performs ?_
    unfold ubusdAllocEventPattern
    split
    · exact .same
    simp only
    split
    · split
      · exact .same
      split
      · exact .same
      rename_i obj found
      split
      · exact .same
      rename_i mine
      split
      · exact .same
      · split
        · exact .same
        · exact .registered (has_of_found found) (not_not.mp mine) _ _
    · exact .same
  · split
    · unfold ubusdForwardEvent
      split
      · exact .refl s
      simp only
      split
      · split
        · exact .refl s
        · exact (Acts.event _ _ _ s).performs .same
      · exact .refl s
    · exact .refl s

theorem performs_recvMsg (recv : Option RecvMsg) (method : CString) (data : Option Bytes)
    (adds : recv = some .monitor → method = cstr "add" → watch) :
    Performs lib cl ub watch sends s (recvMsg lib recv cl ub method data s).2 := by
  unfold recvMsg
  split
  · exact Acts.performs ⟨.single (.set s.reg s.rnd true), rfl⟩ .same
  · exact performs_eventRecv method data
  · unfold ubusdAclRecv
    split
    · unfold ubusdReplyQuery
      split
      · exact .refl s
      · split
        · exact .refl s
        · exact (Acts.blob _ ub _ _ s).performs .same
    · exact .refl s
  · unfold ubusdMonitorRecv
    simp only
    split
    · exact .refl s
    split
    · exact (Acts.refl s).ends (.joined (adds rfl ‹_›))
    · split
      · exact (Acts.refl s).ends .left
      · exact .refl s

theorem performs_invoke (adds : AddsMonitor lib s.reg attr → watch) :
    Performs lib cl ub watch sends s (ubusdHandleInvoke lib cl ub attr s).2 := by
  unfold ubusdHandleInvoke
  split
  · rename_i method objid hasMethod hasObjid
    split
    · exact .refl s
    rename_i obj found
    simp only
    split
    · exact .refl s
    split
    · rename_i unowned
      exact performs_recvMsg _ _ _ fun recv add =>
        adds ⟨method, objid, obj, hasMethod, hasObjid, found, unowned, recv, add⟩
    generalize addressed : s.mapHdr ub _ = t
    have moved : Acts lib (· = ub) s.reg s t := addressed ▸ acts_touch (by exact fun _ => rfl)
    generalize forwarded : ubusdForwardInvoke lib cl _ _ ub _ _ t = u
    have sent : Acts lib (· = ub) s.reg s u := forwarded ▸ moved.andThen (Acts.blob _ ub _ _ t)
    have closed : Acts lib (· = ub) u.reg u (u.mapBuf ub fun buf => { buf with fd := none }) :=
      acts_touch fun _ => rfl
    exact (sent.andThen closed).performs .same
  · exact .refl s

theorem performs_notify : Performs lib cl ub watch sends s (ubusdHandleNotify lib cl ub attr s).2 := by
  unfold ubusdHandleNotify
  split
  · simp only
    generalize Option.any _ (attr .noReply) = quiet
    split
    · exact .refl s
    rename_i obj _
    split
    · exact .refl s
    generalize told : (if quiet then s else ubusProtoSendMsgFromBlob lib (some cl) ub .status
      (notifyStatusPuts s.reg obj) s) = t
    have first : Acts lib (· = ub) s.reg s t := by
      rw [← told]
      split
      · exact .refl s
      · exact .blob _ ub _ _ s
    generalize addressed : t.mapHdr ub _ = u
    have moved : Acts lib (· = ub) s.reg s u := first.andThen (addressed ▸ acts_touch (by exact fun _ => rfl))
    exact (moved.andThen (Acts.loop (fun u sub => Acts.blob _ ub _ _ u) _ _)).performs .same
  · exact .refl s

theorem performs_response (may : sends) :
    Performs lib cl ub watch sends s (ubusdHandleResponse lib cl ub attr s).2 := by
  unfold ubusdHandleResponse
  split
  · exact .refl s
  split
  · exact .refl s
  split
  · exact .refl s
  split
  · exact .refl s
  split
  · exact .refl s
  · exact Acts.ends (acts_touch (by exact fun _ => rfl)) (.sent may _)

theorem performs_addWatch : Performs lib cl ub watch sends s (ubusdHandleAddWatch lib cl ub attr s).2 := by
  unfold ubusdHandleAddWatch
  split
  · split
    · exact .refl s
    rename_i obj found
    split
    · exact .refl s
    rename_i mine
    split
    · exact .refl s
    rename_i target found'
    split
    · exact .refl s
    rename_i owner owned
    split
    · exact .refl s
    rename_i differs
    split
    · exact .refl s
    · exact (acts_subscribe obj target s).performs (.subscribed (has_of_found found)
        (not_not.mp mine) (has_of_found found') owned (Ne.symm differs))
  · exact .refl s

theorem performs_removeWatch :
    Performs lib cl ub watch sends s (ubusdHandleRemoveWatch lib cl ub attr s).2 := by
  unfold ubusdHandleRemoveWatch
  split
  · split
    · exact .refl s
    rename_i obj found
    split
    · exact .refl s
    rename_i mine
    split
    · exact .refl s
    · rename_i sub listed
      exact (acts_unsubscribe s sub).performs (.unsubscribed (has_of_found found)
        (not_not.mp mine) (List.mem_of_find?_eq_some listed))
  · exact .refl s

/-- **The handler of a message** sends the message on itself only if it is no lookup. -/
theorem performs_dispatch (lib : Libubox) (cl ub : Nat) (s : State) :
    Performs lib cl ub ((s.buf ub).hdr.type = MsgType.invoke.code ∧
        AddsMonitor lib s.reg (ubusParseMsg lib (s.buf ub).data))
      ((s.buf ub).hdr.type ≠ MsgType.lookup.code) s (dispatch lib cl ub s).2 := by
  unfold dispatch
  rcases known : MsgType.ofCode? (s.buf ub).hdr.type with _ | type
  · exact .refl s
  have code := MsgType.code_of_ofCode? known
  have other : type ≠ .lookup → (s.buf ub).hdr.type ≠ MsgType.lookup.code := fun differs same =>
    differs (MsgType.code_injective (code.trans same))
  generalize ubusParseMsg lib (s.buf ub).data = attr
  cases type with
  | hello => exact .refl s
  | monitor => exact .refl s
  | ping => exact performs_pong (other nofun)
  | addObject => exact performs_addObject
  | removeObject => exact performs_removeObject
  | lookup => exact performs_lookup
  | invoke => exact performs_invoke fun adds => ⟨code.symm, adds⟩
  | status => exact performs_response (other nofun)
  | data => exact performs_response (other nofun)
  | subscribe => exact performs_addWatch
  | unsubscribe => exact performs_removeWatch
  | notify => exact performs_notify

variable (lib cl ub s)

theorem mails_sendStatus (status : Status) : Mails s.reg s (sendStatus lib cl status s) := by
  unfold sendStatus
  split
  · exact Mails.of_sock rfl rfl rfl
  rename_i retmsg _
  generalize filled : s.mapBuf retmsg _ = t
  have set : Mails s.reg s t := by
    rw [← filled]
    exact Mails.of_sock rfl rfl rfl
  exact set.andThen (mails_send lib cl retmsg t)

theorem mails_setRetmsg : Mails s.reg s (setRetmsg cl ub s) := by
  unfold setRetmsg
  split <;> exact Mails.of_sock rfl rfl rfl

theorem mails_prepare : Mails s.reg s (dropFd ub (setRetmsg cl ub s)) := by
  have prepared := mails_setRetmsg cl ub s
  unfold dropFd ubusMsgCloseFd
  split
  · exact (prepared.andThen (mails_closeFd _ _)).andThen (Mails.of_sock rfl rfl rfl)
  · exact prepared

/-- **`ubusd_proto_receive_message` makes one change of the registry.** -/
theorem deals_receiveMessage : Deals lib cl s (ubusdProtoReceiveMessage lib cl ub s) := by
  have dropped := mails_prepare cl ub s
  unfold ubusdProtoReceiveMessage
  simp only
  generalize dropFd ub (setRetmsg cl ub s) = t at dropped ⊢
  have deals := (performs_dispatch lib cl ub t).deals.after dropped
  generalize dispatch lib cl ub t = result at deals ⊢
  obtain ⟨_ | _ | _, u⟩ := result
  · exact (deals.andThen (mails_free ub u)).andThen (mails_sendStatus lib cl _ _)
  · exact deals.andThen (mails_free ub u)
  · exact deals

end Handlers

/-! ### A client goes -/

section Disconnect

variable (lib : Libubox) (cl : Nat)

/-- `handle_client_disconnect`, on the registry alone. -/
def Registry.disconnect (reg : Registry) : Registry :=
  let reg := (reg.client cl).objects.foldl (fun reg obj => reg.freeObject obj) reg
  { reg with clients := reg.clients.delete cl }

/-- Only the client is concerned, and not in the registry. -/
structure Clears (s s' : State) : Prop where
  apart : Apart cl s s'
  reg : s'.reg = s.reg

variable {cl}

theorem Clears.trans {s t s' : State} (one : Clears cl s t) (two : Clears cl t s') : Clears cl s s' :=
  ⟨one.apart.trans two.apart, two.reg.trans one.reg⟩

theorem Mails.clears {s s' : State} (mails : Mails s.reg s s') : Clears cl s s' :=
  ⟨mails.apart, mails.reg⟩

theorem Clears.mapSock (f : Sock → Sock) (s : State) : Clears cl s (s.mapSock cl f) :=
  ⟨Apart.mapSock cl f s, rfl⟩

theorem Clears.foldl {ι : Type} {body : State → ι → State}
    (round : ∀ s item, Clears cl s (body s item)) (items : List ι) (s : State) :
    Clears cl s (items.foldl body s) := by
  induction items generalizing s with
  | nil => exact (Mails.refl s).clears
  | cons item rest ih => exact (round s item).trans (ih (body s item))

theorem clears_cmdFree (s : State) (cmd : ClientCmd) : Clears cl s (ubusClientCmdFree cl s cmd) :=
  (Clears.mapSock _ s).trans (mails_free cmd.msg _).clears

theorem clears_msgListFree (s : State) (ub : Nat) : Clears cl s (ubusMsgListFree cl s ub) :=
  (Clears.mapSock _ s).trans (mails_free ub _).clears

theorem clears_freeRetmsg (s : State) : Clears cl s (freeRetmsg cl s) := by
  unfold freeRetmsg
  split
  · exact (Mails.refl s).clears
  · exact (Clears.mapSock _ s).trans (mails_free _ _).clears

theorem clears_dropPending (s : State) : Clears cl s (dropPending cl s) := by
  unfold dropPending
  simp only
  generalize cleared : s.mapRx cl _ = t
  have first : Clears cl s t := cleared ▸ Clears.mapSock _ s
  have closed := first.trans (mails_closeFd (s.rx cl).pendingMsgFd t).clears
  split
  · exact closed
  · exact closed.trans (mails_free _ _).clears

/-- **A disconnect concerns only the client that goes.** -/
theorem apart_disconnect (s : State) : Apart cl s (handleClientDisconnect lib cl s) ∧
    (handleClientDisconnect lib cl s).reg = s.reg.disconnect cl := by
  have begun : Clears cl s { s with cause := .disconnect cl } :=
    ⟨Apart.of_sock (fun _ _ => Iff.rfl) fun _ _ => rfl, rfl⟩
  have cmds := begun.trans (Clears.foldl clears_cmdFree (s.sock cl).cmdQueue _)
  have quit := cmds.trans ⟨apart_monitorDisconnect cl _, rfl⟩
  unfold handleClientDisconnect ubusdProtoFreeClient Registry.disconnect
  simp only
  generalize ubusdMonitorDisconnect cl _ = t at quit ⊢
  rw [← quit.reg]
  have freed : Mails ((t.reg.client cl).objects.foldl (fun reg obj => reg.freeObject obj) t.reg) t _ :=
    (Acts.foldl acts_freeObject _ t : Acts lib Nothing _ t _).mails
  generalize (t.reg.client cl).objects.foldl (ubusdFreeObject lib) t = u at freed ⊢
  rw [← freed.reg]
  have retmsg : Clears cl u (freeRetmsg cl u) := clears_freeRetmsg u
  have unknown : Apart cl (freeRetmsg cl u) (freeClientId cl (freeRetmsg cl u)) :=
    Apart.of_sock (fun _ _ => Iff.rfl) fun _ _ => rfl
  have emptied : Clears cl (freeClientId cl (freeRetmsg cl u)) _ := Clears.foldl clears_msgListFree
    ((freeClientId cl (freeRetmsg cl u)).tx cl).txQueue (freeClientId cl (freeRetmsg cl u))
  have last := emptied.trans (clears_dropPending _)
  generalize dropPending cl _ = v at last ⊢
  have gone : Clears cl v (freeSock cl v) :=
    ⟨Apart.of_sock (fun _ _ => Iff.rfl) fun _ _ => rfl, rfl⟩
  refine ⟨(((quit.apart.trans freed.apart).trans retmsg.apart).trans unknown).trans
    (last.trans gone).apart, ?_⟩
  rw [(last.trans gone).reg]
  simp only [freeClientId, State.mapReg, retmsg.reg]

end Disconnect

/-! ### Addresses are not used twice -/

section Grows

/-- The same clients are connected, and no address is handed out again. -/
structure Registry.Grows (reg reg' : Registry) : Prop where
  clients : reg'.clients = reg.clients
  brk : reg.brk ≤ reg'.brk

namespace Registry.Grows

variable {reg reg' reg'' : Registry}

theorem refl (reg : Registry) : reg.Grows reg := ⟨rfl, le_rfl⟩

theorem trans (one : reg.Grows reg') (two : reg'.Grows reg'') : reg.Grows reg'' :=
  ⟨two.clients.trans one.clients, one.brk.trans two.brk⟩

theorem foldl {α : Type} {f : Registry → α → Registry} (round : ∀ (reg : Registry) x, reg.Grows (f reg x))
    (xs : List α) (reg : Registry) : reg.Grows (xs.foldl f reg) := by
  induction xs generalizing reg with
  | nil => exact refl reg
  | cons x xs ih => exact (round reg x).trans (ih (f reg x))

theorem unrefType (type : Option Nat) (reg : Registry) : reg.Grows (unrefType type reg) := by
  unfold Ubus.unrefType ubusUnrefObjectType
  split
  · exact refl reg
  · simp only
    split <;> exact ⟨rfl, le_rfl⟩

theorem freeObject (obj : Nat) (reg : Registry) : reg.Grows (reg.freeObject obj) := by
  have unlinked : ∀ subs reg, Grows reg (reg.unlinkAll subs) := fun subs reg =>
    foldl (by exact fun _ _ => ⟨rfl, le_rfl⟩) subs reg
  have cleaned : ∀ reg, Grows reg (ubusdEventCleanupObject obj reg) := fun reg =>
    foldl (by exact fun _ _ => ⟨rfl, le_rfl⟩) (reg.object obj).events reg
  have dropped : ∀ reg, Grows reg (dropObject obj reg) := fun reg => by
    have left : Grows reg (unlinkObject obj (removePath obj reg)) := by
      unfold unlinkObject removePath
      split <;> split <;> exact ⟨rfl, le_rfl⟩
    have last := unrefType ((unlinkObject obj (removePath obj reg)).object obj).type
      { unlinkObject obj (removePath obj reg) with
        objects := (unlinkObject obj (removePath obj reg)).objects.delete obj }
    exact ⟨last.clients.trans left.clients, left.brk.trans last.brk⟩
  exact ((unlinked _ reg).trans (unlinked _ _)).trans ((cleaned _).trans (dropped _))

variable (lib : Libubox)

theorem objectType (attr : Attrs) (rnd : List UInt32) (reg : Registry) :
    reg.Grows (objectType lib attr rnd reg).2.2 := by
  unfold Ubus.objectType
  split
  · simp only [ubusGetObjType]
    split <;> exact ⟨rfl, le_rfl⟩
  · unfold ubusCreateObjType
    simp only
    split
    · exact refl reg
    rename_i id objTypes rest _
    split
    · have ended := unrefType (some reg.brk) (Registry.mapObjType reg.brk
        (fun _ => { id, refcount := 1 }) { reg with objTypes, brk := reg.brk + 1 })
      exact ⟨ended.clients, (Nat.le_succ _).trans ended.brk⟩
    · exact ⟨rfl, Nat.le_succ _⟩
  · exact refl reg

theorem allocObject (attr : Attrs) (rnd : List UInt32) (reg : Registry) :
    reg.Grows (allocObject lib attr rnd reg).2.2 := by
  have typed := objectType lib attr rnd reg
  unfold Ubus.allocObject ubusdCreateObjectInternal newObject
  generalize Ubus.objectType lib attr rnd reg = result at typed ⊢
  obtain ⟨type, rnd', reg'⟩ := result
  simp only
  split
  · exact typed.trans (unrefType type reg')
  · refine typed.trans (trans ?_ (unrefType type _))
    split <;> exact ⟨rfl, Nat.le_succ _⟩

theorem createObject (cl : Nat) (attr : Attrs) (rnd : List UInt32) (reg : Registry) :
    reg.Grows (reg.createObject lib cl attr rnd).2 := by
  have made := allocObject lib attr rnd reg
  unfold Registry.createObject
  generalize Ubus.allocObject lib attr rnd reg = result at made ⊢
  obtain ⟨_ | obj, rnd', reg'⟩ := result
  · exact made
  simp only
  split
  · exact ⟨made.clients, made.brk⟩
  split
  · exact made.trans (freeObject obj reg')
  split
  · exact made.trans (freeObject obj reg')
  · rename_i after inserted
    obtain ⟨path, -, rfl⟩ := Option.map_eq_some_iff.mp inserted
    exact ⟨made.clients, made.brk⟩

end Registry.Grows

theorem Effect.grows {lib : Libubox} {cl : Nat} {reg reg' : Registry} (effect : Effect lib cl reg reg') :
    reg.Grows reg' := by
  cases effect with
  | same => exact .refl reg
  | created attr rnd => exact .createObject lib cl attr rnd reg
  | freed => exact .freeObject _ reg
  | subscribed => exact ⟨rfl, Nat.le_succ _⟩
  | unsubscribed => exact ⟨rfl, le_rfl⟩
  | registered => exact ⟨rfl, Nat.le_succ _⟩

end Grows

end Ubus
