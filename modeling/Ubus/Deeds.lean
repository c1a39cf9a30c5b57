/-
**What the bus does for one message.**

A message of a client leads to replies, to forwarded messages, and to at most one deed: an object comes
or goes, a subscription or a pattern is added, an event is sent.

* `Bus.Posts P b b'` — nothing but letters that satisfy `P` were added.
* `handled_handle`: nothing else is done.
* `Bus.Round`, `World.Step.round` — a step of the world, as far as the bus is concerned.
-/

import Ubus.World

namespace Ubus

open Lib

variable {type : MsgType} {α : Type} {code : Status} {ret : Ret}

/-! ### Letters only -/

/-- Letters were added, and nothing else happened. -/
def Bus.Posts (P : Letter → Prop) (b b' : Bus) : Prop :=
  ∃ new, b' = { b with out := b.out ++ new } ∧ ∀ letter ∈ new, letter.cause = b.cause ∧ P letter

/-- A reply of a type to a message of a client. -/
structure Letter.Replies (type : MsgType) (cl : Nat) (hdr : Msghdr) (letter : Letter) : Prop where
  dest : letter.dest = cl
  type : letter.hdr.type = type.code
  seq : letter.hdr.seq = hdr.seq
  peer : letter.hdr.peer = hdr.peer

/-- A reply, or a message that is passed on. -/
def Letter.Plain (letter : Letter) : Prop :=
  letter.hdr.type = MsgType.status.code ∨ letter.hdr.type = MsgType.data.code ∨
    letter.hdr.type = MsgType.invoke.code ∧ letter.hdr.peer ≠ 0

/-- An event, or a notice about subscriptions. -/
def Letter.Notice (letter : Letter) : Prop :=
  letter.hdr.type = MsgType.invoke.code ∨ letter.hdr.type = MsgType.notify.code ∨
    letter.hdr.type = MsgType.unsubscribe.code

namespace Bus

section Posts

variable {P Q : Letter → Prop} {b b' b'' : Bus}

theorem Posts.refl (b : Bus) : Posts P b b :=
  ⟨[], by rw [List.append_nil], nofun⟩

theorem Posts.trans (one : Posts P b b') (two : Posts P b' b'') : Posts P b b'' := by
  obtain ⟨new, rfl, all⟩ := one
  obtain ⟨new', rfl, all'⟩ := two
  refine ⟨new ++ new', by rw [List.append_assoc], fun letter member => ?_⟩
  exact (List.mem_append.mp member).elim (all letter) (all' letter)

theorem Posts.mono (posts : Posts P b b') (imp : ∀ letter, P letter → Q letter) : Posts Q b b' := by
  obtain ⟨new, rfl, all⟩ := posts
  exact ⟨new, rfl, fun letter member => (all letter member).imp_right (imp letter)⟩

theorem Posts.reg (posts : Posts P b b') : b'.reg = b.reg := by
  obtain ⟨-, rfl, -⟩ := posts
  rfl

theorem posts_submit (dest : Nat) (hdr : Msghdr) (data : Payload) (b : Bus)
    (holds : P ⟨b.cause, dest, hdr, data⟩) : Posts P b (b.submit dest hdr data) :=
  ⟨[⟨b.cause, dest, hdr, data⟩], rfl, fun _ member => List.mem_singleton.mp member ▸ ⟨rfl, holds⟩⟩

theorem posts_reply (cl : Nat) (hdr : Msghdr) (type : MsgType) (puts : List Put) (b : Bus) :
    Posts (Letter.Replies type cl hdr) b (b.reply (some cl) hdr type puts) :=
  posts_submit cl _ _ b ⟨rfl, rfl, rfl, rfl⟩

theorem Posts.foldl {f : Bus → α → Bus} (round : ∀ b x, Posts P b (f b x)) (xs : List α) (b : Bus) :
    Posts P b (xs.foldl f b) := by
  induction xs generalizing b with
  | nil => exact .refl b
  | cons x xs ih => exact (round b x).trans (ih (f b x))

end Posts

/-! ### Deeds -/

variable (lib : Libubox)

/-- **What a message of a client can do**, apart from letters to the client and messages passed on. -/
inductive Deed (cl : Nat) (b : Bus) : Bus → Prop where
  | same : Deed cl b b
  | created (attr : Attrs) : Deed cl b (b.createObject lib cl attr).2
  | freed {obj : Nat} (has : b.reg.HasObject obj) (mine : (b.reg.object obj).client = some cl) :
      Deed cl b (b.freeObject lib obj)
  | subscribed {obj target owner : Nat} (has : b.reg.HasObject obj)
      (mine : (b.reg.object obj).client = some cl) (hasTarget : b.reg.HasObject target)
      (owned : (b.reg.object target).client = some owner) (differs : cl ≠ owner) :
      Deed cl b (b.subscribe obj target)
  | unsubscribed {obj sub : Nat} (has : b.reg.HasObject obj)
      (mine : (b.reg.object obj).client = some cl) (listed : sub ∈ (b.reg.object obj).targetList) :
      Deed cl b (b.unsubscribe sub)
  | registered {obj : Nat} (has : b.reg.HasObject obj) (mine : (b.reg.object obj).client = some cl)
      (key : CString) (isPartial : Bool) : Deed cl b (b.mapReg (newEventSource obj key isPartial))
  | sent (id body : Bytes) (free : ¬ reservedPrefix.isPrefixOf (lib.blobmsgString id)) :
      Deed cl b (b.sendEvent lib (some cl) (lib.blobmsgString id)
        (eventFromMsg lib (lib.blobmsgString id) body)).2
  | monitors (list : List Nat) : Deed cl b { b with monitors := list }

/-- A message for a system object, or with none. -/
def SystemCall (reg : Registry) (data : Payload) : Prop :=
  ∀ objid obj, ubusParseMsg lib data .objid = some objid →
    ubusdFindObject reg (lib.blobGetU32 objid) = some obj → (reg.object obj).client = none

/-- **How a message other than a lookup can be handled.** -/
inductive Handled (cl : Nat) (hdr : Msghdr) (data : Payload) (b : Bus) : Ret → Bus → Prop where
  /-- It is not obeyed. -/
  | refused {code : Status} (error : code ≠ .ok)
      (request : hdr.type ≠ MsgType.status.code ∧ hdr.type ≠ MsgType.data.code) :
      Handled cl hdr data b (.done code) b
  /-- The daemon serves it. -/
  | served {code : Status} {b₁ b₂ b' : Bus}
      (request : hdr.type ≠ MsgType.status.code ∧ hdr.type ≠ MsgType.data.code ∧
        hdr.type ≠ MsgType.notify.code)
      (own : hdr.type = MsgType.invoke.code → SystemCall lib b.reg data)
      (before : Posts (Letter.Replies .data cl hdr) b b₁) (deed : Deed lib cl b₁ b₂)
      (after : Posts (Letter.Replies .data cl hdr) b₂ b') : Handled cl hdr data b (.done code) b'
  /-- A call is passed on. -/
  | called {obj owner : Nat} {method objid : Bytes} (asked : hdr.type = MsgType.invoke.code)
      (hasMethod : ubusParseMsg lib data .method = some method)
      (hasObjid : ubusParseMsg lib data .objid = some objid)
      (found : ubusdFindObject b.reg (lib.blobGetU32 objid) = some obj)
      (owned : (b.reg.object obj).client = some owner) :
      Handled cl hdr data b .silent (b.submit owner
        { type := MsgType.invoke.code, seq := hdr.seq, peer := (b.reg.client cl).id }
        (.built (invokePuts lib (b.reg.client cl).cred (b.reg.object obj).id (lib.blobString method)
          (ubusParseMsg lib data .data))))
  /-- A notification is passed on. -/
  | notified {obj : Nat} {method objid : Bytes} {b₁ : Bus} (asked : hdr.type = MsgType.notify.code)
      (hasMethod : ubusParseMsg lib data .method = some method)
      (hasObjid : ubusParseMsg lib data .objid = some objid)
      (found : ubusdFindObject b.reg (lib.blobGetU32 objid) = some obj)
      (mine : (b.reg.object obj).client = some cl)
      (told : b₁ = if noReply lib data then b else
        b.reply (some cl) hdr .status (notifyStatusPuts b.reg obj)) :
      Handled cl hdr data b .silent ((b.reg.object obj).subscribers.foldl
        (notifyRound lib cl { hdr with peer := (b.reg.client cl).id } (noReply lib data)
          (lib.blobString method) (ubusParseMsg lib data .data)) b₁)
  /-- A response is passed on. -/
  | responded {caller : Nat} {objid : Bytes}
      (asked : hdr.type = MsgType.status.code ∨ hdr.type = MsgType.data.code)
      (hasObjid : ubusParseMsg lib data .objid = some objid)
      (known : b.reg.clients.find hdr.peer = some caller) :
      Handled cl hdr data b .silent
        (b.submit caller { hdr with peer := lib.blobGetU32 objid } data)
  /-- A response is dropped. -/
  | ignored (asked : hdr.type = MsgType.status.code ∨ hdr.type = MsgType.data.code) :
      Handled cl hdr data b .silent b

/-! ### The letters of a deed -/

/-- Letters that satisfy `P` were added, for the same work. -/
structure Adds (P : Letter → Prop) (b b' : Bus) : Prop where
  cause : b'.cause = b.cause
  out : ∃ new, b'.out = b.out ++ new ∧ ∀ letter ∈ new, letter.cause = b.cause ∧ P letter

section Adds

variable {lib : Libubox} {P Q : Letter → Prop} {b b' b'' : Bus} {cl : Nat}

theorem Adds.of_eq (cause : b'.cause = b.cause) (out : b'.out = b.out) : Adds P b b' :=
  ⟨cause, [], by rw [out, List.append_nil], nofun⟩

theorem Adds.refl (b : Bus) : Adds P b b := .of_eq rfl rfl

theorem Adds.trans (one : Adds P b b') (two : Adds P b' b'') : Adds P b b'' := by
  obtain ⟨cause, new, out, all⟩ := one
  obtain ⟨cause', new', out', all'⟩ := two
  refine ⟨cause'.trans cause, new ++ new', by rw [out', out, List.append_assoc], ?_⟩
  intro letter member
  rcases List.mem_append.mp member with member | member
  · exact all letter member
  · exact cause ▸ all' letter member

theorem Adds.after (adds : Adds P b' b'') (cause : b'.cause = b.cause) (out : b'.out = b.out) :
    Adds P b b'' :=
  Adds.trans (.of_eq cause out) adds

theorem Adds.mono (adds : Adds P b b') (imp : ∀ letter, P letter → Q letter) : Adds Q b b' := by
  obtain ⟨cause, new, out, all⟩ := adds
  exact ⟨cause, new, out, fun letter member => (all letter member).imp_right (imp letter)⟩

theorem Adds.foldl {f : Bus → α → Bus} (round : ∀ b x, Adds P b (f b x)) (xs : List α) (b : Bus) :
    Adds P b (xs.foldl f b) := by
  induction xs generalizing b with
  | nil => exact .refl b
  | cons x xs ih => exact (round b x).trans (ih (f b x))

theorem Posts.adds (posts : Posts P b b') : Adds P b b' := by
  obtain ⟨new, rfl, all⟩ := posts
  exact ⟨rfl, new, rfl, all⟩

theorem posts_submitTo (dest : Option Nat) (hdr : Msghdr) (data : Payload) (b : Bus)
    (holds : ∀ dest, P ⟨b.cause, dest, hdr, data⟩) : Posts P b (b.submitTo dest hdr data) := by
  cases dest with
  | none => exact .refl b
  | some dest => exact posts_submit dest hdr data b (holds dest)

theorem adds_eventMsg (cl : Option Nat) (rest : List Put) (b : Bus) (obj : Nat) :
    Adds (·.hdr.type = MsgType.invoke.code) b (b.eventMsg cl rest obj) := by
  unfold eventMsg
  split
  · exact .refl b
  · split
    · exact .refl b
    · exact (posts_submitTo _ _ _ _ fun _ => rfl).adds.after rfl rfl

theorem adds_sendEvent (lib : Libubox) (cl : Option Nat) (id : CString) (rest : List Put) (b : Bus) :
    Adds (·.hdr.type = MsgType.invoke.code) b (b.sendEvent lib cl id rest).2 := by
  unfold sendEvent
  split
  · exact .refl b
  · exact (Adds.foldl (adds_eventMsg cl rest) _ b.bumpObjEventSeq).after rfl rfl

theorem adds_announceRemoval (lib : Libubox) (obj : Nat) (b : Bus) :
    Adds (·.hdr.type = MsgType.invoke.code) b (b.announceRemoval lib obj) := by
  unfold announceRemoval
  split
  · exact .refl b
  · exact adds_sendEvent lib none _ _ b

theorem adds_sendNumbered (obj : Nat) (type : MsgType) (puts : List Put) (b : Bus) :
    Adds (·.hdr.type = type.code) b (b.sendNumbered obj type puts) :=
  (posts_submitTo _ _ _ _ fun _ => rfl).adds.after rfl rfl

theorem adds_subscribe (obj target : Nat) (b : Bus) :
    Adds (·.hdr.type = MsgType.notify.code) b (b.subscribe obj target) := by
  unfold subscribe
  simp only
  split
  · exact (adds_sendNumbered _ .notify _ _).after rfl rfl
  · exact .of_eq rfl rfl

theorem adds_unsubscribe (b : Bus) (sub : Nat) :
    Adds (·.hdr.type = MsgType.notify.code) b (b.unsubscribe sub) := by
  unfold unsubscribe
  simp only
  split
  · exact (adds_sendNumbered _ .notify _ _).after rfl rfl
  · exact .of_eq rfl rfl

theorem adds_freeObject (b : Bus) (obj : Nat) : Adds Letter.Notice b (b.freeObject lib obj) := by
  have event : ∀ letter : Letter, letter.hdr.type = MsgType.invoke.code → letter.Notice :=
    fun _ typed => Or.inl typed
  have notify : ∀ letter : Letter, letter.hdr.type = MsgType.notify.code → letter.Notice :=
    fun _ typed => Or.inr (Or.inl typed)
  have farewell : ∀ b sub, Adds Letter.Notice b (b.notifyUnsubscribe sub) := fun b sub =>
    ((adds_sendNumbered _ .unsubscribe _ b).mono fun _ typed => Or.inr (Or.inr typed)).trans
      ((adds_unsubscribe _ sub).mono notify)
  unfold freeObject
  simp only
  have targets := Adds.foldl (fun b sub => (adds_unsubscribe b sub).mono notify)
    (b.reg.object obj).targetList b
  generalize (b.reg.object obj).targetList.foldl unsubscribe b = b₁ at targets ⊢
  have subscribers := Adds.foldl farewell (b₁.reg.object obj).subscribers b₁
  generalize (b₁.reg.object obj).subscribers.foldl notifyUnsubscribe b₁ = b₂ at subscribers ⊢
  have announced := (adds_announceRemoval lib obj (b₂.mapReg (ubusdEventCleanupObject obj))).mono event
  exact (targets.trans subscribers).trans ⟨announced.cause, announced.out⟩

theorem adds_createObject (attr : Attrs) (b : Bus) :
    Adds Letter.Notice b (b.createObject lib cl attr).2 := by
  unfold createObject
  rcases allocObject lib attr b.rnd b.reg with ⟨_ | obj, rnd, reg⟩
  · exact .of_eq rfl rfl
  have freed : Adds Letter.Notice b (freeObject lib { b with reg, rnd } obj) :=
    (adds_freeObject { b with reg, rnd } obj).after rfl rfl
  simp only
  split
  · exact .of_eq rfl rfl
  split
  · exact freed
  split
  · exact freed
  rename_i after _
  have announced := (adds_sendEvent lib none (objEventId true)
    (objectEventMsg (objEventId true) (after.object obj))
    { b with reg := after, rnd }).mono fun _ typed => (Or.inl typed : Letter.Notice _)
  exact ⟨announced.cause, announced.out⟩

theorem Deed.adds (deed : Deed lib cl b b') : Adds Letter.Notice b b' := by
  have notify : ∀ letter : Letter, letter.hdr.type = MsgType.notify.code → letter.Notice :=
    fun _ typed => Or.inr (Or.inl typed)
  cases deed with
  | same => exact .refl b
  | created attr => exact adds_createObject attr b
  | freed has mine => exact adds_freeObject b _
  | subscribed => exact (adds_subscribe _ _ b).mono notify
  | unsubscribed => exact (adds_unsubscribe b _).mono notify
  | registered => exact .of_eq rfl rfl
  | sent => exact (adds_sendEvent lib _ _ _ b).mono fun _ typed => Or.inl typed
  | monitors list => exact .of_eq rfl rfl

theorem createObject_reg (lib : Libubox) (attr : Attrs) (b : Bus) :
    (b.createObject lib cl attr).2.reg = (b.reg.createObject lib cl attr b.rnd).2 := by
  unfold createObject Registry.createObject
  rcases allocObject lib attr b.rnd b.reg with ⟨_ | obj, rnd, reg⟩
  · rfl
  cases attr .objpath with
  | none => rfl
  | some objpath =>
    simp only
    split
    · exact freeObject_reg ..
    · rcases insertPath obj (lib.blobString objpath) reg with _ | after
      · exact freeObject_reg ..
      · simp only [mapReg, sendObjEvent_reg]

theorem Deed.effect (deed : Deed lib cl b b') : Effect lib cl b.reg b'.reg := by
  cases deed with
  | same => exact .same
  | created attr =>
    rw [createObject_reg]
    exact .created attr b.rnd
  | freed has mine =>
    rw [freeObject_reg]
    exact .freed has mine
  | subscribed has mine hasTarget owned differs =>
    rw [subscribe_reg]
    exact .subscribed has mine hasTarget owned differs
  | unsubscribed has mine listed =>
    rw [unsubscribe_reg]
    exact .unsubscribed has mine listed
  | registered has mine key isPartial => exact .registered has mine key isPartial
  | sent =>
    rw [sendEvent_reg]
    exact .same
  | monitors list => exact .same

theorem connect_spec (cred : Option Cred) (b : Bus) :
    Adds (·.hdr.type = MsgType.hello.code) { b with cause := .connect b.reg.brk } (b.connect cred) ∧
      ∃ clients client brk, (b.connect cred).reg = { b.reg with clients, client, brk } ∧
        (∀ cl, clients.Has cl → b.reg.HasClient cl ∨ cl = b.reg.brk) ∧ b.reg.brk ≤ brk := by
  cases cred with
  | none => exact ⟨.refl _, _, _, _, rfl, fun _ => Or.inl, le_rfl⟩
  | some cred =>
    unfold connect
    simp only
    rcases result : ubusAllocId b.reg.clients b.reg.brk b.rnd with ⟨_ | ⟨id, clients⟩, rnd⟩
    · exact ⟨.of_eq rfl rfl, _, _, _, rfl, fun _ => Or.inl, le_rfl⟩
    · obtain ⟨-, rfl, -⟩ := ubusAllocId_some result
      exact ⟨Adds.after (posts_submit _ _ _ _ (by exact rfl)).adds rfl rfl, _, _, _, rfl,
        fun _ has => (AvlTree.has_insert.mp has).symm, Nat.le_succ _⟩

theorem freeObjects_reg (objs : List Nat) (b : Bus) : (objs.foldl (freeObject lib) b).reg =
    objs.foldl (fun reg obj => reg.freeObject obj) b.reg := by
  induction objs generalizing b with
  | nil => rfl
  | cons obj rest ih => rw [List.foldl_cons, ih, freeObject_reg, List.foldl_cons]

theorem disconnect_spec (lib : Libubox) (cl : Nat) (b : Bus) :
    Adds Letter.Notice { b with cause := .disconnect cl } (b.disconnect lib cl) ∧
      (∀ other, (b.disconnect lib cl).reg.HasClient other → b.reg.HasClient other ∧ other ≠ cl) ∧
      b.reg.brk ≤ (b.disconnect lib cl).reg.brk := by
  obtain ⟨start, here⟩ : ∃ start : Bus, start =
    { b with cause := .disconnect cl, monitors := b.monitors.erase cl } := ⟨_, rfl⟩
  have adds : Adds Letter.Notice start ((b.reg.client cl).objects.foldl (freeObject lib) start) :=
    Adds.foldl adds_freeObject _ start
  have grows : b.reg.Grows ((b.reg.client cl).objects.foldl (freeObject lib) start).reg := by
    rw [freeObjects_reg, here]
    exact .foldl (fun reg obj => .freeObject obj reg) _ b.reg
  subst here
  refine ⟨⟨adds.cause, adds.out⟩, fun other has => ?_, grows.brk⟩
  obtain ⟨has, differs⟩ := AvlTree.has_delete.mp has
  rw [grows.clients] at has
  exact ⟨has, differs⟩

theorem aclLoad_spec (lib : Libubox) (host : Host) (dir : Directory) (fault : Bool) (b : Bus) :
    Adds (·.hdr.type = MsgType.invoke.code) { b with cause := .aclLoad }
        (b.aclLoad lib host dir fault) ∧
      ∃ acl, (b.aclLoad lib host dir fault).reg = { b.reg with acl } := by
  unfold aclLoad
  simp only
  split
  · exact ⟨.refl _, _, rfl⟩
  · exact ⟨(adds_sendEvent lib none _ _ _).after rfl rfl, _, sendEvent_reg ..⟩

end Adds

/-! ### Every message is handled in one of these ways -/

section Handle

variable {lib : Libubox} {cl : Nat} {hdr : Msghdr} {data : Payload} {b : Bus}

theorem Handled.of_deed {b' : Bus} (typed : hdr.type = type.code)
    (kind : type ≠ .status ∧ type ≠ .data ∧ type ≠ .notify ∧ type ≠ .invoke)
    (deed : Deed lib cl b b') : Handled lib cl hdr data b (.done code) b' := by
  refine .served ?_ ?_ (.refl b) deed (.refl b')
  · simp only [typed, ne_eq, MsgType.code_inj]
    exact ⟨kind.1, kind.2.1, kind.2.2.1⟩
  · simp only [typed, MsgType.code_inj]
    exact fun call => absurd call kind.2.2.2

theorem Handled.of_error (typed : hdr.type = type.code) (kind : type ≠ .status ∧ type ≠ .data)
    (error : code ≠ .ok) : Handled lib cl hdr data b (.done code) b := by
  refine .refused error ?_
  simp only [typed, ne_eq, MsgType.code_inj]
  exact kind

theorem handled_pong (typed : hdr.type = MsgType.ping.code) :
    Handled lib cl hdr data b (pong cl hdr data b).1 (pong cl hdr data b).2 := by
  refine .served ?_ ?_ (.refl b) .same
    (posts_submit cl { hdr with type := MsgType.data.code } data b ⟨rfl, rfl, rfl, rfl⟩)
  · rw [typed]
    decide
  · rw [typed]
    exact fun call => absurd call (by decide)

theorem handled_removeObject (typed : hdr.type = MsgType.removeObject.code) :
    Handled lib cl hdr data b (handleRemoveObject lib cl hdr data b).1
      (handleRemoveObject lib cl hdr data b).2 := by
  unfold handleRemoveObject
  split
  · exact .of_error typed (by decide) (by decide)
  split
  · exact .of_error typed (by decide) (by decide)
  rename_i obj found
  split
  · exact .of_error typed (by decide) (by decide)
  rename_i mine
  have has : b.reg.HasObject obj := has_of_found found
  have told := posts_reply cl hdr .data (.int32 .objid (b.reg.object obj).id ::
    removedType b.reg obj) b
  refine .served ?_ ?_ told (.freed ?_ ?_) (.refl _)
  · rw [typed]
    decide
  · rw [typed]
    exact fun call => absurd call (by decide)
  · rw [told.reg]
    exact has
  · rw [told.reg]
    exact not_not.mp mine

theorem handled_addObject (typed : hdr.type = MsgType.addObject.code) :
    Handled lib cl hdr data b (handleAddObject lib cl hdr data b).1
      (handleAddObject lib cl hdr data b).2 := by
  unfold handleAddObject
  have deed : Deed lib cl b _ := .created (ubusParseMsg lib data)
  rcases result : createObject lib cl (ubusParseMsg lib data) b with ⟨_ | obj, b'⟩
  · rw [result] at deed
    exact .of_deed typed (by decide) deed
  rw [result] at deed
  refine .served ?_ ?_ (.refl b) deed (posts_reply cl hdr .data _ b')
  · rw [typed]
    decide
  · rw [typed]
    exact fun call => absurd call (by decide)

theorem handled_addWatch (typed : hdr.type = MsgType.subscribe.code) :
    Handled lib cl hdr data b (handleAddWatch lib cl data b).1 (handleAddWatch lib cl data b).2 := by
  have error : ∀ {code : Status}, code ≠ .ok → Handled lib cl hdr data b (.done code) b :=
    fun error => .of_error typed (by decide) error
  unfold handleAddWatch
  split
  · split
    · exact error (by decide)
    rename_i obj found
    split
    · exact error (by decide)
    rename_i mine
    split
    · exact error (by decide)
    rename_i target foundTarget
    split
    · exact error (by decide)
    rename_i owner owned
    split
    · exact error (by decide)
    rename_i differs
    split
    · exact error (by decide)
    · exact .of_deed typed (by decide) (.subscribed (has_of_found found)
        (not_not.mp mine) (has_of_found foundTarget) owned
        fun same => differs same.symm)
  · exact error (by decide)

theorem handled_removeWatch (typed : hdr.type = MsgType.unsubscribe.code) :
    Handled lib cl hdr data b (handleRemoveWatch lib cl data b).1
      (handleRemoveWatch lib cl data b).2 := by
  have error : ∀ {code : Status}, code ≠ .ok → Handled lib cl hdr data b (.done code) b :=
    fun error => .of_error typed (by decide) error
  unfold handleRemoveWatch
  split
  · split
    · exact error (by decide)
    rename_i obj found
    split
    · exact error (by decide)
    rename_i mine
    split
    · exact error (by decide)
    · rename_i sub listed
      exact .of_deed typed (by decide) (.unsubscribed (has_of_found found)
        (not_not.mp mine) (List.mem_of_find?_eq_some listed))
  · exact error (by decide)

theorem handled_response (asked : hdr.type = MsgType.status.code ∨ hdr.type = MsgType.data.code) :
    Handled lib cl hdr data b (handleResponse lib cl hdr data b).1
      (handleResponse lib cl hdr data b).2 := by
  unfold handleResponse
  split
  · exact .ignored asked
  rename_i objid hasObjid
  split
  · exact .ignored asked
  split
  · exact .ignored asked
  split
  · exact .ignored asked
  split
  · exact .ignored asked
  · rename_i caller known
    exact .responded asked hasObjid known

theorem handled_notify (typed : hdr.type = MsgType.notify.code) :
    Handled lib cl hdr data b (handleNotify lib cl hdr data b).1
      (handleNotify lib cl hdr data b).2 := by
  have error : ∀ {code : Status}, code ≠ .ok → Handled lib cl hdr data b (.done code) b :=
    fun error => .of_error typed (by decide) error
  unfold handleNotify
  split
  · rename_i method objid hasMethod hasObjid
    split
    · exact error (by decide)
    rename_i obj found
    split
    · exact error (by decide)
    rename_i mine
    simp only
    generalize told : (if noReply lib data then b else
      b.reply (some cl) hdr .status (notifyStatusPuts b.reg obj)) = b₁
    have same : b₁.reg = b.reg := by
      rw [← told]
      split
      · rfl
      · exact submitTo_reg ..
    rw [same]
    exact .notified typed hasMethod hasObjid found (not_not.mp mine) told.symm
  · exact error (by decide)

theorem deed_eventRecv (method : CString) (msg : Option Bytes) :
    Deed lib cl b (eventRecv lib cl method msg b).2 := by
  unfold eventRecv
  split
  · have keep : ∀ {result : Status × Registry}, (result.2 = b.reg ∨ ∃ obj key isPartial,
        b.reg.HasObject obj ∧ (b.reg.object obj).client = some cl ∧
        result.2 = newEventSource obj key isPartial b.reg) → Deed lib cl b { b with reg := result.2 } := by
      rintro result (same | ⟨obj, key, isPartial, has, mine, made⟩)
      · rw [same]
        exact .same
      · rw [made]
        exact .registered has mine key isPartial
    refine keep ?_
    unfold ubusdAllocEventPattern
    split
    · exact Or.inl rfl
    simp only
    split
    · split
      · exact Or.inl rfl
      split
      · exact Or.inl rfl
      rename_i obj found
      split
      · exact Or.inl rfl
      rename_i mine
      split
      · exact Or.inl rfl
      · split
        · exact Or.inl rfl
        · exact Or.inr ⟨obj, _, _, has_of_found found, not_not.mp mine, rfl⟩
    · exact Or.inl rfl
  · split
    · unfold forwardEvent
      split
      · exact .same
      simp only
      split
      · split
        · exact .same
        · rename_i free
          exact .sent _ _ free
      · exact .same
    · exact .same

theorem deed_monitorRecv (method : CString) : Deed lib cl b (monitorRecv cl method b).2 := by
  unfold monitorRecv
  simp only
  split
  · exact .same
  split
  · exact .monitors _
  · split
    · exact .monitors _
    · exact .same

theorem posts_replyQuery :
    Posts (Letter.Replies .data cl hdr) b (replyQuery lib cl hdr data b).2 := by
  unfold replyQuery
  split
  · exact .refl b
  · split
    · exact .refl b
    · exact posts_reply cl hdr .data _ b

theorem recvMsg_served (recv : Option RecvMsg) (method : CString) : ∃ b₁,
    Deed lib cl b b₁ ∧
      Posts (Letter.Replies .data cl hdr) b₁ (recvMsg lib recv cl hdr data method b).2 := by
  unfold recvMsg
  split
  · exact ⟨b, .same, .refl b⟩
  · exact ⟨_, deed_eventRecv method _, .refl _⟩
  · split
    · exact ⟨b, .same, posts_replyQuery⟩
    · exact ⟨b, .same, .refl b⟩
  · exact ⟨_, deed_monitorRecv method, .refl _⟩

theorem handled_invoke (typed : hdr.type = MsgType.invoke.code) :
    Handled lib cl hdr data b (handleInvoke lib cl hdr data b).1
      (handleInvoke lib cl hdr data b).2 := by
  have error : ∀ {code : Status}, code ≠ .ok → Handled lib cl hdr data b (.done code) b :=
    fun error => .of_error typed (by decide) error
  unfold handleInvoke
  split
  · rename_i method objid hasMethod hasObjid
    split
    · exact error (by decide)
    rename_i obj found
    simp only
    split
    · exact error (by decide)
    cases owned : (b.reg.object obj).client with
    | none =>
      obtain ⟨b₁, deed, after⟩ : ∃ b₁, Deed lib cl b b₁ ∧ Posts (Letter.Replies .data cl hdr) b₁ _ :=
        recvMsg_served (b.reg.object obj).recvMsg (lib.blobString method)
      refine .served ?_ ?_ (.refl b) deed after
      · rw [typed]
        decide
      intro _ objid' obj' hasObjid' found'
      cases hasObjid.symm.trans hasObjid'
      cases found.symm.trans found'
      exact owned
    | some owner =>
      simp only [forwardInvoke, reply, owned]
      exact .called typed hasMethod hasObjid found owned
  · exact error (by decide)

/-- **There is no other way to handle a message.** -/
theorem handled_handle (other : hdr.type ≠ MsgType.lookup.code) :
    Handled lib cl hdr data b (handle lib cl hdr data b).1 (handle lib cl hdr data b).2 := by
  have unknown : ∀ {type : MsgType}, hdr.type = type.code → type ≠ .status ∧ type ≠ .data →
      Handled lib cl hdr data b (.done .invalidCommand) b :=
    fun typed kind => .of_error typed kind (by decide)
  unfold handle
  rcases kind : MsgType.ofCode? hdr.type with _ | type
  · refine .refused (by decide) ⟨fun typed => ?_, fun typed => ?_⟩
    · rw [typed] at kind
      cases kind
    · rw [typed] at kind
      cases kind
  · have typed := (MsgType.code_of_ofCode? kind).symm
    cases type with
    | hello => exact unknown typed (by decide)
    | status => exact handled_response (Or.inl typed)
    | data => exact handled_response (Or.inr typed)
    | ping => exact handled_pong typed
    | lookup => exact absurd typed other
    | invoke => exact handled_invoke typed
    | addObject => exact handled_addObject typed
    | removeObject => exact handled_removeObject typed
    | subscribe => exact handled_addWatch typed
    | unsubscribe => exact handled_removeWatch typed
    | notify => exact handled_notify typed
    | monitor => exact unknown typed (by decide)

end Handle

/-! ### Lookups -/

section Lookups

variable {lib : Libubox} {cl : Nat} {hdr : Msghdr} {data : Payload} {start : Option CString}
  {b b' : Bus}

theorem posts_sendObj (b : Bus) (obj : Nat) :
    Posts (Letter.Replies .data cl hdr) b (b.sendObj lib cl hdr obj) := by
  unfold sendObj
  split
  · exact .refl b
  simp only
  split
  · exact .refl b
  · exact posts_reply cl hdr .data _ b

theorem posts_sendObjs (nodes : AvlTree CString) (b : Bus) :
    Posts (Letter.Replies .data cl hdr) b (b.sendObjs lib cl hdr nodes) :=
  Posts.foldl (fun b node => posts_sendObj b node.2) nodes b

theorem posts_find (objpath : CString) :
    Posts (Letter.Replies .data cl hdr) b (b.find lib cl hdr objpath).2 := by
  unfold find
  split
  · exact .refl b
  split
  · split
    · exact .refl b
    · exact posts_sendObj b _
  · simp only
    split
    · exact .refl b
    · exact posts_sendObjs _ b

theorem Looks.posts {outcome : Outcome} (looks : b.Looks lib cl hdr data start outcome b') :
    Posts (Letter.Replies .data cl hdr) b b' := by
  cases looks with
  | path named => exact posts_find _
  | full unnamed => exact posts_sendObjs _ b
  | parked unnamed split => exact posts_sendObjs _ b

end Lookups

/-! ### Rounds -/

section Round

variable {lib : Libubox} {cl : Nat} {hdr : Msghdr} {data : Payload} {b b' : Bus}

theorem Posts.plain (posts : Posts (Letter.Replies type cl hdr) b b')
    (kind : type = .status ∨ type = .data) : Posts Letter.Plain b b' := by
  refine posts.mono fun letter replies => ?_
  rcases kind with rfl | rfl
  · exact Or.inl replies.type
  · exact Or.inr (Or.inl replies.type)

theorem posts_status (code : Status) (b : Bus) : Posts Letter.Plain b (b.status cl hdr code) :=
  (posts_reply cl hdr .status _ b).plain (Or.inl rfl)

theorem posts_notifyRound (named : (b.reg.client cl).id ≠ 0) (noReply : Bool) (method : CString)
    (data : Option Bytes) (subs : List Nat) (b' : Bus) :
    Posts Letter.Plain b' (subs.foldl (notifyRound lib cl
      { hdr with peer := (b.reg.client cl).id } noReply method data) b') :=
  Posts.foldl (fun _ _ => posts_submitTo _ _ _ _ fun _ => Or.inr (Or.inr ⟨rfl, named⟩)) subs b'

/-- Letters, a deed, and letters again. -/
def Through (lib : Libubox) (cl : Nat) (b b' : Bus) : Prop :=
  ∃ b₁ b₂, Posts Letter.Plain b b₁ ∧ Deed lib cl b₁ b₂ ∧ Posts Letter.Plain b₂ b'

theorem Posts.through (posts : Posts Letter.Plain b b') : Through lib cl b b' :=
  ⟨b, b, .refl b, .same, posts⟩

theorem Handled.through (handled : Handled lib cl hdr data b ret b')
    (named : (b.reg.client cl).id ≠ 0) : Through lib cl b (finish cl hdr (ret, b')) := by
  cases handled with
  | refused error request => exact (posts_status _ b).through
  | served request own before deed after =>
    exact ⟨_, _, before.plain (Or.inr rfl), deed, (after.plain (Or.inr rfl)).trans (posts_status _ b')⟩
  | called asked hasMethod hasObjid found owned =>
    exact (posts_submit _ _ _ b (Or.inr (Or.inr ⟨rfl, named⟩))).through
  | notified asked hasMethod hasObjid found mine told =>
    refine (Posts.trans ?_ (posts_notifyRound named _ _ _ _ _)).through
    rw [told]
    split
    · exact .refl b
    · exact (posts_reply cl hdr .status _ b).plain (Or.inl rfl)
  | responded asked hasObjid known =>
    exact (posts_submit _ _ _ b (asked.imp_right Or.inl)).through
  | ignored asked => exact (Posts.refl b).through

theorem Goes.posts {start : Option CString} {place : Option (Option CString)}
    (goes : b.Goes lib cl hdr data start ret place b') : Posts Letter.Plain b b' := by
  cases goes with
  | finished looks => exact (looks.posts.plain (Or.inr rfl)).trans (posts_status _ _)
  | waits looks => exact looks.posts.plain (Or.inr rfl)
  | busy => exact .refl b

/-- **One step, as far as the bus is concerned.** -/
inductive Round (lib : Libubox) (b b' : Bus) : Prop where
  | rest (cause : Cause) (rnd : List UInt32) (same : b' = { b with cause, rnd })
  | connect (cred : Option Cred) (same : b' = b.connect cred)
  | message (cause : Cause) (cl : Nat) (known : b.reg.HasClient cl)
      (through : Through lib cl { b with cause } b')
  | disconnect (cl : Nat) (known : b.reg.HasClient cl) (same : b' = b.disconnect lib cl)
  | aclLoad (host : Host) (dir : Directory) (fault : Bool) (same : b' = b.aclLoad lib host dir fault)

theorem Round.clients (round : Round lib b b') : b.reg.brk ≤ b'.reg.brk ∧
    ∀ cl, b'.reg.HasClient cl → b.reg.HasClient cl ∨ cl = b.reg.brk := by
  cases round with
  | rest cause rnd same =>
    subst same
    exact ⟨le_rfl, fun _ => Or.inl⟩
  | connect cred same =>
    obtain ⟨-, clients, client, brk, reg, known, more⟩ := connect_spec cred b
    rw [same, reg]
    exact ⟨more, known⟩
  | message cause cl known through =>
    obtain ⟨b₁, b₂, before, deed, after⟩ := through
    have grows := deed.effect.grows
    rw [before.reg, ← after.reg] at grows
    refine ⟨grows.brk, fun other has => Or.inl ?_⟩
    rw [Registry.HasClient, grows.clients] at has
    exact has
  | disconnect cl known same =>
    obtain ⟨-, clients, more⟩ := disconnect_spec lib cl b
    rw [same]
    exact ⟨more, fun other has => Or.inl (clients other has).1⟩
  | aclLoad host dir fault same =>
    obtain ⟨-, acl, reg⟩ := aclLoad_spec lib host dir fault b
    rw [same, reg]
    exact ⟨le_rfl, fun _ => Or.inl⟩

end Round

end Bus

theorem Registry.Good.client_ne_zero {reg : Registry} {wip extra : Option Nat}
    (good : reg.Good wip extra) {cl : Nat} (known : reg.HasClient cl) : (reg.client cl).id ≠ 0 := by
  obtain ⟨node, member, rfl⟩ := List.mem_map.mp known
  have range := good.clientIds node member
  rw [← good.clients.keys node member] at range
  intro zero
  rw [zero] at range
  exact absurd range (by decide)

theorem World.Step.round {lib : Libubox} {w w' : World} (step : World.Step lib w w') :
    Bus.Round lib w.bus w'.bus := by
  cases step with
  | rest cause rnd bus => exact .rest cause rnd bus
  | connect cred bus => exact .connect cred bus
  | answer cl ub hdr data known fresh other bus =>
    refine .message (.message cl ub hdr data) cl known ?_
    rw [bus]
    have handled : Bus.Handled lib cl hdr data (w.on cl ub hdr data) _ _ := Bus.handled_handle other
    exact handled.through (w.good.client_ne_zero known)
  | lookup cl ub hdr data known fresh typed ret place goes =>
    exact .message (.message cl ub hdr data) cl known goes.posts.through
  | resume cl item rest known first ret place goes =>
    exact .message (.resume cl item.ub item.hdr item.data) cl known goes.posts.through
  | disconnect cl known bus => exact .disconnect cl known bus
  | aclLoad host dir fault bus => exact .aclLoad host dir fault bus

end Ubus
