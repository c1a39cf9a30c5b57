/-
**What a step does to the buffers.**

Messages are held in blocks of memory: the receive buffer, the buffer that is detached while a message
to an object is worked on, the copies in `ctx->pending`, and the copies in the list of a request. Most
functions touch none of them: they are `Steady`. `step_storage` says once what a step does.

* `Frame.owns`: the block that is freed or given back when control returns to a frame.
* `Frame.uses`, `Frame.ptrs`: the blocks a frame refers to, and the pointers a callback was given.
* `Frame.reads`: the places from which the library reads from the socket on its own.
-/

import Ubus.Libubus.Calls

namespace Ubus.Libubus

variable {lib : Libubox}
variable {frame : Frame} {attrbuf : UbusAttr → Option Ptr} {allowed : Nat → Prop} {cb : Callback}
  {s' : State}

/-! ### Frames and blocks -/

def MsghdrBuf.block : MsghdrBuf → Option Nat
  | .msgbuf => none
  | .pending _ data => some data

/-- The pointers into a message that a callback is given. -/
def Callback.ptrs : Callback → List Ptr
  | .rawData _ _ msg | .data _ _ msg | .preInvoke _ _ _ msg | .monitor _ msg => [msg]
  | .handler _ _ _ name msg => name.toList ++ msg.toList
  | _ => []

def Frame.ptrs : Frame → List Ptr
  | .app cb => cb.ptrs
  | _ => []

def Frame.uses : Frame → List Nat
  | .app cb => cb.ptrs.map Ptr.buf
  | .reqDataCb _ _ data | .reqDataCbParse _ _ data => [data]
  | .processMsg buf _ | .processStatus _ _ buf => buf.block.toList
  | _ => []

def Frame.owns : Frame → Option Nat
  | .restoreData data | .pendingDone data | .drain _ data _ => some data
  | _ => none

def Frame.reads : Frame → Bool
  | .waitLoop _ _ _ | .waitPolled _ _ _ | .handleData | .handleRead | .handled => true
  | _ => false

/-- Frames that own no block, from which nothing is read or dispatched, and to which no hook returns. -/
def Frame.plain : Frame → Bool
  | .restoreData _ | .pendingDone _ | .drain _ _ _ | .waitLoop _ _ _ | .waitPolled _ _ _ | .handleData
  | .handleRead | .handled | .processMsg _ _ | .preInvoked _ _ _ _ => false
  | _ => true

/-- Neither a message that is about to be dispatched nor a hook that runs. -/
def Frame.inert : Frame → Bool
  | .processMsg _ _ | .preInvoked _ _ _ _ => false
  | _ => true

theorem Frame.plain_spec (plain : frame.plain = true) :
    frame.owns = none ∧ frame.reads = false ∧ frame.inert = true := by
  cases frame with
  | restoreData data => cases plain
  | pendingDone data => cases plain
  | drain r data tmp => cases plain
  | waitLoop r cb timed => cases plain
  | waitPolled r cb timed => cases plain
  | handleData => cases plain
  | handleRead => cases plain
  | handled => cases plain
  | processMsg buf fd => cases plain
  | preInvoked obj method k noReply => cases plain
  | _ => exact ⟨rfl, rfl, rfl⟩

theorem Frame.reads_spec (reads : frame.reads = true) :
    frame.owns = none ∧ frame.uses = [] ∧ frame.inert = true := by
  cases frame with
  | waitLoop r cb timed => exact ⟨rfl, rfl, rfl⟩
  | waitPolled r cb timed => exact ⟨rfl, rfl, rfl⟩
  | handleData => exact ⟨rfl, rfl, rfl⟩
  | handleRead => exact ⟨rfl, rfl, rfl⟩
  | handled => exact ⟨rfl, rfl, rfl⟩
  | _ => cases reads

theorem Frame.ptrs_nil (free : frame.uses = []) : frame.ptrs = [] := by
  cases frame with
  | app cb => exact List.map_eq_nil_iff.mp free
  | _ => rfl

/-! ### Functions that touch no buffer -/

/-- The receive buffer and the queue of the context, and what the blocks hold. -/
structure Memory where
  channel : Bool
  buf : Nat → Buffer
  msgbufHdr : Msghdr
  msgbufData : Option Nat
  msgbufDataLen : Nat
  pending : List (Msghdr × Nat)

def State.memory (s : State) : Memory :=
  ⟨s.channel, s.buf, s.msgbufHdr, s.msgbufData, s.msgbufDataLen, s.pending⟩

/-- The list of a request stays, or the request is new and its list is empty. -/
def QueueKept (s s' : State) : Prop :=
  ∀ r, (s'.req r).pending = (s.req r).pending ∨ s.brk ≤ r ∧ (s'.req r).pending = []

/-- Nothing happened to the buffers, and only such `frames` were pushed. -/
structure Steady (frames : Frame → Prop) (s s' : State) : Prop where
  memory : s'.memory = s.memory
  queue : QueueKept s s'
  brk : s.brk ≤ s'.brk
  moved : ∃ new, s'.stack = new ++ s.stack ∧ ∀ frame ∈ new, frames frame

/-- The blocks a frame refers to, and that its pointers are about what is in them now. -/
def Refers (buf : Nat → Buffer) (allowed : Nat → Prop) (frame : Frame) : Prop :=
  (∀ b ∈ frame.uses, allowed b) ∧ ∀ p ∈ frame.ptrs, p.gen = (buf p.buf).gen

theorem refers_of_free {buf : Nat → Buffer} (free : frame.uses = []) :
    Refers buf allowed frame := by
  refine ⟨?_, ?_⟩
  · rw [free]
    exact List.forall_mem_nil _
  · rw [Frame.ptrs_nil free]
    exact List.forall_mem_nil _

theorem Refers.mono {buf : Nat → Buffer} {allowed' : Nat → Prop}
    (refers : Refers buf allowed frame) (sub : ∀ b, allowed b → allowed' b) :
    Refers buf allowed' frame :=
  ⟨fun b mem => sub b (refers.1 b mem), refers.2⟩

/-- Plain frames that refer to such blocks only. -/
def Light (buf : Nat → Buffer) (allowed : Nat → Prop) (frame : Frame) : Prop :=
  frame.plain = true ∧ Refers buf allowed frame

/-- The plain frames that refer to no block are among them. -/
def Usual (frames : Frame → Prop) : Prop :=
  ∀ frame : Frame, frame.plain = true → frame.uses = [] → frames frame

theorem usual_light (buf : Nat → Buffer) (allowed : Nat → Prop) : Usual (Light buf allowed) :=
  fun _ plain free => ⟨plain, refers_of_free free⟩

namespace Steady

variable {frames frames' : Frame → Prop} {s t u : State}

theorem of_eq (memory : t.memory = s.memory) (req : t.req = s.req) (brk : s.brk ≤ t.brk)
    (stack : t.stack = s.stack) : Steady frames s t :=
  ⟨memory, fun r => .inl (by rw [req]), brk, [], stack, List.forall_mem_nil _⟩

theorem refl (s : State) : Steady frames s s := of_eq rfl rfl le_rfl rfl

theorem trans (first : Steady frames s t) (second : Steady frames t u) : Steady frames s u := by
  obtain ⟨new, stack, frames⟩ := first.moved
  obtain ⟨new', stack', frames'⟩ := second.moved
  refine ⟨second.memory.trans first.memory, fun r => ?_, first.brk.trans second.brk, new' ++ new, ?_,
    List.forall_mem_append.mpr ⟨frames', frames⟩⟩
  · rcases second.queue r with same | ⟨fresh, empty⟩
    · rw [same]
      exact first.queue r
    · exact .inr ⟨first.brk.trans fresh, empty⟩
  · rw [stack', stack, List.append_assoc]

theorem mono (steady : Steady frames s t) (sub : ∀ frame, frames frame → frames' frame) :
    Steady frames' s t := by
  obtain ⟨new, stack, frames⟩ := steady.moved
  exact ⟨steady.memory, steady.queue, steady.brk, new, stack, fun frame mem => sub frame (frames frame mem)⟩

theorem push (before : Steady frames s t) (admitted : frames frame) :
    Steady frames s (t.push frame) :=
  before.trans ⟨rfl, fun _ => .inl rfl, le_rfl, [frame], rfl, List.forall_mem_singleton.mpr admitted⟩

theorem log (before : Steady frames s t) {event : Event} : Steady frames s (t.log event) :=
  before.trans (of_eq rfl rfl le_rfl rfl)

theorem call (before : Steady frames s t) (admitted : frames (.app cb)) :
    Steady frames s (t.call cb) :=
  (before.log).push admitted

theorem close (before : Steady frames s t) (fd : Option Nat) : Steady frames s (t.close fd) := by
  cases fd with
  | none => exact before
  | some fd => exact before.log

theorem mapReq (before : Steady frames s t) (r : Nat) {f : Request → Request}
    (same : ∀ req, (f req).pending = req.pending := by exact fun _ => rfl) :
    Steady frames s (t.mapReq r f) := by
  refine before.trans ⟨rfl, fun other => .inl ?_, le_rfl, [], rfl, List.forall_mem_nil _⟩
  by_cases about : other = r
  · subst about
    simp only [State.mapReq, Function.update_self, same]
  · simp only [State.mapReq, Function.update_of_ne about]

theorem andThen (before : Steady frames s t) (memory : u.memory = t.memory) (req : u.req = t.req)
    (brk : t.brk ≤ u.brk) (stack : u.stack = t.stack) : Steady frames s u :=
  before.trans (of_eq memory req brk stack)

end Steady

section

variable {frames : Frame → Prop}

theorem steady_parseMsg (data : Option Nat) (s : State) :
    Steady frames s (ubusParseMsg lib data s) := by
  cases data with
  | none => exact .of_eq rfl rfl le_rfl rfl
  | some b => exact .of_eq rfl rfl le_rfl rfl

theorem steady_sendMsg (env : Env) (sender : Sender) (seq : UInt16) (msg : Payload) (cmd : MsgType)
    (peer : UInt32) (fd : Option Nat) (s : State) :
    Steady frames s (ubusSendMsg lib env sender seq msg cmd peer fd s).2 := by
  have logged : ∀ ok, Steady frames s (s.log (.sent sender cmd seq peer msg ok)) := fun _ =>
    (Steady.refl s).log
  unfold ubusSendMsg
  split
  · exact (logged _).close fd
  · exact ((logged _).close fd).andThen rfl rfl le_rfl rfl

theorem steady_start (env : Env) {req : Request} (fresh : Fresh req) (msg : Payload) (cmd : MsgType)
    (peer : UInt32) (fd : Option Nat) (s : State) :
    Steady frames s (started (ubusStartRequest lib env req msg cmd peer fd s)) := by
  have returned : ∀ {result : Bool × State}, Steady frames s result.2 →
      Steady frames s (started result) := fun steady => steady.andThen rfl rfl le_rfl rfl
  unfold ubusStartRequest
  dsimp only
  split
  · refine returned (Steady.close ?_ fd)
    exact .of_eq rfl rfl (Nat.le_succ _) rfl
  refine returned (Steady.trans ?_ (steady_sendMsg ..))
  refine ⟨rfl, fun r => ?_, Nat.le_succ _, [], rfl, List.forall_mem_nil _⟩
  by_cases new : r = s.brk
  · subst new
    refine .inr ⟨le_rfl, ?_⟩
    simp only [Function.update_self]
    cases fresh <;> rfl
  · exact .inl (by simp only [Function.update_of_ne new])

theorem steady_sendAnswer (env : Env) (k : Nat) (ret : UInt32) (s : State) :
    Steady frames s (sendAnswer lib env k ret s) :=
  ((Steady.refl s).close _).trans (steady_sendMsg ..)

theorem steady_invoked (env : Env) (k : Nat) (noReply : Bool) (s : State) :
    Steady frames s (invoked lib env k noReply s) := by
  unfold invoked
  split
  · exact (Steady.refl s).close _
  · exact steady_sendAnswer ..

variable (usual : Usual frames)

include usual

theorem steady_runCompleteCb (cb : CompleteCb) (r : Nat) (ret : UInt32) (s : State) :
    Steady frames s (runCompleteCb cb r ret s) := by
  have base : Steady frames s s := .refl s
  cases cb with
  | null => exact base
  | user => exact (base.log).call (usual _ rfl rfl)
  | sync =>
    have polled : ∀ {t : State}, Steady frames s t → Steady frames s { t with cancelPoll := true } :=
      fun before => before.andThen rfl rfl le_rfl rfl
    exact polled (base.mapReq r)
  | notify =>
    simp only [runCompleteCb]
    split
    · exact (base.log).call (usual _ rfl rfl)
    · exact base.log

theorem steady_reqCompleteCb (r : Nat) (s : State) : Steady frames s (ubusReqCompleteCb r s) :=
  ((Steady.refl s).mapReq r).trans (steady_runCompleteCb usual ..)

theorem steady_setReqStatus (r : Nat) (ret : UInt32) (s : State) :
    Steady frames s (ubusSetReqStatus r ret s) := by
  have marked : Steady frames s (markStatus r ret s) := by
    have unlinked : Steady frames s { s with requests := unlink r s.requests } :=
      .of_eq rfl rfl le_rfl rfl
    exact unlinked.mapReq r
  simp only [ubusSetReqStatus]
  split
  · exact marked
  · exact marked.trans (steady_reqCompleteCb usual ..)

theorem steady_processReqDataEnd (r : Nat) (s : State) : Steady frames s (processReqDataEnd r s) := by
  have unblocked : Steady frames s (unblock r s) := (Steady.refl s).mapReq r
  simp only [processReqDataEnd]
  split
  · exact unblocked.trans (steady_reqCompleteCb usual ..)
  · exact unblocked

theorem steady_notifyStatusEnd (r : Nat) (s : State) : Steady frames s (notifyStatusEnd r s) := by
  unfold notifyStatusEnd
  split
  · exact (Steady.refl s).push (usual _ rfl rfl)
  · exact .refl s

omit usual in
theorem addPeers_pending (idx : Nat) (peers : List Bytes) (n : Request) :
    (addPeers lib idx peers n).pending = n.pending := by
  induction peers generalizing idx n with
  | nil => rfl
  | cons cur rest ih =>
    unfold addPeers
    split
    · exact ih ..
    dsimp only
    split
    · rfl
    · exact ih ..

theorem steady_processStatus (r : Nat) (id : Option Nat) (buf : MsghdrBuf) (s : State) :
    Steady frames s (processStatus lib r id buf s) := by
  have base : Steady frames s s := .refl s
  cases id with
  | none =>
    exact ((steady_parseMsg ..).mapReq r).push (usual _ rfl rfl)
  | some id =>
    have begun : Steady frames s (notifyParsed lib r id buf s) :=
      ((base.mapReq r).trans (steady_parseMsg ..)).log
    simp only [processStatus, ubusProcessNotifyStatus]
    split
    · exact (begun.mapReq r (addPeers_pending _ _)).trans (steady_notifyStatusEnd usual ..)
    split
    · exact (begun.push (usual _ rfl rfl)).call (usual _ rfl rfl)
    · exact begun.trans (steady_notifyStatusEnd usual ..)

theorem steady_flushRequests (s : State) : Steady frames s (ubusFlushRequests s) := by
  unfold ubusFlushRequests
  split
  · exact .refl s
  · exact ((Steady.refl s).push (usual _ rfl rfl)).push (usual _ rfl rfl)

theorem steady_waitEnd (r : Nat) (cb : CompleteCb) (s : State) : Steady frames s (waitEnd r cb s) := by
  have back : ∀ {t : State} (depth : Nat) (poll : Bool), Steady frames s t →
      Steady frames s { t with stackDepth := depth, cancelPoll := poll } :=
    fun _ _ before => before.andThen rfl rfl le_rfl rfl
  have lowered : Steady frames s (waitLower r cb s) := back _ _ ((Steady.refl s).mapReq r)
  exact (lowered.push (usual _ rfl rfl)).trans (steady_runCompleteCb usual ..)

theorem steady_waitCompleted (r : Nat) (cb : CompleteCb) (status : UInt32) (s : State) :
    Steady frames s (waitCompleted r cb status s) := by
  have base : Steady frames s (s.push (.waitReturn r cb status)) :=
    (Steady.refl s).push (usual _ rfl rfl)
  simp only [waitCompleted]
  split
  · exact base.push (usual _ rfl rfl)
  · exact base

theorem steady_pendingTimer (s : State) : Steady frames s (pendingTimer s) := by
  unfold pendingTimer
  split
  · exact (Steady.refl s).push (usual _ rfl rfl)
  · exact .refl s

theorem steady_stopped (fd : Option Nat) (s : State) :
    Steady frames s (pendingTimer ((s.close fd).push .handleEnd)) :=
  (((Steady.refl s).close fd).push (usual _ rfl rfl)).trans (steady_pendingTimer usual _)

theorem steady_handleEnd (s : State) : Steady frames s (handleEnd s) := by
  unfold handleEnd
  split
  · exact ((Steady.refl s).push (usual _ rfl rfl)).push (usual _ rfl rfl)
  · exact .refl s

theorem steady_processUnsubscribe (obj fd : Option Nat) (s : State) :
    Steady frames s (ubusProcessUnsubscribe lib obj fd s) := by
  have closed : Steady frames s (s.close fd) := (Steady.refl s).close fd
  unfold ubusProcessUnsubscribe
  dsimp only
  split
  · split
    · exact closed.call (usual _ rfl rfl)
    · exact closed
  · exact closed

theorem steady_processNotify (obj fd : Option Nat) (s : State) :
    Steady frames s (ubusProcessNotify lib obj fd s) := by
  have closed : Steady frames s (s.close fd) := (Steady.refl s).close fd
  unfold ubusProcessNotify
  dsimp only
  split
  · have marked : ∀ setup, Steady frames s { s.close fd with setup } := fun _ =>
      closed.andThen rfl rfl le_rfl rfl
    split
    · exact (marked _).call (usual _ rfl rfl)
    · exact marked _
  · exact closed

theorem steady_entered (buf : MsghdrBuf) (s : State) : Steady frames s (entered lib buf s) := by
  have raised : Steady frames s { s with stackDepth := s.stackDepth + 1 } := .of_eq rfl rfl le_rfl rfl
  exact ((raised.push (usual _ rfl rfl)).trans (steady_parseMsg ..)).log

end

/-! ### Functions that pass a message on -/

theorem parseMsg_ptr {data : Nat} {s : State} {id : UbusAttr} {p : Ptr}
    (parsed : (ubusParseMsg lib (some data) s).attrbuf id = some p) :
    p.buf = data ∧ p.gen = (s.buf data).gen := by
  simp only [ubusParseMsg, Option.map_eq_some_iff] at parsed
  obtain ⟨bytes, -, rfl⟩ := parsed
  exact ⟨rfl, rfl⟩

theorem steady_reqDataCbParse (r : Nat) (type : UInt8) (data : Nat) (s : State) :
    Steady (Light s.buf (· = data)) s (reqDataCbParse lib r type data s) := by
  have parsed : Steady (Light s.buf (· = data)) s (ubusParseMsg lib (some data) s) :=
    steady_parseMsg ..
  simp only [reqDataCbParse]
  split
  · exact .refl s
  split
  · exact parsed
  rename_i attr carried
  obtain ⟨buf, gen⟩ := parseMsg_ptr carried
  split
  · exact parsed
  refine parsed.call ⟨rfl, ?_, ?_⟩
  · exact List.forall_mem_singleton.mpr buf
  · refine List.forall_mem_singleton.mpr ?_
    rw [buf, gen]

theorem steady_reqDataCb (r : Nat) (type : UInt8) (data : Nat) (s : State) :
    Steady (Light s.buf (· = data)) s (reqDataCb lib r type data s) := by
  unfold reqDataCb
  split
  · have kept : Light s.buf (· = data) (.reqDataCbParse r type data) :=
      ⟨rfl, List.forall_mem_singleton.mpr rfl, List.forall_mem_nil _⟩
    refine ((Steady.refl s).push kept).call ⟨rfl, ?_, ?_⟩
    · exact List.forall_mem_singleton.mpr rfl
    · exact List.forall_mem_singleton.mpr rfl
  · exact steady_reqDataCbParse ..

/-- The frames that the static array can be in: those with pointers of it. -/
def Hands (attrbuf : UbusAttr → Option Ptr) (frame : Frame) : Prop :=
  frame.owns = none ∧ frame.reads = false ∧ (∀ buf fd, frame ≠ .processMsg buf fd) ∧
    (∀ b ∈ frame.uses, ∃ p ∈ frame.ptrs, p.buf = b) ∧ ∀ p ∈ frame.ptrs, ∃ id, attrbuf id = some p

theorem usual_hands (attrbuf : UbusAttr → Option Ptr) : Usual (Hands attrbuf) := by
  intro frame plain free
  obtain ⟨owns, reads, -⟩ := Frame.plain_spec plain
  refine ⟨owns, reads, ?_, ?_, ?_⟩
  · rintro buf fd rfl
    cases plain
  · rw [free]
    exact List.forall_mem_nil _
  · rw [Frame.ptrs_nil free]
    exact List.forall_mem_nil _

theorem hands_app (given : ∀ p ∈ cb.ptrs, ∃ id, attrbuf id = some p) : Hands attrbuf (.app cb) := by
  refine ⟨rfl, rfl, fun _ _ => Frame.noConfusion, fun b mem => ?_, given⟩
  obtain ⟨p, listed, rfl⟩ := List.mem_map.mp mem
  exact ⟨p, listed, rfl⟩

/-- The frames of a handler. -/
def Handler (attrbuf : UbusAttr → Option Ptr) (frame : Frame) : Prop :=
  frame.plain = true ∧ Hands attrbuf frame

theorem usual_handler (attrbuf : UbusAttr → Option Ptr) : Usual (Handler attrbuf) :=
  fun frame plain free => ⟨plain, usual_hands attrbuf frame plain free⟩

theorem steady_callHandler (obj method : Option Nat) (k : Nat) (noReply : Bool) (s : State)
    (same : s.attrbuf = attrbuf) :
    Steady (Handler attrbuf) s (callHandler obj method k noReply s) := by
  have pushed : Steady (Handler attrbuf) s (s.push (.invoked k noReply)) :=
    (Steady.refl s).push ⟨rfl, usual_hands _ _ rfl rfl⟩
  refine pushed.call ⟨rfl, hands_app fun p mem => ?_⟩
  rw [← same]
  rcases List.mem_append.mp mem with name | msg
  · exact ⟨_, Option.mem_toList.mp name⟩
  · exact ⟨_, Option.mem_toList.mp msg⟩

theorem steady_preInvoked (env : Env) (obj method k : Nat) (noReply : Bool) (s : State) :
    Steady (Handler s.attrbuf) s (preInvoked lib env obj method k noReply s) := by
  unfold preInvoked
  split
  · exact steady_callHandler _ _ _ _ _ rfl
  · exact steady_invoked ..

/-- The hook of a call is called. -/
inductive Asked (s s' : State) : Prop where
  | hook (t : State) (steady : Steady (fun _ => False) s t) (attrbuf : t.attrbuf = s.attrbuf)
    (obj method k : Nat) (noReply : Bool) (data : Ptr) (carried : s.attrbuf .data = some data)
    (after : s' = (t.push (.preInvoked obj method k noReply)).call (.preInvoke obj method k data))

theorem asked_after {s t : State} (before : Steady (fun _ => False) s t)
    (attrbuf : t.attrbuf = s.attrbuf) (asked : Asked t s') : Asked s s' := by
  cases asked with
  | hook u steady same obj method k noReply data carried after =>
    exact .hook u (before.trans steady) (same.trans attrbuf) obj method k noReply data
      (attrbuf ▸ carried) after

theorem Asked.steady {s : State} (asked : Asked s s') : Steady (Hands s.attrbuf) s s' := by
  cases asked with
  | hook t before attrbuf obj method k noReply data carried after =>
    have hook : Hands s.attrbuf (.preInvoked obj method k noReply) :=
      ⟨rfl, rfl, fun _ _ => Frame.noConfusion, List.forall_mem_nil _, List.forall_mem_nil _⟩
    subst after
    refine ((before.mono fun _ impossible => impossible.elim).push hook).call (hands_app ?_)
    exact List.forall_mem_singleton.mpr ⟨.data, carried⟩

theorem steady_invokeFound (env : Env) (obj method : Option Nat) (k : Nat) (noReply : Bool)
    (s : State) (same : s.attrbuf = attrbuf) :
    Steady (Handler attrbuf) s (invokeFound lib env obj method k noReply s) ∨
      Asked s (invokeFound lib env obj method k noReply s) := by
  unfold invokeFound
  split
  · exact .inl (steady_sendAnswer ..)
  rename_i data carried
  split
  · split
    · exact .inr (.hook s (.refl s) rfl _ _ _ _ data carried rfl)
    · exact .inl (steady_callHandler _ _ _ _ _ same)
  · exact .inl (steady_callHandler _ _ _ _ _ same)

theorem steady_processInvoke (env : Env) (hdr : Msghdr) (obj fd : Option Nat) (s : State)
    (same : s.attrbuf = attrbuf) :
    Steady (Handler attrbuf) s (ubusProcessInvoke lib env hdr obj fd s) ∨
      Asked s (ubusProcessInvoke lib env hdr obj fd s) := by
  have entry : ∀ frames rd, Steady frames s { s with rd, brk := s.brk + 1 } := fun _ _ =>
    .of_eq rfl rfl (Nat.le_succ _) rfl
  have found : ∀ rd method noReply,
      Steady (Handler attrbuf) s
        (invokeFound lib env obj method s.brk noReply { s with rd, brk := s.brk + 1 }) ∨
      Asked s (invokeFound lib env obj method s.brk noReply { s with rd, brk := s.brk + 1 }) := by
    intro rd method noReply
    rcases steady_invokeFound env obj method s.brk noReply { s with rd, brk := s.brk + 1 } same with
      steady | asked
    · exact .inl ((entry _ _).trans steady)
    · exact .inr (asked_after (entry _ _) rfl asked)
  unfold ubusProcessInvoke
  dsimp only
  split
  · exact .inl ((entry _ _).trans (steady_sendAnswer ..))
  split
  · exact .inl ((entry _ _).trans (steady_sendAnswer ..))
  split
  · exact found _ _ _
  split
  · exact .inl (entry _ _)
  split
  · exact .inl ((entry _ _).trans (steady_sendAnswer ..))
  · exact found _ _ _

/-! ### The kinds of steps -/

/-- **What a step does to the buffers.** -/
inductive Storage (lib : Libubox) (env : Env) (action : Action) (s s' : State) : Prop where
  | ret (idle : s.idle) (value : UInt32) (after : s' = { s with stack := s.stack.tail, ret := value })
  | act (idle : s.idle) (steady : Steady (Light s.buf fun _ => False) s s')
  | call (idle : s.idle)
    (reading : (∃ r timed, action = .complete r timed) ∨ action = .handleEvent)
    (steady : Steady (fun frame => frame.reads = true) s s')
  | abort (idle : s.idle) (r : Nat) (after : s' = ubusAbortRequest r s)
  | work (frame : Frame) (rest : List Frame) (top : s.stack = frame :: rest)
    (free : frame.owns = none)
    (steady : Steady (Light s.buf fun b => b ∈ frame.uses ∨ s.msgbufData = some b)
      { s with stack := rest } s')
  | loop (frame : Frame) (rest : List Frame) (top : s.stack = frame :: rest)
    (reads : frame.reads = true)
    (steady : Steady (fun new => new.reads = true ∨ Light s.buf (fun _ => False) new)
      { s with stack := rest } s')
  | read (rest : List Frame) (top : s.stack = .handleRead :: rest)
    (reads : Reads env { s with stack := rest } s')
  | hook (obj method k : Nat) (noReply : Bool) (rest : List Frame)
    (top : s.stack = .preInvoked obj method k noReply :: rest)
    (steady : Steady (Handler s.attrbuf) { s with stack := rest } s')
  | take (rest : List Frame) (top : s.stack = .processPendingMsg :: rest) (hdr : Msghdr) (data : Nat)
    (others : List (Msghdr × Nat)) (queued : s.pending = (hdr, data) :: others)
    (after : s' = { s with
      pending := others
      stack := .processMsg (.pending hdr data) none :: .pendingDone data :: rest })
  | done (data : Nat) (rest : List Frame) (top : s.stack = .pendingDone data :: rest)
    (after : s' = ({ s with stack := rest }.free data).push .processPendingMsg)
  | restore (prevData : Nat) (rest : List Frame) (top : s.stack = .restoreData prevData :: rest)
    (after : s' = restoreData prevData { s with stack := rest })
  | drain (r : Nat) (rest : List Frame) (top : s.stack = .processReqData r :: rest)
    (after : s' = processReqDataLoop r ((s.req r).pending.head?.map Prod.snd) { s with stack := rest })
  | drained (r data : Nat) (tmp : Option Nat) (rest : List Frame)
    (top : s.stack = .drain r data tmp :: rest)
    (after : s' = processReqDataLoop r tmp ({ s with stack := rest }.free data))
  | data (buf : MsghdrBuf) (fd : Option Nat) (rest : List Frame)
    (top : s.stack = .processMsg buf fd :: rest) (r data : Nat) (holds : s.data buf = some data)
    (after : s' = ((({ s with stack := .closeFd fd :: rest }.log
      (.gotData r (s.hdr buf).type (s.buf data).content)).copy (s.buf data).content).mapReq r
        fun req => { req with pending := ((s.hdr buf).type, s.brk) :: req.pending }))
  | queue (buf : MsghdrBuf) (fd : Option Nat) (rest : List Frame)
    (top : s.stack = .processMsg buf fd :: rest)
    (after : s' = (ubusQueueMsg env buf { s with stack := rest }).close fd)
  | dispatch (buf : MsghdrBuf) (fd : Option Nat) (rest : List Frame)
    (top : s.stack = .processMsg buf fd :: rest)
    (steady : Steady (Handler (detached lib buf { s with stack := rest }).attrbuf)
      (detached lib buf { s with stack := rest }) s')
  | ask (buf : MsghdrBuf) (fd : Option Nat) (rest : List Frame)
    (top : s.stack = .processMsg buf fd :: rest)
    (asked : Asked (detached lib buf { s with stack := rest }) s')

section

variable {env : Env} {action : Action} {s : State}

theorem storage_act (idle : s.idle) : Storage lib env action s (act lib env action s) := by
  have usual : Usual (Light s.buf fun _ => False) := usual_light _ _
  have base : Steady (Light s.buf fun _ => False) s s := .refl s
  have other : ∀ {t : State}, t.memory = s.memory → t.req = s.req → s.brk ≤ t.brk →
      t.stack = s.stack → Storage lib env action s t :=
    fun memory req brk stack => .act idle (.of_eq memory req brk stack)
  cases action with
  | ret value => exact .ret idle value rfl
  | setup setup => exact other rfl rfl le_rfl rfl
  | start cbs msg cmd peer fd => exact .act idle (steady_start env (.request cbs) ..)
  | invokeAsync cbs obj method msg fd => exact .act idle (steady_start env (.request cbs) ..)
  | notifyAsync cbs obj type msg reply =>
    simp only [act, ubusNotifyAsync]
    split
    · exact other rfl rfl le_rfl rfl
    · exact .act idle (steady_start env (.notify cbs obj) ..)
  | completeAsync r =>
    simp only [act, ubusCompleteRequestAsync]
    split
    · exact .act idle base
    · exact other rfl rfl le_rfl rfl
  | complete r timed =>
    refine .call idle (.inl ⟨r, timed, rfl⟩) ?_
    have linked : Steady (fun frame => frame.reads = true) s (ubusCompleteRequestAsync r s) := by
      unfold ubusCompleteRequestAsync
      split
      · exact .refl s
      · exact .of_eq rfl rfl le_rfl rfl
    have raised : ∀ {t : State} (depth : Nat), Steady (fun frame => frame.reads = true) s t →
        Steady (fun frame => frame.reads = true) s { t with stackDepth := depth } :=
      fun _ before => before.andThen rfl rfl le_rfl rfl
    exact raised _ ((linked.push rfl).mapReq r)
  | abort r => exact .abort idle r rfl
  | flush => exact .act idle (base.push (usual _ rfl rfl))
  | handleEvent => exact .call idle (.inr rfl) ((Steady.refl s).push rfl)
  | timer => exact .act idle (base.push (usual _ rfl rfl))
  | reconnect => exact other rfl rfl le_rfl rfl
  | defer k => exact other rfl rfl (Nat.le_succ _) rfl
  | setFd k fd => exact other rfl rfl le_rfl rfl
  | getCallerFd k =>
    have taken : Steady (Light s.buf fun _ => False) s (s.mapRd k fun req => { req with reqFd := none }) :=
      .of_eq rfl rfl le_rfl rfl
    simp only [act, ubusRequestGetCallerFd]
    split
    · exact .act idle taken
    · exact .act idle (taken.log)
  | completeDeferred k ret => exact .act idle (steady_sendMsg ..)
  | sendReply k msg => exact .act idle ((steady_sendMsg ..).andThen rfl rfl le_rfl rfl)

variable {buf : MsghdrBuf} {fd : Option Nat} {rest : List Frame}

theorem storage_message (top : s.stack = .processMsg buf fd :: rest)
    (steady : Steady (Light s.buf fun b => s.data buf = some b) { s with stack := rest } s') :
    Storage lib env action s s' := by
  refine .work _ rest top rfl (steady.mono fun _ light => ⟨light.1, light.2.mono fun b holds => ?_⟩)
  cases buf with
  | msgbuf => exact .inr holds
  | pending hdr data => exact .inl (List.mem_singleton.mpr (Option.some.inj holds).symm)

theorem storage_processObj (top : s.stack = .processMsg buf fd :: rest) :
    Storage lib env action s (processObj lib env buf fd { s with stack := rest }) := by
  by_cases depth : s.stackDepth = 0
  · have low : ({ s with stack := rest } : State).stackDepth = 0 := depth
    have entry : Steady (Light s.buf fun b => s.data buf = some b) { s with stack := rest }
      ((entered lib buf { s with stack := rest }).close fd) :=
        (steady_entered (usual_light _ _) ..).close fd
    rw [processObj_entered env buf fd low]
    split
    · exact storage_message top entry
    dsimp only
    split
    · have logged : ∀ frames, Steady frames (detached lib buf { s with stack := rest })
          (invoking lib buf { s with stack := rest }) := fun _ => (Steady.refl _).log
      rcases steady_processInvoke env _ _ fd (invoking lib buf { s with stack := rest }) rfl with
        steady | asked
      · exact .dispatch buf fd rest top ((logged _).trans steady)
      · exact .ask buf fd rest top (asked_after (logged _) rfl asked)
    split
    · exact .dispatch buf fd rest top (steady_processUnsubscribe (usual_handler _) ..)
    split
    · exact .dispatch buf fd rest top (steady_processNotify (usual_handler _) ..)
    · exact storage_message top entry
  · refine .queue buf fd rest top ?_
    unfold processObj
    rw [if_pos depth]

theorem storage_processReqMsg (top : s.stack = .processMsg buf fd :: rest) :
    Storage lib env action s (ubusProcessReqMsg lib env buf fd { s with stack := rest }) := by
  have usual : Usual (Light s.buf fun b => s.data buf = some b) := usual_light _ _
  have base : Steady (Light s.buf fun b => s.data buf = some b) { s with stack := rest }
    { s with stack := rest } := .refl _
  unfold ubusProcessReqMsg
  dsimp only
  split
  · exact storage_message top (base.close fd)
  rename_i r id found
  split
  · split
    · split
      · have later : ∀ r id, Light s.buf (fun b => s.data buf = some b) (.processStatus r id buf) := by
          refine fun r id => ⟨rfl, fun b mem => ?_, List.forall_mem_nil _⟩
          cases buf with
          | msgbuf => cases mem
          | pending hdr data => exact congrArg some (List.mem_singleton.mp mem).symm
        exact storage_message top ((base.push (later _ _)).log.call (usual _ rfl rfl))
      · exact storage_message top ((base.push (usual _ rfl rfl)).trans (steady_processStatus usual ..))
    · exact storage_message top (steady_processStatus usual ..)
  split
  · simp only [ubusProcessReqData]
    split
    · exact storage_message top ((base.push (usual _ rfl rfl)).andThen rfl rfl le_rfl rfl)
    rename_i data holds
    have holds : s.data buf = some data := by
      cases buf <;> exact holds
    split
    · have begun : ∀ r type, Light s.buf (fun b => s.data buf = some b) (.reqDataCb r type data) :=
        fun r type => ⟨rfl, List.forall_mem_singleton.mpr holds, List.forall_mem_nil _⟩
      exact storage_message top (((((base.push (usual _ rfl rfl)).mapReq _).log).push
        (usual _ rfl rfl)).push (begun _ _))
    split
    · refine .data buf fd rest top r data holds ?_
      cases buf <;> rfl
    · exact storage_message top (base.push (usual _ rfl rfl))
  · exact storage_message top (base.close fd)

theorem storage_processMsg (top : s.stack = .processMsg buf fd :: rest) :
    Storage lib env action s (ubusProcessMsg lib env buf fd { s with stack := rest }) := by
  have base : Steady (Light s.buf fun b => s.data buf = some b) { s with stack := rest }
    { s with stack := rest } := .refl _
  unfold ubusProcessMsg
  dsimp only
  split
  · exact storage_processReqMsg top
  split
  · split
    · exact storage_message top (base.close fd)
    · exact storage_processObj top
  split
  · exact storage_processObj top
  split
  · split
    · rename_i data holds
      have holds : s.data buf = some data := by
        cases buf <;> exact holds
      split
      · refine storage_message top ?_
        refine (base.push (usual_light _ _ (.closeFd fd) rfl rfl)).call ⟨rfl, ?_, ?_⟩
        · exact List.forall_mem_singleton.mpr holds
        · exact List.forall_mem_singleton.mpr rfl
      · exact storage_message top (base.close fd)
    · exact storage_message top (base.close fd)
  · exact storage_message top (base.close fd)

/-- **Every step is one of them.** -/
theorem step_storage (lib : Libubox) (env : Env) (action : Action) (s : State) :
    Storage lib env action s (step lib env action s) := by
  unfold step
  split
  · rename_i empty
    have idle : s.idle := by rw [State.idle, empty]
    exact storage_act idle
  · rename_i cb rest top
    have idle : s.idle := by rw [State.idle, top]
    exact storage_act idle
  · rename_i frame rest inside top
    have plain : frame.plain = true → ∀ {s'},
        Steady (Light s.buf (· ∈ frame.uses)) { s with stack := rest } s' →
          Storage lib env action s s' := fun plain _ steady => .work frame rest top (Frame.plain_spec plain).1
            (steady.mono fun _ light => ⟨light.1, light.2.mono fun _ => .inl⟩)
    have usual : Usual (Light s.buf (· ∈ frame.uses)) := usual_light _ _
    have base : Steady (Light s.buf (· ∈ frame.uses)) { s with stack := rest }
      { s with stack := rest } := .refl _
    have looping : Usual fun new => new.reads = true ∨ Light s.buf (fun _ => False) new :=
      fun new plain free => .inr (usual_light _ _ new plain free)
    have loop : frame.reads = true → ∀ {s'},
        Steady (fun new => new.reads = true ∨ Light s.buf (fun _ => False) new) { s with stack := rest }
          s' → Storage lib env action s s' := fun reads _ steady => .loop frame rest top reads steady
    have again : Steady (fun new => new.reads = true ∨ Light s.buf (fun _ => False) new)
      { s with stack := rest } { s with stack := rest } := .refl _
    have single : ∀ {data : Nat}, frame.uses = [data] → ∀ {s'},
        Steady (Light s.buf (· = data)) { s with stack := rest } s' →
          Steady (Light s.buf (· ∈ frame.uses)) { s with stack := rest } s' := by
      intro data uses s' steady
      refine steady.mono fun new light => ⟨light.1, light.2.mono fun b same => ?_⟩
      rw [uses, same]
      exact List.mem_singleton_self _
    cases frame with
    | app cb => exact absurd rfl (inside cb)
    | reqDataCb r type data => exact plain rfl (single rfl (steady_reqDataCb r type data { s with stack := rest }))
    | reqDataCbParse r type data =>
      exact plain rfl (single rfl (steady_reqDataCbParse r type data { s with stack := rest }))
    | processReqData r => exact .drain r rest top rfl
    | drain r data tmp => exact .drained r data tmp rest top rfl
    | setReqStatus r ret => exact plain rfl (steady_setReqStatus usual ..)
    | processStatus r id buf => exact plain rfl (steady_processStatus usual ..)
    | closeFd fd => exact plain rfl (base.close fd)
    | notifyStatus r => exact plain rfl (steady_notifyStatusEnd usual ..)
    | flushRequests => exact plain rfl (steady_flushRequests usual _)
    | waitLoop r cb timed =>
      simp only [resume, waitLoop]
      split
      · exact loop rfl (steady_waitEnd looping ..)
      split
      · exact loop rfl ((again.push (looping _ rfl rfl)).push (looping _ rfl rfl))
      have polled : ∀ {t : State}, Steady (fun new => new.reads = true ∨ Light s.buf (fun _ => False) new)
          { s with stack := rest } t → Steady (fun new => new.reads = true ∨
            Light s.buf (fun _ => False) new) { s with stack := rest } { t with cancelPoll := false } :=
        fun before => before.andThen rfl rfl le_rfl rfl
      exact loop rfl ((polled (again.push (.inl rfl))).push (.inl rfl))
    | waitPolled r cb timed =>
      simp only [resume, waitPolled]
      split
      · exact loop rfl ((again.push (looping _ rfl rfl)).push (looping _ rfl rfl))
      · exact loop rfl (again.push (.inl rfl))
    | waitEnd r cb lost =>
      have marked : ∀ cancelPoll, Steady (Light s.buf (· ∈ Frame.uses (.waitEnd r cb lost)))
        { s with stack := rest } { s with stack := rest, cancelPoll } := fun _ =>
          .of_eq rfl rfl le_rfl rfl
      exact plain rfl ((marked _).trans (steady_waitEnd usual ..))
    | waitCompleted r cb status => exact plain rfl (steady_waitCompleted usual ..)
    | waitReturn r cb status =>
      have returned : Steady (Light s.buf (· ∈ Frame.uses (.waitReturn r cb status)))
        { s with stack := rest } { s with stack := rest, ret := status } := .of_eq rfl rfl le_rfl rfl
      exact plain rfl (returned.log)
    | handleData => exact loop rfl ((again.push (.inl rfl)).trans (steady_pendingTimer looping _))
    | handleRead => exact .read rest top (handleRead_reads ..)
    | handled =>
      simp only [resume, handled]
      split
      · exact loop rfl ((again.push (looping _ rfl rfl)).trans (steady_pendingTimer looping _))
      · exact loop rfl (again.push (.inl rfl))
    | handleEnd => exact plain rfl (steady_handleEnd usual _)
    | handleLost => exact plain rfl (base.call (usual _ rfl rfl))
    | processMsg buf fd => exact storage_processMsg top
    | processPendingMsg =>
      simp only [resume, ubusProcessPendingMsg]
      split
      · exact plain rfl base
      rename_i hdr data others queued
      split
      · exact plain rfl base
      · exact .take rest top hdr data others queued rfl
    | pendingDone data => exact .done data rest top rfl
    | leaveObjMsg => exact plain rfl (.of_eq rfl rfl le_rfl rfl)
    | restoreData prevData => exact .restore prevData rest top rfl
    | preInvoked obj method k noReply =>
      exact .hook obj method k noReply rest top
        (steady_preInvoked env obj method k noReply { s with stack := rest })
    | invoked k noReply => exact plain rfl (steady_invoked ..)

end

end Ubus.Libubus
