/-
**The message a handler runs on.**

`ubus_process_invoke` parses the message into the one static array, calls `pre_invoke`, and reads the
arguments of the handler from the array after that. As long as the hook reads no message, the frames
above it cannot parse one (`passive`): a request may be flushed or complete, and the queue of pending
messages is not touched because `ctx->stack_depth` is raised.

* `Unread`: the application does not read while the hook of a call is on the stack.
* `Runs`: the handler of a call was or will be given its own message.
-/

import Ubus.Libubus.Answer

namespace Ubus.Libubus

variable {lib : Libubox}
variable {k method o : Nat} {inv : Invocation} {frame : Frame} {s' : State} {name data : Bytes}

/-! ### Frames that parse nothing -/

/-- Callbacks of the application, and the functions that can be above them without a read. -/
def Frame.passive : Frame → Bool
  | .app _ | .flushRequests | .setReqStatus _ _ | .processPendingMsg => true
  | _ => false

/-- The actions that read messages. -/
def Action.reads : Action → Bool
  | .complete _ _ | .handleEvent => true
  | _ => false

/-- The parsed attributes stay, and only such frames are pushed. -/
structure Rests (s s' : State) : Prop where
  attrbuf : s'.attrbuf = s.attrbuf
  grown : ∃ new, s'.stack = new ++ s.stack ∧ ∀ frame ∈ new, frame.passive = true

namespace Rests

variable {s t : State}

theorem of_eq (attrbuf : t.attrbuf = s.attrbuf) (stack : t.stack = s.stack) : Rests s t :=
  ⟨attrbuf, [], stack, List.forall_mem_nil _⟩

theorem refl (s : State) : Rests s s := of_eq rfl rfl

theorem trans {u : State} (first : Rests s t) (second : Rests t u) : Rests s u := by
  obtain ⟨new, stack, frames⟩ := first.grown
  obtain ⟨new', stack', frames'⟩ := second.grown
  refine ⟨second.attrbuf.trans first.attrbuf, new' ++ new, ?_,
    List.forall_mem_append.mpr ⟨frames', frames⟩⟩
  rw [stack', stack, List.append_assoc]

theorem push (before : Rests s t) (passive : frame.passive = true) : Rests s (t.push frame) :=
  before.trans ⟨rfl, [frame], rfl, by simpa using passive⟩

theorem call (before : Rests s t) (cb : Callback) : Rests s (t.call cb) :=
  before.trans ⟨rfl, [.app cb], rfl, by simp [Frame.passive]⟩

end Rests

theorem rests_sendMsg (env : Env) (sender : Sender) (seq : UInt16) (msg : Payload) (cmd : MsgType)
    (peer : UInt32) (fd : Option Nat) (s : State) :
    Rests s (ubusSendMsg lib env sender seq msg cmd peer fd s).2 := by
  unfold ubusSendMsg
  split <;> cases fd <;> exact .of_eq rfl rfl

theorem rests_start (env : Env) (req : Request) (msg : Payload) (cmd : MsgType) (peer : UInt32)
    (fd : Option Nat) (s : State) :
    Rests s (started (ubusStartRequest lib env req msg cmd peer fd s)) := by
  have answered : ∀ result : Bool × State, Rests result.2 (started result) := fun _ => .of_eq rfl rfl
  unfold ubusStartRequest
  dsimp only
  split
  · cases fd <;> exact .of_eq rfl rfl
  · have initial : ∀ seq req, Rests s { s with requestSeq := seq, req, brk := s.brk + 1 } :=
      fun _ _ => .of_eq rfl rfl
    exact ((initial _ _).trans (rests_sendMsg ..)).trans (answered _)

theorem rests_runCompleteCb (cb : CompleteCb) (r : Nat) (ret : UInt32) (s : State) :
    Rests s (runCompleteCb cb r ret s) := by
  have logged : Rests s (s.log (.completed r ret)) := .of_eq rfl rfl
  cases cb with
  | null => exact .refl s
  | user => exact logged.call _
  | sync => exact .of_eq rfl rfl
  | notify =>
    simp only [runCompleteCb]
    split
    · exact logged.call _
    · exact logged

theorem rests_setReqStatus (r : Nat) (ret : UInt32) (s : State) :
    Rests s (ubusSetReqStatus r ret s) := by
  have marked : Rests s (markStatus r ret s) := .of_eq rfl rfl
  have cleared : ∀ t : State, Rests t (t.mapReq r fun req => { req with completeCb := .null }) :=
    fun _ => .of_eq rfl rfl
  simp only [ubusSetReqStatus]
  split
  · exact marked
  · exact (marked.trans (cleared _)).trans (rests_runCompleteCb ..)

theorem rests_abort (r : Nat) (s : State) : Rests s (ubusAbortRequest r s) := by
  unfold ubusAbortRequest
  split
  · exact .refl s
  · dsimp only
    rw [freeAll_eq]
    exact .of_eq rfl rfl

theorem rests_act (env : Env) {action : Action} (quiet : action.reads = false)
    (stays : ∀ value, action ≠ .ret value) (s : State) : Rests s (act lib env action s) := by
  cases action with
  | ret value => exact absurd rfl (stays value)
  | setup setup => exact .of_eq rfl rfl
  | start cbs msg cmd peer fd => exact rests_start ..
  | invokeAsync cbs obj method msg fd => exact rests_start ..
  | notifyAsync cbs obj type msg reply =>
    simp only [act, ubusNotifyAsync]
    split
    · exact .of_eq rfl rfl
    · exact rests_start ..
  | completeAsync r =>
    simp only [act, ubusCompleteRequestAsync]
    split <;> exact .of_eq rfl rfl
  | complete r timed => cases quiet
  | abort r => exact rests_abort r s
  | flush => exact (Rests.refl s).push rfl
  | handleEvent => cases quiet
  | timer => exact (Rests.refl s).push rfl
  | reconnect => exact .of_eq rfl rfl
  | defer k => exact .of_eq rfl rfl
  | setFd k fd => exact .of_eq rfl rfl
  | getCallerFd k =>
    simp only [act, ubusRequestGetCallerFd]
    split <;> exact .of_eq rfl rfl
  | completeDeferred k ret => exact rests_sendMsg ..
  | sendReply k msg =>
    exact Rests.trans (rests_sendMsg env _ _ _ _ _ none s) (.of_eq rfl rfl)

/-! ### While the hook runs -/

/-- The application does not read while the hook of call `k` is on the stack. -/
def Unread (k : Nat) (s : State) (action : Action) : Prop :=
  (∃ obj method noReply, .preInvoked obj method k noReply ∈ s.stack) → action.reads = false

/-- **Above the hook nothing is parsed.** -/
theorem hook_step {obj : Nat} {noReply : Bool} {s : State} {top : Frame}
    {above below : List Frame} (next : StepWhen lib (Unread k) s s')
    (stack : s.stack = top :: above ++ .preInvoked obj method k noReply :: below)
    (passive : ∀ frame ∈ top :: above, frame.passive = true) (raised : s.stackDepth ≠ 0) :
    ∃ above', s'.stack = above' ++ .preInvoked obj method k noReply :: below ∧
      (∀ frame ∈ above', frame.passive = true) ∧ s'.attrbuf = s.attrbuf := by
  obtain ⟨now, later⟩ := List.forall_mem_cons.mp passive
  have popped : ∀ {t : State}, Rests { s with stack := above ++ .preInvoked obj method k noReply :: below }
      t → ∃ above', t.stack = above' ++ .preInvoked obj method k noReply :: below ∧
        (∀ frame ∈ above', frame.passive = true) ∧ t.attrbuf = s.attrbuf := by
    rintro t ⟨attrbuf, new, grown, frames⟩
    refine ⟨new ++ above, ?_, List.forall_mem_append.mpr ⟨frames, later⟩, attrbuf⟩
    rw [grown, List.append_assoc]
  have shape : s.stack = top :: (above ++ .preInvoked obj method k noReply :: below) := stack
  have resumes := next.resumes shape
  cases top with
  | app cb =>
    obtain ⟨env, action, allowed, rfl⟩ := next
    have idle : s.idle := by rw [State.idle, stack]; rfl
    have quiet : action.reads = false := allowed idle ⟨obj, method, noReply, by
      rw [stack]
      exact List.mem_append_right _ List.mem_cons_self⟩
    have acts : step lib env action s = act lib env action s := by
      unfold step
      rw [stack]
      rfl
    rw [acts]
    by_cases back : ∃ value, action = .ret value
    · obtain ⟨value, rfl⟩ := back
      refine ⟨above, ?_, later, rfl⟩
      show s.stack.tail = _
      rw [stack]
      rfl
    · obtain ⟨attrbuf, new, grown, frames⟩ : Rests s (act lib env action s) :=
        rests_act env quiet (fun value same => back ⟨value, same⟩) s
      refine ⟨new ++ .app cb :: above, ?_, List.forall_mem_append.mpr ⟨frames, passive⟩, attrbuf⟩
      rw [grown, stack, List.append_assoc]
  | flushRequests =>
    obtain ⟨env, rfl⟩ := resumes fun _ => Frame.noConfusion
    simp only [resume, ubusFlushRequests]
    split
    · exact popped (.refl _)
    · exact popped (((Rests.refl _).push rfl).push rfl)
  | setReqStatus r ret =>
    obtain ⟨env, rfl⟩ := resumes fun _ => Frame.noConfusion
    exact popped (rests_setReqStatus ..)
  | processPendingMsg =>
    obtain ⟨env, rfl⟩ := resumes fun _ => Frame.noConfusion
    simp only [resume, ubusProcessPendingMsg]
    split
    · exact popped (.refl _)
    · rw [if_pos raised]
      exact popped (.refl _)
  | _ => cases now

/-! ### A call and its message -/

/-- What a call was made with: the header and the body of its message, and the object and the method
that were found. -/
structure Invocation where
  hdr : Msghdr
  content : Bytes
  obj : Nat
  method : Nat
  /-- The id that the object had. -/
  id : UInt32

/-- **The handler of call `k` was given its own message**, and what is left of the call uses it. -/
structure Issue (lib : Libubox) (inv : Invocation) (k : Nat) (s : State) : Prop where
  given : k < s.brk
  peer : (s.rd k).peer = inv.hdr.peer
  seq : (s.rd k).seq = inv.hdr.seq
  object : (s.rd k).object = inv.id
  frames : ∀ frame ∈ s.stack, frame.serves k = true →
    frame = .preInvoked inv.obj inv.method k (noReply lib inv.content) ∨
      frame = .invoked k (noReply lib inv.content)
  calls : ∀ obj method name msg, .call (.handler obj method k name msg) ∈ s.trace →
    obj = some inv.obj ∧ method = some inv.method ∧
      name.map Ptr.bytes = lib.blobParse inv.content .method ∧
      msg.map Ptr.bytes = lib.blobParse inv.content .data
  answers : ∀ event ∈ s.trace, event.answers k = true → noReply lib inv.content = false ∧
    ∃ ret ok, event = .sent (.invoke k) .status inv.hdr.seq inv.hdr.peer
      (.built [.int32 .status ret, .int32 .objid inv.id]) ok

theorem Issue.tail {s : State} (issue : Issue lib inv k s) {rest : List Frame}
    (top : s.stack = frame :: rest) : Issue lib inv k { s with stack := rest } := by
  refine ⟨issue.given, issue.peer, issue.seq, issue.object, fun other mem => issue.frames other ?_,
    issue.calls, issue.answers⟩
  rw [top]
  exact List.mem_cons_of_mem _ mem

theorem issue_local (lib : Libubox) (inv : Invocation) (k : Nat) : Local k (Issue lib inv k) where
  given issue := issue.given
  moves moves out issue := by
    obtain ⟨new, events, stack, trace, frames, own, -⟩ := moves.moved
    have rd := moves.rd k out
    refine ⟨issue.given.trans_le moves.brk, ?_, ?_, ?_, ?_, ?_, ?_⟩
    · rw [rd, issue.peer]
    · rw [rd, issue.seq]
    · rw [rd, issue.object]
    · rw [stack]
      refine List.forall_mem_append.mpr ⟨fun frame mem serves => ?_, issue.frames⟩
      exact absurd ((frames frame mem).call (serves_rd serves)) out
    · intro obj method name msg mem
      rw [trace] at mem
      rcases List.mem_append.mp mem with new | old
      · exact absurd ((own _ new).call rfl) out
      · exact issue.calls obj method name msg old
    · rw [trace]
      refine List.forall_mem_append.mpr ⟨fun event mem answers => ?_, issue.answers⟩
      exact absurd ((own event mem).call (answers_rd answers)) out
  pop top _ issue := issue.tail top
  update {s j f} same issue := by
    obtain ⟨peer, seq, object⟩ := mapRd_fields (k := k) (j := j) same s
    exact ⟨issue.given, peer.trans issue.peer, seq.trans issue.seq, object.trans issue.object,
      issue.frames, issue.calls, issue.answers⟩

/-- The answer to a call. -/
def IsAnswer (lib : Libubox) (inv : Invocation) (k : Nat) (event : Event) : Prop :=
  noReply lib inv.content = false ∧ ∃ ret ok, event = .sent (.invoke k) .status inv.hdr.seq inv.hdr.peer
    (.built [.int32 .status ret, .int32 .objid inv.id]) ok

theorem Issue.logged {s t : State} (issue : Issue lib inv k s) (brk : t.brk = s.brk)
    (rd : t.rd = s.rd) (stack : t.stack = s.stack) {events : List Event}
    (trace : t.trace = events ++ s.trace)
    (each : ∀ event ∈ events, (∃ fd, event = .close fd) ∨ IsAnswer lib inv k event) :
    Issue lib inv k t := by
  refine ⟨brk ▸ issue.given, rd ▸ issue.peer, rd ▸ issue.seq, rd ▸ issue.object, stack ▸ issue.frames,
    ?_, ?_⟩
  · intro obj method name msg mem
    rw [trace] at mem
    rcases List.mem_append.mp mem with new | old
    · rcases each _ new with ⟨fd, same⟩ | ⟨-, ret, ok, same⟩
      · cases same
      · cases same
    · exact issue.calls obj method name msg old
  · rw [trace]
    refine List.forall_mem_append.mpr ⟨fun event mem own => ?_, issue.answers⟩
    rcases each event mem with ⟨fd, rfl⟩ | answer
    · cases own
    · exact answer

theorem close_each (lib : Libubox) (inv : Invocation) (k : Nat) (fds : List Nat) :
    ∀ event ∈ fds.map Event.close, (∃ fd, event = .close fd) ∨ IsAnswer lib inv k event := by
  intro event mem
  obtain ⟨fd, -, rfl⟩ := List.mem_map.mp mem
  exact .inl ⟨fd, rfl⟩

theorem Issue.invoked {s t : State} (issue : Issue lib inv k s) {env : Env}
    (after : t = invoked lib env k (noReply lib inv.content) s) : Issue lib inv k t := by
  unfold Libubus.invoked at after
  split at after
  · obtain ⟨stack, rd, brk, trace⟩ := close_fields (s.rd k).reqFd s
    rw [← after] at stack rd brk trace
    exact issue.logged brk rd stack trace (close_each lib inv k _)
  · rename_i wanted
    obtain ⟨stack, rd, brk, ok, trace⟩ := sendAnswer_fields env k s.ret s after
    rw [issue.peer, issue.seq, issue.object, ← List.cons_append, ← List.append_assoc] at trace
    refine issue.logged brk rd stack trace (List.forall_mem_append.mpr ⟨close_each lib inv k _, ?_⟩)
    refine List.forall_mem_cons.mpr ⟨.inr ⟨?_, s.ret, ok, rfl⟩, close_each lib inv k _⟩
    exact (Bool.or_eq_false_iff.mp (Bool.eq_false_iff.mpr wanted)).2

theorem Issue.called {s : State} (issue : Issue lib inv k s) (parsed : Parsed lib inv.content s) :
    Issue lib inv k (callHandler (some inv.obj) (some inv.method) k (noReply lib inv.content) s) := by
  refine ⟨issue.given, issue.peer, issue.seq, issue.object, ?_, ?_, ?_⟩
  · refine List.forall_mem_cons.mpr ⟨fun serves => (by cases serves), ?_⟩
    exact List.forall_mem_cons.mpr ⟨fun _ => .inr rfl, issue.frames⟩
  · intro obj method name msg mem
    rcases List.mem_cons.mp mem with same | old
    · obtain ⟨rfl, rfl, -, rfl, rfl⟩ := Callback.handler.inj (Event.call.inj same)
      exact ⟨rfl, rfl, parsed .method, parsed .data⟩
    · exact issue.calls obj method name msg old
  · exact List.forall_mem_cons.mpr ⟨fun own => (by cases own), issue.answers⟩

theorem Issue.asked {s : State} (issue : Issue lib inv k s) (data : Ptr) :
    Issue lib inv k ((s.push (.preInvoked inv.obj inv.method k (noReply lib inv.content))).call
      (.preInvoke inv.obj inv.method k data)) := by
  refine ⟨issue.given, issue.peer, issue.seq, issue.object, ?_, ?_, ?_⟩
  · refine List.forall_mem_cons.mpr ⟨fun serves => (by cases serves), ?_⟩
    exact List.forall_mem_cons.mpr ⟨fun _ => .inl rfl, issue.frames⟩
  · intro obj method name msg mem
    exact issue.calls obj method name msg
      ((List.mem_cons.mp mem).resolve_left fun other => by cases other)
  · exact List.forall_mem_cons.mpr ⟨fun answers => (by cases answers), issue.answers⟩

/-- The hook of call `k`. -/
def Frame.hooks (k : Nat) : Frame → Bool
  | .preInvoked _ _ j _ => j == k
  | _ => false

theorem hooks_serves (hooks : frame.hooks k = true) : frame.serves k = true := by
  cases frame <;> first | cases hooks | exact hooks

/-- The hook of the call is not on the stack, or nothing has been parsed since it was called. -/
def Hooked (lib : Libubox) (inv : Invocation) (k : Nat) (s : State) : Prop :=
  (k < s.brk ∧ ∀ frame ∈ s.stack, frame.hooks k = false) ∨
  ∃ above below, s.stack = above ++
      .preInvoked inv.obj inv.method k (noReply lib inv.content) :: below ∧
    (∀ frame ∈ above, frame.passive = true) ∧ (∀ frame ∈ below, frame.hooks k = false) ∧
    0 < depthOf below ∧ Parsed lib inv.content s

theorem unhooked_local (k : Nat) :
    Local k fun s => k < s.brk ∧ ∀ frame ∈ s.stack, frame.hooks k = false where
  given holds := holds.1
  moves moves out holds := by
    obtain ⟨new, events, stack, -, frames, -⟩ := moves.moved
    refine ⟨holds.1.trans_le moves.brk, ?_⟩
    rw [stack]
    refine List.forall_mem_append.mpr ⟨fun frame mem => ?_, holds.2⟩
    by_contra hooks
    rw [Bool.not_eq_false] at hooks
    exact out ((frames frame mem).call (serves_rd (hooks_serves hooks)))
  pop {s frame rest} top _ holds := by
    refine ⟨holds.1, fun frame mem => holds.2 frame ?_⟩
    rw [top]
    exact List.mem_cons_of_mem _ mem
  update _ holds := holds

/-- **One step**: the message of a call stays its own. -/
theorem issue_step {s : State} (next : StepWhen lib (Unread k) s s')
    (depth : s.stackDepth = depthOf s.stack) (issue : Issue lib inv k s)
    (hooked : Hooked lib inv k s) : Issue lib inv k s' ∧ Hooked lib inv k s' := by
  have ended : ∀ {frame rest env}, s.stack = frame :: rest →
      s' = invoked lib env k (noReply lib inv.content) { s with stack := rest } →
      (∀ frame ∈ rest, frame.hooks k = false) → Issue lib inv k s' ∧ Hooked lib inv k s' := by
    intro frame rest env top after none
    obtain ⟨stack, brk, -⟩ := invoked_stack after
    refine ⟨(issue.tail top).invoked after, .inl ⟨?_, ?_⟩⟩
    · rw [brk]
      exact issue.given
    · rw [stack]
      exact none
  rcases hooked with ⟨given, none⟩ | ⟨above, below, stack, passive, none, raised, parsed⟩
  · by_cases own : ∃ rest, s.stack = .invoked k (noReply lib inv.content) :: rest
    · obtain ⟨rest, top⟩ := own
      obtain ⟨env, after⟩ := next.resumes top fun _ => Frame.noConfusion
      refine ended top after fun frame mem => none frame ?_
      rw [top]
      exact List.mem_cons_of_mem _ mem
    · have apart : ∀ frame rest, s.stack = frame :: rest → frame.serves k = false := by
        intro frame rest top
        have mem : frame ∈ s.stack := by rw [top]; exact List.mem_cons_self
        by_contra serves
        rw [Bool.not_eq_false] at serves
        rcases issue.frames frame mem serves with rfl | rfl
        · exact absurd (none _ mem) (by simp [Frame.hooks])
        · exact own ⟨rest, top⟩
      exact ⟨(issue_local lib inv k).step issue apart next,
        .inl ((unhooked_local k).step ⟨given, none⟩ apart next)⟩
  · rcases above with _ | ⟨top, above⟩
    · obtain ⟨env, after⟩ := next.resumes stack fun _ => Frame.noConfusion
      have left : s' = preInvoked lib env inv.obj inv.method k (noReply lib inv.content)
        { s with stack := below } := after
      unfold preInvoked at left
      split at left
      · subst left
        refine ⟨(issue.tail stack).called (parsed.congr rfl), .inl ⟨issue.given, ?_⟩⟩
        exact List.forall_mem_cons.mpr ⟨rfl, List.forall_mem_cons.mpr ⟨rfl, none⟩⟩
      · exact ended stack left none
    · have apart : ∀ frame rest, s.stack = frame :: rest → frame.serves k = false := by
        intro frame rest first
        obtain ⟨rfl, -⟩ := List.cons.inj (stack.symm.trans first)
        have now := passive top List.mem_cons_self
        cases top <;> first | rfl | cases now
      have lifted : s.stackDepth ≠ 0 := by
        rw [depth, stack]
        simp only [depthOf_append, depthOf_cons]
        omega
      obtain ⟨above', stack', passive', attrbuf⟩ := hook_step next stack passive lifted
      refine ⟨(issue_local lib inv k).step issue apart next,
        .inr ⟨above', below, stack', passive', none, raised, parsed.congr attrbuf⟩⟩

theorem issue_begin {s : State} (numbered : Numbered s) (buf : MsghdrBuf) (fd : Option Nat)
    (bus : s.channel = false) (o method : Nat) :
    Issue lib ⟨s.hdr buf, s.content buf, o, method, (s.setup.object o).id⟩ s.brk
      ((invoking lib buf s).begin (filled (s.hdr buf) (some o) fd (invoking lib buf s))) := by
  obtain ⟨silent, none⟩ := invoking_silent lib buf numbered
  obtain ⟨setup, channel, brk, -⟩ := invoking_fields lib buf s
  obtain ⟨peer, seq, -⟩ := filled_fields (s.hdr buf) (some o) fd (invoking lib buf s)
  have own : ((invoking lib buf s).begin (filled (s.hdr buf) (some o) fd (invoking lib buf s))).rd s.brk =
      filled (s.hdr buf) (some o) fd (invoking lib buf s) := by
    rw [← brk]
    exact Function.update_self ..
  have object : (filled (s.hdr buf) (some o) fd (invoking lib buf s)).object = (s.setup.object o).id := by
    simp only [filled, channel, bus, setup]
  refine ⟨?_, by rw [own, peer], by rw [own, seq], by rw [own, object], ?_, ?_, ?_⟩
  · rw [← brk]
    exact Nat.lt_succ_self _
  · intro frame mem serves
    exact absurd serves (List.countP_eq_zero.mp none frame mem)
  · intro obj method name msg mem
    have later : Numbered (detached lib buf s) := numbered.passes ⟨_, moves_detached buf s⟩
    have old := (List.mem_cons.mp mem).resolve_left fun same => by cases same
    have less := later.events _ old s.brk rfl
    rw [(show (detached lib buf s).brk = s.brk from brk)] at less
    exact absurd less (lt_irrefl _)
  · intro event mem own
    exact absurd own (List.filter_eq_nil_iff.mp silent event mem)

theorem invoking_raised (lib : Libubox) (buf : MsghdrBuf) (s : State) :
    0 < depthOf (invoking lib buf s).stack := by
  have entry : (entered lib buf s).stack = .leaveObjMsg :: s.stack := by
    unfold entered
    cases s.data buf <;> rfl
  have kept : depthOf (detachData buf (entered lib buf s)).stack = depthOf (entered lib buf s).stack := by
    unfold detachData
    split
    · exact Nat.zero_add _
    · rfl
  show 0 < depthOf (detachData buf (entered lib buf s)).stack
  rw [kept, entry, depthOf_cons]
  exact Nat.lt_of_lt_of_le Nat.zero_lt_one (Nat.le_add_right ..)

theorem issue_invoke {s : State} (numbered : Numbered s) (env : Env) (buf : MsghdrBuf)
    (fd : Option Nat) (bus : s.channel = false)
    (named : lib.blobParse (s.content buf) .method = some name)
    (matching : ubusObjectFindMethod (s.setup.object o) (lib.blobString name) = some method)
    (given : lib.blobParse (s.content buf) .data = some data) {t : State}
    (after : t = ubusProcessInvoke lib env (s.hdr buf) (some o) fd (invoking lib buf s)) :
    Issue lib ⟨s.hdr buf, s.content buf, o, method, (s.setup.object o).id⟩ s.brk t ∧
      Hooked lib ⟨s.hdr buf, s.content buf, o, method, (s.setup.object o).id⟩ s.brk t := by
  have began : Issue lib ⟨s.hdr buf, s.content buf, o, method, (s.setup.object o).id⟩ s.brk _ :=
    issue_begin numbered buf fd bus o method
  obtain ⟨-, none⟩ := invoking_silent lib buf numbered
  have parsed := invoking_parsed lib buf s
  have raised := invoking_raised lib buf s
  obtain ⟨setup, channel, brk, -⟩ := invoking_fields lib buf s
  generalize invoking lib buf s = u at *
  obtain ⟨word, attr, rfl⟩ := Option.map_eq_some_iff.mp ((parsed .method).trans named)
  obtain ⟨body, attr', rfl⟩ := Option.map_eq_some_iff.mp ((parsed .data).trans given)
  have unhooked : ∀ frame ∈ u.stack, frame.hooks s.brk = false := by
    intro frame mem
    by_contra hooks
    rw [Bool.not_eq_false] at hooks
    exact List.countP_eq_zero.mp none frame mem (hooks_serves hooks)
  have same : (u.begin (filled (s.hdr buf) (some o) fd u)).attrbuf = u.attrbuf := rfl
  rw [processInvoke_object env (s.hdr buf) o fd parsed (channel.trans bus) attr, setup, matching] at after
  dsimp only [invokeFound] at after
  rw [same, attr', brk] at after
  dsimp only at after
  split at after
  · subst after
    have asked := began.asked body
    refine ⟨asked, .inr ⟨[.app (.preInvoke o method s.brk body)], u.stack, rfl, ?_, unhooked, raised,
      ((parsed.begin _).push _).call _⟩⟩
    simp [Frame.passive]
  · subst after
    have called := began.called (parsed.begin _)
    refine ⟨called, .inl ⟨called.given, ?_⟩⟩
    exact List.forall_mem_cons.mpr ⟨rfl, List.forall_mem_cons.mpr ⟨rfl, unhooked⟩⟩

/-- A message for a method of an object is about to be dispatched. -/
structure Dispatch (lib : Libubox) (s : State) (buf : MsghdrBuf) (o method : Nat) (name data : Bytes) :
    Prop where
  top : ∃ fd rest, s.stack = .processMsg buf fd :: rest
  direct : s.stackDepth = 0
  bus : s.channel = false
  type : (s.hdr buf).type = MsgType.invoke.code
  found : ∃ objid, lib.blobParse (s.content buf) .objid = some objid ∧
    s.findObject (lib.blobGetU32 objid) = some o
  named : lib.blobParse (s.content buf) .method = some name
  matching : ubusObjectFindMethod (s.setup.object o) (lib.blobString name) = some method
  given : lib.blobParse (s.content buf) .data = some data

theorem issue_dispatch {s : State} (numbered : Numbered s) {buf : MsghdrBuf}
    (dispatch : Dispatch lib s buf o method name data) (env : Env) (action : Action) :
    Issue lib ⟨s.hdr buf, s.content buf, o, method, (s.setup.object o).id⟩ s.brk
        (step lib env action s) ∧
      Hooked lib ⟨s.hdr buf, s.content buf, o, method, (s.setup.object o).id⟩ s.brk
        (step lib env action s) := by
  obtain ⟨fd, rest, top⟩ := dispatch.top
  obtain ⟨objid, carries, found⟩ := dispatch.found
  have after := step_invoke env action top dispatch.direct dispatch.type carries
  rw [found] at after
  exact issue_invoke (numbered.pop top) env buf fd dispatch.bus dispatch.named dispatch.matching
    dispatch.given after

/-- **The handler runs on the message that was dispatched.** Whatever happens after the dispatch, as long
as the application does not read inside the hook: every call of the handler was given the method name
and the data of the message; a hook that returns 0 is followed by that call; and the answer goes to the
caller, names the object, and is left out if the message says so. -/
theorem handler_gets_message {s t : State} (reachable : Reachable lib s) {buf : MsghdrBuf}
    {o method : Nat} {name data : Bytes} (dispatch : Dispatch lib s buf o method name data)
    {env : Env} {action : Action}
    (path : Relation.ReflTransGen (StepWhen lib (Unread s.brk)) (step lib env action s) t) :
    (∀ obj method' name' msg, .call (.handler obj method' s.brk name' msg) ∈ t.trace →
      obj = some o ∧ method' = some method ∧ name'.map Ptr.bytes = some name ∧
        msg.map Ptr.bytes = some data) ∧
    (∀ noReply' base, t.stack = .preInvoked o method s.brk noReply' :: base → t.ret = 0 →
      ∀ env action, ∃ name' msg, (step lib env action t).stack =
          .app (.handler (some o) (some method) s.brk (some name') (some msg)) ::
            .invoked s.brk (noReply lib (s.content buf)) :: base ∧
        name'.bytes = name ∧ msg.bytes = data) ∧
    (∀ noReply', .invoked s.brk noReply' ∈ t.stack → noReply' = noReply lib (s.content buf) ∧
      (t.rd s.brk).seq = (s.hdr buf).seq ∧ (t.rd s.brk).peer = (s.hdr buf).peer ∧
      (t.rd s.brk).object = (s.setup.object o).id) ∧
    ∀ event ∈ answers s.brk t.trace, noReply lib (s.content buf) = false ∧
      ∃ ret ok, event = .sent (.invoke s.brk) .status (s.hdr buf).seq (s.hdr buf).peer
        (.built [.int32 .status ret, .int32 .objid (s.setup.object o).id]) ok := by
  have next : Step lib s (step lib env action s) := ⟨env, action, rfl⟩
  have depth := ((step_advance next.when).depth reachable.depth).2
  have start := issue_dispatch reachable.numbered dispatch env action
  obtain ⟨issue, hooked⟩ : Issue lib ⟨s.hdr buf, s.content buf, o, method, (s.setup.object o).id⟩ s.brk t ∧
      Hooked lib ⟨s.hdr buf, s.content buf, o, method, (s.setup.object o).id⟩ s.brk t := by
    have along : t.stackDepth = depthOf t.stack ∧
        Issue lib ⟨s.hdr buf, s.content buf, o, method, (s.setup.object o).id⟩ s.brk t ∧
        Hooked lib ⟨s.hdr buf, s.content buf, o, method, (s.setup.object o).id⟩ s.brk t := by
      induction path with
      | refl => exact ⟨depth, start⟩
      | tail _ step ih =>
        exact ⟨((step_advance step).depth ih.1).2, issue_step step ih.1 ih.2.1 ih.2.2⟩
    exact along.2
  refine ⟨?_, ?_, ?_, ?_⟩
  · intro obj method' name' msg mem
    obtain ⟨same, same', named, given⟩ := issue.calls obj method' name' msg mem
    exact ⟨same, same', named.trans dispatch.named, given.trans dispatch.given⟩
  · intro noReply' base top zero env action
    rcases hooked with ⟨-, none⟩ | ⟨above, below, stack, passive, -, -, parsed⟩
    · exact absurd (none _ (by rw [top]; exact List.mem_cons_self)) (by simp [Frame.hooks])
    · rcases above with _ | ⟨frame, above⟩
      · obtain ⟨word, attr, rfl⟩ := Option.map_eq_some_iff.mp ((parsed .method).trans dispatch.named)
        obtain ⟨body, attr', rfl⟩ := Option.map_eq_some_iff.mp ((parsed .data).trans dispatch.given)
        obtain ⟨same, rfl⟩ := List.cons.inj (top.symm.trans stack)
        refine ⟨word, body, ?_, rfl, rfl⟩
        simp only [step, stack, List.nil_append, resume, preInvoked, zero, callHandler, attr, attr']
        rfl
      · obtain ⟨rfl, -⟩ := List.cons.inj (top.symm.trans stack)
        exact absurd (passive _ List.mem_cons_self) Bool.false_ne_true
  · intro noReply' mem
    refine ⟨?_, issue.seq, issue.peer, issue.object⟩
    rcases issue.frames _ mem (beq_self_eq_true _) with other | same
    · cases other
    · exact (Frame.invoked.inj same).2
  · intro event mem
    exact issue.answers event (List.mem_filter.mp mem).1 (List.mem_filter.mp mem).2

/-! ### Runs -/

/-- A call of the method `m` of an object with the id 5 is read, and a hook is installed. -/
def hookedCall : State :=
  run libubox (invokeRead [.int32 .objid 5, .string .method (cstr "m"), .blob .data []] none)
    (init false { oneObject with preInvoke := true })

theorem hookedCall_reachable : Reachable libubox hookedCall :=
  ⟨false, { oneObject with preInvoke := true }, run_steps _ _⟩

theorem hookedCall_dispatch :
    Dispatch libubox hookedCall .msgbuf 0 0 [4, 0, 0, 6, 109, 0] [7, 0, 0, 4] where
  top := ⟨none, [.handled], by decide +kernel⟩
  direct := by decide +kernel
  bus := by decide +kernel
  type := by decide +kernel
  found := ⟨[3, 0, 0, 8, 0, 0, 0, 5], by decide +kernel, by decide +kernel⟩
  named := by decide +kernel
  matching := by decide +kernel
  given := by decide +kernel

/-- The hook starts a request and returns 0: the handler is given the message. -/
theorem handler_gets_message_hook : ∃ t obj method name msg,
    Relation.ReflTransGen (StepWhen libubox (Unread hookedCall.brk))
      (step libubox {} (.ret 0) hookedCall) t ∧
    .app (.handler obj method hookedCall.brk name msg) ∈ t.stack ∧
    .call (.handler obj method hookedCall.brk name msg) ∈ t.trace ∧
    obj = some 0 ∧ method = some 0 ∧ name.map Ptr.bytes = some [4, 0, 0, 6, 109, 0] ∧
    msg.map Ptr.bytes = some [7, 0, 0, 4] := by
  have path : Relation.ReflTransGen (StepWhen libubox (Unread hookedCall.brk))
      (step libubox {} (.ret 0) hookedCall)
      (run libubox (doing (.start {} (.built []) .lookup 0 none) :: quietly 2)
        (step libubox {} (.ret 0) hookedCall)) :=
    run_path _ (by simp [quietly, doing, Unread, Action.reads]) _
  obtain ⟨calls, -⟩ := handler_gets_message hookedCall_reachable hookedCall_dispatch path
  obtain ⟨t, ends⟩ : ∃ t, run libubox (doing (.start {} (.built []) .lookup 0 none) :: quietly 2)
    (step libubox {} (.ret 0) hookedCall) = t := ⟨_, rfl⟩
  have stack : .app (.handler (some 0) (some 0) hookedCall.brk (some ⟨0, 1, [4, 0, 0, 6, 109, 0]⟩)
      (some ⟨0, 1, [7, 0, 0, 4]⟩)) ∈ t.stack := by
    rw [← ends]
    decide +kernel
  have called : .call (.handler (some 0) (some 0) hookedCall.brk (some ⟨0, 1, [4, 0, 0, 6, 109, 0]⟩)
      (some ⟨0, 1, [7, 0, 0, 4]⟩)) ∈ t.trace := by
    rw [← ends]
    exact List.mem_cons_self
  rw [ends] at path calls
  exact ⟨t, _, _, _, _, path, stack, called, calls _ _ _ _ called⟩

/-- The hook makes a request and waits for it, and its status arrives. -/
def statusInHook : List (Env × Action) :=
  [doing (.start {} (.built []) .lookup 0 none), doing (.complete 2 false)] ++ quietly 2 ++
    [receiving { type := MsgType.status.code, seq := 1 } [0, 0, 0, 4] none] ++ quietly 10

/-- **A request inside the hook replaces the message**: the handler is called without a method name and
without data. -/
theorem hook_overwrites : ∃ t, Reachable libubox hookedCall ∧
    Dispatch libubox hookedCall .msgbuf 0 0 [4, 0, 0, 6, 109, 0] [7, 0, 0, 4] ∧
    Relation.ReflTransGen (Step libubox) (step libubox {} (.ret 0) hookedCall) t ∧
    .app (.handler (some 0) (some 0) hookedCall.brk none none) ∈ t.stack :=
  ⟨run libubox statusInHook (step libubox {} (.ret 0) hookedCall), hookedCall_reachable,
    hookedCall_dispatch, run_steps _ _, by decide +kernel⟩

end Ubus.Libubus
