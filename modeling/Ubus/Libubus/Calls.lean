/-
**What a step does to calls and descriptors.**

Most steps have nothing to do with a call: they `Passes`. One that is given a descriptor passes it on,
closes it or hands it to the application. `step_serve` says once what a step does.

* `Serve`: the kinds of steps, seen from the calls.
-/

import Ubus.Libubus.Stack

namespace Ubus.Libubus

variable {lib : Libubox}

/-- No call was worked on; `fds` are the descriptors that were passed on. -/
def Passes (fds : List Nat) (s s' : State) : Prop :=
  ∃ held, Moves (fun _ => True) (fun _ => False) fds held s s'

theorem moves_processReqMsg (env : Env) (buf : MsghdrBuf) (fd : Option Nat) (s : State) :
    Moves (fun _ => True) (fun _ => False) fd.toList 0 s (ubusProcessReqMsg lib env buf fd s) := by
  have base : Moves (fun _ => True) (fun _ => False) [] 0 s s := .refl s
  unfold ubusProcessReqMsg
  dsimp only
  split
  · exact base.close fd
  split
  · split
    · split
      · exact ((base.pushOf trivial rfl rfl).hand _).callOf trivial rfl rfl
      · exact (base.leave _).andThen (moves_processStatus trivial ..)
    · exact moves_processStatus trivial ..
  split
  · exact (base.leave _).andThen (moves_processReqData trivial ..)
  · exact base.close fd

/-! ### The kinds of steps -/

/-- The descriptors that an action gives away. -/
def Action.fds (s : State) : Action → List Nat
  | .start _ _ _ _ fd | .invokeAsync _ _ _ _ fd => fd.toList
  | .completeDeferred k _ => (s.rd k).fd.toList
  | _ => []

/-- **What a step does to the calls and the descriptors.** -/
inductive Serve (lib : Libubox) (env : Env) (action : Action) (s s' : State) : Prop where
  | ret (idle : s.idle) (value : UInt32) (does : action = .ret value)
    (after : s' = { s with stack := s.stack.tail, ret := value })
  | quiet (idle : s.idle) (passes : Passes (action.fds s) s s')
  | defer (idle : s.idle) (k : Nat) (does : action = .defer k) (after : s' = ubusDeferRequest k s)
  | setFd (idle : s.idle) (k : Nat) (fd : Option Nat) (does : action = .setFd k fd)
    (after : s' = ubusRequestSetFd k fd s)
  | getCallerFd (idle : s.idle) (k : Nat) (does : action = .getCallerFd k)
    (after : s' = ubusRequestGetCallerFd k s)
  | work (frame : Frame) (rest : List Frame) (top : s.stack = frame :: rest)
    (inside : ∀ cb, frame ≠ .app cb) (free : frame.rd = none) (dry : frame ≠ .handleRead)
    (passes : Passes frame.fd.toList { s with stack := rest } s')
  | read (rest : List Frame) (top : s.stack = .handleRead :: rest)
    (passes : Passes env.recv.fd.toList { s with stack := rest } s')
  | invoke (buf : MsghdrBuf) (fd : Option Nat) (rest : List Frame)
    (top : s.stack = .processMsg buf fd :: rest) (depth : s.stackDepth = 0)
    (type : (s.hdr buf).type = MsgType.invoke.code) (objid : Bytes)
    (carries : lib.blobParse (s.content buf) .objid = some objid)
    (after : s' = ubusProcessInvoke lib env (s.hdr buf) (s.findObject (lib.blobGetU32 objid)) fd
      (invoking lib buf { s with stack := rest }))
  | preInvoked (obj method k : Nat) (noReply : Bool) (rest : List Frame)
    (top : s.stack = .preInvoked obj method k noReply :: rest)
    (after : s' = preInvoked lib env obj method k noReply { s with stack := rest })
  | invoked (k : Nat) (noReply : Bool) (rest : List Frame)
    (top : s.stack = .invoked k noReply :: rest)
    (after : s' = invoked lib env k noReply { s with stack := rest })

theorem serve_start (env : Env) (req : Request) (msg : Payload) (cmd : MsgType) (peer : UInt32)
    (fd : Option Nat) (s : State) :
    Moves (fun _ => True) (fun _ => False) fd.toList 0 s
      (started (ubusStartRequest lib env req msg cmd peer fd s)) := by
  have initial : ∀ seq req, Moves (fun _ => True) (fun _ => False) [] 0 s
      { s with requestSeq := seq, req, brk := s.brk + 1 } := fun _ _ =>
    (Moves.refl s).changed rfl (Nat.le_succ _) (fun _ out => absurd trivial out)
      (fun _ _ => Iff.rfl) fun _ _ => rfl
  unfold ubusStartRequest
  dsimp only
  split
  · exact moves_started ((initial _ _).close fd)
  · exact moves_started ((initial _ _).before (moves_sendMsg ..))

theorem serve_act (env : Env) (action : Action) {s : State} (idle : s.idle) :
    Serve lib env action s (act lib env action s) := by
  have base : Moves (fun _ => True) (fun _ => False) [] 0 s s := .refl s
  have plain : ∀ {held s'}, Moves (fun _ => True) (fun _ => False) (action.fds s) held s s' →
      Serve lib env action s s' := fun moves => .quiet idle ⟨_, moves⟩
  cases action with
  | ret value => exact .ret idle value rfl rfl
  | setup setup => exact plain (.of_eq rfl le_rfl)
  | start cbs msg cmd peer fd => exact plain (serve_start ..)
  | invokeAsync cbs obj method msg fd => exact plain (serve_start ..)
  | notifyAsync cbs obj type msg reply =>
    simp only [act, ubusNotifyAsync]
    split
    · exact plain (.of_eq rfl le_rfl)
    · exact plain (serve_start env _ _ _ _ none s)
  | completeAsync r => exact plain (moves_link trivial s)
  | complete r timed => exact plain (moves_complete trivial timed s)
  | abort r => exact plain (moves_abort trivial s)
  | flush => exact plain (base.push rfl rfl)
  | handleEvent => exact plain (base.push rfl rfl)
  | timer => exact plain (base.push rfl rfl)
  | reconnect => exact plain (.of_eq rfl le_rfl)
  | defer k => exact .defer idle k rfl rfl
  | setFd k fd => exact .setFd idle k fd rfl rfl
  | getCallerFd k => exact .getCallerFd idle k rfl rfl
  | completeDeferred k ret => exact plain (moves_sendMsg ..)
  | sendReply k msg => exact plain ((moves_sendMsg env _ _ _ _ none s).returning _)

theorem serve_processMsg (env : Env) (action : Action) {buf : MsghdrBuf} {fd : Option Nat} {s : State}
    {rest : List Frame} (top : s.stack = .processMsg buf fd :: rest) :
    Serve lib env action s (ubusProcessMsg lib env buf fd { s with stack := rest }) := by
  have plain : ∀ {s'}, Moves (fun _ => True) (fun _ => False) fd.toList 0 { s with stack := rest } s' →
      Serve lib env action s s' := fun moves =>
    .work _ rest top (fun _ => Frame.noConfusion) rfl Frame.noConfusion ⟨_, moves⟩
  have base : Moves (fun _ => True) (fun _ => False) [] 0 { s with stack := rest }
      { s with stack := rest } := .refl _
  have object : Serve lib env action s (processObj lib env buf fd { s with stack := rest }) := by
    rcases processObj_cases lib env buf fd { s with stack := rest } with
      moves | ⟨depth, type, objid, carries, after⟩
    · exact plain (moves ..)
    · rw [after]
      exact .invoke buf fd rest top depth type objid carries rfl
  unfold ubusProcessMsg
  dsimp only
  split
  · exact plain (moves_processReqMsg ..)
  split
  · split
    · exact plain (base.close fd)
    · exact object
  split
  · exact object
  split
  · split
    · split
      · exact plain ((base.leave _).call rfl rfl)
      · exact plain (base.close fd)
    · exact plain (base.close fd)
  · exact plain (base.close fd)

/-- **Every step is one of them.** -/
theorem step_serve (lib : Libubox) (env : Env) (action : Action) (s : State) :
    Serve lib env action s (step lib env action s) := by
  unfold step
  split
  · rename_i empty
    have idle : s.idle := by rw [State.idle, empty]
    exact serve_act env action idle
  · rename_i cb rest top
    have idle : s.idle := by rw [State.idle, top]
    exact serve_act env action idle
  · rename_i frame rest inside top
    have plain : frame.rd = none → frame.fd = none → frame ≠ .handleRead → ∀ {held s'},
        Moves (fun _ => True) (fun _ => False) [] held { s with stack := rest } s' →
        Serve lib env action s s' := by
      intro free empty dry held s' moves
      refine .work frame rest top inside free dry ⟨held, ?_⟩
      rw [empty]
      exact moves
    have base : Moves (fun _ => True) (fun _ => False) [] 0 { s with stack := rest }
        { s with stack := rest } := .refl _
    cases frame with
    | app cb => exact absurd rfl (inside cb)
    | closeFd fd => exact .work _ rest top inside rfl Frame.noConfusion ⟨_, base.close fd⟩
    | flushRequests =>
      simp only [resume, ubusFlushRequests]
      split
      · exact plain rfl rfl Frame.noConfusion base
      · exact plain rfl rfl Frame.noConfusion ((base.push rfl rfl).pushOf trivial rfl rfl)
    | handleData => exact plain rfl rfl Frame.noConfusion ((base.push rfl rfl).andThen (moves_pendingTimer _))
    | handleRead => exact .read rest top ⟨_, moves_reads (handleRead_reads ..)⟩
    | handled => exact plain rfl rfl Frame.noConfusion (moves_handled ..)
    | handleEnd => exact plain rfl rfl Frame.noConfusion (moves_handleEnd _)
    | handleLost => exact plain rfl rfl Frame.noConfusion (base.call rfl rfl)
    | processMsg buf fd => exact serve_processMsg env action top
    | processPendingMsg => exact plain rfl rfl Frame.noConfusion (moves_processPendingMsg _)
    | pendingDone data => exact plain rfl rfl Frame.noConfusion ((base.free data).push rfl rfl)
    | leaveObjMsg =>
      exact plain rfl rfl Frame.noConfusion (.added [] [] rfl le_rfl (List.forall_mem_nil _)
        (List.forall_mem_nil _) (fun _ => rfl) Nat.sub_add_cancel)
    | restoreData prevData => exact plain rfl rfl Frame.noConfusion (moves_restoreData ..)
    | preInvoked obj method k noReply => exact .preInvoked obj method k noReply rest top rfl
    | invoked k noReply => exact .invoked k noReply rest top rfl
    | _ =>
      exact plain rfl rfl Frame.noConfusion (moves_resume env rfl (fun _ => Frame.noConfusion) trivial _)

end Ubus.Libubus
