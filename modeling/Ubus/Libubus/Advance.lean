/-
**What a step does to the requests.**

Most steps of a context have nothing to do with a request: `ctx->requests`, the request structures and
the frames that work on a request stay as they are (`Neutral`). `step_advance` says once what the other
steps do; everything about requests is derived from it.

* `Advance`: the kinds of steps, `step_advance`: every step is of one. The parameter `ok` says what the
  application may do; `StepWhen` is a step in which it keeps to that.
-/

import Ubus.Libubus.Moves

namespace Ubus.Libubus

variable {lib : Libubox}
variable {s t s' : State} {env : Env} {fd : Option Nat}

/-- No request was worked on. -/
def Neutral (s s' : State) : Prop := Touches (fun _ => False) (fun _ => True) s s'

/-! ### The kinds of steps -/

/-- A request as it is before its first message. -/
inductive Fresh : Request → Prop where
  | request (cbs : Callbacks) : Fresh cbs.request
  | notify (cbs : Callbacks) (obj : UInt32) : Fresh (cbs.notifyRequest obj)

/-- The library turns to a status message for a request. -/
inductive Credited (lib : Libubox) (r : Nat) (id : Option Nat) (buf : MsghdrBuf) (s s' : State) :
    Prop where
  | fd (sock : Nat) (set : (s.req r).fdCb = true)
    (after : s' = ((s.push (.processStatus r id buf)).log (.handed sock)).call (.fd r sock))
  | status (before : State) (neutral : Neutral s before) (header : before.hdr buf = s.hdr buf)
    (message : before.content buf = s.content buf) (after : s' = processStatus lib r id buf before)

/-- A step in which the application does only what `ok` allows. -/
def StepWhen (lib : Libubox) (ok : State → Action → Prop) (s s' : State) : Prop :=
  ∃ env action, (s.idle → ok s action) ∧ s' = step lib env action s

theorem Step.when (next : Step lib s s') : StepWhen lib (fun _ _ => True) s s' := by
  obtain ⟨env, action, after⟩ := next
  exact ⟨env, action, fun _ => trivial, after⟩

theorem StepWhen.step {ok : State → Action → Prop} (next : StepWhen lib ok s s') :
    Step lib s s' := by
  obtain ⟨env, action, -, after⟩ := next
  exact ⟨env, action, after⟩

/-- **What a step does to the requests.** -/
inductive Advance (lib : Libubox) (ok : State → Action → Prop) (s s' : State) : Prop where
  | ret (idle : s.idle) (value : UInt32) (after : s' = { s with stack := s.stack.tail, ret := value })
  | quiet (idle : s.idle) (neutral : Neutral s s')
  | start (idle : s.idle) (req : Request) (fresh : Fresh req) (peer : UInt32)
    (neutral : Neutral { s with
      requestSeq := s.requestSeq + 1
      req := Function.update s.req s.brk { req with peer := peer, seq := s.requestSeq + 1 }
      brk := s.brk + 1 } s')
  | link (idle : s.idle) (r : Nat) (allowed : ok s (.completeAsync r))
    (after : s' = ubusCompleteRequestAsync r s)
  | wait (idle : s.idle) (r : Nat) (timed : Bool) (allowed : ok s (.complete r timed))
    (after : s' = ubusCompleteRequest r timed s)
  | abort (idle : s.idle) (r : Nat) (allowed : ok s (.abort r)) (after : s' = ubusAbortRequest r s)
  | work (frame : Frame) (rest : List Frame) (top : s.stack = frame :: rest)
    (free : frame.req = none) (flat : frame.depth = 0) (neutral : Neutral { s with stack := rest } s')
  | leave (rest : List Frame) (top : s.stack = .leaveObjMsg :: rest)
    (after : s' = { s with stack := rest, stackDepth := s.stackDepth - 1 })
  | flush (rest : List Frame) (top : s.stack = .flushRequests :: rest) (r : Nat)
    (linked : r ∈ s.requests)
    (after : s' = ({ s with stack := rest }.push .flushRequests).push
      (.setReqStatus r Status.timeout.code))
  | request (env : Env) (frame : Frame) (rest : List Frame) (top : s.stack = frame :: rest) (r : Nat)
    (about : frame.req = some r) (inside : ∀ cb, frame ≠ .app cb)
    (after : s' = resume lib env frame { s with stack := rest })
  | status (buf : MsghdrBuf) (fd : Option Nat) (rest : List Frame)
    (top : s.stack = .processMsg buf fd :: rest) (r : Nat) (id : Option Nat)
    (found : ubusFindRequest s (s.hdr buf).seq (s.hdr buf).peer = some (r, id))
    (credited : Credited lib r id buf { s with stack := rest } s')
  | data (env : Env) (buf : MsghdrBuf) (fd : Option Nat) (rest : List Frame)
    (top : s.stack = .processMsg buf fd :: rest) (r : Nat) (id : Option Nat)
    (found : ubusFindRequest s (s.hdr buf).seq (s.hdr buf).peer = some (r, id))
    (wanted : ((s.req r).dataCb || (s.req r).rawDataCb) = true)
    (after : s' = ubusProcessReqData env r buf ({ s with stack := rest }.push (.closeFd fd)))

variable {ok : State → Action → Prop}

theorem advance_start (env : Env) {req : Request} (fresh : Fresh req) (msg : Payload)
    (cmd : MsgType) (peer : UInt32) (fd : Option Nat) (control : s.idle) :
    Advance lib ok s (started (ubusStartRequest lib env req msg cmd peer fd s)) := by
  unfold ubusStartRequest
  dsimp only
  split
  · have given : Moves (fun _ => False) (fun _ => True) [] 0 s { s with brk := s.brk + 1 } :=
      .of_eq rfl (Nat.le_succ _)
    exact .quiet control ⟨_, moves_started (given.close fd)⟩
  · exact .start control req fresh peer ⟨_, moves_started (moves_sendMsg ..)⟩

theorem advance_act (env : Env) (action : Action) (idle : s.idle) (allowed : ok s action) :
    Advance lib ok s (act lib env action s) := by
  have quiet : ∀ {fds s'}, Moves (fun _ => False) (fun _ => True) fds 0 s s' → Advance lib ok s s' :=
    fun moves => .quiet idle ⟨_, moves⟩
  cases action with
  | ret value => exact .ret idle value rfl
  | setup setup => exact quiet (.of_eq rfl le_rfl)
  | start cbs msg cmd peer fd => exact advance_start env (.request cbs) msg cmd peer fd idle
  | invokeAsync cbs obj method msg fd => exact advance_start env (.request cbs) _ _ _ _ idle
  | notifyAsync cbs obj type msg reply =>
    simp only [act, ubusNotifyAsync]
    split
    · exact quiet (.of_eq rfl le_rfl)
    · exact advance_start env (.notify cbs obj) _ _ _ _ idle
  | completeAsync r => exact .link idle r allowed rfl
  | complete r timed => exact .wait idle r timed allowed rfl
  | abort r => exact .abort idle r allowed rfl
  | flush => exact quiet ((Moves.refl s).push rfl rfl)
  | handleEvent => exact quiet ((Moves.refl s).push rfl rfl)
  | timer => exact quiet ((Moves.refl s).push rfl rfl)
  | reconnect => exact quiet (.of_eq rfl le_rfl)
  | defer k =>
    exact quiet ((Moves.refl s).changed rfl (Nat.le_succ _) (fun _ _ => rfl) (fun _ _ => Iff.rfl)
      fun _ out => absurd trivial out)
  | setFd k fd =>
    have given : Moves (fun _ => False) (fun _ => True) [] 0 s (ubusRequestSetFd k fd s) :=
      (Moves.refl s).mapRd trivial _
    exact quiet given
  | getCallerFd k =>
    simp only [act, ubusRequestGetCallerFd]
    split
    · exact quiet ((Moves.refl s).mapRd trivial _)
    · exact quiet (((Moves.refl s).mapRd trivial _).hand _)
  | completeDeferred k ret => exact quiet (moves_sendMsg ..)
  | sendReply k msg => exact quiet ((moves_sendMsg env _ _ _ _ none s).returning _)

theorem advance_processMsg (env : Env) {buf : MsghdrBuf} {rest : List Frame}
    (top : s.stack = .processMsg buf fd :: rest) :
    Advance lib ok s (ubusProcessMsg lib env buf fd { s with stack := rest }) := by
  have work : ∀ {fds s'}, Moves (fun _ => False) (fun _ => True) fds 0 { s with stack := rest } s' →
      Advance lib ok s s' := fun moves => .work _ rest top rfl rfl ⟨_, moves⟩
  have base : Moves (fun _ => False) (fun _ => True) [] 0 { s with stack := rest } { s with stack := rest } :=
    .refl _
  have object : Advance lib ok s (processObj lib env buf fd { s with stack := rest }) := by
    rcases processObj_cases lib env buf fd { s with stack := rest } with
      moves | ⟨-, -, objid, -, after⟩
    · exact work (moves ..)
    · rw [after]
      exact .work _ rest top rfl rfl (touches_invoke env buf _ _ fd _ trivial).1
  unfold ubusProcessMsg
  dsimp only
  split
  · unfold ubusProcessReqMsg
    dsimp only
    split
    · exact work (base.close fd)
    rename_i r id found
    split
    · refine .status buf fd rest top r id found ?_
      split
      · rename_i sock
        split
        · rename_i set
          exact .fd sock set rfl
        · exact .status _ ⟨_, base.leave _⟩ rfl rfl rfl
      · exact .status _ ⟨_, base⟩ rfl rfl rfl
    · split
      · rename_i wanted
        exact .data env buf fd rest top r id found wanted rfl
      · exact work (base.close fd)
  split
  · split
    · exact work (base.close fd)
    · exact object
  split
  · exact object
  split
  · split
    · split
      · exact work ((base.leave _).call rfl rfl)
      · exact work (base.close fd)
    · exact work (base.close fd)
  · exact work (base.close fd)

/-- **Every step is one of them.** -/
theorem step_advance (next : StepWhen lib ok s s') : Advance lib ok s s' := by
  obtain ⟨env, action, allowed, rfl⟩ := next
  unfold step
  split
  · rename_i empty
    have idle : s.idle := by rw [State.idle, empty]
    exact advance_act env action idle (allowed idle)
  · rename_i cb rest top
    have idle : s.idle := by rw [State.idle, top]
    exact advance_act env action idle (allowed idle)
  · rename_i frame rest inside top
    have work : frame.req = none → frame.depth = 0 → ∀ {fds s'},
        Moves (fun _ => False) (fun _ => True) fds 0 { s with stack := rest } s' →
        Advance lib ok s s' := fun free flat _ _ moves => .work frame rest top free flat ⟨_, moves⟩
    have base : Moves (fun _ => False) (fun _ => True) [] 0 { s with stack := rest }
        { s with stack := rest } := .refl _
    cases frame with
    | app cb => exact absurd rfl (inside cb)
    | closeFd fd => exact work rfl rfl (base.close fd)
    | flushRequests =>
      simp only [resume, ubusFlushRequests]
      split
      · exact work rfl rfl base
      · rename_i r others linked
        exact .flush rest top r (by rw [linked]; exact List.mem_cons_self) rfl
    | handleData => exact work rfl rfl ((base.push rfl rfl).andThen (moves_pendingTimer _))
    | handleRead => exact work rfl rfl (moves_reads (handleRead_reads ..))
    | handled => exact work rfl rfl (moves_handled ..)
    | handleEnd => exact work rfl rfl (moves_handleEnd _)
    | handleLost => exact work rfl rfl (base.call rfl rfl)
    | processMsg buf fd => exact advance_processMsg env top
    | processPendingMsg => exact work rfl rfl (moves_processPendingMsg _)
    | pendingDone data => exact work rfl rfl ((base.free data).push rfl rfl)
    | leaveObjMsg => exact .leave rest top rfl
    | restoreData prevData => exact work rfl rfl (moves_restoreData ..)
    | preInvoked obj method k noReply =>
      exact .work _ rest top rfl rfl (touches_preInvoked trivial ..)
    | invoked k noReply => exact .work _ rest top rfl rfl (touches_invoked trivial ..)
    | _ => exact .request env _ rest top _ rfl (fun _ => Frame.noConfusion) rfl

end Ubus.Libubus
