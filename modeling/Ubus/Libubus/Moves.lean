/-
**What the functions of the library do.**

A function pushes frames, calls the application and logs events. Each works on some requests and some
calls (an `INVOKE` that is being worked on has a `struct ubus_request_data`) and leaves the others
alone; a descriptor it is given it passes on, closes or hands to the application; and it keeps
`ctx->stack_depth` in step with the frames that hold it up. `Moves` says all of this at once, and the
functions are gone through here once.

* `Frame.req`, `Event.req`: the request a frame works on, or an event is about. `Frame.rd`, `Event.rd`:
  the call. `Frame.fd`, `Event.fd`: the descriptor that a frame holds or an event is about.
* `depthOf`: how many frames hold `ctx->stack_depth` up.
-/

import Ubus.Libubus.Machine

namespace Ubus.Libubus

variable {lib : Libubox}

/-! ### Frames and events -/

def Callback.req : Callback → Option Nat
  | .rawData r _ _ | .data r _ _ | .fd r _ | .complete r _ | .notifyStatus r _ _
  | .notifyComplete r => some r
  | _ => none

def Frame.req : Frame → Option Nat
  | .app cb => cb.req
  | .reqDataCb r _ _ | .reqDataCbParse r _ _ | .processReqData r | .drain r _ _
  | .setReqStatus r _ | .processStatus r _ _ | .notifyStatus r | .waitLoop r _ _
  | .waitPolled r _ _ | .waitEnd r _ _ | .waitCompleted r _ _ | .waitReturn r _ _ => some r
  | _ => none

def Event.req : Event → Option Nat
  | .call cb => cb.req
  | .completed r _ | .returned r _ | .notified r _ _ | .gotData r _ _ => some r
  | _ => none

def Callback.rd : Callback → Option Nat
  | .preInvoke _ _ k _ | .handler _ _ k _ _ => some k
  | _ => none

def Frame.rd : Frame → Option Nat
  | .app cb => cb.rd
  | .preInvoked _ _ k _ | .invoked k _ => some k
  | _ => none

def Event.rd : Event → Option Nat
  | .call cb => cb.rd
  | .invoke k _ _ | .sent (.invoke k) _ _ _ _ _ => some k
  | _ => none

def Frame.fd : Frame → Option Nat
  | .closeFd fd | .processMsg _ fd => fd
  | _ => none

def Event.fd : Event → Option Nat
  | .close fd | .handed fd => some fd
  | _ => none

/-- The frames of functions that have raised `ctx->stack_depth`. -/
def Frame.depth : Frame → Nat
  | .leaveObjMsg | .waitLoop _ _ _ | .waitPolled _ _ _ | .waitEnd _ _ _ => 1
  | _ => 0

def depthOf (stack : List Frame) : Nat := (stack.map Frame.depth).sum

@[simp] theorem depthOf_nil : depthOf [] = 0 := rfl

@[simp] theorem depthOf_cons (frame : Frame) (stack : List Frame) :
    depthOf (frame :: stack) = frame.depth + depthOf stack :=
  List.sum_cons

@[simp] theorem depthOf_append (new stack : List Frame) :
    depthOf (new ++ stack) = depthOf new + depthOf stack := by
  rw [depthOf, List.map_append, List.sum_append, depthOf, depthOf]

/-- A frame that belongs to no call, holds no descriptor and does not hold `stack_depth` up. -/
def Frame.bare (frame : Frame) : Bool := frame.rd.isNone && frame.fd.isNone && frame.depth == 0

def Event.bare (event : Event) : Bool := event.rd.isNone && event.fd.isNone

/-! ### What changes -/

def Frame.Within (q c : Nat → Prop) (frame : Frame) : Prop :=
  frame.req.elim True q ∧ frame.rd.elim True c

def Event.Within (q c : Nat → Prop) (event : Event) : Prop :=
  event.req.elim True q ∧ event.rd.elim True c

section Within

variable {q c : Nat → Prop} {n : Nat}

theorem within_some {p : Nat → Prop} {about : Option Nat} (within : about.elim True p)
    (same : about = some n) : p n := by
  rw [same] at within
  exact within

theorem Frame.Within.request {frame : Frame} (within : frame.Within q c) (about : frame.req = some n) :
    q n :=
  within_some within.1 about

theorem Frame.Within.call {frame : Frame} (within : frame.Within q c) (about : frame.rd = some n) :
    c n :=
  within_some within.2 about

theorem Event.Within.request {event : Event} (within : event.Within q c) (about : event.req = some n) :
    q n :=
  within_some within.1 about

theorem Event.Within.call {event : Event} (within : event.Within q c) (about : event.rd = some n) :
    c n :=
  within_some within.2 about

end Within

/-- **What a function did.** From `s` to `s'` only requests in `q` and calls in `c` were worked on; the
descriptors `fds` are held by frames that were pushed, or were closed or handed over; and
`stack_depth` went up by the frames that were pushed, less what the function had `held`. -/
structure Moves (q c : Nat → Prop) (fds : List Nat) (held : Nat) (s s' : State) : Prop where
  brk : s.brk ≤ s'.brk
  rd : ∀ k, ¬c k → s'.rd k = s.rd k
  req : ∀ r, ¬q r → s'.req r = s.req r
  linked : ∀ r, ¬q r → (r ∈ s'.requests ↔ r ∈ s.requests)
  moved : ∃ new events, s'.stack = new ++ s.stack ∧ s'.trace = events ++ s.trace ∧
    (∀ frame ∈ new, frame.Within q c) ∧ (∀ event ∈ events, event.Within q c) ∧
    (∀ fd, (new.filterMap Frame.fd).count fd + (events.filterMap Event.fd).count fd = fds.count fd) ∧
    (held ≤ s.stackDepth → s'.stackDepth + held = s.stackDepth + depthOf new)

/-- What `Moves` is about, except for the numbers that were given out. -/
def State.seen (s : State) :
    (Nat → RequestData) × (Nat → Request) × List Nat × List Frame × Nat × List Event :=
  (s.rd, s.req, s.requests, s.stack, s.stackDepth, s.trace)

namespace Moves

variable {q c : Nat → Prop} {fds fds' : List Nat} {held held' : Nat} {s t u : State}

theorem added (new : List Frame) (events : List Event)
    (seen : t.seen = (s.rd, s.req, s.requests, new ++ s.stack, t.stackDepth, events ++ s.trace))
    (brk : s.brk ≤ t.brk) (frames : ∀ frame ∈ new, frame.Within q c)
    (own : ∀ event ∈ events, event.Within q c)
    (counts : ∀ fd, (new.filterMap Frame.fd).count fd + (events.filterMap Event.fd).count fd = fds.count fd)
    (depth : held ≤ s.stackDepth → t.stackDepth + held = s.stackDepth + depthOf new) :
    Moves q c fds held s t := by
  simp only [State.seen, Prod.mk.injEq] at seen
  obtain ⟨rd, req, requests, stack, -, trace⟩ := seen
  exact ⟨brk, fun _ _ => by rw [rd], fun _ _ => by rw [req], fun _ _ => by rw [requests], new, events,
    stack, trace, frames, own, counts, depth⟩

theorem of_eq (same : t.seen = s.seen) (brk : s.brk ≤ t.brk) : Moves q c [] 0 s t := by
  have depth : t.stackDepth = s.stackDepth := congrArg (·.2.2.2.2.1) same
  refine added [] [] ?_ brk (List.forall_mem_nil _) (List.forall_mem_nil _) (fun _ => rfl) fun _ => depth
  rw [same, depth]
  rfl

theorem refl (s : State) : Moves q c [] 0 s s := of_eq rfl le_rfl

theorem trans (first : Moves q c fds held s t) (second : Moves q c fds' held' t u) :
    Moves q c (fds ++ fds') (held + held') s u := by
  obtain ⟨new, events, stack, trace, frames, own, counts, depth⟩ := first.moved
  obtain ⟨new', events', stack', trace', frames', own', counts', depth'⟩ := second.moved
  refine ⟨first.brk.trans second.brk, fun k out => (second.rd k out).trans (first.rd k out),
    fun r out => (second.req r out).trans (first.req r out),
    fun r out => (second.linked r out).trans (first.linked r out), new' ++ new, events' ++ events, ?_, ?_,
    List.forall_mem_append.mpr ⟨frames', frames⟩, List.forall_mem_append.mpr ⟨own', own⟩,
    fun fd => ?_, fun enough => ?_⟩
  · rw [stack', stack, List.append_assoc]
  · rw [trace', trace, List.append_assoc]
  · have count := counts fd
    have count' := counts' fd
    rw [List.filterMap_append, List.filterMap_append, List.count_append, List.count_append,
      List.count_append]
    omega
  · have raised := depth (by omega)
    have raised' := depth' (by omega)
    rw [depthOf_append]
    omega

theorem andThen (first : Moves q c fds held s t) (second : Moves q c [] 0 t u) :
    Moves q c fds held s u := by
  rw [← List.append_nil fds]
  exact first.trans second

theorem before (first : Moves q c [] 0 s t) (second : Moves q c fds held t u) :
    Moves q c fds held s u := by
  rw [← Nat.zero_add held]
  exact first.trans second

theorem mono {q' c' : Nat → Prop} (moves : Moves q c fds held s t) (request : ∀ r, q r → q' r)
    (call : ∀ k, c k → c' k) : Moves q' c' fds held s t := by
  have wider : ∀ {p p' : Nat → Prop} {o : Option Nat}, (∀ n, p n → p' n) → o.elim True p →
      o.elim True p' := by
    intro p p' o sub within
    cases o with
    | none => trivial
    | some n => exact sub n within
  obtain ⟨new, events, stack, trace, frames, own, rest⟩ := moves.moved
  exact ⟨moves.brk, fun k out => moves.rd k (mt (call k) out), fun r out => moves.req r (mt (request r) out),
    fun r out => moves.linked r (mt (request r) out), new, events, stack, trace,
    fun frame mem => ⟨wider request (frames frame mem).1, wider call (frames frame mem).2⟩,
    fun event mem => ⟨wider request (own event mem).1, wider call (own event mem).2⟩, rest⟩

theorem raise (before : Moves q c fds held s t) {frame : Frame} (within : frame.Within q c)
    (empty : frame.fd = none) :
    Moves q c fds held s ({ t with stackDepth := t.stackDepth + frame.depth }.push frame) :=
  before.andThen (added [frame] [] rfl le_rfl (List.forall_mem_singleton.mpr within)
    (List.forall_mem_nil _) (fun fd => by simp [empty]) fun _ => rfl)

theorem handOver {r : Nat} (own : q r) {frame : Frame} (about : frame.req = some r)
    (alone : frame.rd = none) (empty : frame.fd = none) (one : frame.depth = 1) :
    Moves q c [] 1 s (s.push frame) :=
  added [frame] [] rfl le_rfl
    (List.forall_mem_singleton.mpr ⟨by rw [about]; exact own, by rw [alone]; trivial⟩)
    (List.forall_mem_nil _) (fun fd => by simp [empty]) fun _ => by rw [depthOf_cons, one]; rfl

theorem pushIn (before : Moves q c fds held s t) {frame : Frame} (within : frame.Within q c)
    (empty : frame.fd = none) (flat : frame.depth = 0) : Moves q c fds held s (t.push frame) := by
  have raised := before.raise within empty
  rw [flat] at raised
  exact raised

theorem logIn (before : Moves q c fds held s t) {event : Event} (within : event.Within q c)
    (empty : event.fd = none) : Moves q c fds held s (t.log event) :=
  before.andThen (added [] [event] rfl le_rfl (List.forall_mem_nil _)
    (List.forall_mem_singleton.mpr within) (fun fd => by simp [empty]) fun _ => rfl)

theorem pushOf (before : Moves q c fds held s t) {r : Nat} (own : q r) {frame : Frame}
    (about : frame.req = some r) (bare : frame.bare = true) : Moves q c fds held s (t.push frame) := by
  simp only [Frame.bare, Bool.and_eq_true, Option.isNone_iff_eq_none, beq_iff_eq] at bare
  exact before.pushIn ⟨by rw [about]; exact own, by rw [bare.1.1]; trivial⟩ bare.1.2 bare.2

theorem push (before : Moves q c fds held s t) {frame : Frame} (free : frame.req = none)
    (bare : frame.bare = true) : Moves q c fds held s (t.push frame) := by
  simp only [Frame.bare, Bool.and_eq_true, Option.isNone_iff_eq_none, beq_iff_eq] at bare
  exact before.pushIn ⟨by rw [free]; trivial, by rw [bare.1.1]; trivial⟩ bare.1.2 bare.2

theorem logOf (before : Moves q c fds held s t) {r : Nat} (own : q r) {event : Event}
    (about : event.req = some r) (bare : event.bare = true) : Moves q c fds held s (t.log event) := by
  simp only [Event.bare, Bool.and_eq_true, Option.isNone_iff_eq_none] at bare
  exact before.logIn ⟨by rw [about]; exact own, by rw [bare.1]; trivial⟩ bare.2

theorem log (before : Moves q c fds held s t) {event : Event} (free : event.req = none)
    (bare : event.bare = true) : Moves q c fds held s (t.log event) := by
  simp only [Event.bare, Bool.and_eq_true, Option.isNone_iff_eq_none] at bare
  exact before.logIn ⟨by rw [free]; trivial, by rw [bare.1]; trivial⟩ bare.2

theorem callIn (before : Moves q c fds held s t) {cb : Callback} (within : (Frame.app cb).Within q c) :
    Moves q c fds held s (t.call cb) :=
  Moves.pushIn (before.logIn (by exact within) rfl) within rfl rfl

theorem callOf (before : Moves q c fds held s t) {r : Nat} (own : q r) {cb : Callback}
    (about : cb.req = some r) (alone : cb.rd = none) : Moves q c fds held s (t.call cb) :=
  before.callIn ⟨by rw [Frame.req, about]; exact own, by rw [Frame.rd, alone]; trivial⟩

theorem call (before : Moves q c fds held s t) {cb : Callback} (free : cb.req = none)
    (alone : cb.rd = none) : Moves q c fds held s (t.call cb) :=
  before.callIn ⟨by rw [Frame.req, free]; trivial, by rw [Frame.rd, alone]; trivial⟩

theorem changed (before : Moves q c fds held s t)
    (same : (u.stack, u.stackDepth, u.trace) = (t.stack, t.stackDepth, t.trace)) (brk : t.brk ≤ u.brk)
    (req : ∀ r, ¬q r → u.req r = t.req r) (linked : ∀ r, ¬q r → (r ∈ u.requests ↔ r ∈ t.requests))
    (rd : ∀ k, ¬c k → u.rd k = t.rd k) : Moves q c fds held s u := by
  simp only [Prod.mk.injEq] at same
  exact before.andThen ⟨brk, rd, req, linked, [], [], same.1, same.2.2, List.forall_mem_nil _,
    List.forall_mem_nil _, fun _ => rfl, fun _ => same.2.1⟩

theorem mapReq (before : Moves q c fds held s t) {r : Nat} (own : q r) (f : Request → Request) :
    Moves q c fds held s (t.mapReq r f) :=
  before.changed rfl le_rfl (fun _ out => Function.update_of_ne (by rintro rfl; exact out own) _ _)
    (fun _ _ => Iff.rfl) fun _ _ => rfl

theorem mapRd (before : Moves q c fds held s t) {k : Nat} (own : c k)
    (f : RequestData → RequestData) : Moves q c fds held s (t.mapRd k f) :=
  before.changed rfl le_rfl (fun _ _ => rfl) (fun _ _ => Iff.rfl)
    fun _ out => Function.update_of_ne (by rintro rfl; exact out own) _ _

theorem free (before : Moves q c fds held s t) (b : Nat) : Moves q c fds held s (t.free b) :=
  before.andThen (of_eq rfl le_rfl)

theorem returning (before : Moves q c fds held s t) (ret : UInt32) :
    Moves q c fds held s { t with ret } :=
  before.andThen (of_eq rfl le_rfl)

theorem hand (before : Moves q c [] held s t) (fd : Nat) :
    Moves q c [fd] held s (t.log (.handed fd)) := by
  have handed : Moves q c [fd] 0 t (t.log (.handed fd)) :=
    added [] [.handed fd] rfl le_rfl (List.forall_mem_nil _)
      (List.forall_mem_singleton.mpr ⟨trivial, trivial⟩) (fun _ => Nat.zero_add _) fun _ => rfl
  exact before.trans handed

theorem close (before : Moves q c [] held s t) (fd : Option Nat) :
    Moves q c fd.toList held s (t.close fd) := by
  cases fd with
  | none => exact before
  | some fd =>
    have closed : Moves q c [fd] 0 t (t.log (.close fd)) :=
      added [] [.close fd] rfl le_rfl (List.forall_mem_nil _)
        (List.forall_mem_singleton.mpr ⟨trivial, trivial⟩) (fun _ => Nat.zero_add _) fun _ => rfl
    exact before.trans closed

theorem deposit (before : Moves q c [] held s t) {fd : Option Nat} {frame : Frame} (holds : frame.fd = fd)
    (free : frame.req = none) (alone : frame.rd = none) (flat : frame.depth = 0) :
    Moves q c fd.toList held s (t.push frame) := by
  have listed : [frame].filterMap Frame.fd = fd.toList := by cases fd <;> simp [holds]
  rw [← Nat.add_zero held, ← flat]
  exact before.trans (added [frame] [] rfl le_rfl
    (List.forall_mem_singleton.mpr ⟨by rw [free]; trivial, by rw [alone]; trivial⟩)
    (List.forall_mem_nil _) (fun _ => by rw [listed]; rfl) fun _ => rfl)

theorem leave (before : Moves q c [] held s t) (fd : Option Nat) :
    Moves q c fd.toList held s (t.push (.closeFd fd)) :=
  before.deposit rfl rfl rfl rfl

end Moves

variable {q c : Nat → Prop} {s t s' : State}

/-! ### Functions on requests -/

theorem moves_parseMsg (data : Option Nat) (s : State) :
    Moves q c [] 0 s (ubusParseMsg lib data s) := by
  cases data <;> exact .of_eq rfl le_rfl

theorem moves_sent (env : Env) {sender : Sender} (seq : UInt16) (msg : Payload) (cmd : MsgType)
    (peer : UInt32) (fd : Option Nat) (s : State)
    (within : ∀ ok, (Event.sent sender cmd seq peer msg ok).Within q c) :
    Moves q c fd.toList 0 s (ubusSendMsg lib env sender seq msg cmd peer fd s).2 := by
  have sent : ∀ ok, Moves q c fd.toList 0 s ((s.log (.sent sender cmd seq peer msg ok)).close fd) :=
    fun ok => Moves.close ((Moves.refl s).logIn (within ok) rfl) fd
  unfold ubusSendMsg
  split
  · exact sent _
  · exact (sent _).andThen (.of_eq rfl le_rfl)

theorem moves_sendMsg (env : Env) (seq : UInt16) (msg : Payload) (cmd : MsgType) (peer : UInt32)
    (fd : Option Nat) (s : State) :
    Moves q c fd.toList 0 s (ubusSendMsg lib env .other seq msg cmd peer fd s).2 :=
  moves_sent env seq msg cmd peer fd s fun _ => ⟨trivial, trivial⟩

theorem moves_started {fds : List Nat} {result : Bool × State} (moves : Moves q c fds 0 s result.2) :
    Moves q c fds 0 s (started result) :=
  moves.returning _

section Requests

variable {r : Nat} (own : q r)

include own

theorem moves_runCompleteCb (cb : CompleteCb) (ret : UInt32) (s : State) :
    Moves q c [] 0 s (runCompleteCb cb r ret s) := by
  have logged : Moves q c [] 0 s (s.log (.completed r ret)) :=
    (Moves.refl s).logOf own rfl rfl
  cases cb with
  | null => exact .refl s
  | user => exact logged.callOf own rfl rfl
  | sync =>
    have answered : ∀ t : State, Moves q c [] 0 t { t with cancelPoll := true } := fun _ =>
      .of_eq rfl le_rfl
    exact ((Moves.refl s).mapReq own _).andThen (answered _)
  | notify =>
    simp only [runCompleteCb]
    split
    · exact logged.callOf own rfl rfl
    · exact logged

theorem moves_reqCompleteCb (s : State) : Moves q c [] 0 s (ubusReqCompleteCb r s) :=
  ((Moves.refl s).mapReq own _).andThen (moves_runCompleteCb own ..)

theorem moves_setReqStatus (ret : UInt32) (s : State) :
    Moves q c [] 0 s (ubusSetReqStatus r ret s) := by
  have unlinked : Moves q c [] 0 s { s with requests := unlink r s.requests } :=
    (Moves.refl s).changed rfl le_rfl (fun _ _ => rfl)
      (fun _ out => mem_unlink.trans (and_iff_left (by rintro rfl; exact out own))) fun _ _ => rfl
  have marked : Moves q c [] 0 s (markStatus r ret s) := unlinked.mapReq own _
  simp only [ubusSetReqStatus]
  split
  · exact marked
  · exact marked.andThen (moves_reqCompleteCb own _)

theorem moves_reqDataCbParse (type : UInt8) (data : Nat) (s : State) :
    Moves q c [] 0 s (reqDataCbParse lib r type data s) := by
  have parsed : Moves q c [] 0 s (ubusParseMsg lib (some data) s) := moves_parseMsg ..
  simp only [reqDataCbParse]
  split
  · exact .refl s
  split
  · exact parsed
  split
  · exact parsed
  · exact parsed.callOf own rfl rfl

theorem moves_reqDataCb (type : UInt8) (data : Nat) (s : State) :
    Moves q c [] 0 s (reqDataCb lib r type data s) := by
  unfold reqDataCb
  split
  · exact ((Moves.refl s).pushOf own rfl rfl).callOf own rfl rfl
  · exact moves_reqDataCbParse own ..

theorem moves_processReqDataLoop (entry : Option Nat) (s : State) :
    Moves q c [] 0 s (processReqDataLoop r entry s) := by
  have base : Moves q c [] 0 s s := .refl s
  unfold processReqDataLoop
  split
  · simp only [processReqDataEnd]
    split
    · exact (base.mapReq own _).andThen (moves_reqCompleteCb own _)
    · exact base.mapReq own _
  split
  · exact .of_eq rfl le_rfl
  dsimp only
  split
  · exact (base.mapReq own _).pushOf own rfl rfl
  · exact ((base.mapReq own _).pushOf own rfl rfl).pushOf own rfl rfl

theorem moves_processReqData (env : Env) (buf : MsghdrBuf) (s : State) :
    Moves q c [] 0 s (ubusProcessReqData env r buf s) := by
  have base : Moves q c [] 0 s s := .refl s
  have copied : ∀ bytes (t : State), Moves q c [] 0 t (t.copy bytes) := fun _ _ =>
    .of_eq rfl (Nat.le_succ _)
  simp only [ubusProcessReqData]
  split
  · exact .of_eq rfl le_rfl
  split
  · exact (((base.mapReq own _).logOf own rfl rfl).pushOf own rfl rfl).pushOf own rfl rfl
  split
  · exact ((base.logOf own rfl rfl).andThen (copied _ _)).mapReq own _
  · exact base

theorem moves_notifyStatusEnd (s : State) : Moves q c [] 0 s (notifyStatusEnd r s) := by
  unfold notifyStatusEnd
  split
  · exact (Moves.refl s).pushOf own rfl rfl
  · exact .refl s

theorem moves_processStatus (id : Option Nat) (buf : MsghdrBuf) (s : State) :
    Moves q c [] 0 s (processStatus lib r id buf s) := by
  cases id with
  | none => exact ((moves_parseMsg ..).mapReq own _).pushOf own rfl rfl
  | some id =>
    have begun : Moves q c [] 0 s (notifyParsed lib r id buf s) :=
      (((Moves.refl s).mapReq own _).andThen (moves_parseMsg ..)).logOf own rfl rfl
    simp only [processStatus, ubusProcessNotifyStatus]
    split
    · exact (begun.mapReq own _).andThen (moves_notifyStatusEnd own _)
    split
    · exact (begun.pushOf own rfl rfl).callOf own rfl rfl
    · exact begun.andThen (moves_notifyStatusEnd own _)

theorem moves_abort (s : State) : Moves q c [] 0 s (ubusAbortRequest r s) := by
  have other : ∀ {o}, ¬q o → o ≠ r := by
    rintro o out rfl
    exact out own
  unfold ubusAbortRequest
  split
  · exact .refl s
  · dsimp only
    rw [freeAll_eq]
    exact (Moves.refl s).changed rfl le_rfl (fun _ out => Function.update_of_ne (other out) _ _)
      (fun _ out => mem_unlink.trans (and_iff_left (other out))) fun _ _ => rfl

theorem moves_link (s : State) : Moves q c [] 0 s (ubusCompleteRequestAsync r s) := by
  unfold ubusCompleteRequestAsync
  split
  · exact .refl s
  · exact (Moves.refl s).changed rfl le_rfl (fun _ _ => rfl)
      (fun _ out => List.mem_cons.trans (or_iff_right (by rintro rfl; exact out own))) fun _ _ => rfl

theorem moves_complete (timed : Bool) (s : State) :
    Moves q c [] 0 s (ubusCompleteRequest r timed s) := by
  have linked : Moves q c [] 0 s (ubusCompleteRequestAsync r s) := moves_link own s
  have raised : ∀ cb, Moves q c [] 0 s ({ ubusCompleteRequestAsync r s with
      stackDepth := (ubusCompleteRequestAsync r s).stackDepth + 1 }.push (.waitLoop r cb timed)) :=
    fun _ => linked.raise ⟨own, trivial⟩ rfl
  exact (raised (s.req r).completeCb).mapReq own fun req => { req with completeCb := .sync }

theorem moves_waitEnd (cb : CompleteCb) (s : State) : Moves q c [] 1 s (waitEnd r cb s) := by
  have mapped : Moves q c [] 0 s (s.mapReq r fun req => { req with completeCb := cb }) :=
    (Moves.refl s).mapReq own _
  have lowered : Moves q c [] 1 s (waitLower r cb s) :=
    mapped.before (.added [] [] rfl le_rfl (List.forall_mem_nil _) (List.forall_mem_nil _)
      (fun _ => rfl) Nat.sub_add_cancel)
  exact (lowered.pushOf own rfl rfl).andThen (moves_runCompleteCb own ..)

theorem moves_waitLoop (env : Env) (cb : CompleteCb) (timed : Bool) (s : State) :
    Moves q c [] 1 s (waitLoop env r cb timed s) := by
  unfold waitLoop
  split
  · exact moves_waitEnd own ..
  split
  · exact (Moves.handOver own rfl rfl rfl rfl).pushOf own rfl rfl
  · have polled : ∀ t : State, Moves q c [] 0 t { t with cancelPoll := false } := fun _ =>
      .of_eq rfl le_rfl
    exact ((Moves.handOver own rfl rfl rfl rfl).andThen (polled _)).push rfl rfl

theorem moves_waitPolled (cb : CompleteCb) (timed : Bool) (s : State) :
    Moves q c [] 1 s (waitPolled r cb timed s) := by
  unfold waitPolled
  split
  · exact (Moves.handOver own rfl rfl rfl rfl).pushOf own rfl rfl
  · exact .handOver own rfl rfl rfl rfl

theorem moves_waitCompleted (cb : CompleteCb) (status : UInt32) (s : State) :
    Moves q c [] 0 s (waitCompleted r cb status s) := by
  have base : Moves q c [] 0 s (s.push (.waitReturn r cb status)) :=
    (Moves.refl s).pushOf own rfl rfl
  simp only [waitCompleted]
  split
  · exact base.push rfl rfl
  · exact base

end Requests

/-! ### Functions on objects -/

theorem moves_processUnsubscribe (obj fd : Option Nat) (s : State) :
    Moves q c fd.toList 0 s (ubusProcessUnsubscribe lib obj fd s) := by
  have closed : Moves q c fd.toList 0 s (s.close fd) := (Moves.refl s).close fd
  unfold ubusProcessUnsubscribe
  dsimp only
  split
  · split
    · exact closed.call rfl rfl
    · exact closed
  · exact closed

theorem moves_processNotify (obj fd : Option Nat) (s : State) :
    Moves q c fd.toList 0 s (ubusProcessNotify lib obj fd s) := by
  have closed : Moves q c fd.toList 0 s (s.close fd) := (Moves.refl s).close fd
  unfold ubusProcessNotify
  dsimp only
  split
  · have marked : ∀ setup, Moves q c fd.toList 0 s { s.close fd with setup } := fun _ =>
      closed.andThen (.of_eq rfl le_rfl)
    split
    · exact (marked _).call rfl rfl
    · exact marked _
  · exact closed

theorem moves_detachData (buf : MsghdrBuf) (s : State) : Moves q c [] 0 s (detachData buf s) := by
  unfold detachData
  split
  · have detached : Moves q c [] 0 s { s with msgbufData := none } := .of_eq rfl le_rfl
    exact detached.push rfl rfl
  · exact .refl s

/-- `ubus_process_msg` and `ubus_process_obj_msg` up to the search for the object. -/
def entered (lib : Libubox) (buf : MsghdrBuf) (s : State) : State :=
  (ubusParseMsg lib (s.data buf) ({ s with stackDepth := s.stackDepth + 1 }.push .leaveObjMsg)).log
    (.dispatched (s.hdr buf) (s.content buf))

/-- `ubus_process_obj_msg` up to the function of the message type. -/
def detached (lib : Libubox) (buf : MsghdrBuf) (s : State) : State := detachData buf (entered lib buf s)

/-- `ubus_process_invoke` is called. -/
def invoking (lib : Libubox) (buf : MsghdrBuf) (s : State) : State :=
  (detached lib buf s).log (.invoke (detached lib buf s).brk (s.hdr buf) (s.content buf))

theorem moves_entered (buf : MsghdrBuf) (s : State) : Moves q c [] 0 s (entered lib buf s) := by
  have raised : Moves q c [] 0 s ({ s with stackDepth := s.stackDepth + 1 }.push .leaveObjMsg) :=
    (Moves.refl s).raise ⟨trivial, trivial⟩ rfl
  exact (raised.andThen (moves_parseMsg ..)).log rfl rfl

theorem moves_detached (buf : MsghdrBuf) (s : State) : Moves q c [] 0 s (detached lib buf s) :=
  (moves_entered buf s).andThen (moves_detachData ..)

theorem entered_setup (lib : Libubox) (buf : MsghdrBuf) (s : State) :
    (entered lib buf s).setup = s.setup ∧ (entered lib buf s).channel = s.channel ∧
      (entered lib buf s).brk = s.brk := by
  unfold entered
  cases s.data buf <;> exact ⟨rfl, rfl, rfl⟩

theorem entered_attrbuf (lib : Libubox) (buf : MsghdrBuf) (s : State) (id : UbusAttr) :
    ((entered lib buf s).attrbuf id).map Ptr.bytes = lib.blobParse (s.content buf) id := by
  have parsed := parseMsg_attrbuf lib buf s
    (State.push .leaveObjMsg { s with stackDepth := s.stackDepth + 1 }) rfl id
  exact parsed

theorem detachData_fields (buf : MsghdrBuf) (s : State) :
    (detachData buf s).setup = s.setup ∧ (detachData buf s).channel = s.channel ∧
      (detachData buf s).brk = s.brk ∧ (detachData buf s).attrbuf = s.attrbuf := by
  unfold detachData
  split <;> exact ⟨rfl, rfl, rfl, rfl⟩

theorem invoking_fields (lib : Libubox) (buf : MsghdrBuf) (s : State) :
    (invoking lib buf s).setup = s.setup ∧ (invoking lib buf s).channel = s.channel ∧
      (invoking lib buf s).brk = s.brk ∧
      ∀ id, ((invoking lib buf s).attrbuf id).map Ptr.bytes = lib.blobParse (s.content buf) id := by
  obtain ⟨setup, channel, brk⟩ := entered_setup lib buf s
  obtain ⟨setup', channel', brk', attrbuf⟩ := detachData_fields buf (entered lib buf s)
  refine ⟨setup'.trans setup, channel'.trans channel, brk'.trans brk, fun id => ?_⟩
  rw [← entered_attrbuf, ← attrbuf]
  rfl

theorem processObj_entered (env : Env) (buf : MsghdrBuf) (fd : Option Nat) {s : State}
    (depth : s.stackDepth = 0) :
    processObj lib env buf fd s =
      match (entered lib buf s).attrbuf .objid with
      | none => (entered lib buf s).close fd
      | some attr =>
        let obj := (entered lib buf s).findObject (lib.blobGetU32 attr.bytes)
        if (s.hdr buf).type = MsgType.invoke.code then
          ubusProcessInvoke lib env (s.hdr buf) obj fd (invoking lib buf s)
        else if (s.hdr buf).type = MsgType.unsubscribe.code then
          ubusProcessUnsubscribe lib obj fd (detached lib buf s)
        else if (s.hdr buf).type = MsgType.notify.code then
          ubusProcessNotify lib obj fd (detached lib buf s)
        else (entered lib buf s).close fd := by
  unfold processObj
  rw [if_neg (not_not.mpr depth)]
  rfl

theorem processObj_cases (lib : Libubox) (env : Env) (buf : MsghdrBuf) (fd : Option Nat) (s : State) :
    (∀ q c, Moves q c fd.toList 0 s (processObj lib env buf fd s)) ∨
      (s.stackDepth = 0 ∧ (s.hdr buf).type = MsgType.invoke.code ∧
        ∃ objid, lib.blobParse (s.content buf) .objid = some objid ∧
          processObj lib env buf fd s = ubusProcessInvoke lib env (s.hdr buf)
            (s.findObject (lib.blobGetU32 objid)) fd (invoking lib buf s)) := by
  by_cases depth : s.stackDepth = 0
  · have carried := entered_attrbuf lib buf s .objid
    have setup := (entered_setup lib buf s).1
    rw [processObj_entered env buf fd depth]
    rcases parsed : (entered lib buf s).attrbuf .objid with _ | attr
    · exact .inl fun _ _ => (moves_entered buf s).close fd
    rw [parsed] at carried
    dsimp only
    split
    · rename_i type
      refine .inr ⟨depth, type, attr.bytes, carried.symm, ?_⟩
      rw [State.findObject, setup]
      rfl
    split
    · exact .inl fun _ _ => (moves_detached buf s).before (moves_processUnsubscribe ..)
    split
    · exact .inl fun _ _ => (moves_detached buf s).before (moves_processNotify ..)
    · exact .inl fun _ _ => (moves_entered buf s).close fd
  · refine .inl fun _ _ => ?_
    unfold processObj
    rw [if_pos depth]
    refine Moves.close ?_ fd
    unfold ubusQueueMsg
    split
    · exact .of_eq rfl (Nat.le_succ _)
    · exact .refl s

/-! ### Functions on a call -/

/-- Only requests in `q` and calls in `c` were worked on, with any descriptors. -/
def Touches (q c : Nat → Prop) (s s' : State) : Prop := ∃ fds, Moves q c fds 0 s s'

theorem Touches.trans (first : Touches q c s t) (second : Touches q c t s') : Touches q c s s' :=
  ⟨_, first.choose_spec.trans second.choose_spec⟩

section Calls

variable {k : Nat} (own : c k)

include own

theorem touches_sendAnswer (env : Env) (ret : UInt32) (s : State) :
    Touches q c s (sendAnswer lib env k ret s) := by
  refine ⟨_, ((Moves.refl s).close _).trans (moves_sent env _ _ _ _ _ _ ?_)⟩
  exact fun _ => ⟨trivial, own⟩

theorem touches_invoked (env : Env) (noReply : Bool) (s : State) :
    Touches q c s (invoked lib env k noReply s) := by
  unfold invoked
  split
  · exact ⟨_, (Moves.refl s).close _⟩
  · exact touches_sendAnswer own ..

theorem touches_callHandler (obj method : Option Nat) (noReply : Bool) (s : State) :
    Touches q c s (callHandler obj method k noReply s) := by
  have pushed : Moves q c [] 0 s (s.push (.invoked k noReply)) :=
    (Moves.refl s).pushIn ⟨trivial, own⟩ rfl rfl
  exact ⟨_, pushed.callIn ⟨trivial, own⟩⟩

theorem touches_preInvoked (env : Env) (obj method : Nat) (noReply : Bool) (s : State) :
    Touches q c s (preInvoked lib env obj method k noReply s) := by
  unfold preInvoked
  split
  · exact touches_callHandler own ..
  · exact touches_invoked own ..

theorem touches_invokeFound (env : Env) (obj method : Option Nat) (noReply : Bool) (s : State) :
    Touches q c s (invokeFound lib env obj method k noReply s) := by
  unfold invokeFound
  split
  · exact touches_sendAnswer own ..
  split
  · rename_i o m
    split
    · have pushed : Moves q c [] 0 s (s.push (.preInvoked o m k noReply)) :=
        (Moves.refl s).pushIn ⟨trivial, own⟩ rfl rfl
      exact ⟨_, pushed.callIn ⟨trivial, own⟩⟩
    · exact touches_callHandler own ..
  · exact touches_callHandler own ..

end Calls

theorem touches_processInvoke (env : Env) (hdr : Msghdr) (obj fd : Option Nat) (s : State)
    (own : c s.brk) : Touches q c s (ubusProcessInvoke lib env hdr obj fd s) ∧
      s.brk < (ubusProcessInvoke lib env hdr obj fd s).brk := by
  have begun : ∀ {rd t}, Touches q c { s with rd := Function.update s.rd s.brk rd, brk := s.brk + 1 } t →
      Touches q c s t ∧ s.brk < t.brk := by
    rintro rd t ⟨fds, moves⟩
    have given : Moves q c [] 0 s { s with rd := Function.update s.rd s.brk rd, brk := s.brk + 1 } :=
      (Moves.refl s).changed rfl (Nat.le_succ _) (fun _ _ => rfl) (fun _ _ => Iff.rfl)
        fun _ out => Function.update_of_ne (by rintro rfl; exact out own) _ _
    exact ⟨⟨fds, given.before moves⟩, Nat.lt_of_succ_le moves.brk⟩
  have filled : ∀ {t t' : State} f, Touches q c (t.mapRd s.brk f) t' → Touches q c t t' :=
    fun f after => Touches.trans ⟨[], (Moves.refl _).mapRd own f⟩ after
  unfold ubusProcessInvoke
  dsimp only
  split
  · exact begun (touches_sendAnswer own ..)
  split
  · exact begun (touches_sendAnswer own ..)
  split
  · exact begun (filled _ (touches_invokeFound own ..))
  split
  · exact begun (filled _ ⟨_, .refl _⟩)
  split
  · exact begun (filled _ (filled _ (touches_sendAnswer own ..)))
  · exact begun (filled _ (filled _ (touches_invokeFound own ..)))

theorem touches_invoke (env : Env) (buf : MsghdrBuf) (hdr : Msghdr) (obj fd : Option Nat) (s : State)
    (own : c s.brk) : Touches q c s (ubusProcessInvoke lib env hdr obj fd (invoking lib buf s)) ∧
      s.brk < (ubusProcessInvoke lib env hdr obj fd (invoking lib buf s)).brk := by
  have brk := (invoking_fields lib buf s).2.2.1
  rw [← brk] at own
  have logged : Moves q c [] 0 s (invoking lib buf s) :=
    (moves_detached buf s).logIn ⟨trivial, own⟩ rfl
  obtain ⟨begun, larger⟩ : Touches q c _ (ubusProcessInvoke lib env hdr obj fd (invoking lib buf s)) ∧ _ :=
    touches_processInvoke env hdr obj fd _ own
  exact ⟨Touches.trans ⟨_, logged⟩ begun, brk ▸ larger⟩

/-! ### Reading -/

theorem moves_processPendingMsg (s : State) : Moves q c [] 0 s (ubusProcessPendingMsg s) := by
  unfold ubusProcessPendingMsg
  split
  · exact .refl s
  split
  · exact .refl s
  · have taken : ∀ pending, Moves q c [] 0 s { s with pending } := fun _ => .of_eq rfl le_rfl
    exact ((taken _).push rfl rfl).push rfl rfl

theorem moves_pendingTimer (s : State) : Moves q c [] 0 s (pendingTimer s) := by
  unfold pendingTimer
  split
  · exact (Moves.refl s).push rfl rfl
  · exact .refl s

theorem moves_restoreData (prevData : Nat) (s : State) :
    Moves q c [] 0 s (restoreData prevData s) := by
  unfold restoreData
  split
  · exact (Moves.refl s).free _
  · exact .of_eq rfl le_rfl

/-- How `alloc_msg_buf` makes room. -/
inductive Allocated (len : Nat) (s : State) : Bool → State → Prop where
  | fits (counter : Nat)
    (room : chunked len ≤ if s.msgbufData.isNone then 0 else s.msgbufDataLen) :
    Allocated len s true { s with msgbufReductionCounter := counter }
  | moved (counter : Nat) :
    Allocated len s true ({ s with msgbufReductionCounter := counter }.realloc (chunked len))
  | failed (counter : Nat) : Allocated len s false { s with msgbufReductionCounter := counter }

theorem reduction_le (len bufLen counter : Nat) : (reduction len bufLen counter).1 ≤ bufLen := by
  unfold reduction
  split
  · split
    · exact Nat.zero_le _
    · exact le_rfl
  · exact le_rfl

theorem allocMsgBuf_cases (env : Env) (len : Nat) (s : State) :
    Allocated len s (allocMsgBuf env len s).1 (allocMsgBuf env len s).2 := by
  have less := reduction_le (chunked len) (if s.msgbufData.isNone then 0 else s.msgbufDataLen)
    s.msgbufReductionCounter
  simp only [allocMsgBuf, allocChunks]
  generalize reduction _ _ _ = reduced at less ⊢
  split
  · rename_i room
    exact .fits _ (room.trans less)
  split
  · exact .moved _
  · exact .failed _

/-- The descriptor that arrives. -/
def Recv.fd : Recv → Option Nat
  | .again => none
  | .failed fd | .cut _ _ fd | .message _ _ fd => fd

/-- **What `ubus_handle_data` reads**: a message, the beginning of one, or nothing. -/
inductive Reads (env : Env) (s : State) : State → Prop where
  | message (hdr : Msghdr) (data : Bytes) (enough : 4 ≤ Blob.rawLen data)
    (length : data.length = Blob.rawLen data) {u : State}
    (allocated : Allocated (Blob.rawLen data) s true u) :
    Reads env s ((((u.fill hdr data).log (.read hdr data)).push .handled).push
      (.processMsg .msgbuf env.recv.fd))
  | part (hdr : Msghdr) (data : Bytes) {u : State} (allocated : Allocated (Blob.rawLen data) s true u) :
    Reads env s (pendingTimer (State.push .handleEnd
      (State.close env.recv.fd { u.fill hdr data with eof := true })))
  | nothing (eof : Bool) (counter : Nat) :
    Reads env s (pendingTimer (State.push .handleEnd
      (State.close env.recv.fd { s with eof, msgbufReductionCounter := counter })))

theorem readMsg_cases (env : Env) (hdr : Msghdr) (data : Bytes) (whole : Bool) (s : State) :
    (∃ counter, readMsg env hdr data whole s =
        (false, { s with eof := true, msgbufReductionCounter := counter })) ∨
      ∃ u, Allocated (Blob.rawLen data) s true u ∧ readMsg env hdr data whole s =
        if whole then (true, (u.fill hdr data).log (.read hdr data))
        else (false, { u.fill hdr data with eof := true }) := by
  have cases := allocMsgBuf_cases env (Blob.rawLen data) s
  unfold readMsg
  rcases allocated : allocMsgBuf env (Blob.rawLen data) s with ⟨_ | _, u⟩
  · rw [allocated] at cases
    cases cases with
    | failed counter => exact .inl ⟨counter, rfl⟩
  · rw [allocated] at cases
    exact .inr ⟨u, cases, rfl⟩

theorem handleRead_reads (env : Env) (s : State) : Reads env s (handleRead env s) := by
  unfold handleRead getNextMsg
  obtain ⟨recv, expired, cancelling, alloc, written⟩ := env
  cases recv with
  | again => exact .nothing s.eof s.msgbufReductionCounter
  | failed fd => exact .nothing true s.msgbufReductionCounter
  | cut hdr data fd =>
    dsimp only
    split_ifs
    · rcases readMsg_cases _ hdr data false s with ⟨counter, result⟩ | ⟨u, allocated, result⟩
      · rw [result]
        exact .nothing true counter
      · rw [result]
        exact .part hdr data allocated
    · exact .nothing true s.msgbufReductionCounter
  | message hdr data fd =>
    dsimp only
    split_ifs with valid
    · rcases readMsg_cases _ hdr data true s with ⟨counter, result⟩ | ⟨u, allocated, result⟩
      · rw [result]
        exact .nothing true counter
      · obtain ⟨header, length⟩ := Bool.and_eq_true_iff.mp valid
        rw [result]
        refine .message hdr data ?_ (eq_of_beq length) allocated
        exact of_decide_eq_true (Bool.and_eq_true_iff.mp (Bool.and_eq_true_iff.mp header).1).2
    · exact .nothing true s.msgbufReductionCounter

theorem moves_reads {env : Env} (reads : Reads env s s') : Moves q c env.recv.fd.toList 0 s s' := by
  have filled : ∀ {len ok u} hdr data, Allocated len s ok u → Moves q c [] 0 s (u.fill hdr data) := by
    intro len ok u hdr data allocated
    have counted : ∀ counter, Moves q c [] 0 s { s with msgbufReductionCounter := counter } := fun _ =>
      .of_eq rfl le_rfl
    have room : Moves q c [] 0 s u := by
      cases allocated with
      | fits counter room => exact counted counter
      | failed counter => exact counted counter
      | moved counter =>
        refine (counted counter).andThen ?_
        unfold State.realloc
        split <;> exact .of_eq rfl (Nat.le_succ _)
    refine room.andThen ?_
    unfold State.fill
    split <;> exact .of_eq rfl le_rfl
  have stopped : ∀ {t}, Moves q c [] 0 s t →
      Moves q c env.recv.fd.toList 0 s (pendingTimer ((t.close env.recv.fd).push .handleEnd)) :=
    fun before => ((before.close _).push rfl rfl).andThen (moves_pendingTimer _)
  cases reads with
  | message hdr data enough length allocated =>
    exact (((filled hdr data allocated).log rfl rfl).push rfl rfl).deposit rfl rfl rfl rfl
  | part hdr data allocated => exact stopped ((filled hdr data allocated).andThen (.of_eq rfl le_rfl))
  | nothing eof counter => exact stopped (.of_eq rfl le_rfl)

theorem moves_handled (env : Env) (s : State) : Moves q c [] 0 s (handled env s) := by
  unfold handled
  split
  · exact ((Moves.refl s).push rfl rfl).andThen (moves_pendingTimer _)
  · exact (Moves.refl s).push rfl rfl

theorem moves_handleEnd (s : State) : Moves q c [] 0 s (handleEnd s) := by
  unfold handleEnd
  split
  · exact ((Moves.refl s).push rfl rfl).push rfl rfl
  · exact .refl s

/-! ### A function about a request goes on -/

theorem moves_resume (env : Env) {frame : Frame} {r : Nat} (about : frame.req = some r)
    (inside : ∀ cb, frame ≠ .app cb) (own : q r) (s : State) :
    Moves q c [] frame.depth s (resume lib env frame s) := by
  cases frame with
  | app cb => exact absurd rfl (inside cb)
  | reqDataCb r' type data => cases about; exact moves_reqDataCb own ..
  | reqDataCbParse r' type data => cases about; exact moves_reqDataCbParse own ..
  | processReqData r' => cases about; exact moves_processReqDataLoop own ..
  | drain r' data tmp =>
    cases about
    exact ((Moves.refl s).free data).andThen (moves_processReqDataLoop own ..)
  | setReqStatus r' ret => cases about; exact moves_setReqStatus own ..
  | processStatus r' id buf => cases about; exact moves_processStatus own ..
  | notifyStatus r' => cases about; exact moves_notifyStatusEnd own _
  | waitLoop r' cb timed => cases about; exact moves_waitLoop own ..
  | waitPolled r' cb timed => cases about; exact moves_waitPolled own ..
  | waitEnd r' cb lost =>
    cases about
    have marked : ∀ cancelPoll, Moves q c [] 0 s { s with cancelPoll } := fun _ => .of_eq rfl le_rfl
    exact (marked _).before (moves_waitEnd own ..)
  | waitCompleted r' cb status => cases about; exact moves_waitCompleted own ..
  | waitReturn r' cb status => cases about; exact ((Moves.refl s).returning status).logOf own rfl rfl
  | _ => cases about

end Ubus.Libubus
