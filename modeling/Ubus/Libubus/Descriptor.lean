/-
**Descriptors.**

A descriptor that comes in with a message is held by the frame that works on the message, then by the
request structure of the call, and in the end it is closed or handed to the application. One that the
application gives away is closed at once. So for every descriptor the number of holders, closings and
hand-overs changes in a step only by what comes in (`step_total`).

The one way to break this is `ubus_defer_request`: it copies the descriptor with the rest of the
structure, while `ubus_process_invoke` goes on to close the original.

* `held`, `closed`, `handed`, `total`: the account of one descriptor.
* `inflow`: how often it comes in with a step.
-/

import Ubus.Libubus.Answer

namespace Ubus.Libubus

variable {lib : Libubox}
variable {s s' t : State} {env : Env} {k fd method : Nat} {action : Action} {noReply : Bool}
  {frame : Frame} {rest base new : List Frame} {fds : List Nat} {hdr : Msghdr} {obj : Option Nat}
  {way : Outcome}

/-! ### The account of a descriptor -/

/-- The descriptor a frame is responsible for; a call holds the one in its request structure. -/
def Frame.holds (rd : Nat → RequestData) : Frame → Option Nat
  | .closeFd fd | .processMsg _ fd => fd
  | .preInvoked _ _ k _ | .invoked k _ => (rd k).reqFd
  | _ => none

def held (fd : Nat) (s : State) : Nat := (s.stack.filterMap (Frame.holds s.rd)).count fd

def Event.closes (fd : Nat) : Event → Bool
  | .close other => other == fd
  | _ => false

def Event.hands (fd : Nat) : Event → Bool
  | .handed other => other == fd
  | _ => false

def closed (fd : Nat) (trace : List Event) : Nat := trace.countP (Event.closes fd)

def handed (fd : Nat) (trace : List Event) : Nat := trace.countP (Event.hands fd)

def used (fd : Nat) (trace : List Event) : Nat := (trace.filterMap Event.fd).count fd

theorem count_filterMap_cons {α : Type} (g : α → Option Nat) (first : α) (rest : List α) (fd : Nat) :
    ((first :: rest).filterMap g).count fd = (g first).toList.count fd + (rest.filterMap g).count fd := by
  cases given : g first with
  | none => rw [List.filterMap_cons_none given]; simp
  | some other =>
    rw [List.filterMap_cons_some given, List.count_cons, Option.toList_some, List.count_singleton]
    exact Nat.add_comm ..

theorem used_eq (fd : Nat) (trace : List Event) : used fd trace = closed fd trace + handed fd trace := by
  have single : ∀ event : Event, event.fd.toList.count fd =
      (if event.closes fd then 1 else 0) + if event.hands fd then 1 else 0 := by
    intro event
    cases event with
    | close other => simp [Event.fd, Event.closes, Event.hands, List.count_singleton]
    | handed other => simp [Event.fd, Event.closes, Event.hands, List.count_singleton]
    | _ => rfl
  induction trace with
  | nil => rfl
  | cons event rest ih =>
    unfold used closed handed at *
    rw [count_filterMap_cons, single, ih, List.countP_cons, List.countP_cons]
    omega

def total (fd : Nat) (s : State) : Nat := held fd s + used fd s.trace

/-! ### Accounting -/

theorem used_append (fd : Nat) (events trace : List Event) :
    used fd (events ++ trace) = used fd events + used fd trace := by
  rw [used, List.filterMap_append, List.count_append, used, used]

theorem used_close (fd : Nat) (fds : List Nat) : used fd (fds.map .close) = fds.count fd := by
  rw [used, List.filterMap_map]
  exact congrArg _ (List.filterMap_some (l := fds))

theorem holds_fd (free : frame.rd = none) (rd : Nat → RequestData) : frame.holds rd = frame.fd := by
  cases frame <;> first | rfl | cases free

theorem total_passes (passes : Passes fds s s') (fd : Nat) :
    total fd s' = total fd s + fds.count fd := by
  obtain ⟨_, moves⟩ := passes
  obtain ⟨new, events, stack, trace, frames, -, counts, -⟩ := moves.moved
  have holders : new.filterMap (Frame.holds s.rd) = new.filterMap Frame.fd :=
    List.filterMap_congr fun frame mem =>
      holds_fd (Option.eq_none_iff_forall_ne_some.mpr fun _ => (frames frame mem).call) s.rd
  have same : s'.rd = s.rd := funext fun k => moves.rd k id
  have count := counts fd
  rw [total, held, same, stack, List.filterMap_append, List.count_append, holders, trace,
    used_append, total, held]
  unfold used at *
  omega

theorem held_congr {rd : Nat → RequestData}
    (same : ∀ frame ∈ s.stack, frame.holds rd = frame.holds s.rd) (fd : Nat) :
    (s.stack.filterMap (Frame.holds rd)).count fd = held fd s := by
  rw [held, List.filterMap_congr same]

theorem total_pop (top : s.stack = frame :: rest) (fd : Nat) :
    total fd s = total fd { s with stack := rest } + (frame.holds s.rd).toList.count fd := by
  rw [total, held, top, count_filterMap_cons]
  unfold total held
  dsimp only
  omega

theorem total_push (s : State) (frame : Frame) (fd : Nat) :
    total fd (s.push frame) = total fd s + (frame.holds s.rd).toList.count fd :=
  total_pop (s := s.push frame) (rfl : (s.push frame).stack = frame :: s.stack) fd

theorem total_call (s : State) (cb : Callback) (fd : Nat) : total fd (s.call cb) = total fd s := by
  have pushed := total_push (s.log (.call cb)) (.app cb) fd
  exact pushed

theorem held_update (absent : ∀ frame ∈ s.stack, frame.serves k = false) (rd : RequestData)
    (fd : Nat) :
    (s.stack.filterMap (Frame.holds (Function.update s.rd k rd))).count fd = held fd s := by
  refine held_congr (fun frame mem => ?_) fd
  have other := absent frame mem
  cases frame with
  | preInvoked obj method j noReply =>
    exact congrArg RequestData.reqFd (Function.update_of_ne (beq_eq_false_iff_ne.mp other) _ _)
  | invoked j noReply =>
    exact congrArg RequestData.reqFd (Function.update_of_ne (beq_eq_false_iff_ne.mp other) _ _)
  | _ => rfl

theorem held_mapRd {f : RequestData → RequestData} (same : ∀ rd, (f rd).reqFd = rd.reqFd)
    (fd : Nat) : held fd (s.mapRd k f) = held fd s := by
  refine held_congr (s := s) (fun frame _ => ?_) fd
  have kept : ∀ j, ((s.mapRd k f).rd j).reqFd = (s.rd j).reqFd := by
    intro j
    by_cases own : j = k
    · subst own
      exact (congrArg RequestData.reqFd (Function.update_self ..)).trans (same _)
    · exact congrArg RequestData.reqFd (Function.update_of_ne own _ _)
  cases frame <;> first | rfl | exact kept _

theorem total_sendAnswer (env : Env) (k : Nat) (ret : UInt32) (s : State)
    (after : t = sendAnswer lib env k ret s) (fd : Nat) :
    total fd t = total fd s + (s.rd k).reqFd.toList.count fd + (s.rd k).fd.toList.count fd := by
  obtain ⟨stack, rd, -, ok, trace⟩ := sendAnswer_fields env k ret s after
  have silent : ∀ cmd seq peer msg ok' (rest : List Event),
      used fd (.sent (.invoke k) cmd seq peer msg ok' :: rest) = used fd rest := fun _ _ _ _ _ _ => rfl
  rw [total, held, rd, stack, trace, used_append, used_close, silent, used_append, used_close, total, held]
  omega

theorem total_close (s : State) (given : Option Nat) (fd : Nat) :
    total fd (s.close given) = total fd s + given.toList.count fd :=
  total_passes ⟨0, (Moves.refl s).close given⟩ fd

/-! ### One frame for each call -/

/-- `ubus_process_invoke` is on the stack at most once for a call. -/
def Distinct (s : State) : Prop := ∀ k, s.stack.countP (Frame.serves k) ≤ 1

theorem Distinct.passes (distinct : Distinct s) (passes : Passes fds s s') : Distinct s' := by
  intro k
  rw [(passes.choose_spec.apart id).1]
  exact distinct k

theorem Distinct.pop (distinct : Distinct s) (top : s.stack = frame :: rest) :
    Distinct { s with stack := rest } := by
  intro k
  have once := distinct k
  rw [top, List.countP_cons] at once
  exact (Nat.le_add_right ..).trans once

theorem Distinct.touches (distinct : Distinct s) (touches : Touches (fun _ => True) (Eq k) s s')
    (absent : s.stack.countP (Frame.serves k) = 0)
    (own : s'.stack = s.stack ∨ ∃ cb frame, s'.stack = .app cb :: frame :: s.stack) :
    Distinct s' := by
  intro j
  by_cases same : k = j
  · subst same
    rcases own with stack | ⟨cb, frame, stack⟩
    · rw [stack]
      exact distinct k
    · rw [stack, List.countP_cons_of_neg Bool.false_ne_true, List.countP_cons, absent]
      split <;> omega
  · rw [(touches.choose_spec.apart same).1]
    exact distinct j

theorem Begun.stack {fd : Option Nat} (begun : Begun lib env hdr obj fd s noReply way s') :
    s'.stack = s.stack ∨ ∃ cb frame, s'.stack = .app cb :: frame :: s.stack := by
  cases begun with
  | unaddressed way early ret =>
    exact .inl (sendAnswer_fields env s.brk ret _ (rfl : sendAnswer lib env s.brk ret _ = _)).1
  | refused way late ret =>
    exact .inl (sendAnswer_fields env s.brk ret _ (rfl : sendAnswer lib env s.brk ret _ = _)).1
  | asked o method found data given => exact .inr ⟨_, _, rfl⟩
  | called method => exact .inr ⟨_, _, rfl⟩

theorem preInvoked_stack {obj : Nat} (after : t = preInvoked lib env obj method k noReply s) :
    t.stack = s.stack ∨ ∃ cb frame, t.stack = .app cb :: frame :: s.stack := by
  unfold preInvoked at after
  split at after
  · rw [after]
    exact .inr ⟨_, _, rfl⟩
  · exact .inl (invoked_stack after).1

theorem Serve.distinct (serve : Serve lib env action s s') (numbered : Numbered s)
    (distinct : Distinct s) : Distinct s' := by
  have absent : ∀ {k frame rest}, s.stack = frame :: rest → frame.serves k = true →
      rest.countP (Frame.serves k) = 0 := by
    intro k frame rest top serves
    have once := distinct k
    rw [top, List.countP_cons_of_pos serves] at once
    omega
  cases serve with
  | ret idle value does after =>
    rw [after]
    intro k
    exact ((List.tail_sublist _).countP_le).trans (distinct k)
  | quiet idle passes => exact distinct.passes passes
  | defer idle k does after => rw [after]; exact distinct
  | setFd idle k fd does after => rw [after]; exact distinct
  | getCallerFd idle k does after =>
    rw [after]
    unfold ubusRequestGetCallerFd
    split <;> exact distinct
  | work frame rest top inside free dry passes => exact (distinct.pop top).passes passes
  | read rest top passes => exact (distinct.pop top).passes passes
  | invoke buf fd rest top depth type objid carries after =>
    have begun := processInvoke_begun env (s.hdr buf) (s.findObject (lib.blobGetU32 objid)) fd
      (invoking_parsed lib buf { s with stack := rest })
    have detach : Distinct (detached lib buf { s with stack := rest }) :=
      (distinct.pop top).passes ⟨_, moves_detached ..⟩
    have called : Distinct (invoking lib buf { s with stack := rest }) := detach
    rw [after]
    exact called.touches (touches_processInvoke env _ _ fd _ rfl).1 (invoking_absent lib buf (numbered.pop top)) begun.stack
  | preInvoked obj method k noReply rest top after =>
    refine (distinct.pop top).touches (k := k) ?_ (absent top (beq_self_eq_true k)) (preInvoked_stack after)
    rw [after]
    exact touches_preInvoked rfl ..
  | invoked k noReply rest top after =>
    refine (distinct.pop top).touches (k := k) ?_ (absent top (beq_self_eq_true k))
      (.inl (invoked_stack after).1)
    rw [after]
    exact touches_invoked rfl ..

theorem Reachable.distinct (reachable : Reachable lib s) : Distinct s := by
  obtain ⟨channel, setup, path⟩ := reachable
  have along : Numbered s ∧ Distinct s := by
    induction path with
    | refl => exact ⟨⟨List.forall_mem_nil _, List.forall_mem_nil _⟩, fun _ => Nat.zero_le _⟩
    | @tail a _ _ next ih =>
      obtain ⟨env, action, rfl⟩ := next
      have serve := step_serve lib env action a
      exact ⟨serve.numbered ih.1, serve.distinct ih.1 ih.2⟩
  exact along.2

/-! ### A step -/

/-- How often a descriptor comes in with a step: the application gives it away, it arrives with a
message, or it was put into the request structure that an answer is sent for. -/
def inflow (env : Env) (action : Action) (s : State) (fd : Nat) : Nat :=
  match s.stack with
  | [] | .app _ :: _ => (action.fds s).count fd
  | .handleRead :: _ => env.recv.fd.toList.count fd
  | .preInvoked _ _ k noReply :: _ =>
    if s.ret = 0 ∨ (s.rd k).deferred || noReply then 0 else (s.rd k).fd.toList.count fd
  | .invoked k noReply :: _ =>
    if (s.rd k).deferred || noReply then 0 else (s.rd k).fd.toList.count fd
  | _ => 0

/-- The application takes a descriptor only from a call that is still on the stack. A structure without
a descriptor may be asked at any time. -/
def Takes (s : State) (action : Action) : Prop :=
  ∀ k, action = .getCallerFd k → (s.rd k).reqFd = none ∨ ∃ frame ∈ s.stack, frame.serves k = true

theorem inflow_idle (idle : s.idle) (fd : Nat) :
    inflow env action s fd = (action.fds s).count fd := by
  unfold inflow
  rcases top : s.stack with _ | ⟨frame, rest⟩
  · rfl
  rw [State.idle, top] at idle
  cases frame with
  | app cb => rfl
  | _ => cases idle

theorem total_invoked (after : t = invoked lib env k noReply s) (fd : Nat) :
    total fd t = total fd s + (s.rd k).reqFd.toList.count fd +
      if (s.rd k).deferred || noReply then 0 else (s.rd k).fd.toList.count fd := by
  unfold invoked at after
  split at after
  · rename_i quiet
    rw [after, total_close, if_pos quiet, Nat.add_zero]
  · rename_i wanted
    rw [total_sendAnswer env k s.ret s after, if_neg wanted]

theorem total_preInvoked {obj : Nat} (after : t = preInvoked lib env obj method k noReply s)
    (fd : Nat) :
    total fd t = total fd s + (s.rd k).reqFd.toList.count fd +
      if s.ret = 0 ∨ ((s.rd k).deferred || noReply) = true then 0 else (s.rd k).fd.toList.count fd := by
  unfold preInvoked at after
  split at after
  · rename_i zero
    have called := total_call (s.push (.invoked k noReply))
      (.handler (some obj) (some method) k (s.attrbuf .method) (s.attrbuf .data)) fd
    rw [total_push] at called
    rw [after, if_pos (.inl zero), Nat.add_zero]
    exact called
  · rename_i refused
    rw [total_invoked after]
    simp only [refused, false_or]

theorem total_begin (absent : s.stack.countP (Frame.serves s.brk) = 0) (rd : RequestData)
    (fd : Nat) : total fd (s.begin rd) = total fd s := by
  have none : ∀ frame ∈ s.stack, frame.serves s.brk = false := fun frame mem =>
    Bool.eq_false_iff.mpr (List.countP_eq_zero.mp absent frame mem)
  exact congrArg (· + used fd s.trace) (held_update none rd fd)

theorem total_begun {given : Option Nat} (begun : Begun lib env hdr obj given s noReply way s')
    (absent : s.stack.countP (Frame.serves s.brk) = 0) (fd : Nat) :
    total fd s' = total fd s + given.toList.count fd := by
  have own : ∀ rd, (s.begin rd).rd s.brk = rd := fun rd => Function.update_self ..
  obtain ⟨-, -, -, out, took⟩ := filled_fields hdr obj given s
  have called : ∀ rd (frame : Frame) cb, rd.reqFd = given →
      frame.holds (s.begin rd).rd = ((s.begin rd).rd s.brk).reqFd →
      total fd (((s.begin rd).push frame).call cb) = total fd s + given.toList.count fd := by
    intro rd frame cb took holds
    rw [total_call, total_push, total_begin absent, holds, own, took]
  cases begun with
  | unaddressed way early ret =>
    rw [total_sendAnswer env s.brk ret _ rfl, own, total_begin absent]
    simp
  | refused way late ret =>
    rw [total_sendAnswer env s.brk ret _ rfl, own, total_begin absent, out, took]
    simp
  | asked o method found data present => exact called _ _ _ took rfl
  | called method => exact called _ _ _ took rfl

theorem total_defer (numbered : Numbered s) (k fd : Nat) :
    total fd (ubusDeferRequest k s) = total fd s := by
  have none : s.stack.countP (Frame.serves s.brk) = 0 := List.countP_eq_zero.mpr fun frame mem own =>
    lt_irrefl _ (numbered.frames frame mem _ (serves_rd own))
  have copied := total_begin none (s.rd k) fd
  have marked := held_mapRd (s := s.begin (s.rd k)) (k := k)
    (f := fun req => { req with deferred := true }) (fun _ => rfl) fd
  rw [← copied]
  exact congrArg (· + used fd s.trace) marked

theorem total_getCallerFd (distinct : Distinct s)
    (live : (s.rd k).reqFd = none ∨ ∃ frame ∈ s.stack, frame.serves k = true) (fd : Nat) :
    total fd (ubusRequestGetCallerFd k s) = total fd s := by
  have taken : ∀ frame : Frame, frame.serves k = false →
      frame.holds (s.mapRd k fun req => { req with reqFd := none }).rd = frame.holds s.rd := by
    intro frame apart
    cases frame with
    | preInvoked obj method j noReply =>
      exact congrArg RequestData.reqFd (Function.update_of_ne (beq_eq_false_iff_ne.mp apart) _ _)
    | invoked j noReply =>
      exact congrArg RequestData.reqFd (Function.update_of_ne (beq_eq_false_iff_ne.mp apart) _ _)
    | _ => rfl
  have own : ∀ (rd : Nat → RequestData) (frame : Frame), frame.serves k = true →
      frame.holds rd = (rd k).reqFd := by
    intro rd frame serves
    cases frame with
    | preInvoked obj method j noReply => rw [← eq_of_beq serves]; rfl
    | invoked j noReply => rw [← eq_of_beq serves]; rfl
    | _ => cases serves
  have gone : ((s.mapRd k fun req => { req with reqFd := none }).rd k).reqFd = none := by
    simp only [State.mapRd, Function.update_self]
  unfold ubusRequestGetCallerFd
  rcases given : (s.rd k).reqFd with _ | other
  · have same : held fd (s.mapRd k fun req => { req with reqFd := none }) = held fd s := by
      refine held_congr (s := s) (fun frame _ => ?_) fd
      cases serves : frame.serves k with
      | false => exact taken frame serves
      | true => rw [own _ frame serves, own _ frame serves, gone, given]
    exact congrArg (· + used fd s.trace) same
  · obtain ⟨frame, mem, serves⟩ := live.resolve_left (by rw [given]; exact Option.some_ne_none _)
    obtain ⟨above, below, stack⟩ := List.append_of_mem mem
    have once := distinct k
    rw [stack, List.countP_append, List.countP_cons_of_pos serves] at once
    have before : above.filterMap (Frame.holds (s.mapRd k fun req => { req with reqFd := none }).rd) =
        above.filterMap (Frame.holds s.rd) := by
      refine List.filterMap_congr fun other inside => taken other (Bool.eq_false_iff.mpr ?_)
      exact List.countP_eq_zero.mp (by omega) other inside
    have after : below.filterMap (Frame.holds (s.mapRd k fun req => { req with reqFd := none }).rd) =
        below.filterMap (Frame.holds s.rd) := by
      refine List.filterMap_congr fun other inside => taken other (Bool.eq_false_iff.mpr ?_)
      exact List.countP_eq_zero.mp (by omega) other inside
    show (s.stack.filterMap (Frame.holds (s.mapRd k fun req => { req with reqFd := none }).rd)).count fd +
      used fd (.handed other :: s.trace) = total fd s
    have noted : used fd (.handed other :: s.trace) = [other].count fd + used fd s.trace :=
      count_filterMap_cons ..
    rw [noted, total, held, stack, List.filterMap_append, List.filterMap_append, List.count_append,
      List.count_append, count_filterMap_cons, count_filterMap_cons, before, after, own _ frame serves,
      own _ frame serves, gone, given]
    simp only [Option.toList_none, Option.toList_some, List.count_nil]
    omega

theorem inflow_work (top : s.stack = frame :: rest) (inside : ∀ cb, frame ≠ .app cb)
    (free : frame.rd = none) (dry : frame ≠ .handleRead) (fd : Nat) :
    inflow env action s fd = 0 := by
  unfold inflow
  rw [top]
  cases frame with
  | app cb => exact absurd rfl (inside cb)
  | handleRead => exact absurd rfl dry
  | preInvoked obj method k noReply => cases free
  | invoked k noReply => cases free
  | _ => rfl

/-- **A step changes the account of a descriptor by what comes in.** -/
theorem step_total (lib : Libubox) (env : Env) (action : Action) (numbered : Numbered s)
    (distinct : Distinct s) (takes : s.idle → Takes s action) (fd : Nat) :
    total fd (step lib env action s) = total fd s + inflow env action s fd := by
  cases step_serve lib env action s with
  | ret idle value does after =>
    rw [inflow_idle idle, after, does]
    rcases top : s.stack with _ | ⟨frame, rest⟩
    · have same : Passes [] s { s with stack := [], ret := value } :=
        ⟨0, .of_eq (by simp [State.seen, top]) le_rfl⟩
      exact total_passes same fd
    have popped := total_pop top fd
    rw [State.idle, top] at idle
    cases frame with
    | app cb => exact popped.symm
    | _ => cases idle
  | quiet idle passes => rw [inflow_idle idle, total_passes passes]
  | defer idle k does after =>
    rw [inflow_idle idle, after, does, total_defer numbered]
    rfl
  | setFd idle k given does after =>
    rw [inflow_idle idle, after, does]
    have kept := held_mapRd (s := s) (k := k) (f := fun req => { req with fd := given }) (fun _ => rfl) fd
    exact congrArg (· + used fd s.trace) kept
  | getCallerFd idle k does after =>
    rw [inflow_idle idle, after, total_getCallerFd distinct (takes idle k does), does]
    rfl
  | work frame rest top inside free dry passes =>
    rw [inflow_work top inside free dry, total_passes passes, total_pop top fd, holds_fd free, Nat.add_zero]
  | read rest top passes =>
    rw [total_passes passes, total_pop top fd, inflow, top]
    rfl
  | invoke buf given rest top depth type objid carries after =>
    have begun := processInvoke_begun env (s.hdr buf) (s.findObject (lib.blobGetU32 objid)) given
      (invoking_parsed lib buf { s with stack := rest })
    have passes : Passes [] { s with stack := rest } (detached lib buf { s with stack := rest }) :=
      ⟨_, moves_detached buf _⟩
    have entry := total_passes passes fd
    have logged : total fd (invoking lib buf { s with stack := rest }) =
      total fd (detached lib buf { s with stack := rest }) := rfl
    rw [after, total_begun begun (invoking_absent lib buf (numbered.pop top)), logged, entry,
      total_pop top fd, inflow, top]
    rfl
  | preInvoked obj method k noReply rest top after =>
    rw [total_preInvoked after, total_pop top fd, inflow, top]
    rfl
  | invoked k noReply rest top after =>
    rw [total_invoked after, total_pop top fd, inflow, top]
    rfl

/-! ### Runs -/

/-- A step in which the descriptor does not come in again, and the application takes descriptors only
from calls on the stack. -/
def Quiet (lib : Libubox) (fd : Nat) (s s' : State) : Prop :=
  ∃ env action, inflow env action s fd = 0 ∧ (s.idle → Takes s action) ∧ s' = step lib env action s

/-- **The account of a descriptor that does not come in again.** -/
theorem run_total (numbered : Numbered s) (distinct : Distinct s)
    (path : Relation.ReflTransGen (Quiet lib fd) s t) :
    Numbered t ∧ Distinct t ∧ total fd t = total fd s := by
  induction path with
  | refl => exact ⟨numbered, distinct, rfl⟩
  | @tail a b _ next ih =>
    obtain ⟨env, action, dry, takes, rfl⟩ := next
    obtain ⟨numbered, distinct, same⟩ := ih
    have serve := step_serve lib env action a
    refine ⟨serve.numbered numbered, serve.distinct numbered distinct, ?_⟩
    rw [step_total lib env action numbered distinct takes, dry, same, Nat.add_zero]

theorem Serve.reqFd (serve : Serve lib env action s s') (given : k < s.brk) :
    (s'.rd k).reqFd = (s.rd k).reqFd ∨ (s'.rd k).reqFd = none := by
  have mapped : ∀ (t : State) j (f : RequestData → RequestData),
      (∀ rd, (f rd).reqFd = rd.reqFd ∨ (f rd).reqFd = none) →
        ((t.mapRd j f).rd k).reqFd = (t.rd k).reqFd ∨ ((t.mapRd j f).rd k).reqFd = none := by
    intro t j f each
    by_cases own : k = j
    · subst own
      simp only [State.mapRd, Function.update_self]
      exact each _
    · have same : (t.mapRd j f).rd k = t.rd k := Function.update_of_ne own _ _
      exact .inl (congrArg _ same)
  cases serve with
  | ret idle value does after => rw [after]; exact .inl rfl
  | quiet idle passes => exact .inl (congrArg _ (passes.choose_spec.rd k id))
  | defer idle j does after =>
    rw [after]
    have copied : (s.begin (s.rd j)).rd k = s.rd k := Function.update_of_ne (Nat.ne_of_lt given) _ _
    rw [← copied]
    exact mapped (s.begin (s.rd j)) j _ fun _ => .inl rfl
  | setFd idle j fd does after =>
    rw [after]
    exact mapped s j _ fun _ => .inl rfl
  | getCallerFd idle j does after =>
    have taken := mapped s j (fun req => { req with reqFd := none }) fun _ => .inr rfl
    rw [after]
    unfold ubusRequestGetCallerFd
    split <;> exact taken
  | work frame rest top inside free dry passes => exact .inl (congrArg _ (passes.choose_spec.rd k id))
  | read rest top passes => exact .inl (congrArg _ (passes.choose_spec.rd k id))
  | invoke buf fd rest top depth type objid carries after =>
    obtain ⟨fds, moves⟩ : Touches (fun _ => True) (Eq s.brk) { s with stack := rest } s' := by
      rw [after]
      exact (touches_invoke env buf _ _ fd { s with stack := rest } rfl).1
    exact .inl (congrArg _ (moves.rd k (Nat.ne_of_gt given)))
  | preInvoked obj method j noReply rest top after =>
    unfold Libubus.preInvoked at after
    split at after
    · rw [after]
      exact .inl rfl
    · rw [(invoked_stack after).2.2]
      exact .inl rfl
  | invoked j noReply rest top after =>
    rw [(invoked_stack after).2.2]
    exact .inl rfl

/-! ### The work on one message -/

theorem step_suffix (env : Env) (action : Action) (depth : s.stackDepth = depthOf s.stack)
    (stack : s.stack = new ++ base) (inside : base.length < s.stack.length) :
    ∃ new', (step lib env action s).stack = new' ++ base := by
  have next : Step lib s (step lib env action s) := ⟨env, action, rfl⟩
  obtain ⟨⟨kept, pushed, keep, grown⟩, -⟩ := (step_advance next.when).depth depth
  rcases new with _ | ⟨top, new⟩
  · rw [stack] at inside
    exact absurd inside (lt_irrefl _)
  rcases keep with rfl | ⟨frame, popped⟩
  · exact ⟨pushed ++ top :: new, by rw [grown, stack, List.append_assoc]⟩
  · obtain ⟨-, rfl⟩ := List.cons.inj (stack.symm.trans popped)
    exact ⟨pushed ++ new, by rw [grown, List.append_assoc]; rfl⟩

/-- The call that works on a message has returned in `t`, and the descriptor did not come in again. -/
structure Done (lib : Libubox) (fd : Nat) (base : List Frame) (s t : State) : Prop where
  path : Relation.ReflTransGen (fun a b => Quiet lib fd a b ∧ base.length < a.stack.length) s t
  back : t.stack.length ≤ base.length

theorem done_held (depth : s.stackDepth = depthOf s.stack) (stack : s.stack = new ++ base)
    (free : ∀ frame ∈ base, frame.holds s.rd ≠ some fd)
    (bounded : ∀ frame ∈ base, ∀ k, frame.rd = some k → k < s.brk) (done : Done lib fd base s t) :
    held fd t = 0 := by
  have along : t.stackDepth = depthOf t.stack ∧ (∃ new, t.stack = new ++ base) ∧ s.brk ≤ t.brk ∧
      ∀ k, k < s.brk → (t.rd k).reqFd = (s.rd k).reqFd ∨ (t.rd k).reqFd = none := by
    have path := done.path
    clear done
    induction path with
    | refl => exact ⟨depth, ⟨new, stack⟩, le_rfl, fun _ _ => .inl rfl⟩
    | @tail a b _ next ih =>
      obtain ⟨⟨env, action, -, -, rfl⟩, inside⟩ := next
      obtain ⟨depth, ⟨new, stack⟩, brk, kept⟩ := ih
      have next : Step lib a (step lib env action a) := ⟨env, action, rfl⟩
      have advance := step_advance next.when
      refine ⟨(advance.depth depth).2, step_suffix env action depth stack inside, brk.trans advance.brk, ?_⟩
      intro k given
      rcases (step_serve lib env action a).reqFd (given.trans_le brk) with same | none
      · rw [same]
        exact kept k given
      · exact .inr none
  obtain ⟨-, ⟨new, stack⟩, -, kept⟩ := along
  have back := done.back
  rw [stack, List.length_append] at back
  obtain rfl : new = [] := List.eq_nil_of_length_eq_zero (by omega)
  rw [held, stack]
  refine List.count_eq_zero.mpr fun mem => ?_
  obtain ⟨frame, inside, holds⟩ := List.mem_filterMap.mp mem
  have before := free frame inside
  cases frame with
  | preInvoked obj method k noReply =>
    rcases kept k (bounded _ inside k rfl) with same | none
    · exact before (same.symm.trans holds)
    · cases none.symm.trans holds
  | invoked k noReply =>
    rcases kept k (bounded _ inside k rfl) with same | none
    · exact before (same.symm.trans holds)
    · cases none.symm.trans holds
  | _ => exact before holds

/-! ### Sending -/

/-- The calls that send a descriptor. -/
def Action.sends : Action → Bool
  | .start _ _ _ _ _ | .invokeAsync _ _ _ _ _ | .completeDeferred _ _ => true
  | _ => false

theorem closed_close (fd : Nat) (given : Option Nat) (s : State) :
    closed fd (s.close given).trace = closed fd s.trace + given.toList.count fd := by
  cases given with
  | none => rfl
  | some other =>
    rw [Option.toList_some, List.count_singleton]
    exact List.countP_cons ..

theorem closed_sendMsg (env : Env) (sender : Sender) (seq : UInt16) (msg : Payload) (cmd : MsgType)
    (peer : UInt32) (given : Option Nat) (s : State) (fd : Nat) :
    closed fd (ubusSendMsg lib env sender seq msg cmd peer given s).2.trace =
      closed fd s.trace + given.toList.count fd := by
  unfold ubusSendMsg
  split <;> exact closed_close ..

theorem closed_start (env : Env) (req : Request) (msg : Payload) (cmd : MsgType) (peer : UInt32)
    (given : Option Nat) (s : State) (fd : Nat) :
    closed fd (started (ubusStartRequest lib env req msg cmd peer given s)).trace =
      closed fd s.trace + given.toList.count fd := by
  unfold ubusStartRequest
  dsimp only
  split
  · exact closed_close fd given _
  · exact closed_sendMsg ..

theorem closed_act (env : Env) (sends : action.sends = true) (s : State) (fd : Nat) :
    closed fd (act lib env action s).trace = closed fd s.trace + (action.fds s).count fd := by
  cases action with
  | start cbs msg cmd peer given => exact closed_start ..
  | invokeAsync cbs obj method msg given => exact closed_start ..
  | completeDeferred k ret => exact closed_sendMsg ..
  | _ => cases sends

theorem closed_run (path : Relation.ReflTransGen (Quiet lib fd) s t) :
    closed fd s.trace ≤ closed fd t.trace := by
  induction path with
  | refl => exact le_rfl
  | @tail a b _ next ih =>
    obtain ⟨env, action, -, -, rfl⟩ := next
    obtain ⟨events, trace⟩ := (step_advance (Step.when ⟨env, action, rfl⟩)).trace
    have split : closed fd (events ++ a.trace) = closed fd events + closed fd a.trace :=
      List.countP_append
    rw [trace, split]
    exact ih.trans (Nat.le_add_left ..)

theorem step_idle (idle : s.idle) (lib : Libubox) (env : Env) (action : Action) :
    step lib env action s = act lib env action s := by
  unfold step
  rcases top : s.stack with _ | ⟨frame, rest⟩
  · rfl
  rw [State.idle, top] at idle
  cases frame with
  | app cb => rfl
  | _ => cases idle

/-- **A descriptor has one owner.** A descriptor that only the message at hand knows is held, was closed or
was handed over: exactly one of these, at any time. When the work on the message is done it is not held
any more; and `ubus_request_get_caller_fd` does not return it after it was closed. A descriptor that is
sent is closed by that call, and never again. -/
theorem descriptor_owned_once (lib : Libubox) (fd : Nat) :
    (∀ s buf rest, Reachable lib s → s.stack = .processMsg buf (some fd) :: rest → total fd s = 1 →
      (∀ t, Relation.ReflTransGen (Quiet lib fd) s t →
        held fd t + closed fd t.trace + handed fd t.trace = 1 ∧
        ∀ k, t.idle → Takes t (.getCallerFd k) → (t.rd k).reqFd = some fd → closed fd t.trace = 0) ∧
      ∀ t, Done lib fd rest s t → closed fd t.trace + handed fd t.trace = 1) ∧
    ∀ s env action, Reachable lib s → s.idle → action.sends = true → action.fds s = [fd] →
      total fd s = 0 → ∀ t, Relation.ReflTransGen (Quiet lib fd) (step lib env action s) t →
        closed fd t.trace = 1 ∧ handed fd t.trace = 0 ∧ held fd t = 0 := by
  constructor
  · intro s buf rest reachable top sole
    have counted : ∀ t, Relation.ReflTransGen (Quiet lib fd) s t →
        held fd t + closed fd t.trace + handed fd t.trace = 1 := by
      intro t path
      obtain ⟨-, -, same⟩ := run_total reachable.numbered reachable.distinct path
      rw [sole, total, used_eq] at same
      omega
    refine ⟨fun t path => ⟨counted t path, fun k idle takes given => ?_⟩, fun t done => ?_⟩
    · obtain ⟨frame, mem, serves⟩ := (takes k rfl).resolve_left
        (by rw [given]; exact Option.some_ne_none _)
      have holder : 0 < held fd t := by
        refine List.count_pos_iff.mpr (List.mem_filterMap.mpr ⟨frame, mem, ?_⟩)
        cases frame with
        | preInvoked obj method j noReply => rw [eq_of_beq serves]; exact given
        | invoked j noReply => rw [eq_of_beq serves]; exact given
        | _ => cases serves
      have account := counted t path
      omega
    · have path : Relation.ReflTransGen (Quiet lib fd) s t := done.path.lift id fun _ _ next => next.1
      have popped := total_pop top fd
      have others : held fd { s with stack := rest } = 0 := by
        have own : (Frame.holds s.rd (.processMsg buf (some fd))).toList.count fd = 1 :=
          List.count_singleton_self ..
        rw [sole, own, total] at popped
        omega
      have none : held fd t = 0 := by
        have stack : s.stack = [.processMsg buf (some fd)] ++ rest := top
        refine done_held reachable.depth stack (fun frame mem holds => ?_) (fun frame mem => ?_) done
        · exact List.count_eq_zero.mp others (List.mem_filterMap.mpr ⟨frame, mem, holds⟩)
        · exact reachable.numbered.frames frame (by rw [top]; exact List.mem_cons_of_mem _ mem)
      have account := counted t path
      omega
  · intro s env action reachable idle sends given unknown t path
    have serve := step_serve lib env action s
    have takes : s.idle → Takes s action := by
      rintro - k rfl
      cases sends
    have first := step_total lib env action reachable.numbered reachable.distinct takes fd
    rw [unknown, inflow_idle idle, given, List.count_singleton_self] at first
    obtain ⟨-, -, same⟩ := run_total (serve.numbered reachable.numbered)
      (serve.distinct reachable.numbered reachable.distinct) path
    rw [first, total, used_eq] at same
    have before : closed fd (step lib env action s).trace = closed fd s.trace + 1 := by
      rw [step_idle idle, closed_act env sends, given, List.count_singleton_self]
    have later := closed_run path
    omega

/-! ### Runs on given inputs -/

/-- `Takes`, evaluated. -/
def takesNow (s : State) : Action → Bool
  | .getCallerFd k => (s.rd k).reqFd.isNone || s.stack.any fun frame => frame.serves k
  | _ => true

/-- In every state the call is still on the stack, and the input keeps to the rules. -/
def runOwned (lib : Libubox) (fd height : Nat) : List (Env × Action) → State → Bool
  | [], _ => true
  | (env, action) :: rest, s =>
    decide (height < s.stack.length) && decide (inflow env action s fd = 0) && takesNow s action &&
      runOwned lib fd height rest (step lib env action s)

theorem run_done (inputs : List (Env × Action))
    (owned : runOwned lib fd base.length inputs s = true)
    (back : (run lib inputs s).stack.length ≤ base.length) :
    Done lib fd base s (run lib inputs s) := by
  refine ⟨?_, back⟩
  clear back
  induction inputs generalizing s with
  | nil => exact .refl
  | cons input rest ih =>
    obtain ⟨env, action⟩ := input
    rw [runOwned] at owned
    obtain ⟨now, later⟩ := Bool.and_eq_true_iff.mp owned
    obtain ⟨now, taken⟩ := Bool.and_eq_true_iff.mp now
    obtain ⟨inside, dry⟩ := Bool.and_eq_true_iff.mp now
    refine .head ⟨⟨env, action, of_decide_eq_true dry, fun _ k does => ?_, rfl⟩,
      of_decide_eq_true inside⟩ (ih later)
    subst does
    rcases Bool.or_eq_true_iff.mp taken with none | served
    · exact .inl (Option.isNone_iff_eq_none.mp none)
    · exact .inr (List.any_eq_true.mp served)

/-- A call of the method `m` with the descriptor 3. -/
def callWithFd : State :=
  run libubox (invokeRead [.int32 .objid 5, .string .method (cstr "m"), .blob .data []] (some 3))
    (init false oneObject)

theorem callWithFd_reachable : Reachable libubox callWithFd := ⟨false, oneObject, run_steps _ _⟩

/-- The handler takes the descriptor; and another one is sent with a call. -/
theorem descriptor_owned_once_taken :
    (∃ t, Done libubox 3 [.handled] callWithFd t ∧ closed 3 t.trace = 0 ∧ handed 3 t.trace = 1) ∧
    ∃ t, t = step libubox {} (.invokeAsync {} 5 (cstr "m") [] (some 3)) (init false {}) ∧
      closed 3 t.trace = 1 := by
  obtain ⟨incoming, outgoing⟩ := descriptor_owned_once libubox 3
  constructor
  · obtain ⟨s, start⟩ : ∃ s, callWithFd = s := ⟨_, rfl⟩
    have reachable : Reachable libubox s := start ▸ callWithFd_reachable
    have done : Done libubox 3 [.handled] s
        (run libubox ([doing (.ret 0), doing (.getCallerFd 1)] ++ quietly 4) s) := by
      refine run_done _ ?_ ?_ <;> (rw [← start]; decide +kernel)
    have once := (incoming s .msgbuf [.handled] reachable (by rw [← start]; decide +kernel)
      (by rw [← start]; decide +kernel)).2 _ done
    have taken : handed 3 (run libubox ([doing (.ret 0), doing (.getCallerFd 1)] ++ quietly 4) s).trace =
        1 := by
      rw [← start]; decide +kernel
    rw [start]
    exact ⟨_, done, by omega, taken⟩
  · exact ⟨_, rfl, (outgoing (init false {}) {} (.invokeAsync {} 5 (cstr "m") [] (some 3))
      ⟨false, {}, .refl⟩ rfl rfl rfl (by decide +kernel) _ .refl).1⟩

/-- **The copy keeps a descriptor that was closed.** The handler defers the call and returns; the
library closes descriptor 3, and `ubus_request_get_caller_fd` on the copy returns it. -/
theorem deferred_copy_stale : ∃ s t,
    Reachable libubox s ∧ s.stack = [.processMsg .msgbuf (some 3), .handled] ∧ total 3 s = 1 ∧
    Relation.ReflTransGen (Step libubox) s t ∧ t.stack = [.handled] ∧
    closed 3 t.trace = 1 ∧ handed 3 t.trace = 0 ∧
    (t.rd 2).reqFd = some 3 ∧
    ∃ u, u = run libubox (quietly 6) t ∧ u.stack = [] ∧ (u.rd 2).reqFd = some 3 ∧
      closed 3 (step libubox {} (.getCallerFd 2) u).trace = 1 ∧
      handed 3 (step libubox {} (.getCallerFd 2) u).trace = 1 := by
  obtain ⟨s, start⟩ : ∃ s, callWithFd = s := ⟨_, rfl⟩
  refine ⟨s, run libubox ([doing (.ret 0), doing (.defer 1)] ++ quietly 4) s,
    start ▸ callWithFd_reachable, ?_, ?_, run_steps _ _, ?_, ?_, ?_, ?_, _, rfl, ?_, ?_, ?_, ?_⟩ <;>
    (rw [← start]; decide +kernel)

end Ubus.Libubus
