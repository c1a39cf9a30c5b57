/-
**An aborted request is silent.**

`ubus_abort_request` decides by one test, whether the request is linked. When it is, its status has not
arrived, and no function is about to pass data or a status on, nothing about the request happens any
more (`Abortable`, `aborted_request_silent`). Otherwise something may:

* `abort_after_status`: the status arrived during a data callback, so the request is not linked; data
  that was queued is delivered and `complete_cb` is called after the abort.
-/

import Ubus.Libubus.Completion

namespace Ubus.Libubus

variable {lib : Libubox}

/-- A frame at which nothing is passed on once the list of pending data is empty. -/
def Frame.harmless (dataCb : Bool) : Frame → Bool
  | .app _ | .processReqData _ | .drain _ _ none => true
  | .reqDataCbParse _ _ _ => !dataCb
  | _ => false

/-- The request can be aborted: it is linked without a status, and the functions on the stack that
work on it are only those that deliver data, with nothing more to deliver. -/
structure Abortable (v : Life) : Prop where
  linked : v.linked = true
  waiting : v.req.statusMsg = false
  harmless : ∀ frame ∈ v.frames, frame.harmless v.req.dataCb = true

structure Silent (v : Life) : Prop where
  unlinked : v.linked = false
  waiting : v.req.statusMsg = false
  drained : v.req.pending = []
  harmless : ∀ frame ∈ v.frames, frame.harmless v.req.dataCb = true

theorem Abortable.silent {v : Life} (abortable : Abortable v) : Silent v.abort := by
  unfold Life.abort
  rw [if_pos abortable.linked]
  exact ⟨rfl, abortable.waiting, rfl, abortable.harmless⟩

theorem Silent.drain {v : Life} (silent : Silent v) (r : Nat) :
    Silent (v.drain r none) ∧ (v.drain r none).events = v.events := by
  have waiting : ¬ v.req.statusMsg = true := by
    rw [silent.waiting]
    exact Bool.false_ne_true
  simp only [Life.drain]
  split
  · exact absurd ‹_› waiting
  · exact ⟨⟨silent.unlinked, silent.waiting, silent.drained, silent.harmless⟩, rfl⟩

/-- **A silent request stays silent** until it is handed over again. -/
theorem Lives.silent {r : Nat} {v v' : Life} (move : Lives lib (fun _ how => how = .abort) r v v')
    (silent : Silent v) : Silent v' ∧ v'.events = v.events := by
  have popped : ∀ {frame : Frame} {rest}, v.frames = frame :: rest →
      frame.harmless v.req.dataCb = true ∧ Silent { v with frames := rest } := by
    intro frame rest top
    obtain ⟨first, others⟩ := List.forall_mem_cons.mp (top ▸ silent.harmless)
    exact ⟨first, silent.unlinked, silent.waiting, silent.drained, others⟩
  have unlinked : ¬ v.linked = true := by
    rw [silent.unlinked]
    exact Bool.false_ne_true
  cases move with
  | link allowed => cases allowed
  | wait allowed timed => cases allowed
  | abort allowed =>
    unfold Life.abort
    rw [if_neg unlinked]
    exact ⟨silent, rfl⟩
  | ret cb rest top => exact ⟨(popped top).2, rfl⟩
  | flush linked => exact absurd linked unlinked
  | fd linked => exact absurd linked unlinked
  | status linked => exact absurd linked unlinked
  | data linked => exact absurd linked unlinked
  | queue linked => exact absurd linked unlinked
  | rawData type data rest top => cases (popped top).1
  | dataCb frame rest top type data which set =>
    obtain ⟨harmless, -⟩ := popped top
    rcases which with ⟨rfl, -⟩ | rfl
    · cases harmless
    · rw [Frame.harmless, set] at harmless
      cases harmless
  | noData frame rest top => exact ⟨(popped top).2, rfl⟩
  | deliver rest top =>
    rw [silent.drained]
    exact (popped top).2.drain r
  | drain data tmp rest top =>
    obtain ⟨harmless, silent⟩ := popped top
    cases tmp with
    | none => exact silent.drain r
    | some tmp => cases harmless
  | setStatus ret rest top => cases (popped top).1
  | process id buf rest top => cases (popped top).1
  | notifyEnd rest top => cases (popped top).1
  | waitTimeout cb timed rest top => cases (popped top).1
  | waitPoll cb timed rest top => cases (popped top).1
  | waitDone cb timed rest top => cases (popped top).1
  | waitLost cb timed rest top => cases (popped top).1
  | waitAgain cb timed rest top => cases (popped top).1
  | waitEnd cb lost rest top => cases (popped top).1
  | waitCompleted cb status rest top => cases (popped top).1
  | waitReturn cb status rest top => cases (popped top).1

/-- The application does not hand the request over again. -/
def Dropped (r : Nat) (_ : State) (action : Action) : Prop :=
  action ≠ .completeAsync r ∧ ∀ timed, action ≠ .complete r timed

theorem dropped_permits (r : Nat) : Permits (Dropped r) (fun _ how => how = .abort) r :=
  ⟨fun _ dropped => absurd rfl dropped.1, fun _ timed dropped => absurd rfl (dropped.2 timed),
    fun _ _ => rfl⟩

theorem abort_brk (r : Nat) (s : State) : (ubusAbortRequest r s).brk = s.brk := (abort_stack r s).2.2

/-- **An aborted request is silent.** After the abort nothing about the request happens any more: none
of its callbacks is called, its list of pending data is empty and it is not linked. -/
theorem aborted_request_silent {r : Nat} {s t : State} (started : r < s.brk)
    (abortable : Abortable (life r s))
    (path : Relation.ReflTransGen (StepWhen lib (Dropped r)) (ubusAbortRequest r s) t) :
    r ∉ t.requests ∧ (t.req r).pending = [] ∧ ownEvents r t.trace = ownEvents r s.trace := by
  have start : Silent (life r (ubusAbortRequest r s)) ∧
      (life r (ubusAbortRequest r s)).events = (life r s).events := by
    rw [life_abort]
    refine ⟨abortable.silent, ?_⟩
    rw [Life.abort, if_pos abortable.linked]
  have kept : ∀ v v', Lives lib (fun _ how => how = .abort) r v v' →
      (Silent v ∧ v.events = (life r s).events) → Silent v' ∧ v'.events = (life r s).events := by
    rintro v v' move ⟨silent, same⟩
    obtain ⟨silent, events⟩ := move.silent silent
    exact ⟨silent, events.trans same⟩
  obtain ⟨-, silent, events⟩ := life_run (dropped_permits r) kept (abort_brk r s ▸ started) start path
  exact ⟨of_decide_eq_false silent.unlinked, silent.drained, events⟩

/-! ### Runs -/

/-- A data message without data. -/
def dataFor (seq : UInt16) : Env × Action := receiving { type := MsgType.data.code, seq } [0, 0, 0, 4] none

/-- A status message without a status. -/
def statusFor (seq : UInt16) : Env × Action :=
  receiving { type := MsgType.status.code, seq } [0, 0, 0, 4] none

/-- A request is started with its callbacks and linked, and a message is read for it. -/
def delivered (cbs : Callbacks) (message : Env × Action) : List (Env × Action) :=
  [doing (.start cbs (.built []) .lookup 0 none), doing (.completeAsync 1), doing .handleEvent] ++
    quietly 2 ++ [message] ++ quietly 2

/-- The request is aborted inside its `raw_data_cb`, and its status arrives later. -/
theorem aborted_request_silent_raw : ∃ s t, s.idle ∧ (s.req 1).rawDataCb = true ∧
    (s.req 1).completeCb = .user ∧ Abortable (life 1 s) ∧
    Relation.ReflTransGen (StepWhen libubox (Dropped 1)) (ubusAbortRequest 1 s) t ∧
    1 ∉ t.requests ∧ (t.req 1).pending = [] ∧ ownEvents 1 t.trace = ownEvents 1 s.trace := by
  obtain ⟨s, start⟩ : ∃ s, run libubox (delivered { rawDataCb := true, completeCb := true } (dataFor 1))
    (init false {}) = s := ⟨_, rfl⟩
  have abortable : Abortable (life 1 s) := by
    rw [← start]
    exact ⟨by decide +kernel, by decide +kernel, by decide +kernel⟩
  have path : Relation.ReflTransGen (StepWhen libubox (Dropped 1)) (ubusAbortRequest 1 s)
      (run libubox (quietly 7 ++ [statusFor 1] ++ quietly 4) (ubusAbortRequest 1 s)) :=
    run_path _ (by simp [quietly, statusFor, receiving, Dropped]) _
  exact ⟨s, _, by rw [← start]; decide +kernel, by rw [← start]; decide +kernel,
    by rw [← start]; decide +kernel, abortable, path,
    aborted_request_silent (by rw [← start]; decide +kernel) abortable path⟩

/-- During `raw_data_cb` of request 1 the application makes another request and waits for it; more data
and the status of request 1 arrive. -/
def statusInData : List (Env × Action) :=
  [doing (.start {} (.built []) .lookup 0 none), doing (.complete 2 false)] ++ quietly 2 ++ [dataFor 1] ++
    quietly 4 ++ [statusFor 1] ++ quietly 4 ++ [statusFor 2] ++ quietly 9

/-- **A request whose status has arrived cannot be aborted any more**: although `complete_cb` has not
run, data is passed to `raw_data_cb` and `complete_cb` is called after the abort. -/
theorem abort_after_status : ∃ s₀ s t, Reachable libubox s₀ ∧ 1 ∈ s₀.requests ∧
    Relation.ReflTransGen (Step libubox) s₀ s ∧ s.idle ∧ completions (ownEvents 1 s.trace) = [] ∧
    ((ubusAbortRequest 1 s).req 1).pending ≠ [] ∧
    Relation.ReflTransGen (StepWhen libubox (Dropped 1)) (ubusAbortRequest 1 s) t ∧
    ((ownEvents 1 s.trace).filter Event.dataCall).length <
      ((ownEvents 1 t.trace).filter Event.dataCall).length ∧
    completions (ownEvents 1 t.trace) ≠ [] := by
  refine ⟨run libubox (delivered { rawDataCb := true, completeCb := true } (dataFor 1)) (init false {}),
    _, _, ⟨false, {}, run_steps _ _⟩, by decide +kernel, run_steps statusInData _, by decide +kernel,
    by decide +kernel, by decide +kernel, run_path (quietly 7) ?_ _, by decide +kernel,
    by decide +kernel⟩
  simp [quietly, Dropped]

end Ubus.Libubus
