/-
**One request at a time.**

What is said about requests is said of each by itself. Seen from one request `r`, a step either passes
it by (`Aside`): whether it is linked, its structure and the frames that work on it stay as they are;
or the step works on it (`Work`). `step_single`: there is no third case.
-/

import Ubus.Libubus.Stack

namespace Ubus.Libubus

variable {lib : Libubox}
variable {s s' t : State} {frame : Frame} {stack : List Frame}

/-! ### The frames and events of a request -/

/-- The frames that work on a request, innermost first. -/
def own (r : Nat) (stack : List Frame) : List Frame := stack.filter fun frame => frame.req = some r

/-- The events about a request, newest first. -/
def ownEvents (r : Nat) (trace : List Event) : List Event :=
  trace.filter fun event => event.req = some r

@[simp] theorem own_append (r : Nat) (new stack : List Frame) :
    own r (new ++ stack) = own r new ++ own r stack :=
  List.filter_append ..

@[simp] theorem ownEvents_append (r : Nat) (new trace : List Event) :
    ownEvents r (new ++ trace) = ownEvents r new ++ ownEvents r trace :=
  List.filter_append ..

theorem own_cons_of_eq {r : Nat} (about : frame.req = some r) (stack : List Frame) :
    own r (frame :: stack) = frame :: own r stack :=
  List.filter_cons_of_pos (by simpa using about)

theorem own_cons_of_ne {r : Nat} (other : frame.req ≠ some r) (stack : List Frame) :
    own r (frame :: stack) = own r stack :=
  List.filter_cons_of_neg (by simpa using other)

theorem own_eq_nil {r : Nat} (other : ∀ frame ∈ stack, frame.req ≠ some r) : own r stack = [] :=
  List.filter_eq_nil_iff.mpr fun frame member => by simpa using other frame member

theorem ownEvents_eq_nil {r : Nat} {events : List Event}
    (other : ∀ event ∈ events, event.req ≠ some r) : ownEvents r events = [] :=
  List.filter_eq_nil_iff.mpr fun event member => by simpa using other event member

theorem mem_own {r : Nat} : frame ∈ own r stack ↔ frame ∈ stack ∧ frame.req = some r := by
  simp [own]

/-! ### Steps, seen from one request -/

/-- The step passes the request by. -/
structure Aside (r : Nat) (s s' : State) : Prop where
  linked : r ∈ s'.requests ↔ r ∈ s.requests
  req : s'.req r = s.req r
  brk : s.brk ≤ s'.brk
  stack : own r s'.stack = own r s.stack
  trace : ownEvents r s'.trace = ownEvents r s.trace

/-- The step works on the request. -/
inductive Work (lib : Libubox) (ok : State → Action → Prop) (r : Nat) (s s' : State) : Prop where
  | start (here : s.brk = r) (req : Request) (fresh : Fresh req) (peer : UInt32)
    (neutral : Neutral { s with
      requestSeq := s.requestSeq + 1
      req := Function.update s.req r { req with peer := peer, seq := s.requestSeq + 1 }
      brk := s.brk + 1 } s')
  | link (allowed : ok s (.completeAsync r)) (after : s' = ubusCompleteRequestAsync r s)
  | wait (timed : Bool) (allowed : ok s (.complete r timed))
    (after : s' = ubusCompleteRequest r timed s)
  | abort (allowed : ok s (.abort r)) (after : s' = ubusAbortRequest r s)
  | ret (cb : Callback) (rest : List Frame) (top : s.stack = .app cb :: rest)
    (about : cb.req = some r) (value : UInt32) (after : s' = { s with stack := rest, ret := value })
  | flush (rest : List Frame) (top : s.stack = .flushRequests :: rest) (linked : r ∈ s.requests)
    (after : s' = ({ s with stack := rest }.push .flushRequests).push
      (.setReqStatus r Status.timeout.code))
  | frame (env : Env) (frame : Frame) (rest : List Frame) (top : s.stack = frame :: rest)
    (about : frame.req = some r) (inside : ∀ cb, frame ≠ .app cb)
    (after : s' = resume lib env frame { s with stack := rest })
  | status (buf : MsghdrBuf) (fd : Option Nat) (rest : List Frame)
    (top : s.stack = .processMsg buf fd :: rest) (id : Option Nat)
    (found : ubusFindRequest s (s.hdr buf).seq (s.hdr buf).peer = some (r, id))
    (credited : Credited lib r id buf { s with stack := rest } s')
  | data (env : Env) (buf : MsghdrBuf) (fd : Option Nat) (rest : List Frame)
    (top : s.stack = .processMsg buf fd :: rest) (id : Option Nat)
    (found : ubusFindRequest s (s.hdr buf).seq (s.hdr buf).peer = some (r, id))
    (wanted : ((s.req r).dataCb || (s.req r).rawDataCb) = true)
    (after : s' = ubusProcessReqData env r buf ({ s with stack := rest }.push (.closeFd fd)))

section Other

variable {r : Nat} {c : Nat → Prop} {fds : List Nat} {held : Nat}

theorem Moves.aside_same (moves : Moves (· ≠ r) c fds held s s') : Aside r s s' := by
  obtain ⟨new, events, stack, trace, frames, free, -⟩ := moves.moved
  refine ⟨moves.linked r (not_not.mpr rfl), moves.req r (not_not.mpr rfl), moves.brk, ?_, ?_⟩
  · rw [stack, own_append, own_eq_nil, List.nil_append]
    exact fun frame mem about => (frames frame mem).request about rfl
  · rw [trace, ownEvents_append, ownEvents_eq_nil, List.nil_append]
    exact fun event mem about => (free event mem).request about rfl

theorem Moves.aside {rest : List Frame} (moves : Moves (· ≠ r) c fds held { s with stack := rest } s')
    (top : s.stack = frame :: rest) (other : frame.req ≠ some r) : Aside r s s' := by
  obtain ⟨linked, req, brk, stack, trace⟩ := moves.aside_same
  refine ⟨linked, req, brk, stack.trans ?_, trace⟩
  rw [top, own_cons_of_ne other]

theorem Neutral.apart (neutral : Neutral s s') (r : Nat) :
    ∃ fds, Moves (· ≠ r) (fun _ => True) fds 0 s s' := by
  obtain ⟨fds, moves⟩ := neutral
  exact ⟨fds, moves.mono (fun _ out => out.elim) fun _ _ => trivial⟩

theorem Neutral.aside_same (neutral : Neutral s s') (r : Nat) : Aside r s s' :=
  (neutral.apart r).choose_spec.aside_same

end Other

/-- **A step passes a request by or works on it.** -/
theorem step_single {ok : State → Action → Prop} (next : StepWhen lib ok s s') (r : Nat) :
    Aside r s s' ∨ Work lib ok r s s' := by
  have notNone : (none : Option Nat) ≠ some r := Option.some_ne_none r |>.symm
  have base : ∀ t, Moves (· ≠ r) (fun _ => True) [] 0 t t := .refl
  cases step_advance next with
  | ret idle value after =>
    subst after
    cases top : s.stack with
    | nil => exact .inl ⟨Iff.rfl, rfl, le_rfl, by rw [top]; rfl, rfl⟩
    | cons frame rest =>
      rw [List.tail_cons]
      cases frame with
      | app cb =>
        by_cases about : cb.req = some r
        · exact .inr (.ret cb rest top about value rfl)
        · exact .inl (((base _).returning value).aside top about)
      | _ => simp [State.idle, top] at idle
  | quiet idle neutral => exact .inl (neutral.aside_same r)
  | start idle req fresh peer neutral =>
    by_cases here : s.brk = r
    · subst here
      exact .inr (.start rfl req fresh peer neutral)
    · obtain ⟨fds, moves⟩ := neutral.apart r
      refine .inl (Moves.aside_same (Moves.before ?_ moves))
      exact (base s).changed rfl (Nat.le_succ _)
        (fun _ out => Function.update_of_ne (by rintro rfl; exact out here) _ _)
        (fun _ _ => Iff.rfl) fun _ _ => rfl
  | link idle other allowed after =>
    subst after
    by_cases same : other = r
    · subst same
      exact .inr (.link allowed rfl)
    · have moves : Moves (· ≠ r) (fun _ => True) [] 0 s _ := moves_link same s
      exact .inl moves.aside_same
  | wait idle other timed allowed after =>
    subst after
    by_cases same : other = r
    · subst same
      exact .inr (.wait timed allowed rfl)
    · have moves : Moves (· ≠ r) (fun _ => True) [] 0 s _ := moves_complete same timed s
      exact .inl moves.aside_same
  | abort idle other allowed after =>
    subst after
    by_cases same : other = r
    · subst same
      exact .inr (.abort allowed rfl)
    · have moves : Moves (· ≠ r) (fun _ => True) [] 0 s _ := moves_abort same s
      exact .inl moves.aside_same
  | work frame rest top free flat neutral =>
    exact .inl ((neutral.apart r).choose_spec.aside top (by rw [free]; exact notNone))
  | leave rest top after =>
    subst after
    refine .inl ⟨Iff.rfl, rfl, le_rfl, ?_, rfl⟩
    rw [top]
    exact (own_cons_of_ne (by exact notNone) rest).symm
  | flush rest top other linked after =>
    subst after
    by_cases same : other = r
    · subst same
      exact .inr (.flush rest top linked rfl)
    · exact .inl ((((base _).push rfl rfl).pushOf same rfl rfl).aside top notNone)
  | request env frame rest top other about inside after =>
    subst after
    by_cases same : other = r
    · subst same
      exact .inr (.frame env frame rest top about inside rfl)
    · have moves : Moves (· ≠ r) (fun _ => True) [] _ _ (resume lib env frame _) :=
        moves_resume env about inside same { s with stack := rest }
      refine .inl (moves.aside top ?_)
      rw [about]
      exact fun equal => same (Option.some.inj equal)
  | status buf fd rest top other id found credited =>
    by_cases same : other = r
    · subst same
      exact .inr (.status buf fd rest top id found credited)
    cases credited with
    | fd sock set after =>
      subst after
      exact .inl (((((base _).pushOf same rfl rfl).hand sock).callOf same rfl rfl).aside top notNone)
    | status before neutral header message after =>
      subst after
      obtain ⟨fds, moves⟩ := neutral.apart r
      exact .inl ((moves.andThen (moves_processStatus same id buf before)).aside top notNone)
  | data env buf fd rest top other id found wanted after =>
    subst after
    by_cases same : other = r
    · subst same
      exact .inr (.data env buf fd rest top id found wanted rfl)
    · exact .inl ((((base _).leave _).andThen
        (moves_processReqData same env buf _)).aside top notNone)

end Ubus.Libubus
