/-
**The call stack.**

A step takes at most the top frame off the stack and pushes others; the frames below are not touched
(`Advance.depth`). `ctx->stack_depth` is the number of functions on the stack that have raised it
(`Reachable.depth`).

* `Returns`: a call made on top of a stack has come back to it. `Returns.through`, `Returns.exit`: it
  came back through the frame that the call put there. `run_returns`: a call that ran on given inputs.
-/

import Ubus.Libubus.Advance

namespace Ubus.Libubus

variable {lib : Libubox}
variable {s t s' : State} {ok : State → Action → Prop} {base : List Frame} {P Q : State → Prop}

/-! ### Depth -/

/-- **Every step moves**: from where it is, or from where the top frame has been taken off. -/
theorem Advance.moves (advance : Advance lib ok s s') :
    (∃ fds, Moves (fun _ => True) (fun _ => True) fds 0 s s') ∨
      ∃ frame rest fds, s.stack = frame :: rest ∧
        Moves (fun _ => True) (fun _ => True) fds frame.depth { s with stack := rest } s' := by
  have neutral : ∀ {t fds}, Moves (fun _ => False) (fun _ => True) fds 0 t s' →
      Moves (fun _ => True) (fun _ => True) fds 0 t s' := fun moves =>
    moves.mono (fun _ _ => trivial) fun _ _ => trivial
  cases advance with
  | ret idle value after =>
    subst after
    cases top : s.stack with
    | nil => exact .inl ⟨[], .of_eq (by simp [State.seen, top]) le_rfl⟩
    | cons frame rest =>
      cases frame with
      | app cb => exact .inr ⟨.app cb, rest, [], rfl, .of_eq rfl le_rfl⟩
      | _ => simp [State.idle, top] at idle
  | quiet idle quiet =>
    obtain ⟨fds, moves⟩ := quiet
    exact .inl ⟨fds, neutral moves⟩
  | start idle req fresh peer sent =>
    obtain ⟨fds, moves⟩ := sent
    refine .inl ⟨fds, Moves.before ?_ (neutral moves)⟩
    exact (Moves.refl s).changed rfl (Nat.le_succ _) (fun _ out => absurd trivial out)
      (fun _ _ => Iff.rfl) fun _ _ => rfl
  | link idle r allowed after => exact .inl ⟨[], after ▸ moves_link trivial s⟩
  | wait idle r timed allowed after => exact .inl ⟨[], after ▸ moves_complete trivial timed s⟩
  | abort idle r allowed after => exact .inl ⟨[], after ▸ moves_abort trivial s⟩
  | work frame rest top free flat work =>
    obtain ⟨fds, moves⟩ := work
    exact .inr ⟨frame, rest, fds, top, flat ▸ neutral moves⟩
  | leave rest top after =>
    subst after
    exact .inr ⟨_, rest, [], top, .added [] [] rfl le_rfl (List.forall_mem_nil _)
      (List.forall_mem_nil _) (fun _ => rfl) Nat.sub_add_cancel⟩
  | flush rest top r linked after =>
    subst after
    exact .inr ⟨_, rest, [], top, ((Moves.refl _).push rfl rfl).pushOf trivial rfl rfl⟩
  | request env frame rest top r about inside after =>
    subst after
    exact .inr ⟨frame, rest, [], top, moves_resume env about inside trivial _⟩
  | status buf fd rest top r id found credited =>
    refine .inr ⟨.processMsg buf fd, rest, ?_⟩
    cases credited with
    | fd sock set after =>
      subst after
      exact ⟨_, top, (((Moves.refl _).pushOf trivial rfl rfl).hand sock).callOf trivial rfl rfl⟩
    | status before quiet header message after =>
      subst after
      obtain ⟨fds, moves⟩ := quiet
      exact ⟨fds, top, (moves.mono (fun _ _ => trivial) fun _ _ => trivial).andThen
        (moves_processStatus trivial id buf _)⟩
  | data env buf fd rest top r id found wanted after =>
    subst after
    exact .inr ⟨_, rest, _, top, ((Moves.refl _).leave _).andThen
      (moves_processReqData trivial env buf _)⟩

/-- What a step leaves of the stack: all of it, or all but the top frame. -/
def Kept (s : State) (base : List Frame) : Prop :=
  base = s.stack ∨ ∃ frame, s.stack = frame :: base

/-- **A step pushes frames on what it keeps of the stack, and `stack_depth` follows.** -/
theorem Advance.depth (advance : Advance lib ok s s') (depth : s.stackDepth = depthOf s.stack) :
    (∃ base new, Kept s base ∧ s'.stack = new ++ base) ∧ s'.stackDepth = depthOf s'.stack := by
  rcases advance.moves with ⟨fds, moves⟩ | ⟨frame, rest, fds, top, moves⟩
  · obtain ⟨new, -, stack, -, -, -, -, grown⟩ := moves.moved
    refine ⟨⟨s.stack, new, .inl rfl, stack⟩, ?_⟩
    have raised := grown (Nat.zero_le _)
    rw [stack, depthOf_append]
    omega
  · obtain ⟨new, -, stack, -, -, -, -, grown⟩ := moves.moved
    have held : s.stackDepth = frame.depth + depthOf rest := by rw [depth, top, depthOf_cons]
    dsimp only at stack grown
    have raised := grown (held ▸ Nat.le_add_right ..)
    refine ⟨⟨rest, new, .inr ⟨frame, top⟩, stack⟩, ?_⟩
    rw [stack, depthOf_append]
    omega

theorem abort_stack (r : Nat) (s : State) :
    (ubusAbortRequest r s).stack = s.stack ∧ (ubusAbortRequest r s).stackDepth = s.stackDepth ∧
      (ubusAbortRequest r s).brk = s.brk := by
  unfold ubusAbortRequest
  split
  · exact ⟨rfl, rfl, rfl⟩
  · dsimp only
    rw [freeAll_eq]
    exact ⟨rfl, rfl, rfl⟩

theorem link_stack (r : Nat) (s : State) :
    (ubusCompleteRequestAsync r s).stack = s.stack ∧
      (ubusCompleteRequestAsync r s).stackDepth = s.stackDepth := by
  unfold ubusCompleteRequestAsync
  split <;> exact ⟨rfl, rfl⟩

theorem Advance.trace (advance : Advance lib ok s s') : ∃ events, s'.trace = events ++ s.trace := by
  rcases advance.moves with ⟨fds, moves⟩ | ⟨frame, rest, fds, top, moves⟩
  · obtain ⟨-, events, -, trace, -⟩ := moves.moved
    exact ⟨events, trace⟩
  · obtain ⟨-, events, -, trace, -⟩ := moves.moved
    exact ⟨events, trace⟩

theorem Advance.brk (advance : Advance lib ok s s') : s.brk ≤ s'.brk := by
  rcases advance.moves with ⟨fds, moves⟩ | ⟨frame, rest, fds, top, moves⟩
  · exact moves.brk
  · exact moves.brk

/-! ### Calls -/

/-- A call made on top of `base` has come back in `t`: until then the stack was higher. -/
structure Returns (lib : Libubox) (ok : State → Action → Prop) (base : List Frame) (s t : State) :
    Prop where
  path : Relation.ReflTransGen
    (fun a b => StepWhen lib ok a b ∧ base.length < a.stack.length) s t
  back : t.stack.length ≤ base.length

/-- **A call comes back through its own frame.** `owns` are the places in the function that was
called. `P` holds as long as it is on the stack: steps of what it has called keep it (`deep`), and its
own ones too or they end the call (`goes`). -/
theorem Returns.through (owns : Frame → Prop)
    (deep : ∀ a b top new frame, P a → owns frame → a.stack = top :: new ++ frame :: base → StepWhen lib ok a b → P b)
    (goes : ∀ a b frame, P a → owns frame → a.stack = frame :: base → StepWhen lib ok a b → (P b ∧ ∃ new frame', owns frame' ∧ b.stack = new ++ frame' :: base) ∨ b.stack = base ∧ Q b)
    (depth : s.stackDepth = depthOf s.stack) (start : P s)
    (called : ∃ new frame, owns frame ∧ s.stack = new ++ frame :: base)
    (returns : Returns lib ok base s t) : t.stack = base ∧ Q t := by
  obtain ⟨path, back⟩ := returns
  have along : t.stackDepth = depthOf t.stack ∧
      ((P t ∧ ∃ new frame, owns frame ∧ t.stack = new ++ frame :: base) ∨ t.stack = base ∧ Q t) := by
    clear back
    induction path with
    | refl => exact ⟨depth, .inl ⟨start, called⟩⟩
    | @tail a b _ next ih =>
      obtain ⟨step, inside⟩ := next
      obtain ⟨depth, place⟩ := ih
      obtain ⟨⟨rest, pushed, keep, grown⟩, depth'⟩ := (step_advance step).depth depth
      refine ⟨depth', ?_⟩
      rcases place with ⟨holds, new, frame, own, stack⟩ | ⟨out, -⟩
      · cases new with
        | nil => exact goes a b frame holds own stack step
        | cons top new =>
          refine .inl ⟨deep a b top new frame holds own stack step, ?_⟩
          -- The call has called something itself: its own frame is not touched.
          rcases keep with rfl | ⟨popped, same⟩
          · exact ⟨pushed ++ top :: new, frame, own, by rw [grown, stack]; simp⟩
          · rw [stack] at same
            obtain ⟨-, rfl⟩ := List.cons.inj same
            exact ⟨pushed ++ new, frame, own, by rw [grown]; simp⟩
      · rw [out] at inside
        exact absurd inside (lt_irrefl _)
  refine along.2.resolve_left ?_
  rintro ⟨-, new, frame, -, stack⟩
  rw [stack, List.length_append, List.length_cons] at back
  omega

theorem Returns.exit (owns : Frame → Prop) (kept : ∀ a b, StepWhen lib ok a b → P a → P b)
    (depth : ∀ a, P a → a.stackDepth = depthOf a.stack)
    (goes : ∀ a b frame, P a → a.stack = frame :: base → owns frame → StepWhen lib ok a b → (∃ new frame', owns frame' ∧ b.stack = new ++ frame' :: base) ∨ b.stack = base ∧ Q b)
    (start : P s) (called : ∃ new frame, owns frame ∧ s.stack = new ++ frame :: base)
    (returns : Returns lib ok base s t) : P t ∧ t.stack = base ∧ Q t := by
  have left : t.stack = base ∧ P t ∧ Q t := by
    refine Returns.through (Q := fun b => P b ∧ Q b) owns
      (fun a b _ _ _ holds _ _ next => kept a b next holds) ?_
      (depth s start) start called returns
    intro a b frame holds own top next
    rcases goes a b frame holds top own next with inside | ⟨out, ends⟩
    · exact .inl ⟨kept a b next holds, inside⟩
    · exact .inr ⟨out, kept a b next holds, ends⟩
  exact ⟨left.2.1, left.1, left.2.2⟩

/-- The stack stays higher than `height` before each of the inputs. -/
def runInside (lib : Libubox) (height : Nat) : List (Env × Action) → State → Bool
  | [], _ => true
  | (env, action) :: rest, s =>
    decide (height < s.stack.length) && runInside lib height rest (step lib env action s)

theorem run_path (inputs : List (Env × Action)) (allowed : ∀ input ∈ inputs, ∀ s, ok s input.2)
    (s : State) : Relation.ReflTransGen (StepWhen lib ok) s (run lib inputs s) := by
  induction inputs generalizing s with
  | nil => exact .refl
  | cons input rest ih =>
    obtain ⟨now, later⟩ := List.forall_mem_cons.mp allowed
    exact .head ⟨input.1, input.2, fun _ => now s, rfl⟩ (ih later _)

theorem run_steps (inputs : List (Env × Action)) (s : State) :
    Relation.ReflTransGen (Step lib) s (run lib inputs s) := by
  have path : Relation.ReflTransGen (StepWhen lib fun _ _ => True) s (run lib inputs s) :=
    run_path inputs (fun _ _ _ => trivial) s
  exact path.lift id fun _ _ next => next.step

theorem run_returns (inputs : List (Env × Action)) (allowed : ∀ input ∈ inputs, ∀ s, ok s input.2)
    (inside : runInside lib base.length inputs s = true)
    (back : (run lib inputs s).stack.length ≤ base.length) :
    Returns lib ok base s (run lib inputs s) := by
  refine ⟨?_, back⟩
  clear back
  induction inputs generalizing s with
  | nil => exact .refl
  | cons input rest ih =>
    obtain ⟨now, later⟩ := List.forall_mem_cons.mp allowed
    obtain ⟨high, inside⟩ := Bool.and_eq_true_iff.mp inside
    exact .head ⟨⟨input.1, input.2, fun _ => now s, rfl⟩, of_decide_eq_true high⟩ (ih later inside)

/-- **`stack_depth` is the number of functions on the stack that raised it.** -/
theorem Reachable.depth (reachable : Reachable lib s) : s.stackDepth = depthOf s.stack := by
  obtain ⟨channel, setup, path⟩ := reachable
  induction path with
  | refl => rfl
  | tail _ next ih =>
    exact ((step_advance next.when).depth ih).2

theorem Frame.depth_eq (frame : Frame) : frame.depth = 0 ∨ frame.depth = 1 := by
  cases frame <;> simp [Frame.depth]

theorem depthOf_eq_length (stack : List Frame) :
    depthOf stack = (stack.filter fun frame => frame.depth = 1).length := by
  induction stack with
  | nil => rfl
  | cons frame rest ih =>
    rw [depthOf_cons, ih]
    rcases frame.depth_eq with flat | raised
    · simp [flat]
    · simp [raised, Nat.add_comm]

/-- **`stack_depth` never underflows.** In every state it is the number of functions that raised it and
have not returned; so whenever one of them lowers it, it is not zero, and it is zero again when none of
them is left. -/
theorem stack_depth_exact (reachable : Reachable lib s) :
    s.stackDepth = (s.stack.filter fun frame => frame.depth = 1).length ∧
    (∀ frame rest, s.stack = frame :: rest → frame.depth = 1 → s.stackDepth = depthOf rest + 1) := by
  have depth := reachable.depth
  refine ⟨depth.trans (depthOf_eq_length s.stack), fun frame rest top raised => ?_⟩
  rw [depth, top, depthOf_cons, raised, Nat.add_comm]

/-- A request is waited for. -/
theorem stack_depth_exact_waiting : ∃ s frame rest, Reachable libubox s ∧ s.stack = frame :: rest ∧
    frame.depth = 1 ∧ s.stackDepth = depthOf rest + 1 := by
  obtain ⟨s, start⟩ : ∃ s, run libubox [doing (.start {} (.built []) .lookup 0 none),
    doing (.complete 1 false)] (init false {}) = s := ⟨_, rfl⟩
  have reachable : Reachable libubox s := start ▸ ⟨false, {}, run_steps _ _⟩
  have top : s.stack = .waitLoop 1 .null false :: [] := by
    rw [← start]
    decide +kernel
  exact ⟨s, _, _, reachable, top, rfl, (stack_depth_exact reachable).2 _ _ top rfl⟩

end Ubus.Libubus
