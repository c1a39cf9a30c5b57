/-
**The message a callback is given.**

A callback is given pointers into the buffer that its message was read into or copied to. The buffer of
a message to an object is detached first, and a queued copy is freed after the callback only; but
`raw_data_cb`, `data_cb` and `monitor_cb` are called on the receive buffer itself, and the next message
is read into it.

* `Guarded`: below a place that reads, nothing refers to the receive buffer.
* `Undisturbed`: the application does not read while a callback has the receive buffer.
-/

import Ubus.Libubus.Abort
import Ubus.Libubus.Heap
import Ubus.Libubus.Hook

namespace Ubus.Libubus

variable {lib : Libubox}
variable {frame : Frame} {t : State} {rest base : List Frame} {b prevData : Nat} {fd : Option Nat}
  {ok : State → Action → Prop}

/-! ### The stack and the blocks -/

/-- Every block that a frame refers to is the receive buffer or owned by a frame below it. -/
def Held (attached : Option Nat) : List Frame → Prop
  | [] => True
  | frame :: rest => (∀ b ∈ frame.uses, attached = some b ∨ b ∈ rest.filterMap Frame.owns) ∧
    Held attached rest

/-- No frame refers to the receive buffer. -/
def Unused (attached : Option Nat) (stack : List Frame) : Prop :=
  ∀ frame ∈ stack, ∀ b ∈ frame.uses, attached ≠ some b

/-- Below a place that reads, nothing refers to the receive buffer. -/
def Guarded (attached : Option Nat) : List Frame → Prop
  | [] => True
  | frame :: rest => (frame.reads = true → Unused attached rest) ∧ Guarded attached rest

theorem Held.owned {attached : Option Nat} {stack : List Frame} (held : Held attached stack)
    (mem : frame ∈ stack) (uses : b ∈ frame.uses) :
    attached = some b ∨ b ∈ stack.tail.filterMap Frame.owns := by
  induction stack with
  | nil => cases mem
  | cons first rest ih =>
    rcases List.mem_cons.mp mem with rfl | later
    · exact held.1 b uses
    · refine (ih held.2 later).imp_right fun owns => ?_
      exact ((List.tail_sublist rest).filterMap Frame.owns).subset owns

theorem Held.append {attached : Option Nat} {stack new : List Frame} (held : Held attached stack)
    (more : ∀ frame ∈ new, ∀ b ∈ frame.uses, attached = some b ∨ b ∈ stack.filterMap Frame.owns) :
    Held attached (new ++ stack) := by
  induction new with
  | nil => exact held
  | cons first rest ih =>
    obtain ⟨now, later⟩ := List.forall_mem_cons.mp more
    refine ⟨fun b uses => (now b uses).imp_right fun owns => ?_, ih later⟩
    exact ((List.sublist_append_right rest stack).filterMap Frame.owns).subset owns

theorem Held.change {attached : Option Nat} {stack : List Frame} (held : Held attached stack)
    (unused : Unused attached stack) (attached' : Option Nat) : Held attached' stack := by
  induction stack with
  | nil => trivial
  | cons first rest ih =>
    obtain ⟨now, later⟩ := List.forall_mem_cons.mp unused
    exact ⟨fun b uses => .inr ((held.1 b uses).resolve_left (now b uses)), ih held.2 later⟩

theorem Unused.guarded {attached : Option Nat} {stack : List Frame} (unused : Unused attached stack) :
    Guarded attached stack := by
  induction stack with
  | nil => trivial
  | cons first rest ih =>
    obtain ⟨-, later⟩ := List.forall_mem_cons.mp unused
    exact ⟨fun _ => later, ih later⟩

theorem Guarded.append {attached : Option Nat} {stack new : List Frame} (guarded : Guarded attached stack)
    (more : ∀ frame ∈ new, frame.reads = false) : Guarded attached (new ++ stack) := by
  induction new with
  | nil => exact guarded
  | cons first rest ih =>
    obtain ⟨now, later⟩ := List.forall_mem_cons.mp more
    exact ⟨fun reads => absurd (now.symm.trans reads) Bool.false_ne_true, ih later⟩

theorem Frame.ptr_uses {p : Ptr} (mem : p ∈ frame.ptrs) : p.buf ∈ frame.uses := by
  cases frame with
  | app cb => exact List.mem_map.mpr ⟨p, mem, rfl⟩
  | _ => cases mem

/-! ### Safe stacks -/

/-- The pointers of the running callbacks are valid, and their blocks stay as they are. -/
structure Safe (buf : Nat → Buffer) (attached : Option Nat) (stack : List Frame) : Prop where
  held : Held attached stack
  guarded : Guarded attached stack
  valid : ∀ frame ∈ stack, ∀ p ∈ frame.ptrs, (buf p.buf).live = true ∧ (buf p.buf).gen = p.gen

namespace Safe

variable {buf : Nat → Buffer} {attached : Option Nat} {stack new : List Frame}

theorem tail (safe : Safe buf attached (frame :: stack)) : Safe buf attached stack :=
  ⟨safe.held.2, safe.guarded.2, (List.forall_mem_cons.mp safe.valid).2⟩

theorem append (safe : Safe buf attached stack)
    (held : ∀ frame ∈ new, ∀ b ∈ frame.uses, attached = some b ∨ b ∈ stack.filterMap Frame.owns)
    (quiet : ∀ frame ∈ new, frame.reads = false)
    (valid : ∀ frame ∈ new, ∀ p ∈ frame.ptrs, (buf p.buf).live = true ∧ (buf p.buf).gen = p.gen) :
    Safe buf attached (new ++ stack) :=
  ⟨safe.held.append held, safe.guarded.append quiet, List.forall_mem_append.mpr ⟨valid, safe.valid⟩⟩

theorem congr (safe : Safe buf attached stack) {buf' : Nat → Buffer}
    (same : ∀ frame ∈ stack, ∀ b ∈ frame.uses, buf' b = buf b) : Safe buf' attached stack := by
  refine ⟨safe.held, safe.guarded, fun frame mem p given => ?_⟩
  rw [same frame mem p.buf (Frame.ptr_uses given)]
  exact safe.valid frame mem p given

theorem push (safe : Safe buf attached stack) (free : frame.uses = [])
    (quiet : frame.reads = false) : Safe buf attached (frame :: stack) := by
  refine ⟨⟨?_, safe.held⟩, ⟨fun reads => absurd (quiet.symm.trans reads) Bool.false_ne_true, safe.guarded⟩,
    List.forall_mem_cons.mpr ⟨?_, safe.valid⟩⟩
  · rw [free]
    exact List.forall_mem_nil _
  · rw [Frame.ptrs_nil free]
    exact List.forall_mem_nil _

theorem guard (safe : Safe buf attached stack) (reads : frame.reads = true)
    (unused : Unused attached stack) : Safe buf attached (frame :: stack) := by
  have free := (Frame.reads_spec reads).2.1
  refine ⟨⟨?_, safe.held⟩, ⟨fun _ => unused, safe.guarded⟩, List.forall_mem_cons.mpr ⟨?_, safe.valid⟩⟩
  · rw [free]
    exact List.forall_mem_nil _
  · rw [Frame.ptrs_nil free]
    exact List.forall_mem_nil _

end Safe

/-- Whether a hook returns to a frame. -/
def Frame.hook : Frame → Bool
  | .preInvoked _ _ _ _ => true
  | _ => false

theorem Frame.inert_hook (inert : frame.inert = true) : frame.hook = false := by
  cases frame with
  | preInvoked obj method k noReply => cases inert
  | _ => rfl

/-- The pointers of the static array are into the receive buffer or a block of these frames, and valid. -/
def Pointed (s : State) (stack : List Frame) : Prop :=
  ∀ id p, s.attrbuf id = some p → (s.msgbufData = some p.buf ∨ p.buf ∈ stack.filterMap Frame.owns) ∧
    (s.buf p.buf).live = true ∧ (s.buf p.buf).gen = p.gen

/-- No hook runs; or one does, nothing has been parsed since it was called, and the pointers of the
static array are valid. -/
def Awaits (s : State) : Prop :=
  (∀ frame ∈ s.stack, frame.hook = false) ∨
  ∃ above obj method k noReply below, s.stack = above ++ .preInvoked obj method k noReply :: below ∧
    (∀ frame ∈ above, frame.passive = true) ∧ (∀ frame ∈ below, frame.hook = false) ∧
    0 < depthOf below ∧ Pointed s below

/-- **The invariant of a context whose callbacks keep their messages.** -/
structure Intact (s : State) : Prop where
  safe : Safe s.buf s.msgbufData s.stack
  /-- A message that was just read is in the receive buffer, which nothing else refers to. -/
  read : ∀ fd rest, s.stack = .processMsg .msgbuf fd :: rest →
    s.msgbufData ≠ none ∧ Unused s.msgbufData rest
  /-- A message is dispatched before anything else is done. -/
  first : ∀ buf fd, .processMsg buf fd ∉ s.stack.tail
  awaits : Awaits s

/-- The application does not read while a callback, or what is left of a delivery, refers to the
receive buffer, nor while a hook runs. -/
def Undisturbed (s : State) (action : Action) : Prop :=
  action.reads = true → Unused s.msgbufData s.stack ∧
    ∀ frame ∈ s.stack, frame.hook = false

section

variable {env : Env} {action : Action} {s s' : State}

theorem untouched (owned : Owned s)
    (held : (s.msgbufData = some b ∧ ∀ rest, s.stack ≠ .handleRead :: rest) ∨ b ∈ s.stack.tail.filterMap Frame.owns) :
    ¬ Touched s b := by
  intro touched
  cases touched with
  | top frame rest top owns =>
    have mine : b ∈ s.owns .stack := by
      rw [State.owns, top, List.filterMap_cons_some owns]
      exact List.mem_cons_self
    rcases held with ⟨attached, -⟩ | below
    · cases owned.separate.unique mine (mem_msgbuf attached)
    have nodup := owned.separate.nodup .stack
    rw [State.owns, top, List.filterMap_cons_some owns] at nodup
    rw [top, List.tail_cons] at below
    exact (List.nodup_cons.mp nodup).1 below
  | request r mine =>
    rcases held with ⟨attached, -⟩ | below
    · cases owned.separate.unique mine (mem_msgbuf attached)
    · cases owned.separate.unique mine (mem_stack below)
  | read rest top attached =>
    rcases held with ⟨-, other⟩ | below
    · exact other rest top
    · cases owned.separate.unique (mem_msgbuf attached) (mem_stack below)

theorem Safe.exists (safe : Safe s.buf s.msgbufData s.stack) (owned : Owned s)
    (mem : frame ∈ s.stack) (uses : b ∈ frame.uses) : b < s.brk := by
  rcases safe.held.owned mem uses with attached | below
  · exact owned.below (mem_msgbuf attached)
  · exact owned.below (mem_stack below)

/-- **No step touches a block that a frame refers to.** -/
theorem Safe.kept (safe : Safe s.buf s.msgbufData s.stack) (owned : Owned s)
    (storage : Storage lib env action s s') (mem : frame ∈ s.stack) (uses : b ∈ frame.uses) :
    s'.buf b = s.buf b := by
  refine (storage.block (safe.exists owned mem uses)).same.resolve_right (untouched owned ?_)
  refine (safe.held.owned mem uses).imp_left fun attached => ⟨attached, fun rest top => ?_⟩
  rw [top] at mem
  have guarded := safe.guarded
  rw [top] at guarded
  rcases List.mem_cons.mp mem with rfl | below
  · cases uses
  · exact guarded.1 rfl frame below b uses attached

theorem Safe.steady (safe : Safe t.buf t.msgbufData t.stack) {frames : Frame → Prop}
    (steady : Steady frames t s')
    (held : ∀ frame, frames frame → ∀ b ∈ frame.uses, t.msgbufData = some b ∨ b ∈ t.stack.filterMap Frame.owns)
    (quiet : ∀ frame, frames frame → frame.reads = false)
    (valid : ∀ frame, frames frame → ∀ p ∈ frame.ptrs, (t.buf p.buf).live = true ∧ (t.buf p.buf).gen = p.gen) :
    Safe s'.buf s'.msgbufData s'.stack := by
  obtain ⟨new, stack, admitted⟩ := steady.moved
  have buf : s'.buf = t.buf := congrArg Memory.buf steady.memory
  have data : s'.msgbufData = t.msgbufData := congrArg Memory.msgbufData steady.memory
  rw [buf, data, stack]
  exact safe.append (fun frame mem => held frame (admitted frame mem))
    (fun frame mem => quiet frame (admitted frame mem))
    fun frame mem => valid frame (admitted frame mem)

theorem Safe.light (safe : Safe t.buf t.msgbufData t.stack) (owned : Owned t)
    {allowed : Nat → Prop} (steady : Steady (Light t.buf allowed) t s')
    (held : ∀ b, allowed b → t.msgbufData = some b ∨ b ∈ t.stack.filterMap Frame.owns) :
    Safe s'.buf s'.msgbufData s'.stack := by
  refine safe.steady steady (fun frame light b uses => held b (light.2.1 b uses))
    (fun frame light => (Frame.plain_spec light.1).2.1) fun frame light p mem => ⟨?_, (light.2.2 p mem).symm⟩
  rcases held p.buf (light.2.1 p.buf (Frame.ptr_uses mem)) with attached | below
  · exact owned.live (mem_msgbuf attached)
  · have mine : p.buf ∈ t.owns .stack := below
    exact owned.live mine

theorem Safe.guards {buf : Nat → Buffer} {attached : Option Nat} {stack new : List Frame}
    (safe : Safe buf attached stack) (unused : Unused attached stack)
    (free : ∀ frame ∈ new, frame.uses = []) : Safe buf attached (new ++ stack) := by
  induction new with
  | nil => exact safe
  | cons first rest ih =>
    obtain ⟨now, later⟩ := List.forall_mem_cons.mp free
    have below : Unused attached (rest ++ stack) := by
      refine List.forall_mem_append.mpr ⟨fun frame mem b uses => ?_, unused⟩
      rw [later frame mem] at uses
      cases uses
    cases reads : first.reads with
    | true => exact (ih later).guard reads below
    | false => exact (ih later).push now reads

theorem Safe.loop (safe : Safe t.buf t.msgbufData t.stack) (owned : Owned t) (r : Nat)
    (entry : Option Nat) :
    Safe (processReqDataLoop r entry t).buf (processReqDataLoop r entry t).msgbufData
      (processReqDataLoop r entry t).stack := by
  unfold processReqDataLoop
  split
  · have ends : Steady (Light t.buf fun _ => False) t (processReqDataEnd r t) :=
      steady_processReqDataEnd (usual_light _ _) r t
    exact safe.light owned ends fun _ impossible => impossible.elim
  split
  · exact safe
  rename_i data _ type other found
  have taken : Safe t.buf t.msgbufData (.drain r data (nextEntry data (t.req r).pending) :: t.stack) :=
    safe.push rfl rfl
  dsimp only
  split
  · exact taken
  · refine ⟨⟨List.forall_mem_singleton.mpr (.inr List.mem_cons_self), taken.held⟩,
      ⟨fun reads => Bool.noConfusion reads, taken.guarded⟩,
      List.forall_mem_cons.mpr ⟨List.forall_mem_nil _, taken.valid⟩⟩

/-- **A message is read**: nothing on the stack refers to the buffer it is read into. -/
theorem Safe.received (safe : Safe s.buf s.msgbufData s.stack) (owned : Owned s)
    (top : s.stack = .handleRead :: rest) {len : Nat} {u : State}
    (allocated : Allocated len { s with stack := rest } true u) (hdr : Msghdr) (data : Bytes) :
    Unused u.msgbufData rest ∧ Safe (u.fill hdr data).buf (u.fill hdr data).msgbufData
      (u.fill hdr data).stack := by
  have below : ∀ frame ∈ rest, frame ∈ s.stack := by
    rw [top]
    exact fun frame mem => List.mem_cons_of_mem _ mem
  have old : ∀ frame ∈ rest, ∀ b ∈ frame.uses, b < s.brk := fun frame mem b uses =>
    safe.exists owned (below frame mem) uses
  rw [top] at safe
  have unused : Unused s.msgbufData rest := safe.guarded.1 rfl
  have fresh : Unused u.msgbufData rest := by
    cases allocated with
    | fits counter room => exact unused
    | moved counter =>
      intro frame mem b uses same
      exact (old frame mem b uses).ne (Option.some.inj same).symm
  have kept : ∀ frame ∈ rest, ∀ b ∈ frame.uses, (u.fill hdr data).buf b = s.buf b := by
    intro frame mem b uses
    have received : BlockKept { s with stack := rest } (u.fill hdr data) b (s.msgbufData = some b) :=
      .received allocated id (old frame mem b uses)
    exact received.same.resolve_right (unused frame mem b uses)
  obtain ⟨attached, stack⟩ := fill_attached hdr data u
  rw [attached, stack, allocated_stack allocated]
  refine ⟨fresh, ⟨safe.held.2.change unused _, fresh.guarded, fun frame mem p given => ?_⟩⟩
  rw [kept frame mem p.buf (Frame.ptr_uses given)]
  exact safe.tail.valid frame mem p given

theorem Safe.restore (safe : Safe s.buf s.msgbufData s.stack) (owned : Owned s)
    (top : s.stack = .restoreData prevData :: rest) (empty : s.msgbufData = none) :
    Safe s.buf (some prevData) rest := by
  have nodup := owned.separate.nodup .stack
  rw [State.owns, top] at nodup
  have other : prevData ∉ rest.filterMap Frame.owns := (List.nodup_cons.mp nodup).1
  rw [top] at safe
  have free : Unused s.msgbufData rest := by
    intro frame mem b uses attached
    rw [empty] at attached
    cases attached
  have fresh : Unused (some prevData) rest := by
    intro frame mem b uses same
    obtain rfl := Option.some.inj same
    rcases safe.held.2.owned mem uses with attached | owns
    · exact free frame mem prevData uses attached
    · exact other (((List.tail_sublist rest).filterMap Frame.owns).subset owns)
  exact ⟨safe.held.2.change free _, fresh.guarded, safe.tail.valid⟩

/-! ### A message to an object -/

theorem detached_msgbuf (lib : Libubox) (attached : s.msgbufData = some prevData) :
    (detached lib .msgbuf s).msgbufData = none ∧
      (detached lib .msgbuf s).stack = .restoreData prevData :: .leaveObjMsg :: s.stack ∧
      (detached lib .msgbuf s).buf = s.buf ∧
      ∀ id p, (detached lib .msgbuf s).attrbuf id = some p →
        p.buf = prevData ∧ p.gen = (s.buf prevData).gen := by
  have entry : entered lib .msgbuf s =
      (ubusParseMsg lib (some prevData) ({ s with stackDepth := s.stackDepth + 1 }.push .leaveObjMsg)).log
        (.dispatched s.msgbufHdr (s.content .msgbuf)) := by
    unfold entered
    rw [State.data, attached]
    rfl
  have after : detached lib .msgbuf s =
      ({ entered lib .msgbuf s with msgbufData := none } : State).push (.restoreData prevData) := by
    have here : (entered lib .msgbuf s).msgbufData = some prevData := by
      rw [entry]
      exact attached
    unfold detached detachData
    rw [here]
  rw [after, entry]
  exact ⟨rfl, rfl, rfl, fun _ _ parsed => parseMsg_ptr parsed⟩

theorem detached_pending (lib : Libubox) (hdr : Msghdr) (data : Nat) (s : State) :
    (detached lib (.pending hdr data) s).msgbufData = s.msgbufData ∧
      (detached lib (.pending hdr data) s).stack = .leaveObjMsg :: s.stack ∧
      (detached lib (.pending hdr data) s).buf = s.buf ∧
      ∀ id p, (detached lib (.pending hdr data) s).attrbuf id = some p →
        p.buf = data ∧ p.gen = (s.buf data).gen :=
  ⟨rfl, rfl, rfl, fun _ _ parsed => parseMsg_ptr parsed⟩

/-- The message that was parsed stays where it is until the callback has returned. -/
structure Prepared (t : State) (rest : List Frame) : Prop where
  safe : Safe t.buf t.msgbufData t.stack
  below : ∃ new, t.stack = new ++ rest ∧ (∀ frame ∈ new, frame.hook = false) ∧
    ∀ frame ∈ new, ∀ buf fd, frame ≠ .processMsg buf fd
  raised : 0 < depthOf t.stack
  parsed : Pointed t t.stack

theorem Intact.prepared (intact : Intact s) (owned : Owned s) {buf : MsghdrBuf}
    (top : s.stack = .processMsg buf fd :: rest) :
    Prepared (detached lib buf { s with stack := rest }) rest := by
  have safe := intact.safe
  rw [top] at safe
  have raises : Frame.depth .leaveObjMsg = 1 := rfl
  cases buf with
  | msgbuf =>
    obtain ⟨some, unused⟩ := intact.read fd rest top
    obtain ⟨prevData, attached⟩ := Option.ne_none_iff_exists'.mp some
    have here : ({ s with stack := rest } : State).msgbufData = .some prevData := attached
    obtain ⟨data, stack, blocks, parsed⟩ := detached_msgbuf lib here
    have free : Unused none rest := fun _ _ _ _ same => by cases same
    have base : Safe s.buf none rest := ⟨safe.held.2.change unused _, free.guarded, safe.tail.valid⟩
    constructor
    · rw [data, stack, blocks]
      exact (base.push rfl rfl).push rfl rfl
    · refine ⟨[.restoreData prevData, .leaveObjMsg], stack, ?_, ?_⟩
      · simp [Frame.hook]
      · simp
    · rw [stack, depthOf_cons, depthOf_cons, raises]
      omega
    · intro id p attr
      obtain ⟨same, gen⟩ := parsed id p attr
      rw [stack, blocks, same]
      exact ⟨.inr List.mem_cons_self, owned.live (mem_msgbuf attached), gen.symm⟩
  | pending hdr block =>
    obtain ⟨data, stack, blocks, parsed⟩ := detached_pending lib hdr block { s with stack := rest }
    have held := safe.held.1 block (List.mem_singleton_self _)
    have live : (s.buf block).live = true := by
      rcases held with attached | owns
      · exact owned.live (mem_msgbuf attached)
      · have mine : block ∈ ({ s with stack := rest } : State).owns .stack := owns
        exact (owned.pop top).live mine
    constructor
    · rw [data, stack, blocks]
      exact safe.tail.push rfl rfl
    · refine ⟨[.leaveObjMsg], stack, ?_, ?_⟩
      · simp [Frame.hook]
      · simp
    · rw [stack, depthOf_cons, raises]
      omega
    · intro id p attr
      obtain ⟨same, gen⟩ := parsed id p attr
      rw [data, stack, blocks, same]
      exact ⟨held, live, gen.symm⟩

theorem Safe.hands (safe : Safe t.buf t.msgbufData t.stack)
    (steady : Steady (Hands t.attrbuf) t s')
    (parsed : Pointed t t.stack) : Safe s'.buf s'.msgbufData s'.stack := by
  refine safe.steady steady ?_ (fun frame hands => hands.2.1) ?_
  · rintro frame ⟨-, -, -, uses, ptrs⟩ b mem
    obtain ⟨p, given, rfl⟩ := uses b mem
    obtain ⟨id, attr⟩ := ptrs p given
    exact (parsed id p attr).1
  · rintro frame ⟨-, -, -, -, ptrs⟩ p given
    obtain ⟨id, attr⟩ := ptrs p given
    exact (parsed id p attr).2

theorem Intact.returned (intact : Intact s) {obj method k : Nat} {noReply : Bool}
    (top : s.stack = .preInvoked obj method k noReply :: rest) :
    (∀ frame ∈ rest, frame.hook = false) ∧ Pointed s rest := by
  rcases intact.awaits with none | ⟨above, obj', method', k', noReply', below, stack, passive, none, -, parsed⟩
  · rw [top] at none
    exact absurd (none _ List.mem_cons_self) Bool.true_eq_false.mp
  rw [top] at stack
  rcases above with _ | ⟨first, above⟩
  · obtain rfl : rest = below := (List.cons.inj stack).2
    exact ⟨none, parsed⟩
  · obtain rfl := (List.cons.inj stack).1
    exact absurd (passive _ List.mem_cons_self) Bool.false_ne_true

/-! ### Every step -/

theorem restoreData_none (prevData : Nat) (empty : t.msgbufData = none) :
    restoreData prevData t = { t with msgbufData := some prevData } := by
  unfold restoreData
  rw [empty]

theorem restoreData_some (prevData : Nat) {current : Nat} (attached : t.msgbufData = some current) :
    restoreData prevData t = t.free prevData := by
  unfold restoreData
  rw [attached]

theorem Intact.safe_step (intact : Intact s) (owned : Owned s) (storage : Storage lib env action s s')
    (allowed : s.idle → Undisturbed s action) : Safe s'.buf s'.msgbufData s'.stack := by
  have safe := intact.safe
  have kept : Safe s'.buf s.msgbufData s.stack := safe.congr fun _ mem _ uses =>
    safe.kept owned storage mem uses
  have popped : ∀ {frame : Frame} {rest : List Frame}, s.stack = frame :: rest →
      Safe s.buf s.msgbufData rest := fun top => (top ▸ safe).tail
  have popped' : ∀ {frame : Frame} {rest : List Frame}, s.stack = frame :: rest →
      Safe s'.buf s.msgbufData rest := fun top => (top ▸ kept).tail
  cases storage with
  | ret idle value after =>
    subst after
    rcases stack : s.stack with _ | ⟨frame, rest⟩
    · rw [stack] at safe
      exact safe
    · exact popped stack
  | act idle steady => exact safe.light owned steady fun _ impossible => impossible.elim
  | call idle reading steady =>
    obtain ⟨new, stack, admitted⟩ := steady.moved
    have reads : action.reads = true := by
      rcases reading with ⟨r, timed, rfl⟩ | rfl
      · rfl
      · rfl
    have data : s'.msgbufData = s.msgbufData := congrArg Memory.msgbufData steady.memory
    rw [stack, data]
    exact kept.guards (allowed idle reads).1 fun frame mem => (Frame.reads_spec (admitted frame mem)).2.1
  | abort idle r after =>
    have data : s'.msgbufData = s.msgbufData := by
      rw [after]
      exact abort_attached r s
    rw [data, after, (abort_stack r s).1, ← after]
    exact kept
  | work frame rest top free steady =>
    refine Safe.light (t := { s with stack := rest }) (popped top) (owned.pop top) steady fun b kind => ?_
    rw [top] at safe
    exact kind.elim (safe.held.1 b) .inl
  | loop frame rest top reads steady =>
    obtain ⟨new, stack, admitted⟩ := steady.moved
    have data : s'.msgbufData = s.msgbufData := congrArg Memory.msgbufData steady.memory
    have unused : Unused s.msgbufData rest := (top ▸ safe.guarded : Guarded s.msgbufData (frame :: rest)).1 reads
    rw [stack, data]
    refine (popped' top).guards unused fun new mem => ?_
    rcases admitted new mem with reads | light
    · exact (Frame.reads_spec reads).2.1
    · exact List.eq_nil_iff_forall_not_mem.mpr light.2.1
  | read rest top reads =>
    cases reads with
    | @message hdr data enough length u allocated =>
      obtain ⟨fresh, received⟩ := safe.received owned top allocated hdr data
      obtain ⟨attached, stack⟩ := fill_attached hdr data u
      have unused : Unused (u.fill hdr data).msgbufData (u.fill hdr data).stack := by
        rw [attached, stack, allocated_stack allocated]
        exact fresh
      clear kept popped'
      generalize u.fill hdr data = t at received unused
      exact (received.guard rfl unused).push rfl rfl
    | @part hdr data u allocated =>
      obtain ⟨-, received⟩ := safe.received owned top allocated hdr data
      refine Safe.steady (t := { u.fill hdr data with eof := true }) received
        (steady_stopped (usual_light s.buf fun _ => False) ..) ?_ ?_ ?_
      · exact fun frame light b uses => (light.2.1 b uses).elim
      · exact fun frame light => (Frame.plain_spec light.1).2.1
      · exact fun frame light p mem => (light.2.1 _ (Frame.ptr_uses mem)).elim
    | nothing eof counter =>
      have marked : Steady (Light s.buf fun _ => False) { s with stack := rest }
        { s with stack := rest, eof, msgbufReductionCounter := counter } := .of_eq rfl rfl le_rfl rfl
      exact Safe.light (t := { s with stack := rest }) (popped top) (owned.pop top)
        (marked.trans (steady_stopped (usual_light _ _) ..)) fun _ impossible => impossible.elim
  | hook obj method k noReply rest top steady =>
    have hands : Steady (Hands s.attrbuf) { s with stack := rest } s' :=
      steady.mono fun _ handler => handler.2
    exact Safe.hands (t := { s with stack := rest }) (popped top) hands (intact.returned top).2
  | take rest top hdr data others queued after =>
    have base : Safe s.buf s.msgbufData (.pendingDone data :: rest) := (popped top).push rfl rfl
    subst after
    exact ⟨⟨List.forall_mem_singleton.mpr (.inr List.mem_cons_self), base.held⟩,
      ⟨fun reads => Bool.noConfusion reads, base.guarded⟩,
      List.forall_mem_cons.mpr ⟨List.forall_mem_nil _, base.valid⟩⟩
  | done data rest top after =>
    have base := popped' top
    subst after
    exact base.push rfl rfl
  | restore prevData rest top after =>
    rcases attached : s.msgbufData with _ | current
    · rw [after, restoreData_none (t := { s with stack := rest }) prevData attached]
      exact safe.restore owned top attached
    · have freed := popped' top
      rw [after, restoreData_some (t := { s with stack := rest }) prevData attached] at freed ⊢
      exact freed
  | drain r rest top after =>
    subst after
    exact Safe.loop (t := { s with stack := rest }) (popped top) (owned.pop top) r _
  | drained r data tmp rest top after =>
    have freed : Safe ({ s with stack := rest }.free data).buf s.msgbufData rest := by
      refine (popped top).congr fun frame mem b uses => ?_
      have other : b ≠ data := by
        rintro rfl
        rcases (popped top).held.owned mem uses with attached | owns
        · refine owned.unowned top rfl .msgbuf ?_
          rw [State.owns]
          exact attached ▸ List.mem_singleton_self _
        · refine owned.unowned top rfl .stack ?_
          exact ((List.tail_sublist rest).filterMap Frame.owns).subset owns
      simp only [State.free, State.mapBuf, Function.update_of_ne other]
    subst after
    exact Safe.loop (t := { s with stack := rest }.free data) freed
      ((owned.pop top).free (owned.unowned top rfl)) r tmp
  | data buf fd rest top r data holds after =>
    have base := popped' top
    subst after
    exact base.push rfl rfl
  | queue buf fd rest top after =>
    have base := popped' top
    have stack : s'.stack = rest := by rw [after, close_stack, queueMsg_stack]
    have data : s'.msgbufData = s.msgbufData := by rw [after, close_attached, queueMsg_attached]
    rw [stack, data]
    exact base
  | dispatch buf fd rest top steady =>
    have prepared : Prepared (detached lib buf { s with stack := rest }) rest := intact.prepared owned top
    exact prepared.safe.hands (steady.mono fun _ handler => handler.2) prepared.parsed
  | ask buf fd rest top asked =>
    have prepared : Prepared (detached lib buf { s with stack := rest }) rest := intact.prepared owned top
    exact prepared.safe.hands asked.steady prepared.parsed

theorem Base.subset (below : Base s base) : base ⊆ s.stack := by
  rcases below with ⟨-, rfl⟩ | ⟨frame, stack⟩
  · exact List.Subset.refl _
  · rw [stack]
    exact List.subset_cons_self frame base

theorem Intact.clean (intact : Intact s) (below : Base s base) (buf : MsghdrBuf) (fd : Option Nat) :
    .processMsg buf fd ∉ base := by
  rcases below with ⟨idle, rfl⟩ | ⟨frame, stack⟩
  · rcases stack : s.stack with _ | ⟨top, rest⟩
    · exact List.not_mem_nil
    intro mem
    rcases List.mem_cons.mp mem with rfl | later
    · rw [State.idle, stack] at idle
      cases idle
    · have first := intact.first buf fd
      rw [stack] at first
      exact first later
  · have first := intact.first buf fd
    rw [stack] at first
    exact first

theorem Frame.inert_processMsg {buf : MsghdrBuf} {new : List Frame}
    (each : ∀ frame ∈ new, frame.inert = true) : .processMsg buf fd ∉ new := by
  intro mem
  exact Bool.false_ne_true (each _ mem)

theorem Intact.first_step (intact : Intact s) (storage : Storage lib env action s s') (buf : MsghdrBuf)
    (fd : Option Nat) : .processMsg buf fd ∉ s'.stack.tail := by
  obtain ⟨new, base, stack, below, pushed⟩ := storage.pushed
  have clean := intact.clean below buf fd
  rw [stack]
  cases pushed with
  | inert _ each =>
    intro mem
    rcases List.mem_append.mp (List.mem_of_mem_tail mem) with mine | old
    · exact Frame.inert_processMsg each mine
    · exact clean old
  | read fd' rest top t result after => simpa using clean
  | take hdr data rest top => simpa using clean
  | ask cb obj method k noReply new each buf' fd' rest top asked =>
    simpa using ⟨Frame.inert_processMsg each, clean⟩

theorem Intact.read_step (intact : Intact s) (owned : Owned s)
    (storage : Storage lib env action s s') (top : s'.stack = .processMsg .msgbuf fd :: rest) :
    s'.msgbufData ≠ none ∧ Unused s'.msgbufData rest := by
  obtain ⟨new, base, stack, below, pushed⟩ := storage.pushed
  have clean := intact.clean below .msgbuf fd
  rw [top] at stack
  cases pushed with
  | inert _ each =>
    have mem : .processMsg .msgbuf fd ∈ new ++ base := stack ▸ List.mem_cons_self
    rcases List.mem_append.mp mem with mine | old
    · exact (Frame.inert_processMsg each mine).elim
    · exact (clean old).elim
  | read rest' reading hdr data enough length u allocated after =>
    obtain ⟨fresh, -⟩ := intact.safe.received owned reading allocated hdr data
    obtain ⟨attached, filled⟩ := fill_attached hdr data u
    have pushed : s'.msgbufData = (u.fill hdr data).msgbufData ∧
        s'.stack = .processMsg .msgbuf env.recv.fd :: .handled :: (u.fill hdr data).stack := by
      rw [after]
      generalize u.fill hdr data = t
      exact ⟨rfl, rfl⟩
    have same : s'.msgbufData = u.msgbufData := pushed.1.trans attached
    have shape : rest = .handled :: rest' := by
      have shape := pushed.2
      rw [top, filled, allocated_stack allocated] at shape
      exact (List.cons.inj shape).2
    rw [same, shape]
    exact ⟨allocated.some enough, List.forall_mem_cons.mpr ⟨List.forall_mem_nil _, fresh⟩⟩
  | take hdr data rest' top' => cases (List.cons.inj stack).1
  | ask cb obj method k noReply new each buf' fd' rest' top' asked => cases (List.cons.inj stack).1

theorem Prepared.awaits (prepared : Prepared t rest) (asked : Asked t s')
    (none : ∀ frame ∈ rest, frame.hook = false) : Awaits s' := by
  cases asked with
  | hook u steady attrbuf obj method k noReply data carried after =>
    have memory := steady.memory
    have buf : u.buf = t.buf := congrArg Memory.buf memory
    have attached : u.msgbufData = t.msgbufData := congrArg Memory.msgbufData memory
    obtain ⟨new, stack, clear, -⟩ := prepared.below
    refine .inr ⟨[.app (.preInvoke obj method k data)], obj, method, k, noReply, t.stack, ?_, ?_, ?_,
      prepared.raised, ?_⟩
    · rw [after, ← steady.stack_eq]
      rfl
    · exact List.forall_mem_singleton.mpr rfl
    · rw [stack]
      exact List.forall_mem_append.mpr ⟨clear, none⟩
    have parsed : Pointed u t.stack := by
      rw [Pointed, attrbuf, buf, attached]
      exact prepared.parsed
    rw [after]
    exact parsed

theorem Intact.awaits_step (intact : Intact s) (reachable : Reachable lib s)
    (next : StepWhen lib Undisturbed s s') : Awaits s' := by
  have owned := reachable.owned
  obtain ⟨env, action, allowed, rfl⟩ := next
  have storage := step_storage lib env action s
  rcases intact.awaits with none | ⟨above, obj, method, k, noReply, below, stack, passive, none, raised, parsed⟩
  · obtain ⟨new, base, stack, below, pushed⟩ := storage.pushed
    have clear : ∀ frame ∈ base, frame.hook = false := fun frame mem => none frame (below.subset mem)
    cases pushed with
    | inert _ each =>
      left
      rw [stack]
      exact List.forall_mem_append.mpr ⟨fun frame mem => Frame.inert_hook (each frame mem), clear⟩
    | read fd rest top t result after =>
      left
      rw [stack]
      exact List.forall_mem_cons.mpr ⟨rfl, List.forall_mem_cons.mpr ⟨rfl, clear⟩⟩
    | take hdr data rest top =>
      left
      rw [stack]
      exact List.forall_mem_cons.mpr ⟨rfl, List.forall_mem_cons.mpr ⟨rfl, clear⟩⟩
    | ask cb obj method k noReply new each buf fd rest top asked =>
      have prepared : Prepared (detached lib buf { s with stack := rest }) rest :=
        intact.prepared owned top
      exact prepared.awaits asked fun frame mem => none frame (top ▸ List.mem_cons_of_mem _ mem)
  · rcases above with _ | ⟨first, above⟩
    · left
      have returned : step lib env action s = preInvoked lib env obj method k noReply
        { s with stack := below } := by
        unfold step
        rw [stack]
        rfl
      have steady : Steady (Handler s.attrbuf) { s with stack := below } (step lib env action s) := by
        rw [returned]
        exact steady_preInvoked env obj method k noReply { s with stack := below }
      obtain ⟨new, grown, admitted⟩ := steady.moved
      rw [grown]
      exact List.forall_mem_append.mpr ⟨fun frame mem => Frame.inert_hook (Frame.plain_spec (admitted frame mem).1).2.2, none⟩
    · have hooked : .preInvoked obj method k noReply ∈ s.stack := by
        rw [stack]
        exact List.mem_append_right _ List.mem_cons_self
      have unread : StepWhen lib (Unread k) s (step lib env action s) := by
        refine ⟨env, action, fun idle _ => ?_, rfl⟩
        by_contra reads
        rw [Bool.not_eq_false] at reads
        exact absurd ((allowed idle reads).2 _ hooked) Bool.true_eq_false.mp
      have lifted : s.stackDepth ≠ 0 := by
        rw [reachable.depth, stack]
        simp only [depthOf_append, depthOf_cons]
        omega
      obtain ⟨above', stack', passive', attrbuf⟩ := hook_step unread stack passive lifted
      have attached : (step lib env action s).msgbufData = s.msgbufData := by
        have passes := passive first List.mem_cons_self
        rcases storage.attached with same | ⟨rest, top⟩ | ⟨data, rest, top⟩ | ⟨buf, fd, rest, top⟩
        · exact same
        all_goals
          rw [stack] at top
          obtain rfl := (List.cons.inj top).1
          cases passes
      refine .inr ⟨above', obj, method, k, noReply, below, stack', passive', none, raised, ?_⟩
      rw [Pointed, attrbuf, attached]
      intro id p attr
      obtain ⟨held, good⟩ := parsed id p attr
      have onStack : p.buf ∈ below.filterMap Frame.owns → p.buf ∈ s.stack.tail.filterMap Frame.owns := by
        intro owns
        rw [stack]
        exact ((List.sublist_append_of_sublist_right (List.sublist_cons_self _ below)).filterMap
          Frame.owns).subset owns
      have same : (step lib env action s).buf p.buf = s.buf p.buf := by
        have old : p.buf < s.brk := by
          rcases held with attached | owns
          · exact owned.below (mem_msgbuf attached)
          · exact owned.below (mem_stack (onStack owns))
        refine (storage.block old).same.resolve_right (untouched owned ?_)
        refine held.imp (fun attached => ⟨attached, fun rest top => ?_⟩) onStack
        rw [stack] at top
        obtain rfl := (List.cons.inj top).1
        exact absurd (passive _ List.mem_cons_self) Bool.false_ne_true
      rw [same]
      exact ⟨held, good⟩

theorem Intact.step (intact : Intact s) (reachable : Reachable lib s)
    (next : StepWhen lib Undisturbed s s') : Intact s' := by
  have awaits := intact.awaits_step reachable next
  obtain ⟨env, action, allowed, rfl⟩ := next
  have storage := step_storage lib env action s
  exact ⟨intact.safe_step reachable.owned storage allowed,
    fun _ _ top => intact.read_step reachable.owned storage top, intact.first_step storage, awaits⟩

end

theorem intact_init (channel : Bool) (setup : Setup) : Intact (init channel setup) where
  safe := ⟨trivial, trivial, List.forall_mem_nil _⟩
  read := fun _ _ top => by cases top
  first := fun _ _ => List.not_mem_nil
  awaits := .inl (List.forall_mem_nil _)

theorem ReachableWhen.reachable {s : State} (reachable : ReachableWhen lib ok s) :
    Reachable lib s := by
  obtain ⟨channel, setup, path⟩ := reachable
  exact ⟨channel, setup, path.lift id fun _ _ next => next.step⟩

theorem ReachableWhen.intact {s : State} (reachable : ReachableWhen lib Undisturbed s) : Intact s := by
  obtain ⟨channel, setup, path⟩ := reachable
  induction path with
  | refl => exact intact_init channel setup
  | tail path next ih =>
    have before : ReachableWhen lib Undisturbed _ := ⟨channel, setup, path⟩
    exact ih.step before.reachable next

theorem path_content {s : State} (path : Relation.ReflTransGen (StepWhen lib ok) s t)
    (old : b < s.brk) :
    b < t.brk ∧ (s.buf b).gen ≤ (t.buf b).gen ∧
      ((t.buf b).gen = (s.buf b).gen → (t.buf b).content = (s.buf b).content) := by
  induction path with
  | refl => exact ⟨old, le_rfl, fun _ => rfl⟩
  | @tail t u path next ih =>
    obtain ⟨older, gen, content⟩ := ih
    have brk : t.brk ≤ u.brk := (step_advance next).brk
    obtain ⟨env, action, -, rfl⟩ := next
    have kept := (step_storage lib env action t).block older
    refine ⟨older.trans_le brk, gen.trans kept.gen, fun same => ?_⟩
    have early : (t.buf b).gen = (s.buf b).gen := le_antisymm (same ▸ kept.gen) gen
    exact (kept.content (same.trans early.symm)).trans (content early)

/-- **The message of a callback stays intact while it runs.** In every run in which the application does
not read from the socket while a callback has the receive buffer or a hook runs: whatever a running
callback was given is in a live buffer that has not been filled again, with the bytes that stood there
when the callback was called. -/
theorem callback_message_intact {s t : State} (reachable : ReachableWhen lib Undisturbed s)
    {cb : Callback} {rest : List Frame} (called : s.stack = .app cb :: rest)
    (path : Relation.ReflTransGen (StepWhen lib Undisturbed) s t) {above : List Frame}
    (running : t.stack = above ++ .app cb :: rest) :
    ∀ p ∈ cb.ptrs, t.valid p = true ∧ (t.buf p.buf).content = (s.buf p.buf).content := by
  intro p given
  obtain ⟨channel, setup, before⟩ := reachable
  have first : ReachableWhen lib Undisturbed s := ⟨channel, setup, before⟩
  have later : ReachableWhen lib Undisturbed t := ⟨channel, setup, before.trans path⟩
  have here : .app cb ∈ s.stack := by
    rw [called]
    exact List.mem_cons_self
  have there : .app cb ∈ t.stack := by
    rw [running]
    exact List.mem_append_right _ List.mem_cons_self
  obtain ⟨-, gen⟩ := first.intact.safe.valid _ here p given
  obtain ⟨live', gen'⟩ := later.intact.safe.valid _ there p given
  have old : p.buf < s.brk := first.intact.safe.exists first.reachable.owned here (Frame.ptr_uses given)
  obtain ⟨-, -, content⟩ := path_content path old
  refine ⟨?_, content (gen'.trans gen.symm)⟩
  rw [State.valid, live', gen']
  exact beq_self_eq_true p.gen

/-! ### Runs -/

instance (attached : Option Nat) (stack : List Frame) : Decidable (Unused attached stack) :=
  inferInstanceAs (Decidable (∀ frame ∈ stack, ∀ b ∈ frame.uses, attached ≠ some b))

instance (s : State) (action : Action) : Decidable (Undisturbed s action) :=
  inferInstanceAs (Decidable (action.reads = true → Unused s.msgbufData s.stack ∧
    ∀ frame ∈ s.stack, frame.hook = false))

/-- The application keeps to `ok` before each of the inputs. -/
def runWhen (lib : Libubox) (ok : State → Action → Prop) [∀ s action, Decidable (ok s action)] :
    List (Env × Action) → State → Bool
  | [], _ => true
  | (env, action) :: rest, s =>
    (!s.idle || decide (ok s action)) && runWhen lib ok rest (step lib env action s)

theorem runWhen_path [∀ s action, Decidable (ok s action)] (inputs : List (Env × Action))
    {s : State} (allowed : runWhen lib ok inputs s = true) :
    Relation.ReflTransGen (StepWhen lib ok) s (run lib inputs s) := by
  induction inputs generalizing s with
  | nil => exact .refl
  | cons input rest ih =>
    obtain ⟨now, later⟩ := Bool.and_eq_true_iff.mp allowed
    refine .head ⟨input.1, input.2, fun idle => ?_, rfl⟩ (ih later)
    rw [idle] at now
    exact of_decide_eq_true now

/-- A method of an object is called. -/
def methodCalled : List (Env × Action) :=
  invokeRead [.int32 .objid 5, .string .method (cstr "m"), .blob .data []] none ++ quietly 1

/-- A callback makes a request and waits for its status. -/
def nestedRequest (seq : UInt16) : List (Env × Action) :=
  [doing (.start {} (.built []) .lookup 0 none), doing (.complete 2 false)] ++ quietly 2 ++
    [receiving { type := MsgType.status.code, seq } (Blob.rawBlob [.int32 .status 0]) none]

/-- A handler that makes a request keeps its message. -/
theorem callback_message_intact_nested : ∃ s t cb rest above,
    ReachableWhen libubox Undisturbed s ∧ s.stack = .app cb :: rest ∧
    Relation.ReflTransGen (StepWhen libubox Undisturbed) s t ∧ t.stack = above ++ .app cb :: rest ∧
    cb.ptrs ≠ [] ∧ t.msgbufHdr ≠ s.msgbufHdr ∧
    ∀ p ∈ cb.ptrs, t.valid p = true ∧ (t.buf p.buf).content = (s.buf p.buf).content := by
  obtain ⟨s, start⟩ : ∃ s, run libubox methodCalled (init false oneObject) = s := ⟨_, rfl⟩
  obtain ⟨t, ends⟩ : ∃ t, run libubox (nestedRequest 1) s = t := ⟨_, rfl⟩
  have reachable : ReachableWhen libubox Undisturbed s :=
    ⟨false, oneObject, start ▸ runWhen_path methodCalled (by decide +kernel)⟩
  have path : Relation.ReflTransGen (StepWhen libubox Undisturbed) s t :=
    ends ▸ runWhen_path (nestedRequest 1) (by rw [← start]; decide +kernel)
  have called : s.stack = .app (.handler (some 0) (some 0) 1 (some ⟨0, 1, [4, 0, 0, 6, 109, 0]⟩)
      (some ⟨0, 1, [7, 0, 0, 4]⟩)) :: [.invoked 1 false, .restoreData 0, .leaveObjMsg, .handled] := by
    rw [← start]
    decide +kernel
  have running : t.stack = [.processMsg .msgbuf none, .handled, .waitPolled 2 .null false] ++
      .app (.handler (some 0) (some 0) 1 (some ⟨0, 1, [4, 0, 0, 6, 109, 0]⟩)
        (some ⟨0, 1, [7, 0, 0, 4]⟩)) :: [.invoked 1 false, .restoreData 0, .leaveObjMsg, .handled] := by
    rw [← ends, ← start]
    decide +kernel
  exact ⟨s, t, _, _, _, reachable, called, path, running, List.cons_ne_nil _ _,
    by rw [← ends, ← start]; decide +kernel, callback_message_intact reachable called path running⟩

/-- **A request inside a data callback overwrites its message**: the status is read into the buffer that
`raw_data_cb` was given. -/
theorem nested_read_overwrites : ∃ s t cb rest above p,
    Reachable libubox s ∧ s.stack = .app cb :: rest ∧ p ∈ cb.ptrs ∧
    Relation.ReflTransGen (Step libubox) s t ∧ t.stack = above ++ .app cb :: rest ∧
    t.valid p = false ∧ (t.buf p.buf).content ≠ (s.buf p.buf).content := by
  refine ⟨run libubox (delivered { rawDataCb := true } (dataFor 1)) (init false {}), _,
    .rawData 1 MsgType.data.code ⟨0, 1, [0, 0, 0, 4]⟩,
    [.reqDataCbParse 1 MsgType.data.code 0, .processReqData 1, .closeFd none, .handled],
    [.processMsg .msgbuf none, .handled, .waitPolled 2 .null false], ⟨0, 1, [0, 0, 0, 4]⟩,
    ⟨false, {}, run_steps _ _⟩, by decide +kernel, List.mem_singleton_self _,
    run_steps (nestedRequest 2) _, by decide +kernel, by decide +kernel, by decide +kernel⟩

end Ubus.Libubus
