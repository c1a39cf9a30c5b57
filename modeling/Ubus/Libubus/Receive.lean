/-
**The size of the receive buffer.**

`alloc_msg_buf` decides by `ctx->msgbuf_data_len` whether a message fits. The length is set where the
buffer is allocated; it is left alone while the buffer is detached for a message to an object, and
whatever is allocated meanwhile. So it has to be the length of the buffer that comes back.

* `State.slot`: the receive buffer, seen as a slot with a recorded length.
* `Opens.slot`, `Op.slot`: what a step does leaves the slot alone or is one of its operations.
-/

import Ubus.Lib.Slot
import Ubus.Libubus.Heap

namespace Ubus.Libubus

variable {lib : Libubox}

/-! ### The receive buffer as a slot -/

theorem Frame.saved_none {frame : Frame} (free : frame.owns = none) : frame.saved = none := by
  cases frame with
  | restoreData prevData => cases free
  | _ => rfl

/-- The capacities of the receive buffer and of the buffers that are detached, and the recorded
length. -/
def State.slot (s : State) : Lib.Slot where
  attached := s.msgbufData.map fun b => (s.buf b).cap
  recorded := s.msgbufDataLen
  saved := (s.stack.filterMap Frame.saved).map fun b => (s.buf b).cap

theorem saved_owned {s : State} {b : Nat} (mem : b ∈ s.stack.filterMap Frame.saved) :
    b ∈ s.owns .stack := by
  obtain ⟨frame, listed, saved⟩ := List.mem_filterMap.mp mem
  refine List.mem_filterMap.mpr ⟨frame, listed, ?_⟩
  cases frame with
  | restoreData prevData => exact saved
  | _ => cases saved

section

variable {s s' : State}

/-- The capacities of the blocks that exist stay. -/
def SameCaps (s s' : State) : Prop := ∀ b, b < s.brk → (s'.buf b).cap = (s.buf b).cap

theorem saved_congr (owned : Owned s) (caps : SameCaps s s') :
    ((s.stack.filterMap Frame.saved).map fun b => (s'.buf b).cap) = s.slot.saved :=
  List.map_congr_left fun b mem => caps b (owned.below (saved_owned mem))

theorem slot_congr (owned : Owned s) (caps : SameCaps s s') (data : s'.msgbufData = s.msgbufData)
    (len : s'.msgbufDataLen = s.msgbufDataLen) (stack : s'.stack = s.stack) : s'.slot = s.slot := by
  have attached : (s.msgbufData.map fun b => (s'.buf b).cap) = s.slot.attached := by
    rw [State.slot]
    rcases attached : s.msgbufData with _ | b
    · rfl
    rw [Option.map_some, Option.map_some, caps b (owned.below (mem_msgbuf attached))]
  rw [State.slot, data, len, stack, attached, saved_congr owned caps]
  rfl

theorem slot_pop {frame : Frame} {rest : List Frame} (top : s.stack = frame :: rest)
    (other : frame.saved = none) : ({ s with stack := rest } : State).slot = s.slot := by
  rw [State.slot, State.slot, top, List.filterMap_cons_none other]

theorem slot_steady (steady : Steady (·.owns = none) s s') : s'.slot = s.slot := by
  obtain ⟨new, stack, free⟩ := steady.moved
  have buf : s'.buf = s.buf := congrArg Memory.buf steady.memory
  have data : s'.msgbufData = s.msgbufData := congrArg Memory.msgbufData steady.memory
  have len : s'.msgbufDataLen = s.msgbufDataLen := congrArg Memory.msgbufDataLen steady.memory
  have empty : new.filterMap Frame.saved = [] :=
    List.filterMap_eq_nil_iff.mpr fun frame mem => Frame.saved_none (free frame mem)
  rw [State.slot, State.slot, buf, data, len, stack, List.filterMap_append, empty, List.nil_append]

theorem slot_free (owned : Owned s) (b : Nat) : (s.free b).slot = s.slot := by
  have kept : ∀ other, BlockKept s (s.free b) other True := fun _ => .free b fun _ => trivial
  exact slot_congr owned (fun other _ => (kept other).cap) rfl rfl rfl

theorem slot_fill (owned : Owned s) (hdr : Msghdr) (data : Bytes) : (s.fill hdr data).slot = s.slot := by
  have kept : ∀ b, BlockKept s (s.fill hdr data) b True := fun _ => .fill hdr data fun _ => trivial
  refine slot_congr owned (fun b _ => (kept b).cap) ?_ ?_ ?_ <;> unfold State.fill <;> split <;> rfl

/-! ### The operations -/

theorem slot_allocated (owned : Owned s) {len : Nat} {ok : Bool} (allocated : Allocated len s ok s') :
    s'.slot = s.slot ∨ Lib.Slot.Step s.slot s'.slot := by
  have kept : ∀ b, b < s.brk → BlockKept s s' b True := fun _ => .allocated allocated fun _ => trivial
  have caps : SameCaps s s' := fun b old => (kept b old).cap
  cases allocated with
  | fits counter room => exact .inl rfl
  | failed counter => exact .inl rfl
  | moved counter =>
    have fields : ∀ t : State, (t.realloc (chunked len)).stack = t.stack ∧
        ((t.realloc (chunked len)).buf t.brk).cap = chunked len := by
      intro t
      unfold State.realloc
      split <;> exact ⟨rfl, by simp only [Function.update_self]⟩
    obtain ⟨stack, cap⟩ := fields { s with msgbufReductionCounter := counter }
    have after : (State.realloc (chunked len) { s with msgbufReductionCounter := counter }).slot =
        { s.slot with attached := some (chunked len), recorded := chunked len } := by
      rw [State.slot, stack, saved_congr owned caps]
      exact congrArg (fun cap => ({ attached := some cap, recorded := chunked len, saved := s.slot.saved } :
        Lib.Slot)) cap
    rw [after]
    exact .inr (.replace _ _)

theorem slot_detach (buf : MsghdrBuf) (s : State) :
    (detachData buf s).slot = s.slot ∨ Lib.Slot.Step s.slot (detachData buf s).slot := by
  unfold detachData
  split
  · rename_i prevData attached
    have here : s.slot.attached = some (s.buf prevData).cap := by
      rw [State.slot, attached, Option.map_some]
    exact .inr (.detach s.slot _ here)
  · exact .inl rfl

theorem slot_restoreData (owned : Owned s) (prevData : Nat) : (restoreData prevData s).slot =
    { s.slot with attached := s.slot.attached.or (some (s.buf prevData).cap) } := by
  unfold restoreData
  split
  · rename_i current attached
    have here : s.slot.attached = some (s.buf current).cap := by
      rw [State.slot, attached, Option.map_some]
    rw [slot_free owned, here, Option.some_or, ← here]
  · rename_i attached
    have here : s.slot.attached = none := by rw [State.slot, attached, Option.map_none]
    rw [here]
    rfl

theorem slot_restore (owned : Owned s) {prevData : Nat} {rest : List Frame}
    (top : s.stack = .restoreData prevData :: rest) :
    Lib.Slot.Step s.slot (restoreData prevData { s with stack := rest }).slot := by
  have taken : s.slot.saved = (s.buf prevData).cap :: ({ s with stack := rest } : State).slot.saved := by
    rw [State.slot, top]
    rfl
  rw [slot_restoreData (owned.pop top)]
  exact .restore s.slot _ _ taken

end

/-- **What a step does first leaves the slot alone or is one of its operations.** -/
theorem Opens.slot {s t : State} (opens : Opens s t) (owned : Owned s) :
    t.slot = s.slot ∨ Lib.Slot.Step s.slot t.slot := by
  have caps : SameCaps s t := fun b old => (opens.block old).1.cap
  cases opens with
  | stay => exact .inl rfl
  | pop frame rest top free => exact .inl (slot_pop top (Frame.saved_none free))
  | release frame rest b top owns other =>
    exact .inl ((slot_free (owned.pop top) b).trans (slot_pop top other))
  | restore prevData rest top => exact .inr (slot_restore owned top)
  | abort r =>
    refine .inl (slot_congr owned caps ?_ ?_ ?_) <;> unfold ubusAbortRequest <;> split <;>
      simp only [freeAll_eq, State.mapReq]
  | receive rest top allocated hdr data =>
    have base := owned.pop top
    rw [slot_fill (base.allocated allocated), ← slot_pop top rfl]
    exact slot_allocated base allocated

/-- **So does what it does then.** -/
theorem Op.slot {detaches : Prop} {s t : State} (op : Op detaches s t) (owned : Owned s) :
    t.slot = s.slot ∨ Lib.Slot.Step s.slot t.slot := by
  have caps : SameCaps s t := fun b old => congrArg Buffer.cap (op.block old).1
  cases op with
  | steady steady => exact .inl (slot_steady steady)
  | queueMsg env buf =>
    refine .inl (slot_congr owned caps ?_ ?_ ?_) <;> unfold ubusQueueMsg <;> split <;> rfl
  | queueData bytes r type => exact .inl (slot_congr owned caps rfl rfl rfl)
  | take queued => exact .inl rfl
  | detach allowed buf => exact slot_detach buf s
  | fetch tmp listed => exact .inl rfl

/-! ### Every run -/

theorem Storage.exact {env : Env} {action : Action} {s s' : State}
    (storage : Storage lib env action s s') (owned : Owned s) (exact : s.slot.Exact) :
    s'.slot.Exact := by
  have next : ∀ {t u : State}, t.slot.Exact → u.slot = t.slot ∨ Lib.Slot.Step t.slot u.slot →
      u.slot.Exact := fun before after => after.elim (fun same => same ▸ before) before.step
  obtain ⟨t, opens, path⟩ := storage.ops
  have owned' := opens.owned owned
  have first := next exact (opens.slot owned)
  clear storage
  induction path with
  | refl => exact first
  | tail path op ih => exact next ih (op.slot (ops_owned path owned'))

theorem Reachable.exact {s : State} (reachable : Reachable lib s) : s.slot.Exact := by
  obtain ⟨channel, setup, path⟩ := reachable
  induction path with
  | refl => exact ⟨fun cap same => Option.some.inj same, fun none => by cases none⟩
  | tail path next ih =>
    obtain ⟨env, action, rfl⟩ := next
    exact (step_storage lib env action _).exact (Reachable.owned ⟨channel, setup, path⟩) ih

/-- **The receive buffer is large enough.** In every state `msgbuf_data_len` is the capacity of the
buffer that is attached; whenever `alloc_msg_buf` succeeds, the buffer has room for the message, and
when it fails, the buffer and its recorded length are unchanged. -/
theorem receive_buffer_fits {s : State} (reachable : Reachable lib s) :
    (∀ b, s.msgbufData = some b → s.msgbufDataLen = (s.buf b).cap) ∧
    ∀ (env : Env) (len : Nat) (ok : Bool) (t : State), 4 ≤ len → allocMsgBuf env len s = (ok, t) →
      (ok = true → ∃ b, t.msgbufData = some b ∧ t.msgbufDataLen = (t.buf b).cap ∧ len ≤ (t.buf b).cap) ∧
      (ok = false → t.msgbufData = s.msgbufData ∧ t.msgbufDataLen = s.msgbufDataLen ∧ t.buf = s.buf) := by
  have recorded : ∀ b, s.msgbufData = some b → s.msgbufDataLen = (s.buf b).cap := by
    intro b attached
    refine reachable.exact.attached _ ?_
    rw [State.slot, attached, Option.map_some]
  refine ⟨recorded, fun env len ok t long result => ?_⟩
  have cases := allocMsgBuf_cases env len s
  rw [result] at cases
  have enough := le_chunked len
  cases cases with
  | fits counter room =>
    refine ⟨fun _ => ?_, fun impossible => Bool.noConfusion impossible⟩
    rcases attached : s.msgbufData with _ | b
    · rw [attached, Option.isNone_none, if_pos rfl] at room
      omega
    · rw [attached, Option.isNone_some, if_neg Bool.false_ne_true, recorded b attached] at room
      exact ⟨b, rfl, recorded b attached, enough.trans room⟩
  | moved counter =>
    refine ⟨fun _ => ⟨s.brk, rfl, ?_⟩, fun impossible => Bool.noConfusion impossible⟩
    have cap : ((State.realloc (chunked len) { s with msgbufReductionCounter := counter }).buf s.brk).cap =
        chunked len := by
      simp only [State.realloc, Function.update_self]
    exact ⟨cap.symm, enough.trans_eq cap.symm⟩
  | failed counter => exact ⟨fun impossible => Bool.noConfusion impossible, fun _ => ⟨rfl, rfl, rfl⟩⟩

/-- A `NOTIFY` for an object is read, and its buffer is detached. -/
def noticed : List (Env × Action) :=
  [doing .handleEvent] ++ quietly 2 ++
    [receiving { type := MsgType.notify.code } (Blob.rawBlob [.int32 .objid 5]) none] ++ quietly 1

/-- While the buffer is detached, a message gets a new one. -/
theorem receive_buffer_fits_detached : ∃ s t, Reachable libubox s ∧ s.msgbufData = none ∧
    allocMsgBuf {} 100000 s = (true, t) ∧
    ∃ b, t.msgbufData = some b ∧ t.msgbufDataLen = (t.buf b).cap ∧ 100000 ≤ (t.buf b).cap := by
  obtain ⟨s, start⟩ : ∃ s, run libubox noticed (init false {}) = s := ⟨_, rfl⟩
  have reachable : Reachable libubox s := start ▸ ⟨false, {}, run_steps _ _⟩
  have succeeds : (allocMsgBuf {} 100000 s).1 = true := by
    rw [← start]
    decide +kernel
  rcases result : allocMsgBuf {} 100000 s with ⟨ok, t⟩
  rw [result] at succeeds
  obtain rfl : ok = true := succeeds
  exact ⟨s, t, reachable, by rw [← start]; decide +kernel, result,
    ((receive_buffer_fits reachable).2 {} 100000 true t (by decide) result).1 rfl⟩

end Ubus.Libubus
