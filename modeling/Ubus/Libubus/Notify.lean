/-
**Notifications.**

A notification is answered first by ubusd, in slot 0, with the list of the subscribers; each of these has
a slot of its own then. `nreq->pending` is the set of the slots that are not answered yet.

* `Booked`: the bookkeeping against the statuses that were processed (`answered`).
* `Lives.booked`: every move of a request without `fd_cb` keeps it.
-/

import Ubus.Lib.Mask
import Ubus.Libubus.Abort

namespace Ubus.Libubus

open Lib

variable {lib : Libubox}
variable {r i : Nat} {id fd : Option Nat} {rest : List Frame} {s : State} {n : Request}
  {frame : Frame} {content : Bytes} {buf : MsghdrBuf}

/-! ### Slots -/

/-- The subscribers that get a slot. -/
def listed (lib : Libubox) (content : Bytes) : List UInt32 :=
  (((subscribersIn lib content).filter fun cur => (lib.blobData cur).length = 4).map
    lib.blobGetU32).take ubusMaxNotifyPeers

/-- The slots of the statuses that were processed, newest first. -/
def answered (events : List Event) : List Nat :=
  events.filterMap fun
    | .notified _ id _ => some id
    | _ => none

/-- The slots for which `status_cb` was called, newest first. -/
def reported (events : List Event) : List Nat :=
  events.filterMap fun
    | .call (.notifyStatus _ id _) => some id
    | _ => none

theorem and_one_ne_zero (x : BitVec 32) : x &&& 1 ≠ 0 ↔ x.getLsbD 0 = true := by
  rw [show (1 : BitVec 32) = 1#32 from rfl, BitVec.and_one_eq_setWidth_ofBool_getLsbD]
  cases x.getLsbD 0 <;> simp

theorem findNotifyId_eq (id : Nat → UInt32) (objid : UInt32) (fuel i : Nat) (x : BitVec 32) :
    findNotifyId id objid fuel i x = firstSlot (fun k => id k == objid) fuel i x := by
  induction fuel generalizing i x with
  | zero => rfl
  | succ fuel ih =>
    rw [findNotifyId, firstSlot, ih]
    congr 1
    simp only [and_one_ne_zero, Bool.and_eq_true, beq_iff_eq]

theorem ubusFindNotifyId_eq_some {objid : UInt32} :
    ubusFindNotifyId n objid = some i ↔ n.notifyPending.getLsbD i = true ∧ n.notifyId i = objid ∧
      ∀ k < i, n.notifyPending.getLsbD k = true → n.notifyId k ≠ objid := by
  rw [ubusFindNotifyId, findNotifyId_eq, firstSlot_eq_some]
  simp

theorem matches_notify (notify : n.notify = true) {seq : UInt16} {peer : UInt32} :
    n.matches seq peer = some id ↔ seq = n.seq ∧ ∃ i, id = some i ∧
      n.notifyPending.getLsbD i = true ∧ n.notifyId i = peer ∧
      ∀ k < i, n.notifyPending.getLsbD k = true → n.notifyId k ≠ peer := by
  unfold Request.matches
  by_cases same : seq = n.seq
  · rw [if_neg (not_not.mpr same), if_pos notify]
    constructor
    · intro hit
      split at hit
      · cases hit
      · obtain ⟨i, found, rfl⟩ := Option.map_eq_some_iff.mp hit
        exact ⟨same, i, rfl, ubusFindNotifyId_eq_some.mp found⟩
    · rintro ⟨-, i, rfl, bit, holds, first⟩
      have some_ : ¬ n.notifyPending = 0 := by
        intro empty
        rw [(eq_zero_iff_getLsbD _).mp empty] at bit
        cases bit
      rw [if_neg some_, ubusFindNotifyId_eq_some.mpr ⟨bit, holds, first⟩]
      rfl
  · rw [if_pos same]
    exact ⟨fun hit => (by cases hit), fun hit => absurd hit.1 same⟩

theorem addPeers_slots (idx : Nat) (room : idx ≤ ubusMaxNotifyPeers) (subscribers : List Bytes)
    (n : Request) (ids : List UInt32)
    (valid : ids = ((subscribers.filter fun cur => (lib.blobData cur).length = 4).map
      lib.blobGetU32).take (ubusMaxNotifyPeers + 1 - idx)) :
    (∀ i, (addPeers lib idx subscribers n).notifyPending.getLsbD i =
      (n.notifyPending.getLsbD i || decide (idx ≤ i ∧ i < idx + ids.length))) ∧
    ∀ i, (addPeers lib idx subscribers n).notifyId i =
      if idx ≤ i then ids[i - idx]?.getD (n.notifyId i) else n.notifyId i := by
  induction subscribers generalizing idx n ids with
  | nil =>
    subst valid
    simp [addPeers]
  | cons cur rest ih =>
    unfold addPeers
    by_cases integer : (lib.blobData cur).length = 4
    · rw [if_neg (not_not.mpr integer)]
      rw [List.filter_cons_of_pos (by simpa using integer), List.map_cons] at valid
      obtain ⟨left, count⟩ : ∃ left, ubusMaxNotifyPeers + 1 - idx = left + 1 :=
        ⟨ubusMaxNotifyPeers - idx, by omega⟩
      rw [count, List.take_succ_cons] at valid
      have word : idx < 32 := Nat.lt_of_le_of_lt room (by decide)
      have entered : ∀ i, Function.update n.notifyId idx (lib.blobGetU32 cur) i =
          if i = idx then lib.blobGetU32 cur else n.notifyId i := fun i => Function.update_apply ..
      subst valid
      dsimp only
      split
      · have none_left : left = 0 := by omega
        subst none_left
        refine ⟨fun i => ?_, fun i => ?_⟩
        · rw [getLsbD_insert _ word]
          congr 1
          rw [decide_eq_decide, List.take_zero, List.length_singleton]
          omega
        · dsimp only
          rw [entered]
          rcases Nat.lt_trichotomy i idx with before | rfl | after
          · rw [if_neg before.ne, if_neg before.not_ge]
          · simp
          · rw [if_neg after.ne', if_pos after.le, List.getElem?_eq_none (by simp; omega)]
            rfl
      · obtain ⟨bits, slots⟩ := ih (idx + 1) (by omega) { n with
          notifyPending := n.notifyPending ||| (1#32 <<< idx)
          notifyId := Function.update n.notifyId idx (lib.blobGetU32 cur) } _ rfl
        have fewer : ubusMaxNotifyPeers + 1 - (idx + 1) = left := by omega
        rw [fewer] at bits slots
        dsimp only at bits slots
        refine ⟨fun i => ?_, fun i => ?_⟩
        · rw [bits, getLsbD_insert _ word, Bool.or_assoc]
          congr 1
          rw [List.length_cons, ← Bool.decide_or, decide_eq_decide]
          omega
        · rw [slots, entered]
          rcases Nat.lt_trichotomy i idx with before | rfl | after
          · rw [if_neg (by omega), if_neg before.ne, if_neg before.not_ge]
          · rw [if_neg (by omega), if_pos rfl, if_pos le_rfl, Nat.sub_self]
            rfl
          · obtain ⟨k, rfl⟩ : ∃ k, i = idx + 1 + k := ⟨i - (idx + 1), by omega⟩
            rw [if_pos (by omega), if_neg after.ne', if_pos after.le, Nat.add_sub_cancel_left,
              show idx + 1 + k - idx = k + 1 by omega, List.getElem?_cons_succ]
    · rw [if_pos integer]
      rw [List.filter_cons_of_neg (by simpa using integer)] at valid
      exact ih idx room n ids valid

/-! ### Bookkeeping -/

/-- The slots after ubusd's answer: those of the listed subscribers that have not answered are
pending, and none has answered twice. -/
structure Tracked (lib : Libubox) (v : Life) (content : Bytes) : Prop where
  nodup : (answered v.events).Nodup
  inside : ∀ i ∈ answered v.events, i ≤ (listed lib content).length
  pending : ∀ i, v.req.notifyPending.getLsbD i = true ↔
    1 ≤ i ∧ i ≤ (listed lib content).length ∧ i ∉ answered v.events
  ids : ∀ i (inside : i < (listed lib content).length),
    v.req.notifyId (i + 1) = (listed lib content)[i]

/-- The slots of a notification, before and after ubusd's answer. -/
structure Slots (lib : Libubox) (v : Life) : Prop where
  tracked : answered v.events = [] ∧ v.req.notifyPending = 1 ∨
    ∃ r content, .notified r 0 content ∈ v.events ∧ Tracked lib v content
  bounded : ∀ i, ubusMaxNotifyPeers < i → v.req.notifyId i = 0
  reported : reported v.events =
    if v.req.notifyStatusCb then (answered v.events).filter (· ≠ 0) else []

/-- A frame in the middle of `ubus_process_notify_status`, or after its last test. -/
def Frame.closes : Frame → Bool
  | .setReqStatus _ ret => ret = Status.ok.code
  | .notifyStatus _ => true
  | _ => false

/-- The status is set when no slot is pending, and only then to zero. -/
structure Closing (v : Life) : Prop where
  due : v.req.notifyPending = 0 → v.req.statusMsg = true ∨ ∃ frame ∈ v.frames, frame.closes = true
  frames : ∀ r, .setReqStatus r Status.ok.code ∈ v.frames → v.req.notifyPending = 0
  code : v.req.statusMsg = true → v.req.statusCode = Status.ok.code → v.req.notifyPending = 0
  direct : ∀ r id buf, .processStatus r id buf ∉ v.frames

theorem listed_length (lib : Libubox) (content : Bytes) :
    (listed lib content).length ≤ ubusMaxNotifyPeers :=
  List.length_take_le ..

/-! ### Moves that do not touch the slots -/

/-- The fields of a notification. -/
structure Book where
  notify : Bool
  fdCb : Bool
  statusCb : Bool
  pending : BitVec 32
  ids : Nat → UInt32

def Request.book (n : Request) : Book :=
  ⟨n.notify, n.fdCb, n.notifyStatusCb, n.notifyPending, n.notifyId⟩

/-- An event that is no status of a slot. -/
def Event.unbooked : Event → Bool
  | .notified _ _ _ | .call (.notifyStatus _ _ _) => false
  | _ => true

structure Unbooked (v v' : Life) : Prop where
  book : v'.req.book = v.req.book
  logged : ∃ new, v'.events = new ++ v.events ∧ ∀ event ∈ new, event.unbooked = true

namespace Unbooked

variable {v v' w : Life}

theorem of_eq (book : v'.req.book = v.req.book) (events : v'.events = v.events) : Unbooked v v' :=
  ⟨book, [], events, List.forall_mem_nil _⟩

theorem refl (v : Life) : Unbooked v v := of_eq rfl rfl

theorem trans (first : Unbooked v w) (second : Unbooked w v') : Unbooked v v' := by
  obtain ⟨new, events, free⟩ := first.logged
  obtain ⟨new', events', free'⟩ := second.logged
  refine ⟨second.book.trans first.book, new' ++ new, ?_, List.forall_mem_append.mpr ⟨free', free⟩⟩
  rw [events', events, List.append_assoc]

theorem log (before : Unbooked v w) {event : Event} (free : event.unbooked = true) :
    Unbooked v (w.log event) :=
  before.trans ⟨rfl, [event], rfl, by simpa using free⟩

theorem push (before : Unbooked v w) (frame : Frame) : Unbooked v (w.push frame) :=
  before.trans (of_eq rfl rfl)

theorem call (before : Unbooked v w) {cb : Callback} (free : (Event.call cb).unbooked = true) :
    Unbooked v (w.call cb) :=
  (before.log free).push _

theorem runCb (before : Unbooked v w) (r : Nat) (cb : CompleteCb) (ret : UInt32) :
    Unbooked v (w.runCb r cb ret) := by
  cases cb with
  | null => exact before
  | sync => exact before.trans (of_eq rfl rfl)
  | user => exact (before.log rfl).call rfl
  | notify =>
    simp only [Life.runCb]
    split
    · exact (before.log rfl).call rfl
    · exact before.log rfl

theorem complete (before : Unbooked v w) (r : Nat) : Unbooked v (w.complete r) := by
  have cleared : Unbooked w (w.map fun req => { req with completeCb := .null }) := of_eq rfl rfl
  exact (before.trans cleared).runCb r _ _

theorem answered (unbooked : Unbooked v v') : Libubus.answered v'.events = Libubus.answered v.events := by
  obtain ⟨new, events, free⟩ := unbooked.logged
  rw [events]
  show List.filterMap _ (new ++ v.events) = _
  rw [List.filterMap_append, List.filterMap_eq_nil_iff.mpr, List.nil_append]
  · rfl
  intro event member
  have free := free event member
  cases event with
  | notified => cases free
  | _ => rfl

theorem reported (unbooked : Unbooked v v') : Libubus.reported v'.events = Libubus.reported v.events := by
  obtain ⟨new, events, free⟩ := unbooked.logged
  rw [events]
  show List.filterMap _ (new ++ v.events) = _
  rw [List.filterMap_append, List.filterMap_eq_nil_iff.mpr, List.nil_append]
  · rfl
  intro event member
  have free := free event member
  cases event with
  | call cb =>
    cases cb with
    | notifyStatus => cases free
    | _ => rfl
  | _ => rfl

theorem slots (unbooked : Unbooked v v') (slots : Slots lib v) : Slots lib v' := by
  have pending : v'.req.notifyPending = v.req.notifyPending := congrArg Book.pending unbooked.book
  have ids : v'.req.notifyId = v.req.notifyId := congrArg Book.ids unbooked.book
  have statusCb : v'.req.notifyStatusCb = v.req.notifyStatusCb :=
    congrArg Book.statusCb unbooked.book
  refine ⟨?_, ?_, ?_⟩
  · rw [unbooked.answered, pending]
    refine slots.tracked.imp id ?_
    rintro ⟨r, content, first, tracked⟩
    obtain ⟨new, events, -⟩ := unbooked.logged
    refine ⟨r, content, ?_, ?_, ?_, ?_, ?_⟩
    · rw [events]
      exact List.mem_append_right new first
    · rw [unbooked.answered]
      exact tracked.nodup
    · rw [unbooked.answered]
      exact tracked.inside
    · rw [unbooked.answered, pending]
      exact tracked.pending
    · rw [ids]
      exact tracked.ids
  · rw [ids]
    exact slots.bounded
  · rw [unbooked.reported, unbooked.answered, statusCb]
    exact slots.reported

end Unbooked

/-! ### Closing -/

/-- A frame that works on a status, or that ends a request with success. -/
def Frame.reports : Frame → Bool
  | .processStatus _ _ _ => true
  | .setReqStatus _ ret => ret = Status.ok.code
  | _ => false

namespace Closing

variable {v : Life}

theorem push (closing : Closing v) (other : frame.reports = false) : Closing (v.push frame) := by
  refine ⟨fun empty => ?_, fun r member => ?_, closing.code, fun r id buf member => ?_⟩
  · refine (closing.due empty).imp id ?_
    rintro ⟨other, member, closes⟩
    exact ⟨other, List.mem_cons_of_mem _ member, closes⟩
  · rcases List.mem_cons.mp member with same | below
    · subst same
      exact Bool.noConfusion other
    · exact closing.frames r below
  · rcases List.mem_cons.mp member with same | below
    · subst same
      cases other
    · exact closing.direct r id buf below

theorem app (closing : Closing v) (cb : Callback) : Closing (v.push (.app cb)) :=
  closing.push rfl

theorem pop (closing : Closing v) (top : v.frames = frame :: rest)
    (open_ : v.req.statusMsg = true ∨ frame.closes = false) :
    Closing { v with frames := rest } := by
  have sub : ∀ {other}, other ∈ rest → other ∈ v.frames := fun member =>
    top ▸ List.mem_cons_of_mem _ member
  refine ⟨fun empty => ?_, fun r member => closing.frames r (sub member), closing.code,
    fun r id buf member => closing.direct r id buf (sub member)⟩
  rcases open_ with known | plain
  · exact .inl known
  refine (closing.due empty).imp id ?_
  rintro ⟨other, member, closes⟩
  rw [top] at member
  rcases List.mem_cons.mp member with rfl | below
  · rw [plain] at closes
    cases closes
  · exact ⟨other, below, closes⟩

theorem log (closing : Closing v) (event : Event) : Closing (v.log event) :=
  ⟨closing.due, closing.frames, closing.code, closing.direct⟩

theorem call (closing : Closing v) (cb : Callback) : Closing (v.call cb) :=
  (closing.log _).app cb

theorem runCb (closing : Closing v) (r : Nat) (cb : CompleteCb) (ret : UInt32)
    (zero : ret = Status.ok.code → v.req.notifyPending = 0) : Closing (v.runCb r cb ret) := by
  cases cb with
  | null => exact closing
  | sync => exact ⟨fun _ => .inl rfl, closing.frames, fun _ => zero, closing.direct⟩
  | user => exact (closing.log _).call _
  | notify =>
    simp only [Life.runCb]
    split
    · exact (closing.log _).call _
    · exact closing.log _

theorem complete (closing : Closing v) (r : Nat) (known : v.req.statusMsg = true) :
    Closing (v.complete r) := by
  have cleared : Closing (v.map fun req => { req with completeCb := .null }) :=
    ⟨closing.due, closing.frames, closing.code, closing.direct⟩
  exact cleared.runCb r _ _ (closing.code known)

theorem setStatus (closing : Closing v) {ret : UInt32}
    (top : v.frames = .setReqStatus r ret :: rest) :
    Closing ({ v with frames := rest }.setStatus r ret) := by
  have zero : ret = Status.ok.code → v.req.notifyPending = 0 := by
    rintro rfl
    exact closing.frames r (top ▸ List.mem_cons_self)
  have known : Closing { v with linked := false, req := { v.req with statusMsg := true, statusCode := ret } } :=
    ⟨fun _ => .inl rfl, closing.frames, fun _ => zero, closing.direct⟩
  have marked : Closing ({ v with frames := rest }.mark ret) := known.pop top (.inl rfl)
  unfold Life.setStatus
  split
  · exact marked
  · exact marked.complete r rfl

theorem waitEnd (closing : Closing v) (r : Nat) (cb : CompleteCb) : Closing (v.waitEnd r cb) := by
  have zero : v.status = Status.ok.code → v.req.notifyPending = 0 := by
    unfold Life.status
    split
    · rename_i known
      exact closing.code known
    · exact fun wrong => absurd wrong (by decide)
  have restored : Closing (v.map fun req => { req with completeCb := cb }) :=
    ⟨closing.due, closing.frames, closing.code, closing.direct⟩
  have pushed : Closing ((v.map fun req => { req with completeCb := cb }).push
      (.waitCompleted r cb v.status)) :=
    restored.push rfl
  exact pushed.runCb r cb v.status zero

theorem drain (closing : Closing v) (r : Nat) (entry : Option Nat) : Closing (v.drain r entry) := by
  cases entry with
  | none =>
    have unblocked : Closing (v.map fun req => { req with blocked := false }) :=
      ⟨closing.due, closing.frames, closing.code, closing.direct⟩
    simp only [Life.drain]
    split
    · rename_i known
      exact unblocked.complete r known
    · exact unblocked
  | some data =>
    have looped : ∀ pending next, Closing (({ v with req := { v.req with pending } } : Life).push
        (.drain r data next)) := by
      intro pending next
      have taken : Closing { v with req := { v.req with pending } } :=
        ⟨closing.due, closing.frames, closing.code, closing.direct⟩
      exact taken.push rfl
    simp only [Life.drain]
    split
    · exact closing
    split
    · exact looped _ _
    · exact (looped _ _).push rfl

theorem notifyEnd (r : Nat) (frames : ∀ r, .setReqStatus r Status.ok.code ∈ v.frames → v.req.notifyPending = 0)
    (code : v.req.statusMsg = true → v.req.statusCode = Status.ok.code → v.req.notifyPending = 0)
    (direct : ∀ r id buf, .processStatus r id buf ∉ v.frames) : Closing (v.notifyEnd r) := by
  unfold Life.notifyEnd
  split
  · rename_i empty
    refine ⟨fun _ => .inr ⟨_, List.mem_cons_self, by simp [Frame.closes]⟩, fun _ _ => empty,
      fun _ _ => empty, fun r id buf member => ?_⟩
    rcases List.mem_cons.mp member with same | below
    · cases same
    · exact direct r id buf below
  · rename_i some_
    exact ⟨fun empty => absurd empty some_, frames, code, direct⟩

end Closing

/-! ### Moves -/

theorem Unbooked.drain {v : Life} (r : Nat) (entry : Option Nat) : Unbooked v (v.drain r entry) := by
  have base := Unbooked.refl v
  cases entry with
  | none =>
    have unblocked : Unbooked v (v.map fun req => { req with blocked := false }) := .of_eq rfl rfl
    simp only [Life.drain]
    split
    · exact unblocked.complete r
    · exact unblocked
  | some data =>
    have taken : ∀ pending, Unbooked v { v with req := { v.req with pending } } := fun _ =>
      .of_eq rfl rfl
    simp only [Life.drain]
    split
    · exact base
    split
    · exact (taken _).push _
    · exact ((taken _).push _).push _

theorem Unbooked.setStatus {v : Life} (r : Nat) (ret : UInt32) : Unbooked v (v.setStatus r ret) := by
  have marked : Unbooked v (v.mark ret) := .of_eq rfl rfl
  unfold Life.setStatus
  split
  · exact marked
  · exact marked.complete r

theorem Unbooked.waitEnd {v : Life} (r : Nat) (cb : CompleteCb) : Unbooked v (v.waitEnd r cb) := by
  have restored : Unbooked v (v.map fun req => { req with completeCb := cb }) := .of_eq rfl rfl
  exact (restored.push _).runCb r cb _

theorem Unbooked.notifyEnd {v : Life} (r : Nat) : Unbooked v (v.notifyEnd r) := by
  unfold Life.notifyEnd
  split
  · exact (Unbooked.refl v).push _
  · exact .refl v

/-- What a status for slot `i` does. -/
structure Answers (lib : Libubox) (r i : Nat) (content : Bytes) (v v' : Life) : Prop where
  answered : answered v'.events = i :: answered v.events
  reported : reported v'.events =
    if i ≠ 0 ∧ v.req.notifyStatusCb = true then i :: reported v.events else reported v.events
  first : i = 0 → .notified r 0 content ∈ v'.events
  pending : ∀ j, v'.req.notifyPending.getLsbD j =
    if i = 0 then decide (1 ≤ j ∧ j ≤ (listed lib content).length)
    else v.req.notifyPending.getLsbD j && decide (j ≠ i)
  ids : ∀ j, v'.req.notifyId j =
    if i = 0 ∧ 1 ≤ j then (listed lib content)[j - 1]?.getD (v.req.notifyId j) else v.req.notifyId j
  fixed : v'.req.notify = v.req.notify ∧ v'.req.fdCb = v.req.fdCb ∧
    v'.req.notifyStatusCb = v.req.notifyStatusCb
  kept : ∀ event ∈ v.events, event ∈ v'.events

theorem Answers.unbooked {v w v' : Life} (answers : Answers lib r i content v w)
    (unbooked : Unbooked w v') : Answers lib r i content v v' := by
  obtain ⟨new, events, -⟩ := unbooked.logged
  have pending : v'.req.notifyPending = w.req.notifyPending := congrArg Book.pending unbooked.book
  have ids : v'.req.notifyId = w.req.notifyId := congrArg Book.ids unbooked.book
  have notify : v'.req.notify = w.req.notify := congrArg Book.notify unbooked.book
  have fdCb : v'.req.fdCb = w.req.fdCb := congrArg Book.fdCb unbooked.book
  have statusCb : v'.req.notifyStatusCb = w.req.notifyStatusCb := congrArg Book.statusCb unbooked.book
  refine ⟨unbooked.answered.trans answers.answered, unbooked.reported.trans answers.reported,
    fun zero => ?_, ?_, ?_, ?_, fun event member => ?_⟩
  · rw [events]
    exact List.mem_append_right _ (answers.first zero)
  · rw [pending]
    exact answers.pending
  · rw [ids]
    exact answers.ids
  · rw [notify, fdCb, statusCb]
    exact answers.fixed
  · rw [events]
    exact List.mem_append_right _ (answers.kept event member)

theorem Slots.first {v : Life} (slots : Slots lib v) (bit : v.req.notifyPending.getLsbD 0 = true) :
    answered v.events = [] ∧ v.req.notifyPending = 1 := by
  rcases slots.tracked with early | ⟨-, content, -, tracked⟩
  · exact early
  · have late := ((tracked.pending 0).mp bit).1
    omega

theorem process_answers {v : Life} (r i : Nat) (peer : UInt32) (content : Bytes)
    (slots : Slots lib v) (closing : Closing v) (bit : v.req.notifyPending.getLsbD i = true) :
    Answers lib r i content v (v.process lib r (some i) peer content) ∧
      Closing (v.process lib r (some i) peer content) := by
  have open_ : v.req.notifyPending ≠ 0 := by
    intro empty
    rw [(eq_zero_iff_getLsbD _).mp empty] at bit
    cases bit
  have frames : ∀ {r}, .setReqStatus r Status.ok.code ∉ v.frames := fun member =>
    open_ (closing.frames _ member)
  have code : v.req.statusMsg = true → v.req.statusCode ≠ Status.ok.code := fun known zero =>
    open_ (closing.code known zero)
  simp only [Life.process]
  by_cases first : i = 0
  · subst first
    rw [if_pos rfl]
    obtain ⟨n, same⟩ : ∃ n : Request,
      n = { v.req with notifyPending := v.req.notifyPending &&& ~~~(1#32 <<< 0) } := ⟨_, rfl⟩
    obtain ⟨bits, names⟩ : _ ∧ ∀ i, (addPeers lib 1 (subscribersIn lib content) n).notifyId i = _ :=
      addPeers_slots 1 (by decide) (subscribersIn lib content) n (listed lib content) rfl
    have known : (addPeers lib 1 (subscribersIn lib content) n).statusMsg = v.req.statusMsg := by
      rw [addPeers_other Request.statusMsg fun _ _ _ => rfl, same]
    have value : (addPeers lib 1 (subscribersIn lib content) n).statusCode = v.req.statusCode := by
      rw [addPeers_other Request.statusCode fun _ _ _ => rfl, same]
    have answers : Answers lib r 0 content v { v with
        req := addPeers lib 1 (subscribersIn lib content) n
        events := .notified r 0 content :: v.events } := by
      refine ⟨rfl, rfl, fun _ => List.mem_cons_self, fun j => ?_, fun j => ?_, ?_,
        fun event member => List.mem_cons_of_mem _ member⟩
      · have one : v.req.notifyPending = 1#32 := (slots.first bit).2
        have dark : n.notifyPending.getLsbD j = false := by
          rw [same, getLsbD_clear, one, BitVec.getLsbD_one]
          by_cases zero : j = 0
          · simp [zero]
          · simp
        rw [if_pos rfl]
        refine (bits j).trans ?_
        rw [dark, Bool.false_or, decide_eq_decide]
        omega
      · have old : n.notifyId j = v.req.notifyId j := by rw [same]
        refine (names j).trans ?_
        simp only [true_and, old]
      · subst same
        exact ⟨addPeers_other Request.notify (fun _ _ _ => rfl) ..,
          addPeers_other Request.fdCb (fun _ _ _ => rfl) ..,
          addPeers_other Request.notifyStatusCb (fun _ _ _ => rfl) ..⟩
    have ended := Closing.notifyEnd (v := { v with
        req := addPeers lib 1 (subscribersIn lib content) n
        events := .notified r 0 content :: v.events }) r (fun _ member => absurd member frames)
      (fun status zero => absurd (value.symm.trans zero) (code (known.symm.trans status))) closing.direct
    subst same
    exact ⟨answers.unbooked (Unbooked.notifyEnd r), ended⟩
  · rw [if_neg first]
    have cleared : ∀ j, (v.req.notifyPending &&& ~~~(1#32 <<< i)).getLsbD j =
        (v.req.notifyPending.getLsbD j && decide (j ≠ i)) := getLsbD_clear _ i
    split
    · rename_i set
      refine ⟨⟨rfl, ?_, fun zero => absurd zero first, fun j => ?_, fun j => ?_, ⟨rfl, rfl, rfl⟩,
        fun event member => List.mem_cons_of_mem _ (List.mem_cons_of_mem _ member)⟩, ?_⟩
      · rw [if_pos ⟨first, set⟩]
        rfl
      · rw [if_neg first]
        exact cleared j
      · rw [if_neg fun zero => first zero.1]
        rfl
      refine ⟨fun _ => .inr ⟨.notifyStatus r, ?_, rfl⟩, fun r' member => ?_,
        fun status zero => absurd zero (code status), fun r' id buf member => ?_⟩
      · exact List.mem_cons_of_mem _ List.mem_cons_self
      · rcases List.mem_cons.mp member with same | below
        · cases same
        rcases List.mem_cons.mp below with same | below
        · cases same
        · exact absurd below frames
      · rcases List.mem_cons.mp member with same | below
        · cases same
        rcases List.mem_cons.mp below with same | below
        · cases same
        · exact closing.direct r' id buf below
    · rename_i unset
      have answers : Answers lib r i content v ((v.map fun n =>
          { n with notifyPending := n.notifyPending &&& ~~~(1#32 <<< i) }).log
            (.notified r i content)) := by
        refine ⟨rfl, ?_, fun zero => absurd zero first, fun j => ?_, fun j => ?_, ⟨rfl, rfl, rfl⟩,
          fun event member => List.mem_cons_of_mem _ member⟩
        · rw [if_neg fun both => unset both.2]
          rfl
        · rw [if_neg first]
          exact cleared j
        · rw [if_neg fun zero => first zero.1]
          rfl
      refine ⟨answers.unbooked (Unbooked.notifyEnd r), ?_⟩
      exact Closing.notifyEnd r (fun _ member => absurd member frames)
        (fun status zero => absurd zero (code status)) closing.direct

theorem Answers.slots {v v' : Life} (answers : Answers lib r i content v v') (slots : Slots lib v)
    (bit : v.req.notifyPending.getLsbD i = true) : Slots lib v' := by
  obtain ⟨-, -, statusCb⟩ := answers.fixed
  have short := listed_length lib content
  by_cases first : i = 0
  · subst first
    obtain ⟨none_, -⟩ := slots.first bit
    have now : Libubus.answered v'.events = [0] := by rw [answers.answered, none_]
    refine ⟨.inr ⟨r, content, answers.first rfl, ?_, ?_, fun j => ?_, fun j inside => ?_⟩, ?_, ?_⟩
    · rw [now]
      exact List.nodup_cons.mpr ⟨List.not_mem_nil, List.nodup_nil⟩
    · rw [now]
      intro j member
      rw [List.mem_singleton.mp member]
      exact Nat.zero_le _
    · rw [answers.pending, if_pos rfl, decide_eq_true_iff, now, List.mem_singleton]
      omega
    · rw [answers.ids, if_pos ⟨rfl, Nat.le_add_left 1 j⟩, Nat.add_sub_cancel,
        List.getElem?_eq_getElem inside]
      rfl
    · intro j beyond
      rw [answers.ids, if_pos ⟨rfl, by omega⟩, List.getElem?_eq_none (by omega)]
      exact slots.bounded j beyond
    · rw [answers.reported, if_neg fun both => both.1 rfl, slots.reported, statusCb, now, none_]
      rfl
  · obtain ⟨r', subscribers, known, tracked⟩ := slots.tracked.resolve_left (by
      rintro ⟨-, one⟩
      rw [one, show (1 : BitVec 32) = 1#32 from rfl, BitVec.getLsbD_one] at bit
      simp at bit
      omega)
    obtain ⟨low, high, unanswered⟩ := (tracked.pending i).mp bit
    refine ⟨.inr ⟨r', subscribers, answers.kept _ known, ?_, ?_, fun j => ?_, fun j inside => ?_⟩, ?_, ?_⟩
    · rw [answers.answered]
      exact List.nodup_cons.mpr ⟨unanswered, tracked.nodup⟩
    · rw [answers.answered]
      exact List.forall_mem_cons.mpr ⟨high, tracked.inside⟩
    · rw [answers.pending, if_neg first, answers.answered, Bool.and_eq_true, tracked.pending,
        decide_eq_true_iff, List.mem_cons, not_or]
      tauto
    · rw [answers.ids, if_neg fun both => first both.1]
      exact tracked.ids j inside
    · intro j beyond
      rw [answers.ids, if_neg fun both => first both.1]
      exact slots.bounded j beyond
    · rw [answers.reported, answers.answered, slots.reported, statusCb]
      cases v.req.notifyStatusCb with
      | true => simp [first]
      | false => simp

theorem process_fixed (lib : Libubox) (v : Life) (r : Nat) (id : Option Nat) (peer : UInt32) (content : Bytes) :
    (v.process lib r id peer content).req.notify = v.req.notify ∧
      (v.process lib r id peer content).req.fdCb = v.req.fdCb := by
  have ended : ∀ w : Life, (w.notifyEnd r).req = w.req := by
    intro w
    unfold Life.notifyEnd
    split <;> rfl
  cases id with
  | none => exact ⟨rfl, rfl⟩
  | some id =>
    simp only [Life.process]
    split
    · rw [ended]
      exact ⟨addPeers_other Request.notify (fun _ _ _ => rfl) ..,
        addPeers_other Request.fdCb (fun _ _ _ => rfl) ..⟩
    split
    · exact ⟨rfl, rfl⟩
    · rw [ended]
      exact ⟨rfl, rfl⟩

/-- **Every move of a notification without `fd_cb` keeps its bookkeeping.** -/
theorem Lives.booked {may : Life → Handling → Prop} {v v' : Life} (move : Lives lib may r v v') :
    v'.req.notify = v.req.notify ∧ v'.req.fdCb = v.req.fdCb ∧
      (v.req.notify = true → v.req.fdCb = false → Slots lib v → Closing v →
        Slots lib v' ∧ Closing v') := by
  have quiet : ∀ {w}, Unbooked v w → (Closing v → Closing w) →
      w.req.notify = v.req.notify ∧ w.req.fdCb = v.req.fdCb ∧
        (v.req.notify = true → v.req.fdCb = false → Slots lib v → Closing v →
          Slots lib w ∧ Closing w) := fun unbooked closes =>
    ⟨congrArg Book.notify unbooked.book, congrArg Book.fdCb unbooked.book,
      fun _ _ slots closing => ⟨unbooked.slots slots, closes closing⟩⟩
  have base := Unbooked.refl v
  have popped : ∀ rest, Unbooked v { v with frames := rest } := fun _ => .of_eq rfl rfl
  cases move with
  | link allowed =>
    exact quiet (.of_eq rfl rfl) fun closing =>
      ⟨closing.due, closing.frames, closing.code, closing.direct⟩
  | wait allowed timed =>
    refine quiet (.of_eq rfl rfl) fun closing => ?_
    have pushed : Closing (v.push (.waitLoop r v.req.completeCb timed)) :=
      closing.push rfl
    exact ⟨pushed.due, pushed.frames, pushed.code, pushed.direct⟩
  | abort allowed =>
    unfold Life.abort
    split
    · exact quiet (.of_eq rfl rfl) fun closing =>
        ⟨closing.due, closing.frames, closing.code, closing.direct⟩
    · exact quiet base id
  | ret cb rest top =>
    exact quiet (popped rest) fun closing => closing.pop top (.inr rfl)
  | flush linked =>
    exact quiet (base.push _) fun closing =>
      closing.push rfl
  | fd linked seq peer id hit set buf sock =>
    refine ⟨rfl, rfl, fun _ unset => ?_⟩
    rw [set] at unset
    cases unset
  | status linked seq peer id hit content =>
    obtain ⟨notify, fdCb⟩ := process_fixed lib v r id peer content
    refine ⟨notify, fdCb, fun notify _ slots closing => ?_⟩
    obtain ⟨-, i, rfl, bit, -⟩ := (matches_notify notify).mp hit
    obtain ⟨answers, closing⟩ := process_answers r i peer content slots closing bit
    exact ⟨answers.slots slots bit, closing⟩
  | data linked free type data content =>
    have blocked : Unbooked v (v.map fun req => { req with blocked := true }) := .of_eq rfl rfl
    refine quiet (((blocked.log rfl).push _).push _) fun closing => ?_
    have begun : Closing ((v.map fun req => { req with blocked := true }).log (.gotData r type content)) :=
      ⟨closing.due, closing.frames, closing.code, closing.direct⟩
    have pushed : Closing (((v.map fun req => { req with blocked := true }).log
        (.gotData r type content)).push (.processReqData r)) :=
      begun.push rfl
    exact pushed.push rfl
  | queue linked busy type copy content =>
    have logged : Unbooked v (v.log (.gotData r type content)) := base.log rfl
    exact quiet (logged.trans (.of_eq rfl rfl)) fun closing =>
      ⟨closing.due, closing.frames, closing.code, closing.direct⟩
  | rawData type data rest top set msg =>
    refine quiet (((popped rest).push _).call rfl) fun closing => Closing.call ?_ _
    exact (closing.pop top (.inr rfl)).push rfl
  | dataCb frame rest top type data which set msg =>
    refine quiet ((popped rest).call rfl) fun closing => Closing.call (closing.pop top (.inr ?_)) _
    rcases which with ⟨rfl, -⟩ | rfl <;> rfl
  | noData frame rest top type data which =>
    refine quiet (popped rest) fun closing => closing.pop top (.inr ?_)
    rcases which with ⟨rfl, -⟩ | rfl <;> rfl
  | deliver rest top =>
    exact quiet ((popped rest).trans (.drain ..)) fun closing => (closing.pop top (.inr rfl)).drain ..
  | drain data tmp rest top =>
    exact quiet ((popped rest).trans (.drain ..)) fun closing => (closing.pop top (.inr rfl)).drain ..
  | setStatus ret rest top =>
    exact quiet ((popped rest).trans (.setStatus ..)) fun closing => closing.setStatus top
  | process id buf rest top peer content =>
    obtain ⟨notify, fdCb⟩ := process_fixed lib { v with frames := rest } r id peer content
    refine ⟨notify, fdCb, fun _ _ _ closing => ?_⟩
    exact absurd (top ▸ List.mem_cons_self) (closing.direct r id buf)
  | notifyEnd rest top =>
    refine quiet ((popped rest).trans (.notifyEnd r)) fun closing => ?_
    have sub : ∀ {other}, other ∈ rest → other ∈ v.frames := fun member =>
      top ▸ List.mem_cons_of_mem _ member
    exact Closing.notifyEnd r (fun r member => closing.frames r (sub member)) closing.code
      fun r id buf member => closing.direct r id buf (sub member)
  | waitTimeout cb timed rest top waiting =>
    refine quiet (((popped rest).push _).push _) fun closing => ?_
    have ending : Closing ({ v with frames := rest }.push (.waitEnd r cb false)) :=
      (closing.pop top (.inr rfl)).push rfl
    exact ending.push rfl
  | waitPoll cb timed rest top waiting =>
    exact quiet ((popped rest).push _) fun closing => (closing.pop top (.inr rfl)).push
      rfl
  | waitDone cb timed rest top done =>
    exact quiet ((popped rest).trans (.waitEnd ..)) fun closing => (closing.pop top (.inr rfl)).waitEnd ..
  | waitLost cb timed rest top =>
    refine quiet (((popped rest).push _).push _) fun closing => ?_
    have ending : Closing ({ v with frames := rest }.push (.waitEnd r cb true)) :=
      (closing.pop top (.inr rfl)).push rfl
    exact ending.push rfl
  | waitAgain cb timed rest top =>
    exact quiet ((popped rest).push _) fun closing => (closing.pop top (.inr rfl)).push
      rfl
  | waitEnd cb lost rest top =>
    exact quiet ((popped rest).trans (.waitEnd ..)) fun closing => (closing.pop top (.inr rfl)).waitEnd ..
  | waitCompleted cb status rest top =>
    exact quiet ((popped rest).push _) fun closing => (closing.pop top (.inr rfl)).push
      rfl
  | waitReturn cb status rest top =>
    exact quiet ((popped rest).log rfl) fun closing => (closing.pop top (.inr rfl)).log _

/-! ### Notifications of a context -/

theorem Born.booked {v : Life} (born : Born v) (notify : v.req.notify = true) :
    Slots lib v ∧ Closing v := by
  cases born with
  | blank => cases notify
  | started req fresh peer seq =>
    cases fresh with
    | request cbs => cases notify
    | notify cbs obj =>
      refine ⟨⟨.inl ⟨rfl, rfl⟩, fun i beyond => ?_, ?_⟩, fun empty => ?_,
        fun _ member => absurd member List.not_mem_nil, fun known => ?_,
        fun _ _ _ member => absurd member List.not_mem_nil⟩
      · show Function.update (fun _ : Nat => (0 : UInt32)) 0 obj i = 0
        exact Function.update_of_ne (Nat.ne_of_gt (Nat.zero_lt_of_lt beyond)) _ _
      · simp [answered, reported]
      · have one : (1 : BitVec 32) = 0 := empty
        exact absurd one (by decide)
      · cases known

theorem ReachableWhen.booked (reachable : ReachableWhen lib (Handled fun _ _ => True) s) (r : Nat)
    (notify : (s.req r).notify = true) (direct : (s.req r).fdCb = false) :
    Slots lib (life r s) ∧ Closing (life r s) := by
  have always : (life r s).req.notify = true → (life r s).req.fdCb = false →
      Slots lib (life r s) ∧ Closing (life r s) := by
    refine Lived.invariant (P := fun v => v.req.notify = true → v.req.fdCb = false →
      Slots lib v ∧ Closing v) (fun v born notify _ => born.booked notify) ?_ (reachable.lived r)
    intro v v' move holds notify direct
    obtain ⟨same, direct', kept⟩ := move.booked
    rw [same] at notify
    rw [direct'] at direct
    obtain ⟨slots, closing⟩ := holds notify direct
    exact kept notify direct slots closing
  exact always notify direct

theorem processReqMsg_status (env : Env) (type : (s.hdr buf).type = MsgType.status.code)
    (found : ubusFindRequest s (s.hdr buf).seq (s.hdr buf).peer = some (r, id))
    (direct : (s.req r).fdCb = false) :
    ∃ before, life r before = life r s ∧ before.hdr buf = s.hdr buf ∧ before.content buf = s.content buf ∧
      ubusProcessReqMsg lib env buf fd s = processStatus lib r id buf before := by
  unfold ubusProcessReqMsg
  dsimp only
  rw [found]
  dsimp only
  rw [if_pos type]
  cases fd with
  | none => exact ⟨s, rfl, rfl, rfl, rfl⟩
  | some sock =>
    dsimp only
    rw [direct, if_neg Bool.false_ne_true]
    exact ⟨_, life_skip rfl, rfl, rfl, rfl⟩

theorem life_status {s' : State} (top : s.stack = .processMsg buf fd :: rest)
    (type : (s.hdr buf).type = MsgType.status.code)
    (found : ubusFindRequest s (s.hdr buf).seq (s.hdr buf).peer = some (r, id))
    (direct : (s.req r).fdCb = false) (next : Step lib s s') :
    life r s' = (life r s).process lib r id (s.hdr buf).peer (s.content buf) := by
  obtain ⟨env, action, after⟩ := next
  obtain ⟨before, same, header, message, processed⟩ : ∃ before, life r before = life r { s with stack := rest } ∧
      before.hdr buf = s.hdr buf ∧ before.content buf = s.content buf ∧
      ubusProcessReqMsg lib env buf fd { s with stack := rest } = processStatus lib r id buf before :=
    processReqMsg_status env type found direct
  have skipped : life r before = life r s := same.trans (life_drop top rfl)
  have resumed : s' = ubusProcessReqMsg lib env buf fd { s with stack := rest } := by
    rw [after, step, top]
    exact if_pos (.inl type)
  rw [resumed, processed, life_processStatus, skipped, header, message]

/-- **The bookkeeping of a notification.** In every run, for every notification without `fd_cb`: the
pending slots are those of the listed subscribers that have not answered, each answers once and is
reported once; a status is taken for the notification when its peer has a pending slot, and answers the
first of these; `id[]` is used up to `UBUS_MAX_NOTIFY_PEERS` only; and the status is set when the last
slot is answered. -/
theorem notify_bookkeeping {s : State} (reachable : ReachableWhen lib (Handled fun _ _ => True) s)
    (r : Nat) (notify : (s.req r).notify = true) (direct : (s.req r).fdCb = false) :
    Slots lib (life r s) ∧
    (∀ i, (s.req r).notifyPending.getLsbD i = true → i ≤ ubusMaxNotifyPeers) ∧
    (∀ seq peer id, (s.req r).matches seq peer = some id ↔
      seq = (s.req r).seq ∧ ∃ i, id = some i ∧ (s.req r).notifyPending.getLsbD i = true ∧
        (s.req r).notifyId i = peer ∧
        ∀ k < i, (s.req r).notifyPending.getLsbD k = true → (s.req r).notifyId k ≠ peer) ∧
    (∀ buf fd rest id s', s.stack = .processMsg buf fd :: rest →
      (s.hdr buf).type = MsgType.status.code →
      ubusFindRequest s (s.hdr buf).seq (s.hdr buf).peer = some (r, id) → Step lib s s' →
      ∃ i, id = some i ∧ (s.req r).notifyPending.getLsbD i = true ∧
        (s.req r).notifyId i = (s.hdr buf).peer ∧
        Answers lib r i (s.content buf) (life r s) (life r s') ∧ Closing (life r s')) ∧
    Closing (life r s) := by
  obtain ⟨slots, closing⟩ := reachable.booked r notify direct
  refine ⟨slots, fun i bit => ?_, fun seq peer id => matches_notify notify, ?_, closing⟩
  · rcases slots.tracked with ⟨-, one⟩ | ⟨-, content, -, tracked⟩
    · have one : (s.req r).notifyPending = 1#32 := one
      rw [one, BitVec.getLsbD_one] at bit
      simp at bit
      omega
    · exact ((tracked.pending i).mp bit).2.1.trans (listed_length lib content)
  · intro buf fd rest id s' top type found next
    obtain ⟨-, hit⟩ := findRequest_linked found
    obtain ⟨-, i, rfl, bit, peer, -⟩ := (matches_notify notify).mp hit
    obtain ⟨answers, closing⟩ := process_answers r i (s.hdr buf).peer (s.content buf) slots closing bit
    rw [life_status top type found direct next]
    exact ⟨i, rfl, bit, peer, answers, closing⟩

/-- A notification of object 7 is started and linked. -/
def notifying (cbs : Callbacks) : List (Env × Action) :=
  [doing (.notifyAsync cbs 7 [] [] true), doing (.completeAsync 1)]

/-- ubusd's answer: object 9 is subscribed twice. -/
def subscribedTwice : Env × Action :=
  receiving { type := MsgType.status.code, seq := 1, peer := 7 }
    [0, 0, 0, 24, 11, 0, 0, 20, 0, 0, 0, 8, 0, 0, 0, 9, 0, 0, 0, 8, 0, 0, 0, 9] none

/-- An answer of object 9. -/
def statusOf9 (fd : Option Nat) : Env × Action :=
  receiving { type := MsgType.status.code, seq := 1, peer := 9 } [0, 0, 0, 4] fd

/-- ubusd's answer to a notification is processed. -/
theorem notify_bookkeeping_subscribers : ∃ s s', Slots libubox (life 1 s) ∧ Closing (life 1 s) ∧
    Step libubox s s' ∧ Answers libubox 1 0 (s.content .msgbuf) (life 1 s) (life 1 s') ∧
    listed libubox (s.content .msgbuf) = [9, 9] := by
  obtain ⟨s₁, start⟩ : ∃ s, run libubox [doing (.notifyAsync { notifyStatusCb := true } 7 [] [] true)]
    (init false {}) = s := ⟨_, rfl⟩
  obtain ⟨s₂, link⟩ : ∃ s, run libubox [doing (.completeAsync 1)] s₁ = s := ⟨_, rfl⟩
  obtain ⟨s, arrived⟩ : ∃ s, run libubox ([doing .handleEvent] ++ quietly 2 ++ [subscribedTwice]) s₂ = s :=
    ⟨_, rfl⟩
  have linked : StepWhen libubox (Handled fun _ _ => True) s₁ s₂ := by
    refine ⟨_, .completeAsync 1, fun _ => ⟨?_, trivial⟩, link.symm⟩
    rw [← start]
    decide +kernel
  have reachable : ReachableWhen libubox (Handled fun _ _ => True) s := by
    refine ⟨false, {}, .trans (start ▸ run_path _ ?_ _) (.head linked (arrived ▸ run_path _ ?_ _))⟩
    · simp [doing, Handled]
    · simp [doing, quietly, subscribedTwice, receiving, Handled]
  have closed : run libubox (notifying { notifyStatusCb := true } ++ [doing .handleEvent] ++ quietly 2 ++
      [subscribedTwice]) (init false {}) = s := by
    rw [← arrived, ← link, ← start]
    rfl
  have top : s.stack = [.processMsg .msgbuf none, .handled] := by rw [← closed]; decide +kernel
  have found : ubusFindRequest s (s.hdr .msgbuf).seq (s.hdr .msgbuf).peer = some (1, some 0) := by
    rw [← closed]
    decide +kernel
  obtain ⟨slots, -, -, taken, closing⟩ := notify_bookkeeping reachable 1
    (by rw [← closed]; decide +kernel) (by rw [← closed]; decide +kernel)
  have next : Step libubox s (step libubox {} (.ret 0) s) := ⟨{}, .ret 0, rfl⟩
  obtain ⟨i, same, -, -, answers, -⟩ := taken .msgbuf none _ _ _ top
    (by rw [← closed]; decide +kernel) found next
  cases same
  exact ⟨s, _, slots, closing, next, answers, by rw [← closed]; decide +kernel⟩

/-- **An `fd_cb` that receives messages breaks the bookkeeping.** Object 9 has two slots and sends two
answers, the first with a descriptor; the second one arrives while `fd_cb` runs for the first. Both
answer slot 1, and slot 2 stays pending. -/
theorem notify_fd_answers_twice : ∃ s, Reachable libubox s ∧ (s.req 1).notify = true ∧
    (s.trace.countP fun event => match event with
      | .read hdr _ => hdr.peer = 9
      | _ => false) = 2 ∧
    answered (ownEvents 1 s.trace) = [1, 1, 0] ∧ reported (ownEvents 1 s.trace) = [1, 1] ∧
    s.stack = [] ∧ (s.req 1).notifyPending.getLsbD 2 = true := by
  refine ⟨run libubox (notifying { fdCb := true, notifyStatusCb := true } ++ [doing .handleEvent] ++
    quietly 2 ++ [subscribedTwice] ++ quietly 4 ++ [statusOf9 (some 5)] ++ quietly 1 ++
    [doing .handleEvent] ++ quietly 2 ++ [statusOf9 none] ++ quietly 20) (init false {}),
    ⟨false, {}, run_steps _ _⟩, ?_, ?_, ?_, ?_, ?_, ?_⟩ <;> decide +kernel

end Ubus.Libubus
