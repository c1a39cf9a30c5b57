/-
**A request completes once.**

The application is `Orderly` when it hands a request over, or waits for it, only as long as its status
has not arrived, waits for it only outside the callbacks that deliver its data or its status, and does
not abort it. Then every life of a request is `Tidy`: frames are nested as the functions of
`libubus-req.c` expect, and the completion callback is still due exactly when it has not run.

* `Role`: what a frame does for the request it is about. `Above`: which role can stand above which.
* `Lives.tidy`: every move keeps a life tidy.
-/

import Ubus.Libubus.Life

namespace Ubus.Libubus

variable {lib : Libubox}
variable {frame : Frame} {r : Nat} {s s' : State} {rest : List Frame} {ok : State → Action → Prop}
  {cb : CompleteCb}

/-! ### Roles -/

/-- A callback of the application, or one that calls it. -/
def CompleteCb.real : CompleteCb → Bool
  | .user | .notify => true
  | .null | .sync => false

inductive Role where
  /-- Has blocked the request and will unblock it. -/
  | deliver
  | data
  /-- Will set the status. -/
  | settle
  | wait (cb : CompleteCb)
  | ended (cb : CompleteCb) (status : UInt32)
  | other
deriving DecidableEq, Repr

def Frame.role : Frame → Role
  | .processReqData _ | .drain _ _ _ => .deliver
  | .reqDataCb _ _ _ | .reqDataCbParse _ _ _ | .app (.rawData _ _ _) | .app (.data _ _ _) => .data
  | .setReqStatus _ _ | .processStatus _ _ _ | .notifyStatus _ => .settle
  | .waitLoop _ cb _ | .waitPolled _ cb _ | .waitEnd _ cb _ => .wait cb
  | .waitCompleted _ cb status | .waitReturn _ cb status => .ended cb status
  | _ => .other

/-- The role of a frame, and of one below it. -/
def Above : Role → Role → Prop
  | .deliver, lower => lower ≠ .deliver ∧ lower ≠ .data
  | .wait cb, lower => lower ≠ .deliver ∧ lower ≠ .data ∧ lower ≠ .settle ∧
      (cb.real = true → ∀ other, lower ≠ .wait other)
  | _, _ => True

/-- The end of a wait that set a status of its own: it is set before that frame is on top. -/
def covered : List Frame → Bool
  | [] => true
  | .setReqStatus _ _ :: _ => true
  | .waitEnd _ _ _ :: _ => false
  | _ :: rest => covered rest

def Event.completion : Event → Option UInt32
  | .completed _ ret => some ret
  | _ => none

/-- The values that were passed to `complete_cb`. -/
def completions (events : List Event) : List UInt32 := events.filterMap Event.completion

/-- A call of `raw_data_cb` or `data_cb`. -/
def Event.dataCall : Event → Bool
  | .call (.rawData _ _ _) | .call (.data _ _ _) => true
  | _ => false

/-- What the application may do with a request. -/
def Orderly (v : Life) : Handling → Prop
  | .link => v.req.statusMsg = false
  | .wait => v.req.statusMsg = false ∧
      ∀ frame ∈ v.frames, frame.role ≠ .deliver ∧ frame.role ≠ .data ∧ frame.role ≠ .settle
  | .abort => False

/-! ### Tidy lives -/

structure Tidy (v : Life) : Prop where
  linked : v.linked = true → v.req.statusMsg = false
  busy : ∀ frame ∈ v.frames, frame.role = .deliver ∨ frame.role = .data → v.req.blocked = true
  nested : v.frames.Pairwise fun upper lower => Above upper.role lower.role
  once : (completions v.events).length ≤ 1
  finished : completions v.events ≠ [] → v.req.statusMsg = true ∧
    ∀ frame ∈ v.frames, frame.role ≠ .deliver ∧ frame.role ≠ .data
  spent : completions v.events ≠ [] → v.req.completeCb.real = true →
    ∀ frame ∈ v.frames, frame.role ≠ .settle ∧ ∀ cb, frame.role ≠ .wait cb
  waiting : ∀ frame ∈ v.frames, ∀ cb, frame.role = .wait cb →
    v.req.completeCb.real = false ∧ (cb.real = true → completions v.events = [])
  ended : ∀ frame ∈ v.frames, ∀ cb status, frame.role = .ended cb status →
    v.req.statusMsg = true ∧ (cb.real = true → completions v.events = [status])
  settled : v.req.statusMsg = true ∨ covered v.frames = true
  ordered : v.events.Pairwise fun newer older =>
    newer.dataCall = true → older.completion = none

namespace Tidy

variable {v : Life}

theorem due (tidy : Tidy v) (member : frame ∈ v.frames)
    (works : frame.role = .settle ∨ ∃ cb, frame.role = .wait cb)
    (real : v.req.completeCb.real = true) : completions v.events = [] := by
  by_contra done
  obtain ⟨notSettle, notWait⟩ := tidy.spent done real frame member
  rcases works with settles | ⟨cb, waits⟩
  · exact notSettle settles
  · exact notWait cb waits

theorem unlinked (tidy : Tidy v) (status : v.req.statusMsg = true) : v.linked = false := by
  by_contra linked
  rw [Bool.not_eq_false] at linked
  rw [tidy.linked linked] at status
  cases status

theorem linked_fresh (tidy : Tidy v) (linked : v.linked = true) : completions v.events = [] := by
  by_contra done
  have status := (tidy.finished done).1
  rw [tidy.linked linked] at status
  cases status

theorem pop (tidy : Tidy v) (top : v.frames = frame :: rest)
    (open_ : v.req.statusMsg = true ∨ ∀ r ret, frame ≠ .setReqStatus r ret) :
    Tidy { v with frames := rest } := by
  have sub : ∀ {other}, other ∈ rest → other ∈ v.frames := fun member =>
    top ▸ List.mem_cons_of_mem _ member
  refine ⟨tidy.linked, fun other member => tidy.busy other (sub member), ?_, tidy.once,
    fun done => ⟨(tidy.finished done).1, fun other member => (tidy.finished done).2 other (sub member)⟩,
    fun done real other member => tidy.spent done real other (sub member),
    fun other member => tidy.waiting other (sub member),
    fun other member => tidy.ended other (sub member), ?_, tidy.ordered⟩
  · have nested := tidy.nested
    rw [top] at nested
    exact nested.of_cons
  · rcases tidy.settled with status | cover
    · exact .inl status
    rcases open_ with status | plain
    · exact .inl status
    right
    rw [top] at cover
    cases frame with
    | setReqStatus r ret => exact absurd rfl (plain r ret)
    | waitEnd r cb lost => cases cover
    | _ => exact cover

-- The conditions are about the frame's role alone, but for the end of a wait: it covers no status.
theorem push {role : Role} (tidy : Tidy v) (is : frame.role = role)
    (busy : role = .deliver ∨ role = .data → v.req.blocked = true ∧ completions v.events = [])
    (above : ∀ lower ∈ v.frames, Above role lower.role)
    (due : (role = .settle ∨ ∃ cb, role = .wait cb) → v.req.completeCb.real = true → completions v.events = [])
    (waiting : ∀ cb, role = .wait cb → (∀ r cb lost, frame ≠ .waitEnd r cb lost) ∧
      v.req.completeCb.real = false ∧ (cb.real = true → completions v.events = []))
    (ended : ∀ cb status, role = .ended cb status → v.req.statusMsg = true ∧ (cb.real = true → completions v.events = [status])) :
    Tidy (v.push frame) := by
  subst is
  refine ⟨tidy.linked, List.forall_mem_cons.mpr ⟨fun delivers => (busy delivers).1, tidy.busy⟩,
    List.pairwise_cons.mpr ⟨above, tidy.nested⟩, tidy.once, fun done => ⟨(tidy.finished done).1,
      List.forall_mem_cons.mpr ⟨?_, (tidy.finished done).2⟩⟩,
    fun done real => List.forall_mem_cons.mpr ⟨?_, tidy.spent done real⟩,
    List.forall_mem_cons.mpr ⟨fun cb waits => (waiting cb waits).2, tidy.waiting⟩,
    List.forall_mem_cons.mpr ⟨ended, tidy.ended⟩, tidy.settled.imp id fun cover => ?_, tidy.ordered⟩
  · exact ⟨fun delivers => done (busy (.inl delivers)).2, fun data => done (busy (.inr data)).2⟩
  · exact ⟨fun settles => done (due (.inl settles) real),
      fun cb waits => done (due (.inr ⟨cb, waits⟩) real)⟩
  cases frame with
  | setReqStatus r ret => rfl
  | waitEnd r cb lost => exact absurd rfl ((waiting cb rfl).1 r cb lost)
  | _ => exact cover

theorem push_other (tidy : Tidy v) (role : frame.role = .other) : Tidy (v.push frame) := by
  refine tidy.push role ?_ (fun _ _ => trivial) ?_ nofun nofun
  · rintro (delivers | data)
    · cases delivers
    · cases data
  · rintro (settles | ⟨cb, waits⟩)
    · cases settles
    · cases waits

theorem push_settle (tidy : Tidy v) (role : frame.role = .settle)
    (due : v.req.completeCb.real = true → completions v.events = []) : Tidy (v.push frame) := by
  refine tidy.push role ?_ (fun _ _ => trivial) (fun _ => due) nofun nofun
  rintro (delivers | data)
  · cases delivers
  · cases data

theorem push_deliver (tidy : Tidy v) (role : frame.role = .deliver) (blocked : v.req.blocked = true)
    (fresh : completions v.events = [])
    (above : ∀ lower ∈ v.frames, lower.role ≠ .deliver ∧ lower.role ≠ .data) : Tidy (v.push frame) :=
  tidy.push role (fun _ => ⟨blocked, fresh⟩) above (fun _ _ => fresh) nofun nofun

theorem push_data (tidy : Tidy v) (role : frame.role = .data) (blocked : v.req.blocked = true)
    (fresh : completions v.events = []) : Tidy (v.push frame) :=
  tidy.push role (fun _ => ⟨blocked, fresh⟩) (fun _ _ => trivial) (fun _ _ => fresh) nofun nofun

theorem same_roles (tidy : Tidy v) {frames : List Frame}
    (roles : frames.map Frame.role = v.frames.map Frame.role)
    (cover : v.req.statusMsg = true ∨ covered frames = true) : Tidy { v with frames } := by
  have old : ∀ frame ∈ frames, ∃ other ∈ v.frames, other.role = frame.role := by
    intro frame member
    have inside : frame.role ∈ v.frames.map Frame.role := roles ▸ List.mem_map_of_mem member
    exact List.mem_map.mp inside
  have nested := List.pairwise_map.mpr tidy.nested
  rw [← roles] at nested
  refine ⟨tidy.linked, ?_, List.pairwise_map.mp nested, tidy.once,
    fun done => ⟨(tidy.finished done).1, ?_⟩, fun done real => ?_, ?_, ?_, cover, tidy.ordered⟩
  · intro frame member
    obtain ⟨other, inside, same⟩ := old frame member
    rw [← same]
    exact tidy.busy other inside
  · intro frame member
    obtain ⟨other, inside, same⟩ := old frame member
    rw [← same]
    exact (tidy.finished done).2 other inside
  · intro frame member
    obtain ⟨other, inside, same⟩ := old frame member
    rw [← same]
    exact tidy.spent done real other inside
  · intro frame member
    obtain ⟨other, inside, same⟩ := old frame member
    rw [← same]
    exact tidy.waiting other inside
  · intro frame member
    obtain ⟨other, inside, same⟩ := old frame member
    rw [← same]
    exact tidy.ended other inside

theorem log (tidy : Tidy v) {event : Event} (plain : event.completion = none)
    (early : event.dataCall = true → completions v.events = []) : Tidy (v.log event) := by
  have same : completions (event :: v.events) = completions v.events :=
    List.filterMap_cons_none plain
  refine ⟨tidy.linked, tidy.busy, tidy.nested, ?_, ?_, ?_, ?_, ?_, tidy.settled, ?_⟩
  · show (completions (event :: v.events)).length ≤ 1
    rw [same]
    exact tidy.once
  · show completions (event :: v.events) ≠ [] → _
    rw [same]
    exact tidy.finished
  · show completions (event :: v.events) ≠ [] → _
    rw [same]
    exact tidy.spent
  · show ∀ frame ∈ v.frames, ∀ cb, _ → _ ∧ (_ → completions (event :: v.events) = [])
    rw [same]
    exact tidy.waiting
  · show ∀ frame ∈ v.frames, ∀ cb status, _ → _ ∧ (_ → completions (event :: v.events) = [status])
    rw [same]
    exact tidy.ended
  · refine List.pairwise_cons.mpr ⟨fun older member data => ?_, tidy.ordered⟩
    exact List.filterMap_eq_nil_iff.mp (early data) older member

theorem map (tidy : Tidy v) {f : Request → Request} (status : (f v.req).statusMsg = v.req.statusMsg)
    (blocked : (f v.req).blocked = v.req.blocked)
    (completeCb : (f v.req).completeCb = v.req.completeCb) : Tidy (v.map f) := by
  refine ⟨?_, ?_, tidy.nested, tidy.once, ?_, ?_, ?_, ?_, ?_, tidy.ordered⟩
  · show _ → (f v.req).statusMsg = false
    rw [status]
    exact tidy.linked
  · show ∀ frame ∈ v.frames, _ → (f v.req).blocked = true
    rw [blocked]
    exact tidy.busy
  · show _ → (f v.req).statusMsg = true ∧ _
    rw [status]
    exact tidy.finished
  · show _ → (f v.req).completeCb.real = true → _
    rw [completeCb]
    exact tidy.spent
  · show ∀ frame ∈ v.frames, ∀ cb, _ → (f v.req).completeCb.real = false ∧ _
    rw [completeCb]
    exact tidy.waiting
  · show ∀ frame ∈ v.frames, ∀ cb status, _ → (f v.req).statusMsg = true ∧ _
    rw [status]
    exact tidy.ended
  · show (f v.req).statusMsg = true ∨ _
    rw [status]
    exact tidy.settled

theorem call (tidy : Tidy v) {cb : Callback} (role : (Frame.app cb).role = .other) :
    Tidy (v.call cb) := by
  have quiet : (Event.call cb).dataCall = false := by
    cases cb with
    | rawData r type msg => cases role
    | data r type msg => cases role
    | _ => rfl
  refine push_other (tidy.log rfl fun data => ?_) role
  rw [quiet] at data
  cases data

theorem setCb (tidy : Tidy v) (cb : CompleteCb)
    (last : cb.real = true →
      ∀ frame ∈ v.frames, frame.role ≠ .settle ∧ ∀ other, frame.role ≠ .wait other) :
    Tidy (v.map fun req => { req with completeCb := cb }) := by
  refine ⟨tidy.linked, tidy.busy, tidy.nested, tidy.once, tidy.finished, fun _ => last, ?_,
    tidy.ended, tidy.settled, tidy.ordered⟩
  intro frame member other waits
  refine ⟨?_, (tidy.waiting frame member other waits).2⟩
  show cb.real = false
  by_contra real
  rw [Bool.not_eq_false] at real
  exact (last real frame member).2 other waits

theorem completed (tidy : Tidy v) (r : Nat) (ret : UInt32) (fresh : completions v.events = [])
    (status : v.req.statusMsg = true)
    (idle : ∀ frame ∈ v.frames, frame.role ≠ .deliver ∧ frame.role ≠ .data)
    (spent : v.req.completeCb.real = true →
      ∀ frame ∈ v.frames, frame.role ≠ .settle ∧ ∀ cb, frame.role ≠ .wait cb)
    (waits : ∀ frame ∈ v.frames, ∀ cb, frame.role = .wait cb → cb.real = false) :
    Tidy (v.log (.completed r ret)) ∧ completions (v.log (.completed r ret)).events = [ret] := by
  have now : completions (v.log (.completed r ret)).events = [ret] := by
    show ret :: completions v.events = [ret]
    rw [fresh]
  refine ⟨⟨tidy.linked, tidy.busy, tidy.nested, ?_, fun _ => ⟨status, idle⟩, fun _ => spent, ?_, ?_,
    tidy.settled, ?_⟩, now⟩
  · rw [now]
    exact le_rfl
  · intro frame member cb role
    refine ⟨(tidy.waiting frame member cb role).1, fun real => ?_⟩
    rw [waits frame member cb role] at real
    cases real
  · intro frame member cb status' role
    refine ⟨status, fun real => ?_⟩
    have early := (tidy.ended frame member cb status' role).2 real
    rw [fresh] at early
    cases early
  · exact List.pairwise_cons.mpr ⟨nofun, tidy.ordered⟩

theorem synced (tidy : Tidy v) (status : v.req.statusMsg = true) (ret : UInt32) :
    Tidy (v.map fun req => { req with statusMsg := true, statusCode := ret }) :=
  tidy.map (f := fun req => { req with statusMsg := true, statusCode := ret }) status.symm rfl rfl

theorem complete (tidy : Tidy v) (r : Nat) (status : v.req.statusMsg = true)
    (idle : ∀ frame ∈ v.frames, frame.role ≠ .deliver ∧ frame.role ≠ .data)
    (due : v.req.completeCb.real = true → completions v.events = []) : Tidy (v.complete r) := by
  have cleared : Tidy (v.map fun req => { req with completeCb := .null }) :=
    tidy.setCb .null nofun
  have unwaited : v.req.completeCb.real = true → ∀ frame ∈ v.frames, ∀ cb,
      frame.role = .wait cb → cb.real = false := by
    intro real frame member cb waits
    have unreal := (tidy.waiting frame member cb waits).1
    rw [real] at unreal
    cases unreal
  have run := fun real ret => (cleared.completed r ret (due real) status idle
    nofun (unwaited real)).1
  unfold Life.complete
  cases cb : v.req.completeCb with
  | null => exact cleared
  | sync => exact cleared.synced status _
  | user => exact (run (by rw [cb]; rfl) _).call rfl
  | notify =>
    have real : v.req.completeCb.real = true := by rw [cb]; rfl
    simp only [Life.runCb]
    split
    · exact (run real _).call rfl
    · exact run real _

theorem setStatus (tidy : Tidy v) {ret : UInt32} (top : v.frames = .setReqStatus r ret :: rest) :
    Tidy ({ v with frames := rest }.setStatus r ret) := by
  have due : v.req.completeCb.real = true → completions v.events = [] :=
    tidy.due (top ▸ List.mem_cons_self) (.inl rfl)
  have known : Tidy { v with linked := false, req := { v.req with statusMsg := true, statusCode := ret } } :=
    ⟨nofun, tidy.busy, tidy.nested, tidy.once,
      fun done => ⟨rfl, (tidy.finished done).2⟩, tidy.spent, tidy.waiting,
      fun frame member cb status role => ⟨rfl, (tidy.ended frame member cb status role).2⟩, .inl rfl,
      tidy.ordered⟩
  have marked : Tidy ({ v with frames := rest }.mark ret) := known.pop top (.inl rfl)
  unfold Life.setStatus
  split
  · exact marked
  rename_i free
  refine marked.complete r rfl (fun frame member => ?_) due
  exact ⟨fun delivers => free (marked.busy frame member (.inl delivers)),
    fun data => free (marked.busy frame member (.inr data))⟩

theorem waitEnd (tidy : Tidy v) (top : v.frames = frame :: rest) (role : frame.role = .wait cb)
    (status : v.req.statusMsg = true) : Tidy ({ v with frames := rest }.waitEnd r cb) := by
  have member : frame ∈ v.frames := top ▸ List.mem_cons_self
  have nested := tidy.nested
  rw [top, List.pairwise_cons, role] at nested
  have below : ∀ lower ∈ rest, lower.role ≠ .deliver ∧ lower.role ≠ .data ∧ lower.role ≠ .settle ∧
      (cb.real = true → ∀ other, lower.role ≠ .wait other) := nested.1
  have fresh : cb.real = true → completions v.events = [] := (tidy.waiting frame member cb role).2
  have popped : Tidy { v with frames := rest } := tidy.pop top (.inl status)
  have lone : cb.real = true →
      ∀ lower ∈ rest, lower.role ≠ .settle ∧ ∀ other, lower.role ≠ .wait other := fun real lower inside =>
    ⟨(below lower inside).2.2.1, (below lower inside).2.2.2 real⟩
  have restored : Tidy ({ v with frames := rest }.map fun req => { req with completeCb := cb }) :=
    popped.setCb cb lone
  have pushed : ∀ {w : Life}, Tidy w → w.req.statusMsg = true → ∀ code,
      (cb.real = true → completions w.events = [code]) → Tidy (w.push (.waitCompleted r cb code)) := by
    intro w tidy status code exact_
    refine tidy.push rfl ?_ (fun _ _ => trivial) ?_ nofun ?_
    · rintro (delivers | data)
      · cases delivers
      · cases data
    · rintro (settles | ⟨other, waits⟩)
      · cases settles
      · cases waits
    · rintro other code' ends
      cases ends
      exact ⟨status, exact_⟩
  have run := fun real code => restored.completed r code (fresh real) status
    (fun lower inside => ⟨(below lower inside).1, (below lower inside).2.1⟩) (fun _ => lone real)
    (fun lower inside other waits => absurd waits ((lone real lower inside).2 other))
  unfold Life.waitEnd
  cases cb with
  | null => exact pushed restored status _ nofun
  | sync => exact (pushed restored status _ nofun).synced status _
  | user =>
    have ran := fun code => pushed (run rfl code).1 status code fun _ => (run rfl code).2
    exact (ran _).call rfl
  | notify =>
    have ran := fun code => pushed (run rfl code).1 status code fun _ => (run rfl code).2
    simp only [Life.runCb]
    split
    · exact (ran _).call rfl
    · exact ran _

theorem drain (tidy : Tidy v) {entry : Option Nat} (top : v.frames = frame :: rest)
    (role : frame.role = .deliver) : Tidy ({ v with frames := rest }.drain r entry) := by
  have member : frame ∈ v.frames := top ▸ List.mem_cons_self
  have nested := tidy.nested
  rw [top, List.pairwise_cons, role] at nested
  have below : ∀ lower ∈ rest, lower.role ≠ .deliver ∧ lower.role ≠ .data := nested.1
  have fresh : completions v.events = [] := by
    by_contra done
    exact ((tidy.finished done).2 frame member).1 role
  have popped : Tidy { v with frames := rest } := tidy.pop top (.inr fun r ret same => by
    rw [same] at role
    cases role)
  cases entry with
  | none =>
    have unblocked : Tidy ({ v with frames := rest }.map fun req => { req with blocked := false }) := by
      refine ⟨popped.linked, fun lower inside works => ?_, popped.nested, popped.once, popped.finished,
        popped.spent, popped.waiting, popped.ended, popped.settled, popped.ordered⟩
      rcases works with delivers | data
      · exact absurd delivers (below lower inside).1
      · exact absurd data (below lower inside).2
    simp only [Life.drain]
    split
    · rename_i status
      exact unblocked.complete r status below fun _ => fresh
    · exact unblocked
  | some data =>
    simp only [Life.drain]
    split
    · exact popped
    rename_i entry type data' found
    have taken : Tidy ({ v with frames := rest }.map fun req =>
        { req with pending := req.pending.filter fun entry => entry.2 ≠ data }) :=
      popped.map (f := fun req =>
        { req with pending := req.pending.filter fun entry => entry.2 ≠ data }) rfl rfl rfl
    have blocked : v.req.blocked = true := tidy.busy frame member (.inl role)
    have looped : ∀ next, Tidy (({ v with frames := rest }.map fun req =>
        { req with pending := req.pending.filter fun entry => entry.2 ≠ data }).push
          (.drain r data next)) := fun next =>
      taken.push_deliver rfl blocked fresh below
    split
    · exact looped _
    · exact (looped _).push_data rfl blocked fresh

theorem notifyEnd (tidy : Tidy v) (r : Nat)
    (due : v.req.completeCb.real = true → completions v.events = []) : Tidy (v.notifyEnd r) := by
  unfold Life.notifyEnd
  split
  · exact tidy.push_settle rfl due
  · exact tidy

end Tidy

theorem addPeers_fields (lib : Libubox) (idx : Nat) (subscribers : List Bytes) (n : Request) :
    ∃ notifyPending notifyId,
      addPeers lib idx subscribers n = { n with notifyPending, notifyId } := by
  induction subscribers generalizing idx n with
  | nil => exact ⟨_, _, rfl⟩
  | cons cur rest ih =>
    unfold addPeers
    split
    · exact ih idx n
    dsimp only
    split
    · exact ⟨_, _, rfl⟩
    · exact ih (idx + 1) _

theorem addPeers_other {α : Type} (field : Request → α)
    (other : ∀ n notifyPending notifyId, field { n with notifyPending, notifyId } = field n)
    (lib : Libubox) (idx : Nat) (subscribers : List Bytes) (n : Request) :
    field (addPeers lib idx subscribers n) = field n := by
  obtain ⟨pending, ids, fields⟩ := addPeers_fields lib idx subscribers n
  rw [fields, other]

theorem Tidy.process {v : Life} (tidy : Tidy v) (r : Nat) (id : Option Nat) (peer : UInt32)
    (content : Bytes) (due : v.req.completeCb.real = true → completions v.events = []) :
    Tidy (v.process lib r id peer content) := by
  cases id with
  | none =>
    have noted : Tidy (v.map fun req => { req with peer }) :=
      tidy.map (f := fun req => { req with peer }) rfl rfl rfl
    exact noted.push_settle rfl due
  | some id =>
    have cleared : Tidy ((v.map fun n =>
        { n with notifyPending := n.notifyPending &&& ~~~(1#32 <<< id) }).log (.notified r id content)) :=
      Tidy.log (tidy.map (f := fun n =>
        { n with notifyPending := n.notifyPending &&& ~~~(1#32 <<< id) }) rfl rfl rfl) rfl
        nofun
    simp only [Life.process]
    split
    · have completeCb := addPeers_other Request.completeCb (fun _ _ _ => rfl) lib 1
        (subscribersIn lib content) { v.req with
          notifyPending := v.req.notifyPending &&& ~~~(1#32 <<< id) }
      exact (cleared.map (addPeers_other Request.statusMsg (fun _ _ _ => rfl) ..)
        (addPeers_other Request.blocked (fun _ _ _ => rfl) ..) completeCb).notifyEnd r fun real =>
          due ((congrArg CompleteCb.real completeCb).symm.trans real)
    split
    · exact (cleared.push_settle rfl due).call rfl
    · exact cleared.notifyEnd r due

/-- **Every move of an orderly application keeps a life tidy.** -/
theorem Lives.tidy {v v' : Life} (move : Lives lib Orderly r v v') (tidy : Tidy v) : Tidy v' := by
  have plain : ∀ {frame : Frame} {rest}, v.frames = frame :: rest → frame.role ≠ .settle →
      Tidy { v with frames := rest } := by
    intro frame rest top role
    refine tidy.pop top (.inr fun r ret same => role ?_)
    rw [same]
    rfl
  have due : ∀ {frame : Frame} {rest}, v.frames = frame :: rest →
      (frame.role = .settle ∨ ∃ cb, frame.role = .wait cb) →
      v.req.completeCb.real = true → completions v.events = [] := fun top works =>
    tidy.due (top ▸ List.mem_cons_self) works
  have early : ∀ {frame : Frame} {rest}, v.frames = frame :: rest → frame.role = .data →
      v.req.blocked = true ∧ completions v.events = [] := by
    intro frame rest top role
    have member : frame ∈ v.frames := top ▸ List.mem_cons_self
    refine ⟨tidy.busy frame member (.inr role), ?_⟩
    by_contra done
    exact ((tidy.finished done).2 frame member).2 role
  have cover : ∀ {frame : Frame} {rest frames}, v.frames = frame :: rest →
      covered frames = covered (frame :: rest) → v.req.statusMsg = true ∨ covered frames = true := by
    intro frame rest frames top same
    rw [same, ← top]
    exact tidy.settled
  cases move with
  | link allowed =>
    exact { tidy with linked := fun _ => allowed }
  | wait allowed timed =>
    obtain ⟨status, free⟩ := allowed
    have fresh : completions v.events = [] := by
      by_contra done
      rw [(tidy.finished done).1] at status
      cases status
    have linked : Tidy { v with linked := true } := { tidy with linked := fun _ => status }
    refine Tidy.push (linked.setCb .sync nofun) rfl ?_ ?_
      (fun _ _ => fresh) ?_ nofun
    · rintro (delivers | data)
      · cases delivers
      · cases data
    · intro lower member
      obtain ⟨deliver, data, settle⟩ := free lower member
      refine ⟨deliver, data, settle, fun real cb waits => ?_⟩
      have unreal := (tidy.waiting lower member cb waits).1
      rw [real] at unreal
      cases unreal
    · rintro cb waits
      exact ⟨nofun, rfl, fun _ => fresh⟩
  | abort allowed => exact absurd allowed id
  | ret cb rest top => exact plain top (by cases cb <;> exact Role.noConfusion)
  | flush linked => exact tidy.push_settle rfl fun _ => tidy.linked_fresh linked
  | fd linked seq peer id hit set buf sock =>
    exact (tidy.push_settle rfl fun _ => tidy.linked_fresh linked).call rfl
  | status linked seq peer id hit content =>
    exact tidy.process r id peer content fun _ => tidy.linked_fresh linked
  | data linked free type data content =>
    have fresh := tidy.linked_fresh linked
    have still : ∀ lower ∈ v.frames, lower.role ≠ .deliver ∧ lower.role ≠ .data := by
      intro lower member
      constructor
      · intro delivers
        rw [tidy.busy lower member (.inl delivers)] at free
        cases free
      · intro data
        rw [tidy.busy lower member (.inr data)] at free
        cases free
    have blocked : Tidy (v.map fun req => { req with blocked := true }) :=
      { tidy with busy := fun _ _ _ => rfl }
    have begun : Tidy (((v.map fun req => { req with blocked := true }).log
        (.gotData r type content)).push (.processReqData r)) :=
      Tidy.push_deliver (blocked.log rfl nofun) rfl rfl fresh still
    exact begun.push_data rfl rfl fresh
  | queue linked busy type copy content =>
    have logged : Tidy (v.log (.gotData r type content)) :=
      tidy.log rfl nofun
    exact logged.map (f := fun req => { req with pending := (type, copy) :: req.pending }) rfl rfl rfl
  | rawData type data rest top set msg =>
    obtain ⟨blocked, fresh⟩ := early top rfl
    have parsing : Tidy { v with frames := .reqDataCbParse r type data :: rest } :=
      tidy.same_roles (by rw [top]; rfl) (cover top rfl)
    exact (parsing.log rfl fun _ => fresh).push_data rfl blocked fresh
  | dataCb frame rest top type data which set msg =>
    have role : frame.role = .data := by
      rcases which with ⟨rfl, -⟩ | rfl <;> rfl
    obtain ⟨blocked, fresh⟩ := early top role
    have popped := plain top (by rw [role]; exact Role.noConfusion)
    exact (popped.log rfl fun _ => fresh).push_data rfl blocked fresh
  | noData frame rest top type data which =>
    refine plain top ?_
    rcases which with ⟨rfl, -⟩ | rfl <;> exact Role.noConfusion
  | deliver rest top => exact tidy.drain top rfl
  | drain data tmp rest top => exact tidy.drain top rfl
  | setStatus ret rest top => exact tidy.setStatus top
  | process id buf rest top peer content =>
    have popped : Tidy { v with frames := rest } :=
      tidy.pop top (.inr nofun)
    exact popped.process r id peer content (due top (.inl rfl))
  | notifyEnd rest top =>
    have popped : Tidy { v with frames := rest } :=
      tidy.pop top (.inr nofun)
    exact popped.notifyEnd r (due top (.inl rfl))
  | waitTimeout cb timed rest top waiting =>
    have settling : Tidy (v.push (.setReqStatus r Status.timeout.code)) :=
      tidy.push_settle rfl (due top (.inr ⟨cb, rfl⟩))
    refine settling.same_roles ?_ (.inr rfl)
    show _ = .settle :: v.frames.map Frame.role
    rw [top]
    rfl
  | waitPoll cb timed rest top waiting =>
    exact tidy.same_roles (by rw [top]; rfl) (cover top rfl)
  | waitDone cb timed rest top done => exact tidy.waitEnd top rfl done
  | waitLost cb timed rest top =>
    have settling : Tidy (v.push (.setReqStatus r Status.connectionFailed.code)) :=
      tidy.push_settle rfl (due top (.inr ⟨cb, rfl⟩))
    refine settling.same_roles ?_ (.inr rfl)
    show _ = .settle :: v.frames.map Frame.role
    rw [top]
    rfl
  | waitAgain cb timed rest top =>
    exact tidy.same_roles (by rw [top]; rfl) (cover top rfl)
  | waitEnd cb lost rest top =>
    refine tidy.waitEnd top rfl (tidy.settled.resolve_right ?_)
    rw [top]
    exact Bool.false_ne_true
  | waitCompleted cb status rest top =>
    exact tidy.same_roles (by rw [top]; rfl) (cover top rfl)
  | waitReturn cb status rest top =>
    exact (plain top Role.noConfusion).log rfl nofun

theorem Born.tidy {v : Life} (born : Born v) : Tidy v := by
  have empty : v.linked = false ∧ v.frames = [] ∧ v.events = [] := by
    cases born <;> exact ⟨rfl, rfl, rfl⟩
  obtain ⟨unlinked, frames, events⟩ := empty
  have fresh : completions v.events = [] := by rw [events]; rfl
  refine ⟨?_, ?_, ?_, ?_, fun done => absurd fresh done, fun done => absurd fresh done, ?_, ?_, ?_, ?_⟩
  · rw [unlinked]
    exact nofun
  · rw [frames]
    exact List.forall_mem_nil _
  · rw [frames]
    exact .nil
  · rw [fresh]
    exact Nat.zero_le 1
  · rw [frames]
    exact List.forall_mem_nil _
  · rw [frames]
    exact List.forall_mem_nil _
  · rw [frames]
    exact .inr rfl
  · rw [events]
    exact .nil

/-! ### Requests of a context -/

theorem ReachableWhen.tidy (reachable : ReachableWhen lib (Handled Orderly) s) (r : Nat) :
    Tidy (life r s) :=
  (reachable.lived r).invariant (fun _ born => born.tidy) fun _ _ move => move.tidy

/-- The places in `ubus_complete_request`. -/
inductive Waits (r : Nat) (cb : CompleteCb) : Frame → Prop where
  | loop (timed : Bool) : Waits r cb (.waitLoop r cb timed)
  | polled (timed : Bool) : Waits r cb (.waitPolled r cb timed)
  | ends (lost : Bool) : Waits r cb (.waitEnd r cb lost)
  | completed (status : UInt32) : Waits r cb (.waitCompleted r cb status)
  | returns (status : UInt32) : Waits r cb (.waitReturn r cb status)

theorem waitEnd_stack (r : Nat) (cb : CompleteCb) (s : State) :
    ∃ new, (waitEnd r cb s).stack = new ++ .waitCompleted r cb (waitStatus r s) :: s.stack := by
  have moves : Moves (fun _ => True) (fun _ => True) [] 0
      ((waitLower r cb s).push (.waitCompleted r cb (waitStatus r s))) (waitEnd r cb s) :=
    moves_runCompleteCb trivial ..
  obtain ⟨new, -, stack, -⟩ := moves.moved
  exact ⟨new, stack⟩

theorem waits_step {base : List Frame} (top : s.stack = frame :: base) (waits : Waits r cb frame)
    (next : StepWhen lib ok s s') :
    (∃ new frame', Waits r cb frame' ∧ s'.stack = new ++ frame' :: base) ∨
      ∃ status, frame = .waitReturn r cb status ∧
        s' = ({ s with stack := base, ret := status } : State).log (.returned r status) := by
  obtain ⟨env, action, -, after⟩ := next
  have resumed : s' = resume lib env frame { s with stack := base } := by
    rw [after, step, top]
    cases waits <;> rfl
  rw [resumed]
  cases waits with
  | loop timed =>
    left
    simp only [resume, waitLoop]
    split
    · obtain ⟨new, stack⟩ := waitEnd_stack r cb { s with stack := base }
      exact ⟨new, _, .completed _, stack⟩
    split
    · exact ⟨[.setReqStatus r Status.timeout.code], _, .ends false, rfl⟩
    · exact ⟨[.handleData], _, .polled timed, rfl⟩
  | polled timed =>
    left
    simp only [resume, waitPolled]
    split
    · exact ⟨[.setReqStatus r Status.connectionFailed.code], _, .ends true, rfl⟩
    · exact ⟨[], _, .loop timed, rfl⟩
  | ends lost =>
    left
    obtain ⟨new, stack⟩ := waitEnd_stack r cb { s with stack := base, cancelPoll := lost || s.cancelPoll }
    exact ⟨new, _, .completed _, stack⟩
  | completed status =>
    left
    simp only [resume, waitCompleted]
    split
    · exact ⟨[.processPendingMsg], _, .returns status, rfl⟩
    · exact ⟨[], _, .returns status, rfl⟩
  | returns status => exact .inr ⟨status, rfl, rfl⟩

theorem ReachableWhen.tail (reachable : ReachableWhen lib ok s) (next : StepWhen lib ok s s') :
    ReachableWhen lib ok s' := by
  obtain ⟨channel, setup, path⟩ := reachable
  exact ⟨channel, setup, path.tail next⟩

theorem ReachableWhen.depth (reachable : ReachableWhen lib ok s) :
    s.stackDepth = depthOf s.stack := by
  obtain ⟨channel, setup, path⟩ := reachable
  exact Reachable.depth ⟨channel, setup, path.lift id fun _ _ next => next.step⟩

theorem complete_returns {timed : Bool} {t : State}
    (reachable : ReachableWhen lib (Handled Orderly) s) (idle : s.idle)
    (allowed : Handled Orderly s (.complete r timed))
    (returns : Returns lib (Handled Orderly) s.stack (ubusCompleteRequest r timed s) t) :
    t.stack = s.stack ∧ t.stackDepth = s.stackDepth ∧ r ∉ t.requests ∧
      ((s.req r).completeCb.real = true → completions (ownEvents r t.trace) = [t.ret]) := by
  have called : StepWhen lib (Handled Orderly) s (ubusCompleteRequest r timed s) := by
    refine ⟨{}, .complete r timed, fun _ => allowed, ?_⟩
    unfold step
    split
    · rfl
    · rfl
    rename_i frame rest inside top
    rw [State.idle, top] at idle
    cases frame with
    | app cb => exact absurd rfl (inside cb)
    | _ => cases idle
  have stack : (ubusCompleteRequest r timed s).stack =
      .waitLoop r (s.req r).completeCb timed :: s.stack := by
    simp only [ubusCompleteRequest, State.mapReq, State.push, (link_stack r s).1]
  have left := Returns.exit (P := ReachableWhen lib (Handled Orderly))
    (Q := fun b => r ∉ b.requests ∧
      ((s.req r).completeCb.real = true → completions (ownEvents r b.trace) = [b.ret]))
    (Waits r (s.req r).completeCb) (fun a b next before => before.tail next)
    (fun a reached => reached.depth) ?_ (reachable.tail called) ⟨[], _, .loop timed, stack⟩ returns
  · obtain ⟨after, back, out⟩ := left
    refine ⟨back, ?_, out⟩
    rw [after.depth, back, reachable.depth]
  · intro a b frame reached top waits next
    refine (waits_step top waits next).imp id ?_
    rintro ⟨status, rfl, rfl⟩
    obtain ⟨frames, -⟩ := life_pop top (r := r) rfl
    have tidy := reached.tidy r
    obtain ⟨known, exactly⟩ := tidy.ended (.waitReturn r (s.req r).completeCb status)
      (by rw [frames]; exact List.mem_cons_self) _ _ rfl
    have kept : ownEvents r (.returned r status :: a.trace) = .returned r status :: ownEvents r a.trace :=
      List.filter_cons_of_pos (by simp [Event.req])
    refine ⟨rfl, of_decide_eq_false (tidy.unlinked known), fun real => ?_⟩
    show completions (ownEvents r (.returned r status :: a.trace)) = [status]
    rw [kept]
    exact exactly real

/-- A request is started and linked, and its status arrives. -/
def answeredRequest : List (Env × Action) :=
  [doing (.start {} (.built []) .lookup 0 none), doing (.completeAsync 1), doing .handleEvent] ++
    quietly 2 ++ [receiving { type := MsgType.status.code, seq := 1 } [0, 0, 0, 4] none] ++ quietly 8

end Ubus.Libubus
