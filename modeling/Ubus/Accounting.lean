/-
**The account of the transmit queue** (`txq_len`, `txq_ofs`).

`txq_len` starts from minus the bytes that were written at once, grows with every message that is queued
and shrinks with every byte that is written. It is left as it is when the queue runs empty or nothing
could be queued. The test that limits it adds a signed and unsigned numbers.

* `Lane.Accounted`: the count is exact and within the limit.
* `admits_iff`: then the test gives the answer it would give over the integers, for every message whose
  length is an `int`.
-/

import Ubus.Framing

namespace Ubus

open Lib Relation

/-- The account of a lane. -/
structure Lane.Accounted (l : Lane) : Prop where
  sane : l.pipe.Sane
  weighed : l.pipe.Weighed
  capped : l.pipe.Capped ubusClientMaxTxqLen

/-- A length that `int len` of a message buffer can hold. -/
def IntLength (msg : Bytes) : Prop := msg.length < 2 ^ 31

section Accounting

variable {lib : Libubox} {watched fund : Prop} {hush : Pipe UInt8 → Prop} {l l' : Lane} {cl : Nat}
  {s s' : State}

/-- **The test of `ubus_msg_enqueue` is exact** in an accounted lane. -/
theorem admits_iff (accounted : l.Accounted) {count : Nat} {msg : Bytes} (int : IntLength msg)
    (most : count ≤ msg.length) : Admits l.pipe count msg ↔
      (if l.pipe.queue.isEmpty then -(count : Int) else l.pipe.len) + msg.length ≤ ubusClientMaxTxqLen := by
  have limit : ubusClientMaxTxqLen = 1048576 := rfl
  unfold IntLength at int
  have exact' : ((if l.pipe.queue.isEmpty then -(count : Int) else l.pipe.len) + msg.length) % 2 ^ 64 =
      (if l.pipe.queue.isEmpty then -(count : Int) else l.pipe.len) + msg.length := by
    split
    · exact Int.emod_eq_of_lt (by omega) (by omega)
    rename_i busy
    have busy' : l.pipe.queue ≠ [] := fun none => busy (List.isEmpty_iff.mpr none)
    have least := accounted.weighed.pos accounted.sane busy'
    have bound := accounted.capped busy'
    exact Int.emod_eq_of_lt (by omega) (by omega)
  rw [Admits, exact']

/-- **A step keeps the account.** -/
theorem Tug.accounted (tug : Tug watched fund hush l l') (ints : ∀ msg ∈ l'.calls, IntLength msg)
    (accounted : l.Accounted) : l'.Accounted := by
  cases tug with
  | refused msg ended => exact ⟨accounted.sane, accounted.weighed, accounted.capped⟩
  | sent msg count room opened filled most granted kept =>
    have int : IntLength msg := ints msg (List.mem_append_right _ (List.mem_singleton_self _))
    refine ⟨accounted.sane.transmit filled count room, accounted.weighed.transmit count room msg, ?_⟩
    exact accounted.capped.transmit count fun yes part => (admits_iff accounted int most).mp (kept yes part)
  | drained count bound =>
    exact ⟨accounted.sane.drain count, accounted.weighed.drain accounted.sane bound,
      accounted.capped.drain count⟩
  | hung hup =>
    exact ⟨⟨accounted.sane.filled, accounted.sane.inside⟩, accounted.weighed, accounted.capped⟩
  | quieted idle =>
    exact ⟨⟨accounted.sane.filled, accounted.sane.inside⟩, accounted.weighed, accounted.capped⟩

theorem Tug.calls (tug : Tug watched fund hush l l') : l.calls ⊆ l'.calls := by
  cases tug with
  | refused msg ended => exact List.subset_append_left ..
  | sent msg count room opened filled most granted kept => exact List.subset_append_left ..
  | drained count bound => exact List.Subset.refl _
  | hung hup => exact List.Subset.refl _
  | quieted idle => exact List.Subset.refl _

theorem tugs_accounted (tugs : Tugs watched fund hush l l') (ints : ∀ msg ∈ l'.calls, IntLength msg)
    (accounted : l.Accounted) : l'.Accounted ∧
      ReflTransGen (fun a b => Tug watched fund hush a b ∧ a.Accounted ∧ b.Accounted) l l' := by
  induction tugs with
  | refl => exact ⟨accounted, .refl⟩
  | tail _ tug ih =>
    obtain ⟨before, path⟩ := ih fun msg member => ints msg (tug.calls member)
    have after := tug.accounted ints before
    exact ⟨after, path.tail ⟨tug, before, after⟩⟩

theorem accounted_new (calls : List Bytes) : Lane.Accounted ⟨{}, calls⟩ :=
  ⟨⟨List.forall_mem_nil _, fun _ member => by cases member⟩, fun busy => absurd rfl busy,
    fun busy => absurd rfl busy⟩

/-! ### Runs -/

theorem Move.accounted (move : Move lib s s') (reachable : Reachable lib s) (known : cl ∈ s'.net.socks)
    (ints : ∀ msg ∈ submissions lib s'.trace cl, IntLength msg)
    (before : cl ∈ s.net.socks → (s.lane lib cl).Accounted) :
    (s'.lane lib cl).Accounted ∧ ∃ l, (cl ∈ s.net.socks ∧ l = s.lane lib cl ∨
        cl ∉ s.net.socks ∧ l = ⟨{}, (s.lane lib cl).calls⟩) ∧
      ReflTransGen (fun a b => Tug (Watched lib s'.trace cl) False (Hush s cl) a b ∧
        a.Accounted ∧ b.Accounted) l (s'.lane lib cl) := by
  obtain ⟨l, start, tugs⟩ := (move.lanes reachable.inv reachable.afloat False.elim).2 cl known
  have first : l.Accounted := by
    rcases start with ⟨old, rfl⟩ | ⟨-, rfl⟩
    · exact before old
    · exact accounted_new _
  obtain ⟨after, path⟩ := tugs_accounted tugs ints first
  exact ⟨after, l, start, path⟩

/-- **Every lane is accounted** in every state that a run goes through. -/
theorem Reachable.accounted (reachable : Reachable lib s) (known : cl ∈ s.net.socks)
    (ints : ∀ msg ∈ submissions lib s.trace cl, IntLength msg) : (s.lane lib cl).Accounted := by
  induction reachable with
  | refl => cases known
  | @tail s s' before move ih =>
    have more : submissions lib s.trace cl ⊆ submissions lib s'.trace cl := by
      have grows := (move.turn (Reachable.inv before)).trace_grows
      intro msg member
      rw [submissions, List.mem_reverse, List.mem_filterMap] at member ⊢
      obtain ⟨event, inside, is⟩ := member
      exact ⟨event, grows inside, is⟩
    exact (move.accounted before known ints fun old => ih old fun msg member => ints msg (more member)).1

/-- What a right account comes to: while something is queued the count is exact and within the limit, and
the test is the one over the integers. -/
structure Lane.Exact (l : Lane) : Prop where
  count : l.pipe.queue ≠ [] → l.pipe.len = (l.pipe.queue.flatten.length : Int) - l.pipe.ofs ∧
    (∀ msg ∈ l.pipe.queue.head?, l.pipe.ofs < msg.length) ∧ 0 < l.pipe.len ∧
    l.pipe.len ≤ ubusClientMaxTxqLen
  test : ∀ msg count, IntLength msg → count ≤ msg.length → (Admits l.pipe count msg ↔
    (if l.pipe.queue.isEmpty then -(count : Int) else l.pipe.len) + msg.length ≤ ubusClientMaxTxqLen)

theorem Lane.Accounted.exact (accounted : l.Accounted) : l.Exact :=
  ⟨fun busy => ⟨accounted.weighed busy, accounted.sane.inside, accounted.weighed.pos accounted.sane busy,
    accounted.capped busy⟩, fun _ _ int most => admits_iff accounted int most⟩

/-- **The account of the transmit queue is exact and bounded**, and the test of `ubus_msg_enqueue` gives
the answer it would give over the integers. Between two states of a run this holds before and after every
call of `ubus_msg_send` and every write from the queue. -/
theorem txq_accounted (reachable : Reachable lib s) (known : s.reg.HasClient cl)
    (ints : ∀ msg ∈ submissions lib s.trace cl, IntLength msg) :
    ((s.tx cl).txQueue ≠ [] →
      (s.tx cl).txqLen = ((s.tx cl).txQueue.map fun ub => (s.buf ub).size lib).sum - (s.tx cl).txqOfs ∧
      (∀ ub ∈ (s.tx cl).txQueue.head?, (s.tx cl).txqOfs < (s.buf ub).size lib) ∧
      0 < (s.tx cl).txqLen ∧ (s.tx cl).txqLen ≤ ubusClientMaxTxqLen) ∧
    (∀ ub written, (s.buf ub).size lib < 2 ^ 31 → written < (s.buf ub).size lib →
      (txqTotal lib (if (s.tx cl).txQueue.isEmpty then -(written : Int) else (s.tx cl).txqLen) (s.buf ub) ≤
          ubusClientMaxTxqLen ↔
        (if (s.tx cl).txQueue.isEmpty then -(written : Int) else (s.tx cl).txqLen) + (s.buf ub).size lib ≤
          ubusClientMaxTxqLen)) ∧
    ∀ s', Move lib s s' → s'.reg.HasClient cl → (∀ msg ∈ submissions lib s'.trace cl, IntLength msg) →
      ReflTransGen (fun a b => Tug (Watched lib s'.trace cl) False (Hush s cl) a b ∧ a.Exact ∧ b.Exact)
        (s.lane lib cl) (s'.lane lib cl) := by
  have here := (reachable.inv.clients cl).mp known
  have accounted := reachable.accounted here ints
  have queue : (s.lane lib cl).pipe.queue = (s.tx cl).txQueue.map fun ub => (s.buf ub).bytes lib := rfl
  have idle : (s.lane lib cl).pipe.queue.isEmpty = (s.tx cl).txQueue.isEmpty := by
    rw [queue, List.isEmpty_map]
  refine ⟨fun busy => ?_, fun ub written int less => ?_, fun s' move known' ints' => ?_⟩
  · have busy' : (s.lane lib cl).pipe.queue ≠ [] := fun none => busy (List.map_eq_nil_iff.mp none)
    obtain ⟨count, inside, least, most⟩ := accounted.exact.count busy'
    refine ⟨?_, fun ub first => ?_, least, most⟩
    · rw [queue, List.length_flatten, List.map_map] at count
      have sizes : (List.length ∘ fun ub => (s.buf ub).bytes lib) = fun ub => (s.buf ub).size lib :=
        funext fun ub => (size_eq (s.buf ub)).symm
      rw [sizes] at count
      exact count
    · rw [size_eq]
      refine inside _ ?_
      rw [queue, List.head?_map, Option.mem_def.mp first]
      rfl
  · have test := accounted.exact.test ((s.buf ub).bytes lib) written (by rw [IntLength, ← size_eq]; exact int)
      (by rw [← size_eq]; exact less.le)
    rw [Admits, idle, ← size_eq] at test
    exact test
  · obtain ⟨-, l, start, path⟩ := move.accounted reachable ((Reachable.inv (reachable.tail move)).clients cl |>.mp
      known') ints' fun _ => accounted
    rcases start with ⟨-, rfl⟩ | ⟨absent, -⟩
    · exact path.lift id fun _ _ step => ⟨step.1, step.2.1.exact, step.2.2.exact⟩
    · exact absurd here absent

/-- The client whose HELLO was cut after five bytes: the rest is accounted. -/
theorem txq_accounted_cut : Reachable Blob.libubox (run Blob.libubox cutRun State.init) ∧
    ((run Blob.libubox cutRun State.init).tx 3).txQueue.length = 1 ∧
    ((run Blob.libubox cutRun State.init).tx 3).txqOfs = 5 ∧
    0 < ((run Blob.libubox cutRun State.init).tx 3).txqLen ∧
    ((run Blob.libubox cutRun State.init).tx 3).txqLen ≤ ubusClientMaxTxqLen := by
  obtain ⟨s, start⟩ : ∃ s, run Blob.libubox cutRun State.init = s := ⟨_, rfl⟩
  have reachable : Reachable Blob.libubox s := start ▸ reachable_run _ _
  have known : s.reg.HasClient 3 := by
    rw [← start]
    decide +kernel
  have ints : ∀ msg ∈ submissions Blob.libubox s.trace 3, IntLength msg := by
    have all : (submissions Blob.libubox s.trace 3).all (fun msg => decide (msg.length < 2 ^ 31)) = true := by
      rw [← start]
      decide +kernel
    intro msg member
    unfold IntLength
    exact of_decide_eq_true (List.all_eq_true.mp all msg member)
  have length : (s.tx 3).txQueue.length = 1 := by
    rw [← start]
    decide +kernel
  have busy : (s.tx 3).txQueue ≠ [] := fun none => by
    rw [none] at length
    cases length
  obtain ⟨-, -, bounds⟩ := (txq_accounted reachable known ints).1 busy
  rw [start]
  refine ⟨reachable, length, ?_, bounds⟩
  rw [← start]
  decide +kernel

end Accounting

end Ubus
