/-
**What is sent to each client.**

Seen from its socket, a client is a pipe: the messages queued for it are the contents of the buffers in
its transmit queue. The daemon works on the pipes only by calls of `ubus_msg_send`.

* `State.pipe`, `State.traffic` — the pipes, and the messages submitted to each client.
* `ships_receiveMessage`, `ships_resumeCmd`, … : the work of the daemon is of this kind.
-/

import Ubus.Effects
import Ubus.Lib.Pipe
import Ubus.Moves

namespace Ubus

open Lib Relation

variable {f : MsgBuf → MsgBuf} {t : State} {data : Payload} {new : Nat}

/-! ### Pipes -/

def MsgBuf.bytes (lib : Libubox) (buf : MsgBuf) : Bytes := msgBytes lib buf.hdr buf.data

/-- The pipe of a socket, over the contents of the buffers. -/
def Tx.pipe (lib : Libubox) (buf : Nat → MsgBuf) (tx : Tx) : Pipe UInt8 where
  ended := tx.eof
  armed := tx.writeInterest
  queue := tx.txQueue.map fun ub => (buf ub).bytes lib
  ofs := tx.txqOfs
  len := tx.txqLen
  wire := tx.wire

/-- **The pipe to a client.** -/
def State.pipe (lib : Libubox) (s : State) (cl : Nat) : Pipe UInt8 := (s.tx cl).pipe lib s.net.buf

/-- The message of an entry that was submitted to a client. -/
def Event.sentTo (lib : Libubox) (cl : Nat) : Event → Option Bytes
  | .submit _ dest hdr data => if dest = cl then some (msgBytes lib hdr data) else none
  | _ => none

/-- **The messages submitted to a client**, oldest first. -/
def submissions (lib : Libubox) (trace : List Event) (cl : Nat) : List Bytes :=
  (trace.filterMap (Event.sentTo lib cl)).reverse

/-- The pipes, and what was submitted. -/
@[ext] structure Traffic where
  pipe : Nat → Pipe UInt8
  calls : Nat → List Bytes

def State.traffic (lib : Libubox) (s : State) : Traffic := ⟨s.pipe lib, submissions lib s.trace⟩

/-- A message is submitted to a client, whose pipe is then `p`. -/
def Traffic.call (cl : Nat) (msg : Bytes) (p : Pipe UInt8) (t : Traffic) : Traffic :=
  ⟨Function.update t.pipe cl p, Function.update t.calls cl (t.calls cl ++ [msg])⟩

/-- `ubus_msg_enqueue` has room for the message: the sum it compares, in `size_t`, is within the limit. -/
def Admits (p : Pipe UInt8) (count : Nat) (msg : Bytes) : Prop :=
  ((if p.queue.isEmpty then -(count : Int) else p.len) + msg.length) % 2 ^ 64 ≤ ubusClientMaxTxqLen

/-- **One call of `ubus_msg_send`.** The stream of the receiver has not ended when the message is
transmitted, unless it is a monitor: then the record of this very message may have ended it. A message
that fits is not refused for want of room if memory lasts. -/
inductive Hop (mon : Nat → Prop) (fund : Prop) (t : Traffic) : Traffic → Prop where
  | refused (cl : Nat) (msg : Bytes) (ended : (t.pipe cl).ended = true) :
      Hop mon fund t (t.call cl msg (t.pipe cl))
  | sent (cl : Nat) (msg : Bytes) (count : Nat) (room : Bool)
      (opened : (t.pipe cl).ended = true → mon cl) (filled : msg ≠ []) (most : count ≤ msg.length)
      (granted : fund → (t.pipe cl).Fits ubusClientMaxTxqLen count msg → room = true)
      (kept : room = true → ((t.pipe cl).queue = [] → count < msg.length) →
        Admits (t.pipe cl) count msg) :
      Hop mon fund t (t.call cl msg ((t.pipe cl).transmit count room msg))

/-- The buffer is in a transmit queue. -/
def Net.Queued (net : Net) (ub : Nat) : Prop := ∃ cl, ub ∈ (net.sock cl).tx.txQueue

/-- Queued buffers were allocated and are not over external data, as status messages are. The monitors
are among `mon`, and memory lasts if `fund` holds. -/
structure Tidy (mon : Nat → Prop) (fund : Prop) (s : State) : Prop where
  below : ∀ ub, s.net.Queued ub → ub < s.net.brk
  plain : ∀ ub, s.net.Queued ub → (s.net.buf ub).refcount ≠ .external
  status : ∀ cl ub, (s.net.sock cl).retmsg = some ub →
    ub < s.net.brk ∧ (s.net.buf ub).refcount = .external
  watch : ∀ m ∈ s.net.monitors, mon m.cl
  funded : fund → Funded s

/-- What is known after messages were submitted. -/
structure Shipped (lib : Libubox) (mon : Nat → Prop) (fund : Prop) (may : Nat → Prop) (s s' : State) :
    Prop where
  path : ReflTransGen (Hop mon fund) (s.traffic lib) (s'.traffic lib)
  tidy : Tidy mon fund s'
  brk : s.net.brk ≤ s'.net.brk
  queued : ∀ ub, s'.net.Queued ub → s.net.Queued ub ∨ s.net.brk ≤ ub ∨ may ub
  external : ∀ ub < s.net.brk, ((s'.net.buf ub).refcount = .external ↔
    (s.net.buf ub).refcount = .external)

/-- **Messages were submitted**, and apart from that nothing was done to the pipes. -/
def Ships (lib : Libubox) (mon : Nat → Prop) (fund : Prop) (may : Nat → Prop) (s s' : State) : Prop :=
  Tidy mon fund s → Shipped lib mon fund may s s'

namespace Ships

variable {lib : Libubox} {mon may : Nat → Prop} {fund : Prop} {s s' s'' : State}

theorem refl (s : State) : Ships lib mon fund may s s := fun tidy =>
  ⟨.refl, tidy, le_rfl, fun _ queued => Or.inl queued, fun _ _ => Iff.rfl⟩

theorem bind (one : Ships lib mon fund may s s')
    (two : Shipped lib mon fund may s s' → Ships lib mon fund may s' s'') :
    Ships lib mon fund may s s'' := by
  intro tidy
  have first := one tidy
  have second := two first first.tidy
  refine ⟨first.path.trans second.path, second.tidy, first.brk.trans second.brk, fun ub queued => ?_,
    fun ub old => (second.external ub (old.trans_le first.brk)).trans (first.external ub old)⟩
  rcases second.queued ub queued with queued | fresh | allowed
  · exact first.queued ub queued
  · exact Or.inr (Or.inl (first.brk.trans fresh))
  · exact Or.inr (Or.inr allowed)

theorem trans (one : Ships lib mon fund may s s') (two : Ships lib mon fund may s' s'') :
    Ships lib mon fund may s s'' := one.bind fun _ => two

theorem mono {may' : Nat → Prop} (ships : Ships lib mon fund may s s')
    (more : ∀ ub, may ub → ub < s.net.brk → may' ub) : Ships lib mon fund may' s s' := by
  intro tidy
  have shipped := ships tidy
  refine ⟨shipped.path, shipped.tidy, shipped.brk, fun ub queued => ?_, shipped.external⟩
  rcases shipped.queued ub queued with queued | fresh | allowed
  · exact Or.inl queued
  · exact Or.inr (Or.inl fresh)
  · by_cases old : ub < s.net.brk
    · exact Or.inr (Or.inr (more ub allowed old))
    · exact Or.inr (Or.inl (Nat.le_of_not_lt old))

theorem foldl {ι : Type} {body : State → ι → State}
    (round : ∀ s item, Ships lib mon fund may s (body s item)) (items : List ι) (s : State) :
    Ships lib mon fund may s (items.foldl body s) := by
  induction items generalizing s with
  | nil => exact refl s
  | cons item rest ih => exact (round s item).trans (ih (body s item))

end Ships

/-! ### What leaves the pipes alone -/

/-- What every part of the daemon leaves alone: status messages do not come up, buffers do not become
external, and memory and monitors only get fewer. -/
structure Around (lib : Libubox) (s s' : State) : Prop where
  retmsg : ∀ cl ub, (s'.net.sock cl).retmsg = some ub → (s.net.sock cl).retmsg = some ub
  external : ∀ ub < s.net.brk, ((s'.net.buf ub).refcount = .external ↔
    (s.net.buf ub).refcount = .external)
  calls : submissions lib s'.trace = submissions lib s.trace
  brk : s.net.brk ≤ s'.net.brk
  monitors : s'.net.monitors.map Monitor.cl ⊆ s.net.monitors.map Monitor.cl
  allocs : s'.allocs <:+ s.allocs

/-- The pipes are left alone, provided that the buffers of `touched` are not queued. -/
structure Still (lib : Libubox) (touched : Nat → Prop) (s s' : State) : Prop extends
    Around lib s s' where
  tx : ∀ cl, (s'.net.sock cl).tx = (s.net.sock cl).tx
  bytes : ∀ ub < s.net.brk, ¬ touched ub → (s'.net.buf ub).bytes lib = (s.net.buf ub).bytes lib

section Still

variable {lib : Libubox} {mon may touched : Nat → Prop} {fund : Prop} {s s' s'' : State}

theorem Around.trans (one : Around lib s s') (two : Around lib s' s'') : Around lib s s'' where
  retmsg cl ub here := one.retmsg cl ub (two.retmsg cl ub here)
  external ub old := (two.external ub (old.trans_le one.brk)).trans (one.external ub old)
  calls := two.calls.trans one.calls
  brk := one.brk.trans two.brk
  monitors := List.Subset.trans two.monitors one.monitors
  allocs := two.allocs.trans one.allocs

theorem Around.of_eq (retmsg : ∀ cl, (s'.net.sock cl).retmsg = (s.net.sock cl).retmsg)
    (buf : s'.net.buf = s.net.buf) (trace : submissions lib s'.trace = submissions lib s.trace)
    (brk : s'.net.brk = s.net.brk) (monitors : s'.net.monitors = s.net.monitors)
    (allocs : s'.allocs = s.allocs) : Around lib s s' where
  retmsg cl ub here := by rwa [retmsg] at here
  external ub _ := by rw [buf]
  calls := trace
  brk := brk.ge
  monitors := by rw [monitors]; exact List.Subset.refl _
  allocs := by simp only [allocs, List.suffix_rfl]

theorem Around.mapTx (cl : Nat) (f : Tx → Tx) (s : State) : Around lib s (s.mapTx cl f) :=
  Around.of_eq (update_keeps Sock.retmsg s.net.sock (by rfl)) rfl rfl rfl rfl rfl

theorem Still.queued (still : Still lib touched s s') (ub : Nat) :
    s'.net.Queued ub ↔ s.net.Queued ub :=
  exists_congr fun cl => by rw [still.tx cl]

theorem Still.pipe (still : Still lib touched s s') (below : ∀ ub, s.net.Queued ub → ub < s.net.brk)
    (free : ∀ ub, s.net.Queued ub → ¬ touched ub) (cl : Nat) : s'.pipe lib cl = s.pipe lib cl := by
  have queue : ((s.tx cl).txQueue.map fun ub => (s'.buf ub).bytes lib) =
      (s.tx cl).txQueue.map fun ub => (s.buf ub).bytes lib :=
    List.map_congr_left fun ub member =>
      still.bytes ub (below ub ⟨cl, member⟩) (free ub ⟨cl, member⟩)
  unfold State.pipe Tx.pipe
  rw [State.tx, still.tx cl, queue]

theorem Tidy.of_queued (tidy : Tidy mon fund s) (around : Around lib s s')
    (below : ∀ ub, s'.net.Queued ub → ub < s'.net.brk)
    (plain : ∀ ub, s'.net.Queued ub → s.net.Queued ub ∨ (s'.net.buf ub).refcount ≠ .external) :
    Tidy mon fund s' := by
  refine ⟨below, fun ub queued => ?_, fun cl ub here => ?_, fun m member => ?_, fun is ok member =>
    tidy.funded is ok (around.allocs.subset member)⟩
  · rcases plain ub queued with queued | plain
    · exact (not_congr (around.external ub (tidy.below ub queued))).mpr (tidy.plain ub queued)
    · exact plain
  · obtain ⟨old, is⟩ := tidy.status cl ub (around.retmsg cl ub here)
    exact ⟨old.trans_le around.brk, (around.external ub old).mpr is⟩
  · obtain ⟨other, inside, same⟩ := List.mem_map.mp (around.monitors (List.mem_map_of_mem member))
    exact same ▸ tidy.watch other inside

theorem Still.ships (still : Still lib touched s s')
    (free : Tidy mon fund s → ∀ ub, s.net.Queued ub → ¬ touched ub) : Ships lib mon fund may s s' := by
  intro tidy
  have same : s'.traffic lib = s.traffic lib :=
    Traffic.ext (funext (still.pipe tidy.below (free tidy))) still.calls
  refine ⟨same ▸ .refl, tidy.of_queued still.toAround (fun ub queued => ?_) (fun ub queued => Or.inl ?_),
    still.brk, fun ub queued => Or.inl ((still.queued ub).mp queued), still.external⟩
  · exact (tidy.below ub ((still.queued ub).mp queued)).trans_le still.brk
  · exact (still.queued ub).mp queued

theorem Still.trans (one : Still lib touched s s') (two : Still lib touched s' s'') :
    Still lib touched s s'' where
  toAround := one.toAround.trans two.toAround
  tx cl := (two.tx cl).trans (one.tx cl)
  bytes ub old free := (two.bytes ub (old.trans_le one.brk) free).trans (one.bytes ub old free)

theorem Still.of_net (tx : ∀ cl, (s'.net.sock cl).tx = (s.net.sock cl).tx)
    (retmsg : ∀ cl, (s'.net.sock cl).retmsg = (s.net.sock cl).retmsg)
    (buf : s'.net.buf = s.net.buf) (trace : submissions lib s'.trace = submissions lib s.trace)
    (brk : s'.net.brk = s.net.brk) (monitors : s'.net.monitors = s.net.monitors)
    (allocs : s'.allocs = s.allocs) : Still lib Nothing s s' where
  toAround := Around.of_eq retmsg buf trace brk monitors allocs
  tx := tx
  bytes ub _ _ := by rw [buf]

theorem Still.quietly (still : Still lib Nothing s s') : Ships lib mon fund may s s' :=
  still.ships fun _ _ _ => id

theorem Still.mono (still : Still lib Nothing s s') : Still lib touched s s' :=
  ⟨still.toAround, still.tx, fun ub old _ => still.bytes ub old id⟩

theorem still_touch {ub : Nat} (refcount : (f (s.net.buf ub)).refcount = (s.net.buf ub).refcount) :
    Still lib (· = ub) s (s.mapBuf ub f) := by
  refine ⟨⟨fun _ _ => id, fun other _ => ?_, rfl, le_rfl, List.Subset.refl _, List.suffix_rfl⟩,
    fun _ => rfl, fun other _ differs => ?_⟩
  · show (Function.update s.net.buf ub _ other).refcount = _ ↔ _
    rw [update_keeps MsgBuf.refcount s.net.buf refcount other]
  · show (Function.update s.net.buf ub _ other).bytes lib = _
    rw [Function.update_of_ne differs]

theorem ships_mapBuf {ub : Nat} (free : Tidy mon fund s → ¬ s.net.Queued ub)
    (refcount : (f (s.net.buf ub)).refcount = (s.net.buf ub).refcount) :
    Ships lib mon fund may s (s.mapBuf ub f) :=
  (still_touch refcount).ships fun tidy _ queued same => free tidy (same ▸ queued)

theorem still_mapBuf {ub : Nat} (bytes : (f (s.net.buf ub)).bytes lib = (s.net.buf ub).bytes lib)
    (external : (f (s.net.buf ub)).refcount = .external ↔ (s.net.buf ub).refcount = .external) :
    Still lib Nothing s (s.mapBuf ub f) := by
  refine ⟨⟨fun _ _ => id, fun other _ => Iff.of_eq ?_, rfl, le_rfl, List.Subset.refl _, List.suffix_rfl⟩,
    fun _ => rfl, fun other _ _ => update_keeps (MsgBuf.bytes lib) s.net.buf bytes other⟩
  exact update_keeps (fun buf => buf.refcount = .external) s.net.buf (propext external) other

theorem still_calloc (s : State) : Still lib Nothing s s.calloc.2 := by
  have net := calloc_net s
  have wire : Wire (fun _ => False) (fun _ => False) (fun _ => False) s s.calloc.2 := wire_calloc s
  refine ⟨⟨fun _ _ => by rw [net]; exact id, fun _ _ => by rw [net], ?_, by rw [net],
    by rw [net]; exact List.Subset.refl _, wire.allocs⟩, fun _ => by rw [net],
    fun _ _ _ => by rw [net]⟩
  unfold State.calloc
  split <;> rfl

theorem still_closeFd (fd : Option Nat) (s : State) : Still lib Nothing s (closeFd fd s) := by
  cases fd <;> exact Still.of_net (fun _ => rfl) (fun _ => rfl) rfl rfl rfl rfl rfl

theorem still_free (ub : Nat) (s : State) : Still lib Nothing s (ubusMsgFree ub s) := by
  have release : Still lib Nothing s (msgRelease ub s) :=
    (still_closeFd _ s).trans (still_mapBuf rfl Iff.rfl)
  unfold ubusMsgFree
  split
  · exact release
  · exact release
  · rename_i counted
    exact still_mapBuf rfl (by rw [counted]; simp)

theorem still_made {shared : Bool} (made : ubusMsgNew data shared s = (some new, t))
    (f : MsgBuf → MsgBuf) : Still lib Nothing s (t.mapBuf new f) := by
  obtain ⟨rfl, rfl⟩ := ubusMsgNew_some made
  have called : Still lib Nothing s s.calloc.2 := still_calloc s
  have bufs : ∀ ub < s.net.brk, ((allocBuf data shared s.calloc.2).mapBuf s.net.brk f).net.buf ub =
      s.net.buf ub := by
    intro ub old
    have differs : ub ≠ s.net.brk := old.ne
    show Function.update (Function.update s.calloc.2.net.buf s.calloc.2.net.brk _) s.net.brk _ ub = _
    rw [Function.update_of_ne differs, calloc_net, Function.update_of_ne differs]
  exact ⟨⟨called.retmsg, fun ub old => by rw [bufs ub old], called.calls,
    called.brk.trans (Nat.le_succ _), called.monitors, called.allocs⟩, called.tx,
    fun ub old _ => by rw [bufs ub old]⟩

theorem still_new (data : Payload) (shared : Bool) (s : State) :
    Still lib Nothing s (ubusMsgNew data shared s).2 := by
  rcases made : ubusMsgNew data shared s with ⟨_ | new, t⟩
  · rcases ubusMsgNew_cases data shared s with failed | some'
    · rw [made] at failed
      cases failed
      exact still_calloc s
    · rw [made] at some'
      cases some'
  · have same : t.mapBuf new id = t := by simp [State.mapBuf]
    rw [← same]
    exact still_made made id

theorem still_ref (ub : Nat) (s : State) : Still lib Nothing s (ubusMsgRef ub s).2 := by
  unfold ubusMsgRef
  split
  · have made : Still lib Nothing s (ubusMsgNew (s.buf ub).data false s).2 := still_new _ _ s
    rcases result : ubusMsgNew (s.buf ub).data false s with ⟨_ | new, t⟩
    · rw [result] at made
      exact made
    · simp only [moveToCopy]
      exact (still_made result _).trans (still_mapBuf rfl Iff.rfl)
  · rename_i n count
    simp only
    exact still_mapBuf rfl (by rw [count]; simp)

end Still

/-! ### The transmit path -/

section Transmit

variable {lib : Libubox} {mon may : Nat → Prop} {fund : Prop} {cl ub : Nat} {s s' : State}

theorem msgIov_eq (buf : MsgBuf) (offset : Nat) : msgIov lib buf offset = (buf.bytes lib).drop offset := by
  unfold msgIov MsgBuf.bytes msgBytes
  rw [List.drop_append, Msghdr.length_bytes]
  split
  · rename_i inside
    rw [Nat.sub_eq_zero_of_le (Nat.le_of_lt inside), List.drop_zero]
  rename_i outside
  have past : buf.hdr.bytes.drop offset = [] :=
    List.drop_eq_nil_iff.mpr (by rw [Msghdr.length_bytes]; omega)
  rw [past, List.nil_append]

theorem size_eq (buf : MsgBuf) : buf.size lib = (buf.bytes lib).length := (length_msgBytes ..).symm

theorem bytes_ne_nil (buf : MsgBuf) : buf.bytes lib ≠ [] := by
  intro empty
  have size := length_msgBytes lib buf.hdr buf.data
  rw [show msgBytes lib buf.hdr buf.data = [] from empty] at size
  cases size

theorem ubusMsgRef_some {msg : Nat} (counted : ubusMsgRef ub s = (some msg, t))
    (old : ub < s.net.brk) :
    (t.net.buf msg).bytes lib = (s.net.buf ub).bytes lib ∧ msg < t.net.brk ∧
      (t.net.buf msg).refcount ≠ .external ∧
      (s.net.brk ≤ msg ∨ msg = ub ∧ (s.net.buf ub).refcount ≠ .external) := by
  unfold ubusMsgRef at counted
  split at counted
  · rcases made : ubusMsgNew (s.buf ub).data false s with ⟨_ | new, u⟩
    · rw [made] at counted
      cases counted
    rw [made] at counted
    cases counted
    obtain ⟨rfl, rfl⟩ := ubusMsgNew_some made
    have differs : s.net.brk ≠ ub := old.ne'
    refine ⟨?_, ?_, ?_, Or.inl le_rfl⟩
    · simp [moveToCopy, State.mapBuf, allocBuf, calloc_net, MsgBuf.bytes, differs, old.ne]
    · show s.net.brk < s.calloc.2.net.brk + 1
      rw [calloc_net]
      exact Nat.lt_succ_self _
    · simp [moveToCopy, State.mapBuf, allocBuf, calloc_net, differs]
  · rename_i n count
    cases counted
    refine ⟨?_, old, by simp [State.mapBuf], Or.inr ⟨rfl, by simp [count]⟩⟩
    exact update_keeps (MsgBuf.bytes lib) s.net.buf (by rfl) ub

theorem calloc_funded (funded : Funded s) : s.calloc.1 = true := by
  unfold State.calloc
  split
  · rfl
  · rename_i ok rest allocs
    exact funded ok (allocs ▸ List.mem_cons_self)

theorem ubusMsgRef_funded (ub : Nat) (funded : Funded s) : (ubusMsgRef ub s).1 ≠ none := by
  have enough := calloc_funded funded
  unfold ubusMsgRef ubusMsgNew
  split
  · rcases result : s.calloc with ⟨_ | _, t⟩
    · rw [result] at enough
      cases enough
    · simp
  · simp

/-- The bytes that would be queued stay within the limit, in `size_t`. -/
def Net.Room (lib : Libubox) (net : Net) (cl ub : Nat) : Prop :=
  0 ≤ (net.sock cl).tx.txqLen + ((net.buf ub).bytes lib).length ∧
    (net.sock cl).tx.txqLen + ((net.buf ub).bytes lib).length ≤ ubusClientMaxTxqLen

/-- What `ubus_msg_enqueue` does. -/
inductive Enqueued (lib : Libubox) (cl ub : Nat) (s : State) : Bool × State → Prop where
  | failed (t : State) (still : Still lib Nothing s t) (short : Funded s → ¬ s.net.Room lib cl ub) :
      Enqueued lib cl ub s (false, t)
  | queued (t : State) (msg : Nat) (still : Still lib Nothing s t)
      (bytes : (t.net.buf msg).bytes lib = (s.net.buf ub).bytes lib) (below : msg < t.net.brk)
      (plain : (t.net.buf msg).refcount ≠ .external)
      (source : s.net.brk ≤ msg ∨ msg = ub ∧ (s.net.buf ub).refcount ≠ .external)
      (within : txqTotal lib (s.tx cl).txqLen (s.buf ub) ≤ ubusClientMaxTxqLen) :
      Enqueued lib cl ub s (true, t.mapTx cl fun tx => { tx with
        txQueue := tx.txQueue ++ [msg], txqLen := tx.txqLen + (s.net.buf ub).size lib })

theorem enqueue_cases (old : ub < s.net.brk) : Enqueued lib cl ub s (ubusMsgEnqueue lib cl ub s) := by
  unfold ubusMsgEnqueue
  split
  · rename_i much
    refine .failed s (Still.of_net (fun _ => rfl) (fun _ => rfl) rfl rfl rfl rfl rfl) fun _ room => ?_
    obtain ⟨least, most⟩ := room
    have total : txqTotal lib (s.tx cl).txqLen (s.buf ub) =
        (s.tx cl).txqLen + ((s.net.buf ub).bytes lib).length := by
      rw [txqTotal, size_eq]
      exact Int.emod_eq_of_lt least (lt_of_le_of_lt most (by decide))
    rw [total] at much
    exact absurd most (not_le.mpr much)
  · rename_i little
    have called : Still lib Nothing s s.calloc.2 := still_calloc s
    have enough : Funded s → s.calloc.1 = true := calloc_funded
    have net := calloc_net s
    rcases result : s.calloc with ⟨_ | _, t⟩
    · rw [result] at called enough
      exact .failed t called fun funded => absurd (enough funded) nofun
    rw [result] at called net
    have both : Still lib Nothing s (ubusMsgRef ub t).2 := called.trans (still_ref ub t)
    have old' : ub < t.net.brk := net ▸ old
    simp only
    rcases counted : ubusMsgRef ub t with ⟨_ | msg, u⟩
    · rw [counted] at both
      refine .failed u both fun funded => ?_
      have later : Funded t := fun ok member => funded ok (called.allocs.subset member)
      exact absurd (by rw [counted]) (ubusMsgRef_funded ub later)
    · rw [counted] at both
      have size : (u.net.buf ub).size lib = (s.net.buf ub).size lib := by
        rw [size_eq, size_eq, both.bytes ub old id]
      have made : (u.net.buf msg).bytes lib = (t.net.buf ub).bytes lib ∧ _ :=
        ubusMsgRef_some counted old'
      rw [net] at made
      obtain ⟨bytes, below, plain, source⟩ := made
      simp only [State.buf]
      rw [size]
      exact .queued u msg both bytes below plain source (not_lt.mp little)

/-- Only the pipe to one client has changed; it is now `p`. -/
structure Pushed (lib : Libubox) (cl : Nat) (p : Pipe UInt8) (source : Nat → Prop) (s s' : State) : Prop
    extends Around lib s s' where
  pipe : s'.pipe lib = Function.update (s.pipe lib) cl p
  below : ∀ ub, s'.net.Queued ub → ub < s'.net.brk
  plain : ∀ ub, s'.net.Queued ub → s.net.Queued ub ∨ (s'.net.buf ub).refcount ≠ .external
  queued : ∀ ub, s'.net.Queued ub → s.net.Queued ub ∨ s.net.brk ≤ ub ∨ source ub

/-- The buffer itself goes into a queue only if it is not external. -/
def Itself (ub : Nat) (s : State) (msg : Nat) : Prop :=
  msg = ub ∧ (s.net.buf ub).refcount ≠ .external

theorem pipe_mapTx (s : State) (cl : Nat) (f : Tx → Tx) :
    (s.mapTx cl f).pipe lib = Function.update (s.pipe lib) cl ((f (s.tx cl)).pipe lib s.net.buf) := by
  funext other
  by_cases same : other = cl
  · subst same
    rw [Function.update_self]
    simp [State.pipe, State.mapTx, State.mapSock]
  · rw [Function.update_of_ne same]
    simp [State.pipe, State.mapTx, State.mapSock, same]

theorem queued_mapTx {f : Tx → Tx} (ub : Nat) (queued : (s.mapTx cl f).net.Queued ub) :
    s.net.Queued ub ∨ ub ∈ (f (s.net.sock cl).tx).txQueue := by
  obtain ⟨other, member⟩ := queued
  by_cases same : other = cl
  · subst same
    rw [State.mapTx, mapSock_self] at member
    exact Or.inr member
  · rw [State.mapTx, mapSock_of_ne s same] at member
    exact Or.inl ⟨other, member⟩

/-- The message is queued like in a pipe, and has room when it fits and memory lasts. -/
def Queues (lib : Libubox) (cl ub : Nat) (started : Bool) (s s' : State) : Prop :=
  ∃ room, (Funded s → s.net.Room lib cl ub → room = true) ∧
    (room = true → txqTotal lib (s.tx cl).txqLen (s.buf ub) ≤ ubusClientMaxTxqLen) ∧
    Pushed lib cl ((s.pipe lib cl).enqueue room started ((s.net.buf ub).bytes lib)) (Itself ub s) s s'

/-- The message is transmitted like in a pipe. -/
def Transmits (lib : Libubox) (cl ub : Nat) (s s' : State) : Prop :=
  ∃ count room, count ≤ ((s.net.buf ub).bytes lib).length ∧
    (Funded s → (s.pipe lib cl).Fits ubusClientMaxTxqLen count ((s.net.buf ub).bytes lib) →
      room = true) ∧
    (room = true → ((s.pipe lib cl).queue = [] → count < ((s.net.buf ub).bytes lib).length) →
      Admits (s.pipe lib cl) count ((s.net.buf ub).bytes lib)) ∧
    Pushed lib cl ((s.pipe lib cl).transmit count room ((s.net.buf ub).bytes lib)) (Itself ub s) s s'

theorem pushed_enqueueRest (below : ∀ ub, s.net.Queued ub → ub < s.net.brk) (old : ub < s.net.brk)
    (started : Bool) : Queues lib cl ub started s (enqueueRest lib cl ub started s) := by
  have result : Enqueued lib cl ub s (ubusMsgEnqueue lib cl ub s) := enqueue_cases old
  unfold enqueueRest
  generalize ubusMsgEnqueue lib cl ub s = outcome at result ⊢
  cases result with
  | failed t still short =>
    have pipe : t.pipe lib = s.pipe lib := funext (still.pipe below fun _ _ => id)
    have below' : ∀ ub, t.net.Queued ub → ub < t.net.brk := fun ub queued =>
      (below ub ((still.queued ub).mp queued)).trans_le still.brk
    refine ⟨false, fun funded room => absurd room (short funded), fun yes => (by cases yes), ?_⟩
    simp only [Pipe.enqueue, Bool.false_eq_true, if_false]
    cases started with
    | false =>
      simp only [Bool.false_eq_true, if_false]
      exact ⟨still.toAround, by rw [pipe]; simp, below', fun ub queued => Or.inl ((still.queued ub).mp queued),
        fun ub queued => Or.inl ((still.queued ub).mp queued)⟩
    | true =>
      simp only [if_true]
      have queue : ∀ ub, (t.mapTx cl fun tx => { tx with eof := true }).net.Queued ub → t.net.Queued ub :=
        fun ub queued => (queued_mapTx ub queued).elim id fun member => ⟨cl, member⟩
      refine ⟨still.toAround.trans (Around.mapTx cl _ t), ?_, fun ub queued => below' ub (queue ub queued),
        fun ub queued => Or.inl ((still.queued ub).mp (queue ub queued)),
        fun ub queued => Or.inl ((still.queued ub).mp (queue ub queued))⟩
      rw [pipe_mapTx, ← pipe]
      rfl
  | queued t msg still bytes belowMsg plain source within =>
    have pipe : t.pipe lib = s.pipe lib := funext (still.pipe below fun _ _ => id)
    have queue : ∀ other, (t.mapTx cl fun tx => { tx with
        txQueue := tx.txQueue ++ [msg], txqLen := tx.txqLen + (s.net.buf ub).size lib }).net.Queued other →
        s.net.Queued other ∨ other = msg := by
      intro other queued
      rcases queued_mapTx other queued with queued | member
      · exact Or.inl ((still.queued other).mp queued)
      · rcases List.mem_append.mp member with member | member
        · exact Or.inl ((still.queued other).mp ⟨cl, member⟩)
        · exact Or.inr (List.mem_singleton.mp member)
    simp only
    refine ⟨true, fun _ _ => rfl, fun _ => within, still.toAround.trans (Around.mapTx cl _ t), ?_,
      fun other queued => ?_,
      fun other queued => ?_, fun other queued => ?_⟩
    · rw [pipe_mapTx, ← pipe]
      simp [Pipe.enqueue, State.pipe, Tx.pipe, bytes, size_eq]
    · rcases queue other queued with queued | rfl
      · exact (below other queued).trans_le still.brk
      · exact belowMsg
    · rcases queue other queued with queued | rfl
      · exact Or.inl queued
      · exact Or.inr plain
    · rcases queue other queued with queued | rfl
      · exact Or.inl queued
      · exact Or.inr source

theorem nextWrite_eq {out : WriteOutcome} {t : State} (next : s.nextWrite = (out, t)) :
    ∃ writes, t = { s with writes } := by
  unfold State.nextWrite at next
  split at next
  · cases next
    exact ⟨s.writes, rfl⟩
  · rename_i rest _
    cases next
    exact ⟨rest, rfl⟩

theorem writev_eq (lib : Libubox) (cl ub : Nat) (out : WriteOutcome) (s : State) : ∃ count,
    count ≤ ((s.net.buf ub).bytes lib).length ∧ (ubusMsgWritev lib cl ub 0 out s).1.getD 0 = count ∧
      (ubusMsgWritev lib cl ub 0 out s).2 = s.mapTx cl fun tx => { tx with
        wire := tx.wire ++ ((s.net.buf ub).bytes lib).take count } := by
  have nothing : s = s.mapTx cl fun tx => { tx with
      wire := tx.wire ++ ((s.net.buf ub).bytes lib).take 0 } := by
    simp [State.mapTx, State.mapSock]
  cases out with
  | again => exact ⟨0, Nat.zero_le _, rfl, nothing⟩
  | error => exact ⟨0, Nat.zero_le _, rfl, nothing⟩
  | sent extra =>
    refine ⟨_, ?_, rfl, ?_⟩
    · simp only [ubusMsgWritev, msgIov_eq, List.drop_zero, Option.getD_some, State.buf]
      exact Nat.min_le_right ..
    · simp only [ubusMsgWritev, msgIov_eq, List.drop_zero, Option.getD_some, State.buf]

/-- **`ubus_msg_send` from the test of the transmit queue on** is the transmission of a pipe. -/
theorem pushed_transmit (below : ∀ ub, s.net.Queued ub → ub < s.net.brk) (old : ub < s.net.brk) :
    Transmits lib cl ub s (transmit lib cl ub s) := by
  unfold Transmits transmit Pipe.transmit
  have idle : (s.pipe lib cl).queue.isEmpty = (s.tx cl).txQueue.isEmpty := by
    simp [State.pipe, Tx.pipe]
  unfold Pipe.Fits Admits
  rw [idle]
  split
  · rename_i none
    have none' : (s.pipe lib cl).queue = [] := List.isEmpty_iff.mp (idle.trans none)
    rcases next : s.nextWrite with ⟨out, t⟩
    obtain ⟨writes, rfl⟩ : ∃ writes, t = { s with writes } := nextWrite_eq next
    obtain ⟨count, most, amount, written⟩ := writev_eq lib cl ub out { s with writes }
    rcases result : ubusMsgWritev lib cl ub 0 out { s with writes } with ⟨ret, t⟩
    rw [result] at amount written
    simp only at amount written
    simp only [result, amount]
    rw [written, State.buf, size_eq]
    have unread : Around lib s { s with writes } := Around.of_eq (fun _ => rfl) rfl rfl rfl rfl rfl
    split
    · rename_i all
      refine ⟨count, true, most, fun _ _ => rfl, fun _ less => absurd all (not_le.mpr (less none')), ?_⟩
      rw [if_pos (show ((s.net.buf ub).bytes lib).length ≤ count from all)]
      refine ⟨unread.trans (Around.mapTx cl _ _), pipe_mapTx _ cl _, fun other queued => below other ?_,
        fun other queued => Or.inl ?_, fun other queued => Or.inl ?_⟩
      all_goals exact (queued_mapTx other queued).elim id fun member => ⟨cl, member⟩
    · rename_i part
      generalize taken : (({ s with writes } : State).mapTx cl fun tx => { tx with
        wire := tx.wire ++ ((s.net.buf ub).bytes lib).take count }).mapTx cl (fun tx => { tx with
          txqOfs := count, txqLen := -(count : Int), writeInterest := true }) = u
      have around : Around lib s u := by
        rw [← taken]
        exact (unread.trans (Around.mapTx cl _ _)).trans (Around.mapTx cl _ _)
      have queue : ∀ other, u.net.Queued other → s.net.Queued other := by
        intro other queued
        rw [← taken] at queued
        refine (queued_mapTx other queued).elim (fun queued => ?_) fun member => ⟨cl, by
          rwa [State.mapTx, mapSock_self] at member⟩
        exact (queued_mapTx other queued).elim id fun member => ⟨cl, member⟩
      have buf : u.net.buf = s.net.buf := taken ▸ rfl
      have len : (u.net.sock cl).tx.txqLen = -(count : Int) := by
        rw [← taken, State.mapTx, mapSock_self]
      obtain ⟨room, granted, within, pushed⟩ : Queues lib cl ub (0 < count) u _ :=
        pushed_enqueueRest (fun other queued => by
          rw [← taken]
          exact below other (queue other queued)) (by rw [← taken]; exact old) _
      have pipe : u.pipe lib = Function.update (s.pipe lib) cl { s.pipe lib cl with
          wire := (s.tx cl).wire ++ ((s.net.buf ub).bytes lib).take count,
          ofs := count, len := -(count : Int), armed := true } := by
        rw [← taken, pipe_mapTx, pipe_mapTx, Function.update_idem]
        simp only [State.tx, State.mapTx, mapSock_self]
        rfl
      refine ⟨count, room, most, fun funded fits => ?_, fun yes _ => ?_, around.trans pushed.toAround, ?_,
        pushed.below,
        fun other queued => (pushed.plain other queued).imp_left (queue other), fun other queued => ?_⟩
      · refine granted (fun ok member => funded ok (around.allocs.subset member)) ?_
        rw [Net.Room, len, buf]
        simpa using fits
      · have total := within yes
        rwa [txqTotal, State.tx, len, State.buf, buf, size_eq] at total
      · rw [pushed.pipe, pipe, Function.update_idem, Function.update_self, buf,
          if_neg (show ¬ ((s.net.buf ub).bytes lib).length ≤ count from part)]
        rfl
      · refine (pushed.queued other queued).imp (queue other) (Or.imp (around.brk.trans ·) fun itself => ?_)
        rwa [Itself, buf] at itself
  · obtain ⟨room, granted, within, pushed⟩ : Queues lib cl ub false s _ :=
      pushed_enqueueRest below old false
    refine ⟨0, room, Nat.zero_le _, fun funded fits => granted funded fits, fun yes _ => ?_, pushed⟩
    have total := within yes
    rwa [txqTotal, State.buf, size_eq] at total

end Transmit

/-! ### Sending -/

section Sending

variable {lib : Libubox} {mon may : Nat → Prop} {fund : Prop} {cl ub : Nat} {s s' : State}

theorem submitted_log (lib : Libubox) (moment : Moment) (cl : Nat) (hdr : Msghdr) (data : Payload)
    (trace : List Event) : submissions lib (.submit moment cl hdr data :: trace) =
      Function.update (submissions lib trace) cl (submissions lib trace cl ++ [msgBytes lib hdr data]) := by
  funext other
  by_cases same : other = cl
  · subst same
    simp [submissions, Event.sentTo]
  · simp [submissions, Event.sentTo, same, Ne.symm same]

theorem shipped_transmit (tidy : Tidy mon fund s) (old : ub < s.net.brk)
    (opened : (s.tx cl).eof = true → mon cl) :
    Shipped lib mon fund (Itself ub s) s (transmit lib cl ub (logSubmit cl ub s)) ∧
      ∀ other, other ≠ cl → (transmit lib cl ub (logSubmit cl ub s)).pipe lib other = s.pipe lib other := by
  obtain ⟨count, room, most, granted, kept, pushed⟩ : Transmits lib cl ub (logSubmit cl ub s) _ :=
    pushed_transmit tidy.below old
  have hop : Hop mon fund (s.traffic lib) ((transmit lib cl ub (logSubmit cl ub s)).traffic lib) := by
    have traffic : (transmit lib cl ub (logSubmit cl ub s)).traffic lib = (s.traffic lib).call cl
        ((s.net.buf ub).bytes lib) ((s.pipe lib cl).transmit count room ((s.net.buf ub).bytes lib)) :=
      Traffic.ext pushed.pipe (pushed.calls.trans (submitted_log ..))
    rw [traffic]
    exact .sent cl _ count room opened (bytes_ne_nil _) most (fun is => granted (tidy.funded is)) kept
  have around : Around lib (logSubmit cl ub s) (transmit lib cl ub (logSubmit cl ub s)) := pushed.toAround
  refine ⟨⟨.single hop, ?_, pushed.brk, pushed.queued, pushed.external⟩, fun other differs => ?_⟩
  · exact Tidy.of_queued (s := logSubmit cl ub s) ⟨tidy.below, tidy.plain, tidy.status, tidy.watch,
      tidy.funded⟩ around pushed.below pushed.plain
  · rw [pushed.pipe, Function.update_of_ne differs]
    rfl

theorem shipped_refused (tidy : Tidy mon fund s) (ended : (s.tx cl).eof = true) :
    Shipped lib mon fund may s (logSubmit cl ub s) := by
  have hop : Hop mon fund (s.traffic lib) ((logSubmit cl ub s).traffic lib) := by
    have traffic : (logSubmit cl ub s).traffic lib = (s.traffic lib).call cl
        ((s.net.buf ub).bytes lib) (s.pipe lib cl) :=
      Traffic.ext (Function.update_eq_self cl (s.pipe lib)).symm (submitted_log ..)
    rw [traffic]
    exact .refused cl _ ended
  exact ⟨.single hop, ⟨tidy.below, tidy.plain, tidy.status, tidy.watch, tidy.funded⟩, le_rfl,
    fun _ => Or.inl, fun _ _ => Iff.rfl⟩

/-- Records were sent to monitors. -/
structure Recorded (lib : Libubox) (mon : Nat → Prop) (fund : Prop) (s s' : State) : Prop extends
    Shipped lib mon fund Nothing s s' where
  apart : ∀ other, ¬ mon other → s'.pipe lib other = s.pipe lib other

theorem Recorded.trans {s'' : State} (one : Recorded lib mon fund s s')
    (two : Tidy mon fund s' → Recorded lib mon fund s' s'') (tidy : Tidy mon fund s) :
    Recorded lib mon fund s s'' := by
  have second := two one.tidy
  have both : Ships lib mon fund Nothing s s'' :=
    Ships.trans (fun _ => one.toShipped) fun _ => second.toShipped
  exact ⟨both tidy, fun other free => (second.apart other free).trans (one.apart other free)⟩

theorem recorded_monitorSend (tidy : Tidy mon fund s) (watched : mon cl) (old : ub < s.net.brk)
    (external : (s.net.buf ub).refcount = .external) :
    Recorded lib mon fund s (monitorSend lib cl ub s) := by
  unfold monitorSend
  simp only
  split
  · rename_i ended
    exact ⟨shipped_refused tidy ended, fun _ _ => rfl⟩
  obtain ⟨shipped, apart⟩ :
      Shipped lib mon fund (Itself ub s) s (transmit lib cl ub (logSubmit cl ub s)) ∧ _ :=
    shipped_transmit tidy old fun _ => watched
  have none : Ships lib mon fund Nothing s (transmit lib cl ub (logSubmit cl ub s)) :=
    Ships.mono (fun _ => shipped) fun _ itself _ => itself.2 external
  exact ⟨none tidy, fun other free => apart other fun same => free (same ▸ watched)⟩

theorem still_bumpMonitor (m : Monitor) (s : State) : Still lib Nothing s (bumpMonitor m s) := by
  have same : (bumpMonitor m s).net.monitors.map Monitor.cl = s.net.monitors.map Monitor.cl :=
    (wire_bumpMonitor m s :
      Wire (fun _ => True) (fun _ => True) (fun _ => True) s (bumpMonitor m s)).monitors
  exact ⟨⟨fun _ _ => id, fun _ _ => Iff.rfl, rfl, le_rfl, same ▸ List.Subset.refl _, List.suffix_rfl⟩,
    fun _ => rfl, fun _ _ _ => rfl⟩

theorem recorded_stamp (tidy : Tidy mon fund s) (m : Monitor)
    (external : (s.net.buf ub).refcount = .external) :
    Recorded lib mon fund s (monitorStamp ub m s) := by
  have still : Still lib (· = ub) s (monitorStamp ub m s) := by
    unfold monitorStamp State.mapHdr
    exact (still_bumpMonitor m s).mono.trans (still_touch rfl)
  have free : ∀ other, s.net.Queued other → ¬ other = ub := fun other queued same =>
    tidy.plain other queued (same ▸ external)
  exact ⟨still.ships (fun _ => free) tidy, fun other _ => still.pipe tidy.below free other⟩

theorem recorded_deliver {ms : List Monitor} (watched : ∀ m ∈ ms, mon m.cl) (tidy : Tidy mon fund s)
    (old : ub < s.net.brk) (external : (s.net.buf ub).refcount = .external) :
    Recorded lib mon fund s (ms.foldl (monitorDeliver lib ub) s) := by
  induction ms generalizing s with
  | nil => exact ⟨Ships.refl s tidy, fun _ _ => rfl⟩
  | cons m rest ih =>
    have stamped : Recorded lib mon fund s (monitorStamp ub m s) := recorded_stamp tidy m external
    have external' := (stamped.external ub old).mpr external
    have old' := old.trans_le stamped.brk
    have sent : Recorded lib mon fund s (monitorDeliver lib ub s m) := stamped.trans (fun tidy' =>
      recorded_monitorSend tidy' (watched m List.mem_cons_self) old' external') tidy
    exact sent.trans (fun tidy' => ih (fun other member => watched other (List.mem_cons_of_mem _ member))
      tidy' (old.trans_le sent.brk) ((sent.external ub old).mpr external)) tidy

theorem made_external (made : ubusMsgNew data true s = (some new, t))
    (refcount : ∀ buf, (f buf).refcount = buf.refcount) :
    new < (t.mapBuf new f).net.brk ∧ ((t.mapBuf new f).net.buf new).refcount = .external := by
  have buf := ubusMsgNew_buf made
  refine ⟨?_, ?_⟩
  · obtain ⟨rfl, rfl⟩ := ubusMsgNew_some made
    show s.net.brk < s.calloc.2.net.brk + 1
    rw [calloc_net]
    exact Nat.lt_succ_self _
  · show (Function.update t.net.buf new _ new).refcount = _
    rw [Function.update_self, refcount, buf]
    rfl

theorem recorded_monitorMessage (tidy : Tidy mon fund s) (cl ub : Nat) (send : Bool) :
    Recorded lib mon fund s (ubusdMonitorMessage lib cl ub send s) := by
  have quiet : ∀ {u t}, Tidy mon fund u → Still lib Nothing u t → Recorded lib mon fund u t :=
    fun tidy still => ⟨still.quietly tidy, fun other _ => still.pipe tidy.below (fun _ _ => id) other⟩
  unfold ubusdMonitorMessage
  split
  · exact ⟨Ships.refl s tidy, fun _ _ => rfl⟩
  generalize Payload.monitor _ = data
  have made : Still lib Nothing s (ubusMsgNew data true s).2 := still_new data true s
  rcases result : ubusMsgNew data true s with ⟨_ | new, t⟩
  · rw [result] at made
    exact quiet tidy made
  have typed : Still lib Nothing s
      (t.mapHdr new fun hdr => { hdr with type := MsgType.monitor.code }) := still_made result _
  obtain ⟨below, external⟩ := made_external result (f := fun buf => { buf with
    hdr := { buf.hdr with type := MsgType.monitor.code } }) fun _ => rfl
  have first := quiet tidy typed
  refine (first.trans (fun tidy' => recorded_deliver tidy'.watch tidy' below external) tidy).trans
    (fun tidy' => quiet tidy' (still_free new _)) tidy

/-- **`ubus_msg_send`.** -/
theorem ships_send (old : ub < s.net.brk) :
    Ships lib mon fund (Itself ub s) s (ubusMsgSend lib cl ub s) := by
  intro tidy
  unfold ubusMsgSend
  split
  · rename_i ended
    exact shipped_refused tidy ended
  rename_i opened
  generalize reported : (if (s.buf ub).hdr.type ≠ MsgType.monitor.code then
    ubusdMonitorMessage lib cl ub true s else s) = t
  have recorded : Recorded lib mon fund s t := by
    rw [← reported]
    split
    · exact recorded_monitorMessage tidy cl ub true
    · exact ⟨Ships.refl s tidy, fun _ _ => rfl⟩
  have first : Ships lib mon fund (Itself ub s) s t :=
    Ships.mono (fun _ => recorded.toShipped) fun _ nothing _ => nothing.elim
  have second : Ships lib mon fund (Itself ub s) t (transmit lib cl ub (logSubmit cl ub t)) := by
    refine Ships.mono (fun tidy' => (shipped_transmit tidy' (old.trans_le recorded.brk) fun ended => ?_).1)
      fun other itself _ => ⟨itself.1, fun is => itself.2 ((recorded.external ub old).mpr is)⟩
    by_contra free
    have same : (t.pipe lib cl).ended = (s.pipe lib cl).ended := by rw [recorded.apart cl free]
    exact opened (same.symm.trans ended)
  exact first.trans second tidy

end Sending

end Ubus
