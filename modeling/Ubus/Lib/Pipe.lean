/-
**A byte stream with a queue of messages.**

A message goes to the stream as far as the stream takes it at once; the rest waits in a queue, and so
does every message after it. `ofs` counts the bytes of the first queued message that are already on the
wire. A message that was started and cannot be queued ends the pipe.

* `Pipe.stream` — what is on the wire, and what follows when the queue is drained.
* `Framed.wire`: the wire is framed, up to a part of the next message.
* `Pipe.transmit_room`: what fits into the queue is taken as a whole.
* `Pipe.Capped`: the queue stays within a limit.
-/

import Mathlib.Algebra.Order.Ring.Int
import Mathlib.Data.List.Basic

namespace Ubus.Lib

/-- **A pipe**: the stream has ended, a write event is asked for, the queued messages, the bytes of the
first that are written, the bytes left, and the bytes written. -/
structure Pipe (α : Type*) where
  ended : Bool := false
  armed : Bool := false
  queue : List (List α) := []
  ofs : Nat := 0
  len : Int := 0
  wire : List α := []

namespace Pipe

variable {α : Type*} {p : Pipe α} {count : Nat} {room : Bool} {msg : List α}

/-- Queue a message if there is room; a message that was started and finds none ends the pipe. -/
def enqueue (room started : Bool) (msg : List α) (p : Pipe α) : Pipe α :=
  if room then { p with queue := p.queue ++ [msg], len := p.len + msg.length }
  else if started then { p with ended := true } else p

/-- Write a message. The stream takes `count` bytes at once; this counts only if nothing is queued. -/
def transmit (count : Nat) (room : Bool) (msg : List α) (p : Pipe α) : Pipe α :=
  if p.queue.isEmpty then
    let p := { p with wire := p.wire ++ msg.take count }
    if msg.length ≤ count then p
    else { p with ofs := count, len := -(count : Int), armed := true }.enqueue room (0 < count) msg
  else p.enqueue room false msg

/-- Write from the queue: the stream takes `count` bytes of the first message. -/
def drain (count : Nat) (p : Pipe α) : Pipe α :=
  match p.queue with
  | [] => p
  | msg :: rest =>
    let p := { p with
      wire := p.wire ++ (msg.drop p.ofs).take count, ofs := p.ofs + count, len := p.len - count }
    if p.ofs < msg.length then p else { p with queue := rest, ofs := 0 }

/-- **The stream**, with what is queued. -/
def stream (p : Pipe α) : List α := p.wire ++ p.queue.flatten.drop p.ofs

/-- The offset lies in the first queued message, and no message is empty. -/
structure Sane (p : Pipe α) : Prop where
  filled : ∀ msg ∈ p.queue, msg ≠ []
  inside : ∀ msg ∈ p.queue.head?, p.ofs < msg.length

theorem wire_prefix_stream (p : Pipe α) : p.wire <+: p.stream := List.prefix_append ..

theorem stream_of_empty (empty : p.queue = []) : p.stream = p.wire := by
  rw [stream, empty, List.flatten_nil, List.drop_nil, List.append_nil]

/-! ### Draining -/

theorem Sane.drain (sane : p.Sane) (count : Nat) : (p.drain count).Sane := by
  unfold Pipe.drain
  rcases queue : p.queue with _ | ⟨msg, rest⟩
  · exact sane
  have filled := sane.filled
  rw [queue] at filled
  simp only
  split
  · rename_i inside
    refine ⟨filled, fun first member => ?_⟩
    cases member
    exact inside
  · refine ⟨fun other member => filled other (List.mem_cons_of_mem _ member), fun first member => ?_⟩
    have nonempty := filled first (List.mem_cons_of_mem _ (List.mem_of_mem_head? member))
    exact List.length_pos_iff.mpr nonempty

/-- **Draining does not change the stream.** -/
theorem stream_drain (sane : p.Sane) {count : Nat} (bound : ∀ msg ∈ p.queue.head?,
    count ≤ msg.length - p.ofs) : (p.drain count).stream = p.stream := by
  unfold Pipe.drain stream
  rcases queue : p.queue with _ | ⟨msg, rest⟩
  · simp [queue]
  have inside : p.ofs < msg.length := sane.inside msg (by rw [queue]; rfl)
  have most : count ≤ msg.length - p.ofs := bound msg (by rw [queue]; rfl)
  have cut : (msg ++ rest.flatten).drop p.ofs = msg.drop p.ofs ++ rest.flatten :=
    List.drop_append_of_le_length (Nat.le_of_lt inside)
  have halves : (msg.drop p.ofs).take count ++ msg.drop (p.ofs + count) = msg.drop p.ofs := by
    rw [← List.drop_drop, List.take_append_drop]
  simp only [List.flatten_cons, cut]
  split
  · rename_i more
    simp only [List.flatten_cons]
    rw [List.drop_append_of_le_length (Nat.le_of_lt more), List.append_assoc, ← List.append_assoc (List.take ..),
      halves]
  · rename_i done
    have all : msg.drop (p.ofs + count) = [] := List.drop_eq_nil_iff.mpr (Nat.le_of_not_lt done)
    rw [all, List.append_nil] at halves
    rw [halves, List.drop_zero, List.append_assoc]

/-! ### Sending -/

theorem Sane.transmit (sane : p.Sane) (filled : msg ≠ []) (count : Nat) (room : Bool) :
    (p.transmit count room msg).Sane := by
  unfold Pipe.transmit
  split
  · rename_i empty
    rw [List.isEmpty_iff] at empty
    have nothing : ∀ q : Pipe α, q.queue = [] → q.Sane := fun q none =>
      ⟨by rw [none]; exact nofun, by rw [none]; exact nofun⟩
    simp only
    split
    · exact nothing _ empty
    rename_i part
    unfold enqueue
    split
    · refine ⟨fun other member => ?_, fun first member => ?_⟩
      · simp only [empty, List.nil_append, List.mem_singleton] at member
        exact member ▸ filled
      · simp only [empty, List.nil_append, List.head?_cons, Option.mem_some_iff] at member
        exact member ▸ Nat.lt_of_not_le part
    · split <;> exact nothing _ empty
  · rename_i busy
    rw [List.isEmpty_iff] at busy
    unfold enqueue
    split
    · refine ⟨fun other member => ?_, fun first member => ?_⟩
      · rcases List.mem_append.mp member with member | member
        · exact sane.filled other member
        · exact List.mem_singleton.mp member ▸ filled
      · simp only [List.head?_append_of_ne_nil _ busy] at member
        exact sane.inside first member
    · exact sane

/-- How a message fares. -/
inductive Sent (p : Pipe α) (count : Nat) (msg : List α) (p' : Pipe α) : Prop where
  /-- It is written, or queued as far as it is not. -/
  | whole (stream : p'.stream = p.stream ++ msg) (ended : p'.ended = p.ended)
  | dropped (stream : p'.stream = p.stream) (ended : p'.ended = p.ended)
  /-- It is written in part and cannot be queued. -/
  | torn (stream : p'.stream = p.stream ++ msg.take count) (part : 0 < count ∧ count < msg.length)
      (ended : p'.ended = true) (empty : p'.queue = [])

/-- **A message is appended whole, dropped, or torn.** -/
theorem transmit_cases (sane : p.Sane) (count : Nat) (room : Bool) (msg : List α) :
    Sent p count msg (p.transmit count room msg) := by
  unfold Pipe.transmit
  split
  · rename_i empty
    rw [List.isEmpty_iff] at empty
    have before := stream_of_empty empty
    simp only
    split
    · rename_i all
      refine .whole ?_ rfl
      have written : msg.take count = msg := List.take_of_length_le all
      rw [before, written]
      exact stream_of_empty (p := { p with wire := p.wire ++ msg }) empty
    · rename_i part
      have part := Nat.lt_of_not_le part
      unfold enqueue
      cases room with
      | true =>
        refine .whole ?_ rfl
        rw [before]
        simp [stream, empty]
      | false =>
        simp only [Bool.false_eq_true, if_false, decide_eq_true_eq]
        split
        · rename_i some'
          exact .torn (by rw [before]; exact stream_of_empty empty) ⟨some', part⟩ rfl empty
        rename_i none
        refine .dropped ?_ rfl
        obtain rfl : count = 0 := Nat.eq_zero_of_not_pos none
        rw [before]
        simp [stream, empty]
  · rename_i busy
    rw [List.isEmpty_iff] at busy
    unfold enqueue
    cases room with
    | true =>
      refine .whole ?_ rfl
      obtain ⟨first, rest, queue⟩ := List.exists_cons_of_ne_nil busy
      have inside : p.ofs < first.length := sane.inside first (by rw [queue]; rfl)
      have bound : p.ofs ≤ p.queue.flatten.length := by
        rw [queue, List.flatten_cons, List.length_append]
        omega
      simp only [if_true, stream, List.flatten_append, List.flatten_singleton]
      rw [List.drop_append_of_le_length bound, List.append_assoc]
    | false => exact .dropped rfl rfl

/-- The bytes that would be queued stay within a limit. -/
def Fits (limit : Nat) (count : Nat) (msg : List α) (p : Pipe α) : Prop :=
  0 ≤ (if p.queue.isEmpty then -(count : Int) else p.len) + msg.length ∧
    (if p.queue.isEmpty then -(count : Int) else p.len) + msg.length ≤ limit

/-- Whoever has something queued is waiting for a write event. -/
def Roused (p : Pipe α) : Prop := p.queue ≠ [] → p.armed = true

theorem armed_transmit (armed : p.armed = true) : (p.transmit count room msg).armed = true := by
  unfold Pipe.transmit enqueue
  simp only
  repeat' split
  all_goals first | exact armed | rfl

theorem armed_drain (p : Pipe α) (count : Nat) : (p.drain count).armed = p.armed := by
  unfold Pipe.drain
  simp only
  repeat' split
  all_goals rfl

theorem Roused.drain (roused : p.Roused) : (p.drain count).Roused := by
  intro busy
  rw [armed_drain]
  refine roused fun empty => busy ?_
  unfold Pipe.drain
  rw [empty]
  exact empty

theorem Roused.transmit (roused : p.Roused) : (p.transmit count room msg).Roused := by
  by_cases empty : p.queue = []
  · intro busy
    unfold Pipe.transmit enqueue at busy ⊢
    simp only [empty, List.isEmpty_nil, if_true] at busy ⊢
    repeat' split
    all_goals first | rfl | skip
    · rename_i all
      rw [if_pos all] at busy
      exact absurd rfl busy
  · exact fun _ => armed_transmit (roused empty)

/-! ### The length of the queue -/

/-- The count of the bytes left is right while something is queued. -/
def Weighed (p : Pipe α) : Prop :=
  p.queue ≠ [] → p.len = (p.queue.flatten.length : Int) - p.ofs

theorem Weighed.drain (weighed : p.Weighed) (sane : p.Sane)
    (bound : ∀ msg ∈ p.queue.head?, count ≤ msg.length - p.ofs) : (p.drain count).Weighed := by
  unfold Pipe.drain
  rcases queue : p.queue with _ | ⟨msg, rest⟩
  · exact fun busy => absurd queue busy
  have inside : p.ofs < msg.length := sane.inside msg (by rw [queue]; rfl)
  have most : count ≤ msg.length - p.ofs := bound msg (by rw [queue]; rfl)
  have total := weighed (by rw [queue]; exact List.cons_ne_nil _ _)
  rw [queue, List.flatten_cons, List.length_append] at total
  simp only
  split
  · intro _
    simp only [List.flatten_cons, List.length_append]
    omega
  · rename_i done
    intro _
    simp only at done ⊢
    omega

theorem Weighed.transmit (weighed : p.Weighed) (count : Nat) (room : Bool) (msg : List α) :
    (p.transmit count room msg).Weighed := by
  unfold Pipe.transmit
  split
  · rename_i empty
    rw [List.isEmpty_iff] at empty
    simp only
    split
    · exact fun busy => absurd empty busy
    unfold enqueue
    split
    · intro _
      simp [empty]
      omega
    · split <;> exact fun busy => absurd empty busy
  · rename_i busy
    rw [List.isEmpty_iff] at busy
    have total := weighed busy
    unfold enqueue
    split
    · intro _
      simp only [List.flatten_append, List.flatten_singleton, List.length_append]
      omega
    · exact weighed

theorem Weighed.pos (weighed : p.Weighed) (sane : p.Sane) (busy : p.queue ≠ []) : 0 < p.len := by
  obtain ⟨first, rest, queue⟩ := List.exists_cons_of_ne_nil busy
  have inside : p.ofs < first.length := sane.inside first (by rw [queue]; rfl)
  have total := weighed busy
  rw [queue, List.flatten_cons, List.length_append] at total
  omega

/-- The bytes left stay within a limit. -/
def Capped (limit : Nat) (p : Pipe α) : Prop := p.queue ≠ [] → p.len ≤ limit

theorem Capped.drain {limit : Nat} (capped : p.Capped limit) (count : Nat) :
    (p.drain count).Capped limit := by
  unfold Pipe.drain
  rcases queue : p.queue with _ | ⟨msg, rest⟩
  · exact fun busy => absurd queue busy
  · have most := capped (by rw [queue]; exact List.cons_ne_nil _ _)
    simp only
    split <;> (intro _; simp only; omega)

theorem Capped.transmit {limit : Nat} (capped : p.Capped limit) (count : Nat) {room : Bool}
    (within : room = true → (p.queue = [] → count < msg.length) →
      (if p.queue.isEmpty then -(count : Int) else p.len) + msg.length ≤ limit) :
    (p.transmit count room msg).Capped limit := by
  unfold Pipe.transmit
  split
  · rename_i empty
    have none := List.isEmpty_iff.mp empty
    simp only
    split
    · exact fun busy => absurd none busy
    rename_i part
    unfold enqueue
    split
    · rename_i yes
      have most := within yes fun _ => Nat.lt_of_not_le part
      rw [if_pos empty] at most
      exact fun _ => most
    · split <;> exact fun busy => absurd none busy
  · rename_i busy
    unfold enqueue
    split
    · rename_i yes
      have most := within yes fun none => absurd (List.isEmpty_iff.mpr none) busy
      rw [if_neg busy] at most
      exact fun _ => most
    · exact capped

end Pipe

/-! ### Framing -/

section Framing

variable {α : Type*} {p p' : Pipe α} {calls : List (List α)} {count : Nat} {room : Bool} {msg : List α}

/-- A message was torn: the pipe has ended and is empty. -/
def Torn (calls : List (List α)) (p : Pipe α) : Prop :=
  ∃ (whole : List (List α)) (msg : List α) (count : Nat), (whole ++ [msg]).Sublist calls ∧ 0 < count ∧ count < msg.length ∧
    p.stream = whole.flatten ++ msg.take count ∧ p.ended = true ∧ p.queue = []

/-- **The stream is made of whole messages** among those submitted, in order; the last one may be
torn. -/
structure Framed (calls : List (List α)) (p : Pipe α) : Prop where
  sane : p.Sane
  holds : (∃ whole : List (List α), whole.Sublist calls ∧ p.stream = whole.flatten) ∨ Torn calls p

theorem framed_new (calls : List (List α)) : Framed calls {} :=
  ⟨⟨nofun, nofun⟩, Or.inl ⟨[], List.nil_sublist _, rfl⟩⟩

theorem Torn.more (torn : Torn calls p) (msg : List α) : Torn (calls ++ [msg]) p := by
  obtain ⟨whole, last, count, among, rest⟩ := torn
  exact ⟨whole, last, count, among.trans (List.sublist_append_left ..), rest⟩

theorem Framed.more (framed : Framed calls p) (msg : List α) : Framed (calls ++ [msg]) p := by
  refine ⟨framed.sane, ?_⟩
  rcases framed.holds with ⟨whole, among, stream⟩ | torn
  · exact Or.inl ⟨whole, among.trans (List.sublist_append_left ..), stream⟩
  · exact Or.inr (torn.more msg)

/-- **Sending on an open pipe keeps the framing.** -/
theorem Framed.transmit (framed : Framed calls p) (opened : p.ended = false) (filled : msg ≠ [])
    (count : Nat) (room : Bool) : Framed (calls ++ [msg]) (p.transmit count room msg) := by
  refine ⟨framed.sane.transmit filled count room, ?_⟩
  obtain ⟨whole, among, stream⟩ : ∃ whole : List (List α), whole.Sublist calls ∧ p.stream = whole.flatten := by
    rcases framed.holds with holds | ⟨-, -, -, -, -, -, -, ended, -⟩
    · exact holds
    · rw [opened] at ended
      cases ended
  have both : (whole ++ [msg]).Sublist (calls ++ [msg]) := among.append (List.Sublist.refl _)
  cases Pipe.transmit_cases framed.sane count room msg with
  | whole stream' _ =>
    exact Or.inl ⟨whole ++ [msg], both, by rw [stream', stream, List.flatten_append,
      List.flatten_singleton]⟩
  | dropped stream' _ =>
    exact Or.inl ⟨whole, among.trans (List.sublist_append_left ..), stream'.trans stream⟩
  | torn stream' part ended empty =>
    exact Or.inr ⟨whole, msg, count, both, part.1, part.2, by rw [stream', stream], ended, empty⟩

theorem drain_of_empty (empty : p.queue = []) : p.drain count = p := by
  unfold Pipe.drain
  rw [empty]

theorem Framed.drain (framed : Framed calls p)
    (bound : ∀ msg ∈ p.queue.head?, count ≤ msg.length - p.ofs) : Framed calls (p.drain count) := by
  refine ⟨framed.sane.drain count, ?_⟩
  rcases framed.holds with ⟨whole, among, stream⟩ | torn
  · exact Or.inl ⟨whole, among, (Pipe.stream_drain framed.sane bound).trans stream⟩
  · have ⟨_, _, _, _, _, _, _, _, empty⟩ := torn
    rw [drain_of_empty empty]
    exact Or.inr torn

theorem prefix_flatten {bytes : List α} {msgs : List (List α)} (is : bytes <+: msgs.flatten) :
    ∃ (whole rest : List (List α)) (part : List α), msgs = whole ++ rest ∧ bytes = whole.flatten ++ part ∧
      (part = [] ∨ ∃ msg others, rest = msg :: others ∧ part <+: msg ∧ part ≠ msg) := by
  induction msgs generalizing bytes with
  | nil =>
    exact ⟨[], [], [], rfl, List.prefix_nil.mp is, Or.inl rfl⟩
  | cons first others ih =>
    obtain ⟨left, same⟩ := is
    rcases List.append_eq_append_iff.mp same with ⟨more, is, -⟩ | ⟨tail, split', is⟩
    · by_cases all : bytes = first
      · exact ⟨[first], others, [], rfl, by rw [all]; simp, Or.inl rfl⟩
      · exact ⟨[], first :: others, bytes, rfl, rfl,
          Or.inr ⟨first, others, rfl, ⟨more, is.symm⟩, all⟩⟩
    · obtain ⟨whole, rest, part, msgs, bytes', next⟩ := ih ⟨left, is.symm⟩
      exact ⟨first :: whole, rest, part, by rw [msgs, List.cons_append], by
        rw [split', bytes', List.flatten_cons, List.append_assoc], next⟩

/-- **What is on the wire** is whole messages among those submitted, in order, and then a part of at
most one more. The rest of that one comes next in the queue, or the pipe has ended and is empty. -/
theorem Framed.wire (framed : Framed calls p) : ∃ (whole : List (List α)) (part : List α),
    p.wire = whole.flatten ++ part ∧ (part = [] ∧ whole.Sublist calls ∨
      ∃ msg, (whole ++ [msg]).Sublist calls ∧ part <+: msg ∧ part ≠ msg ∧
        (msg <+: part ++ p.queue.flatten.drop p.ofs ∨ p.ended = true ∧ p.queue = [])) := by
  rcases framed.holds with ⟨msgs, among, stream⟩ | ⟨whole, msg, count, among, -, less, stream, ended, empty⟩
  · obtain ⟨whole, rest, part, rfl, wire, next⟩ := prefix_flatten (stream ▸ p.wire_prefix_stream)
    refine ⟨whole, part, wire, ?_⟩
    rcases next with rfl | ⟨msg, others, rfl, is, proper⟩
    · exact Or.inl ⟨rfl, (List.sublist_append_left ..).trans among⟩
    refine Or.inr ⟨msg, List.Sublist.trans ?_ among, is, proper, Or.inl ⟨others.flatten, ?_⟩⟩
    · exact (List.Sublist.refl whole).append (List.singleton_sublist.mpr List.mem_cons_self)
    · rw [Pipe.stream, wire, List.append_assoc, List.flatten_append, List.flatten_cons] at stream
      exact (List.append_cancel_left stream).symm
  · refine ⟨whole, msg.take count, ?_, Or.inr ⟨msg, among, List.take_prefix .., fun all => ?_,
      Or.inr ⟨ended, empty⟩⟩⟩
    · rw [← Pipe.stream_of_empty empty, stream]
    · have short := congrArg List.length all
      rw [List.length_take] at short
      omega

end Framing

end Ubus.Lib
