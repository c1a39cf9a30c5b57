/-
**Nothing queued for a client is stranded.**

Write events are asked for when the transmit queue stops being empty, and are turned off only when both
queues are empty. So a client whose hello was written is woken up as long as something is queued for it.

* `Tug.roused`, `Tug.armed`: steps of a pipe keep this; `Move.awake`: so do the moves.
* `Reachable.tracked`: every lookup received so far is in one of its stages.
* `never_stranded`: both for whole runs.
-/

import Ubus.Lanes
import Ubus.Stages

namespace Ubus

open Lib Relation

/-- **A client with something in its queues has asked for write events.** -/
def Awake (cl : Nat) (s : State) : Prop :=
  (s.tx cl).txQueue ≠ [] ∨ (s.sock cl).cmdQueue ≠ [] → (s.tx cl).writeInterest = true

section Interest

variable {lib : Libubox} {watched fund : Prop} {l l' : Lane} {cl : Nat} {s s' : State}

theorem Tug.roused (tug : Tug watched fund (Hush s cl) l l') (known : cl ∈ s.net.socks)
    (roused : l.pipe.Roused) : l'.pipe.Roused := by
  cases tug with
  | refused msg ended => exact roused
  | sent msg count room opened filled most granted kept => exact roused.transmit
  | drained count bound => exact roused.drain
  | hung hup => exact roused
  | quieted idle => exact fun busy => absurd (idle known).1 busy

theorem Tug.armed (tug : Tug watched fund (Hush s cl) l l') (known : cl ∈ s.net.socks)
    (waits : (s.sock cl).cmdQueue ≠ []) (armed : l.pipe.armed = true) : l'.pipe.armed = true := by
  cases tug with
  | refused msg ended => exact armed
  | sent msg count room opened filled most granted kept => exact Pipe.armed_transmit armed
  | drained count bound => exact (Pipe.armed_drain l.pipe count).trans armed
  | hung hup => exact armed
  | quieted idle => exact absurd (idle known).2 waits

theorem tugs_roused (tugs : Tugs watched fund (Hush s cl) l l') (known : cl ∈ s.net.socks)
    (roused : l.pipe.Roused) : l'.pipe.Roused := by
  induction tugs with
  | refl => exact roused
  | tail _ tug ih => exact tug.roused known ih

theorem tugs_armed (tugs : Tugs watched fund (Hush s cl) l l') (known : cl ∈ s.net.socks)
    (waits : (s.sock cl).cmdQueue ≠ []) (armed : l.pipe.armed = true) : l'.pipe.armed = true := by
  induction tugs with
  | refl => exact armed
  | tail _ tug ih => exact tug.armed known waits ih

theorem roused_pipe : (s.pipe lib cl).Roused ↔ ((s.tx cl).txQueue ≠ [] → (s.tx cl).writeInterest = true) := by
  have queue : (s.pipe lib cl).queue = (s.tx cl).txQueue.map fun ub => (s.net.buf ub).bytes lib := rfl
  unfold Pipe.Roused
  rw [queue, ne_eq, List.map_eq_nil_iff]
  rfl

theorem Move.queue (move : Move lib s s') (reachable : Reachable lib s) (known : cl ∈ s.net.socks)
    (known' : cl ∈ s'.net.socks) (waits : (s'.sock cl).cmdQueue ≠ []) :
    (s.sock cl).cmdQueue ≠ [] ∨ (s'.tx cl).txQueue ≠ [] := by
  have inv := reachable.inv
  have of_reads : ∀ {client t}, Reads client s t → (t.sock cl).cmdQueue = (s.sock cl).cmdQueue := by
    intro client t reads
    by_cases same : cl = client
    · exact same ▸ reads.cmdQueue
    · exact (reads.rests cl same).cmdQueue
  cases move.turn inv with
  | idle cause plain trace brk rests =>
    rcases rests cl known' with rests | ⟨absent, -⟩
    · exact Or.inl fun empty => waits (rests.cmdQueue.trans empty)
    · exact absurd known absent
  | header client out has empty room result reads => exact Or.inl (of_reads reads ▸ waits)
  | body client msg count has pending less result reads => exact Or.inl (of_reads reads ▸ waits)
  | accept client msg t has pending complete reads inv' result accepts =>
    by_cases same : cl = client
    · subst same
      rcases accepts.queue with queue | ⟨path, queue, lookup, -⟩
      · exact Or.inl fun empty => waits (queue.trans ((of_reads reads).trans empty))
      have pending' : (t.rx cl).pendingMsg = some msg := by
        rcases complete with ⟨rfl, -⟩ | ⟨count, rfl, -⟩
        · exact pending
        · exact pending_gotBody pending count
      have fresh : ∀ event ∈ t.trace, event.Silent msg := by
        rw [reads.trace]
        exact silent_of_unaccepted inv reachable.ledger
          ((reachable.ledger.filed cl known).pending msg pending)
      obtain ⟨sent, -, -, ⟨status, -, same, -⟩ | ⟨-, -, -, busy, -⟩⟩ :=
        accept_work inv' (reads.reg ▸ has) pending' lookup fresh
      · rw [← result, State.sock, queue] at same
        exact absurd same (by simp [State.sock])
      · rw [← result] at busy
        exact Or.inr busy
    · exact Or.inl fun empty => waits ((accepts.rests cl same).cmdQueue.trans ((of_reads reads).trans empty))
  | resume client cmd has first result resumes =>
    by_cases same : cl = client
    · subst same
      refine Or.inl fun empty => ?_
      rw [empty] at first
      cases first
    · exact Or.inl fun empty => waits ((resumes.rests cl same).cmdQueue.trans empty)

/-- **A move keeps a client awake.** -/
theorem Move.awake (move : Move lib s s') (reachable : Reachable lib s) (known : cl ∈ s.net.socks)
    (known' : cl ∈ s'.net.socks) (awake : Awake cl s) : Awake cl s' := by
  obtain ⟨l, ⟨-, rfl⟩ | ⟨gone, -⟩, tugs⟩ :=
    (move.lanes reachable.inv reachable.afloat False.elim).2 cl known'
  · have start : (s.pipe lib cl).Roused := roused_pipe.mpr fun busy => awake (Or.inl busy)
    have busy := roused_pipe.mp (tugs_roused tugs known start)
    rintro (written | waits)
    · exact busy written
    · rcases move.queue reachable known known' waits with waits | written
      · exact tugs_armed tugs known waits (awake (Or.inr waits))
      · exact busy written
  · exact absurd known gone

/-! ### Runs -/

theorem moves_awake {s₁ s₂ : State} (reachable : Reachable lib s₁) (old : cl < s₁.reg.brk)
    (awake : s₁.reg.HasClient cl → Awake cl s₁) (moves : ReflTransGen (Move lib) s₁ s₂)
    (known : s₂.reg.HasClient cl) : Awake cl s₂ := by
  induction moves with
  | refl => exact awake known
  | @tail t u before move ih =>
    have reachable' : Reachable lib t := reachable.trans before
    have old' := old.trans_le (moves_clients reachable before).1
    have still := (moves_clients reachable' (.single move)).2 cl old' known
    have inv := reachable'.inv
    exact move.awake reachable' ((inv.clients cl).mp still) (((move.inv inv).clients cl).mp known) (ih still)

/-- **Every lookup that was received is in one of its stages.** -/
theorem Reachable.tracked (reachable : Reachable lib s) {ub : Nat} {hdr : Msghdr} {data : Payload}
    (accepted : Accepted s.trace cl ub hdr data) (lookup : hdr.type = MsgType.lookup.code) :
    Tracked lib (fun _ _ => False) cl ub hdr data s ∧ cl < s.reg.brk := by
  induction reachable with
  | refl =>
    obtain ⟨moment, fd, member⟩ := accepted
    cases member
  | @tail t u before move ih =>
    have inv := Reachable.inv before
    have ledger := Reachable.ledger before
    by_cases fresh : ub ∈ acceptedBufs t.trace
    · obtain ⟨event, member, is⟩ := List.mem_filterMap.mp fresh
      cases event with
      | accept moment client msg hdr' data' fd =>
        cases is
        have earlier : Accepted t.trace client ub hdr' data' := ⟨moment, fd, member⟩
        obtain ⟨rfl, rfl, rfl⟩ := (Reachable.ledger (before.tail move)).accepted_unique accepted
          (earlier.mono (move.turn inv).trace_grows)
        obtain ⟨tracked, old⟩ := ih earlier
        exact ⟨move.tracked inv ledger earlier old nofun tracked, old.trans_le (move.change inv).clients.1⟩
      | submit => cases is
      | sendObj => cases is
    · exact tracked_receives before move fresh accepted lookup nofun

/-- **Nothing queued for a client is stranded.** A client connects, and its hello is written. Then after
every later input, as long as the client is there: if a message or a lookup is queued for it, it has asked
for write events. What waits in its command queue are the lookups of the client that were received and not
answered with a status. -/
theorem never_stranded (lib : Libubox) (before after : List Input) (hello : Input) (cred : Option Cred)
    (connects : hello.action = .connect cred) {s₁ s₂ : State}
    (start : s₁ = step lib (run lib before State.init) hello) (later : s₂ = run lib after s₁)
    (client : cl = (run lib before State.init).reg.brk) (connected : s₁.reg.HasClient cl)
    (written : (s₁.tx cl).txQueue = []) (known : s₂.reg.HasClient cl) :
    ((s₂.tx cl).txQueue ≠ [] ∨ (s₂.sock cl).cmdQueue ≠ [] → (s₂.tx cl).writeInterest = true) ∧
    (∀ cmd ∈ (s₂.sock cl).cmdQueue, ∃ hdr data, Accepted s₂.trace cl cmd.msg hdr data ∧
      hdr.type = MsgType.lookup.code) ∧
    ∀ ub hdr data, Accepted s₂.trace cl ub hdr data → hdr.type = MsgType.lookup.code →
      ((∃ cmd ∈ (s₂.sock cl).cmdQueue, cmd.msg = ub) ↔ answers ub s₂.trace = []) := by
  have reachable := reachable_run lib before
  generalize run lib before State.init = s at reachable start client
  have reachable₁ : Reachable lib s₁ := start ▸ reachable.trans (step_moves reachable.inv hello)
  have moves : ReflTransGen (Move lib) s₁ s₂ := later ▸ moves_run reachable₁ after
  have reachable₂ : Reachable lib s₂ := reachable₁.trans moves
  have socket := (reachable₂.inv.clients cl).mp known
  have empty : (s₁.sock cl).cmdQueue = [] := by
    have begun := Move.inv (.begin hello.writes hello.allocs hello.rnd) reachable.inv
    obtain ⟨-, -, fresh⟩ := newClient_spec begun cred
    have result : s₁ = ubusdProtoNewClient lib cred _ := start.trans (by rw [step, connects]; rfl)
    rw [client] at connected ⊢
    have known₁ := (reachable₁.inv.clients _).mp connected
    rw [result] at known₁ ⊢
    exact (fresh known₁).2
  refine ⟨?_, fun cmd member => ?_, fun ub hdr data accepted lookup => ?_⟩
  · refine moves_awake reachable₁ (reachable₁.inv.good.clients.lt_of_has connected) (fun _ => ?_) moves known
    rintro (busy | waits)
    · exact absurd written busy
    · exact absurd empty waits
  · have queued := (reachable₂.ledger.filed cl socket).queued cmd member
    exact ⟨_, _, queued.1, queued.2⟩
  · cases (reachable₂.tracked accepted lookup).1.stage with
    | waits none order queued =>
      obtain ⟨cmd, member, is, -⟩ := queued socket
      exact ⟨fun _ => none, fun _ => ⟨cmd, member, is⟩⟩
    | ended status concluded gone full =>
      obtain ⟨event, one⟩ := concluded.answers
      refine ⟨fun ⟨cmd, member, is⟩ => absurd is (gone socket cmd member), fun none => ?_⟩
      rw [one] at none
      cases none

/-- Two objects are added; a lookup is started and waits, since the client does not read. -/
def waitRun : List Input :=
  [receives 3 (Blob.message .addObject 1 0 [.string .objpath (cstr "a"), .nest .signature []]) false,
    receives 3 (Blob.message .addObject 2 0 [.string .objpath (cstr "b"), .nest .signature []]) false,
    { action := .client 3 false false (Blob.message .lookup 3 0 []) [] [.got 11 false, .again] }]

theorem never_stranded_waiting : ∃ s, s = run Blob.libubox waitRun
      (step Blob.libubox (run Blob.libubox [] State.init) (connects rootCred 5000)) ∧
    (s.sock 3).cmdQueue ≠ [] ∧ (s.tx 3).writeInterest = true := by
  obtain ⟨s₁, start⟩ : ∃ s₁, s₁ = step Blob.libubox (run Blob.libubox [] State.init) (connects rootCred 5000) :=
    ⟨_, rfl⟩
  obtain ⟨s₂, later⟩ : ∃ s₂, s₂ = run Blob.libubox waitRun s₁ := ⟨_, rfl⟩
  have waits : (s₂.sock 3).cmdQueue ≠ [] := by
    rw [later, start]
    decide +kernel
  have client : 3 = (run Blob.libubox [] State.init).reg.brk := by decide +kernel
  obtain ⟨awake, -⟩ := never_stranded Blob.libubox [] waitRun (connects rootCred 5000) (some rootCred) rfl
    start later client (by rw [start]; decide +kernel) (by rw [start]; decide +kernel)
    (by rw [later, start]; decide +kernel)
  exact ⟨s₂, start ▸ later, waits, awake (Or.inr waits)⟩

end Interest

end Ubus
