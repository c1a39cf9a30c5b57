/-
**What the receiver checks** (`ubus_validate_hdr` of `libubus-io.c`).

libubus gives up a connection when the header of a message has another version than 0, or when the
blob after it is too short or too long.

* `submitted_version`: whatever the daemon submits has version 0, as long as the messages it sends
  on with their header came with version 0. `relayed_version` is a run in which a `UBUS_MSG_STATUS`
  of version 1 is passed on to another client: `client_cb` does not look at the version.
-/

import Ubus.Ledger
import Ubus.Provenance

namespace Ubus

/-- `ubus_validate_hdr`, for a header and the bytes of the blob that follows. -/
def ubusValidateHdr (hdr : Msghdr) (data : Bytes) : Bool :=
  hdr.version = 0 && 4 ≤ blobRawLen data && blobPadLen (blobRawLen data) ≤ ubusMaxMsglen

/-! ### The version -/

/-- The message types that a handler sends on with the header they came with. -/
def SentOn (type : UInt8) : Prop :=
  type = MsgType.ping.code ∨ type = MsgType.status.code ∨ type = MsgType.data.code

instance (type : UInt8) : Decidable (SentOn type) :=
  inferInstanceAs (Decidable (_ ∨ _ ∨ _))

theorem Emission.version {lib : Libubox} {reg : Registry} {cause : Cause} {dest : Nat}
    {hdr : Msghdr} {data : Payload} (emission : Emission lib reg cause dest hdr data) :
    hdr.version = 0 ∨ ∃ cl ub asked body, cause = .message cl ub asked body ∧
      SentOn asked.type ∧ hdr.version = asked.version := by
  cases emission with
  | received _ version => exact Or.inl version
  | submitted _ _ _ version => exact Or.inl version
  | hello => exact Or.inl rfl
  | pong asked => exact Or.inr ⟨_, _, _, _, rfl, Or.inl asked, rfl⟩
  | reply _ _ => exact Or.inl rfl
  | status _ => exact Or.inl rfl
  | invoke => exact Or.inl rfl
  | notification => exact Or.inl rfl
  | response asked => exact Or.inr ⟨_, _, _, _, rfl, Or.inr asked, rfl⟩
  | event _ _ fixed _ => exact Or.inl fixed.2.2
  | numbered _ => exact Or.inl rfl

/-- **Every submitted message has version 0**, when every accepted message of a type that is sent on has. -/
theorem submitted_version {lib : Libubox} {s : State} (reachable : Reachable lib s)
    (plain : ∀ moment cl ub hdr data fd, .accept moment cl ub hdr data fd ∈ s.trace →
      SentOn hdr.type → hdr.version = 0)
    {moment : Moment} {dest : Nat} {hdr : Msghdr} {data : Payload}
    (sent : .submit moment dest hdr data ∈ s.trace) : hdr.version = 0 := by
  rcases (reachable.inv.trace _ sent).2.version with zero | ⟨cl, ub, asked, body, cause, sentOn, same⟩
  · exact zero
  · obtain ⟨moment', fd, accepted⟩ := reachable.ledger.worked _ sent cl ub asked body (Or.inl cause)
    rw [same]
    exact plain moment' cl ub asked body fd accepted sentOn

/-- A client serves an object, and sends an answer of version 1 to another client. -/
def versionRun : List Input :=
  [connects rootCred 5000,
    receives 3 (Blob.message .addObject 1 0 [.string .objpath (cstr "foo")]) false,
    connects rootCred 6000,
    receives 3 (msgBytes Blob.libubox
      { version := 1, type := MsgType.status.code, seq := 7, peer := 6000 }
      (.built [.int32 .status 0, .int32 .objid 4001])) false]

theorem relayed_version : Reachable Blob.libubox (run Blob.libubox versionRun State.init) ∧
    ∃ moment data, .submit moment 5
      { version := 1, type := MsgType.status.code, seq := 7, peer := 4001 } data ∈
        (run Blob.libubox versionRun State.init).trace := by
  have found : submitted (run Blob.libubox versionRun State.init).trace 5
      { version := 1, type := MsgType.status.code, seq := 7, peer := 4001 } = true := by
    decide +kernel
  exact ⟨reachable_run _ _, exists_of_submitted found⟩

/-- Every accepted message that is sent on as it came has version 0. -/
def plainSentOn (trace : List Event) : Bool :=
  trace.all fun
    | .accept _ _ _ hdr _ _ => decide (SentOn hdr.type → hdr.version = 0)
    | _ => true

theorem submitted_version_call : ∃ moment data,
    .submit moment 5 { type := MsgType.status.code, seq := 7, peer := 4001 } data ∈
      (run Blob.libubox callRun State.init).trace ∧
    ∀ moment dest hdr data, .submit moment dest hdr data ∈
      (run Blob.libubox callRun State.init).trace → hdr.version = 0 := by
  have found : submitted (run Blob.libubox callRun State.init).trace 5
      { type := MsgType.status.code, seq := 7, peer := 4001 } = true := by decide +kernel
  have plain : plainSentOn (run Blob.libubox callRun State.init).trace = true := by decide +kernel
  obtain ⟨moment, data, sent⟩ := exists_of_submitted found
  refine ⟨moment, data, sent, fun _ _ _ _ sent' => submitted_version (reachable_run _ _) ?_ sent'⟩
  intro _ _ _ _ _ _ accepted
  exact of_decide_eq_true (List.all_eq_true.mp plain _ accepted)

end Ubus
