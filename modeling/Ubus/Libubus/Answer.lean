/-
**The answer to a call** (`ubus_process_invoke`).

`ubus_process_invoke` leaves in six ways, and five of them go through the label `send`. The addressing
fields of the request structure are filled in part-way down, and `no_reply` is only looked at after
the handler: so an early exit answers to nobody, and a call that wants no answer gets one from every
exit before the handler.

* `Outcome`, `outcome`: the way out, from the message and the context.
* `invoke_answered_iff`: when the caller gets exactly the answer it should get.
-/

import Ubus.Libubus.Calls

namespace Ubus.Libubus

variable {lib : Libubox}
variable {s' result : State} {content : Bytes} {frame : Frame} {hdr : Msghdr}
  {ok : State → Action → Prop} {env : Env} {fd obj : Option Nat} {way : Outcome}
  {rest base : List Frame} {name : Ptr} {fds : List Nat} {event : Event} {j held : Nat} {q c : Nat → Prop}

/-! ### The ways out -/

inductive Outcome where
  /-- No such object, or a channel without a request handler. -/
  | missing
  | noMethod
  | methodNotFound
  | noData
  /-- The hook or the handler is called. -/
  | called
deriving DecidableEq, Repr

/-- What becomes of an `INVOKE` with the message `content` for `obj`. -/
def outcome (lib : Libubox) (s : State) (obj : Option Nat) (content : Bytes) : Outcome :=
  if (obj.isNone && !s.channel) || (!s.setup.requestHandler && s.channel) then .missing
  else
    match lib.blobParse content .method with
    | none => .noMethod
    | some name =>
      if !s.channel && obj.any fun o =>
          (ubusObjectFindMethod (s.setup.object o) (lib.blobString name)).isNone then
        .methodNotFound
      else if (lib.blobParse content .data).isNone then .noData
      else .called

/-- The message asks for no answer. -/
def noReply (lib : Libubox) (content : Bytes) : Bool :=
  match lib.blobParse content .noReply with
  | none => false
  | some attr => lib.blobGetInt8 attr != 0

/-- A call begins: its request structure is at `s.brk`. -/
def State.begin (rd : RequestData) (s : State) : State :=
  { s with rd := Function.update s.rd s.brk rd, brk := s.brk + 1 }

theorem begin_mapRd (rd : RequestData) (s : State) (f : RequestData → RequestData) :
    (s.begin rd).mapRd s.brk f = s.begin (f rd) := by
  simp only [State.begin, State.mapRd, Function.update_self, Function.update_idem]

/-- The request structure once it is filled in. -/
def filled (hdr : Msghdr) (obj fd : Option Nat) (s : State) : RequestData :=
  match s.channel, obj with
  | false, some o =>
    { object := (s.setup.object o).id
      peer := hdr.peer
      seq := hdr.seq
      acl := match s.attrbuf .user, s.attrbuf .group with
        | some user, some group => some (user, group)
        | _, _ => none
      reqFd := fd }
  | _, _ => { peer := hdr.peer, seq := hdr.seq, reqFd := fd }

theorem filled_fields (hdr : Msghdr) (obj fd : Option Nat) (s : State) :
    (filled hdr obj fd s).peer = hdr.peer ∧ (filled hdr obj fd s).seq = hdr.seq ∧
      (filled hdr obj fd s).deferred = false ∧ (filled hdr obj fd s).fd = none ∧
      (filled hdr obj fd s).reqFd = fd := by
  unfold filled
  split <;> exact ⟨rfl, rfl, rfl, rfl, rfl⟩

/-- `ubus_process_invoke` until it returns or calls the application for the first time. -/
inductive Begun (lib : Libubox) (env : Env) (hdr : Msghdr) (obj fd : Option Nat) (s : State)
    (noReply : Bool) : Outcome → State → Prop where
  | unaddressed (way : Outcome) (early : way = .missing ∨ way = .noMethod) (ret : UInt32) :
    Begun lib env hdr obj fd s noReply way (sendAnswer lib env s.brk ret (s.begin { reqFd := fd }))
  | refused (way : Outcome) (late : way = .methodNotFound ∨ way = .noData) (ret : UInt32) :
    Begun lib env hdr obj fd s noReply way
      (sendAnswer lib env s.brk ret (s.begin (filled hdr obj fd s)))
  | asked (o method : Nat) (found : obj = some o) (data : Ptr) (given : s.attrbuf .data = some data) :
    Begun lib env hdr obj fd s noReply .called
      (((s.begin (filled hdr obj fd s)).push (.preInvoked o method s.brk noReply)).call
        (.preInvoke o method s.brk data))
  | called (method : Option Nat) :
    Begun lib env hdr obj fd s noReply .called
      (callHandler obj method s.brk noReply (s.begin (filled hdr obj fd s)))

theorem invokeFound_begun (env : Env) (hdr : Msghdr) (obj fd method : Option Nat) (noReply : Bool)
    (s : State) :
    Begun lib env hdr obj fd s noReply (if (s.attrbuf .data).isNone then .noData else .called)
      (invokeFound lib env obj method s.brk noReply (s.begin (filled hdr obj fd s))) := by
  have same : (s.begin (filled hdr obj fd s)).attrbuf = s.attrbuf := rfl
  unfold invokeFound
  rw [same]
  cases given : s.attrbuf .data with
  | none => exact .refused .noData (.inr rfl) _
  | some data =>
    show Begun lib env hdr obj fd s noReply .called _
    cases obj with
    | none => exact .called method
    | some o =>
      cases method with
      | none => exact .called none
      | some method =>
        dsimp only
        split
        · exact .asked o method rfl data given
        · exact .called (some method)

/-- The attributes are those of the message. -/
def Parsed (lib : Libubox) (content : Bytes) (s : State) : Prop :=
  ∀ id, (s.attrbuf id).map Ptr.bytes = lib.blobParse content id

theorem Parsed.congr {s t : State} (parsed : Parsed lib content s) (same : t.attrbuf = s.attrbuf) :
    Parsed lib content t := by
  intro id
  rw [same]
  exact parsed id

theorem Parsed.push {s : State} (parsed : Parsed lib content s) (frame : Frame) :
    Parsed lib content (s.push frame) :=
  parsed.congr rfl

theorem Parsed.call {s : State} (parsed : Parsed lib content s) (cb : Callback) :
    Parsed lib content (s.call cb) :=
  parsed.congr rfl

theorem Parsed.begin {s : State} (parsed : Parsed lib content s) (rd : RequestData) :
    Parsed lib content (s.begin rd) :=
  parsed.congr rfl

theorem Parsed.noReply {s : State} (parsed : Parsed lib content s) :
    noReply lib content =
      match s.attrbuf .noReply with
      | none => false
      | some attr => lib.blobGetInt8 attr.bytes != 0 := by
  unfold Libubus.noReply
  rw [← parsed .noReply]
  cases s.attrbuf .noReply <;> rfl

theorem processInvoke_channel (env : Env) (hdr : Msghdr) (obj fd : Option Nat) {s : State}
    (parsed : Parsed lib content s) (channel : s.channel = true)
    (served : s.setup.requestHandler = true) (named : s.attrbuf .method = some name) :
    ubusProcessInvoke lib env hdr obj fd s =
      invokeFound lib env obj none s.brk (noReply lib content) (s.begin (filled hdr obj fd s)) := by
  have addressed : filled hdr obj fd s = { reqFd := fd, peer := hdr.peer, seq := hdr.seq } := by
    simp only [filled, channel]
  rw [parsed.noReply, addressed, ← begin_mapRd { reqFd := fd } s
    fun req => { req with peer := hdr.peer, seq := hdr.seq }]
  unfold ubusProcessInvoke
  simp only [channel, served, named, State.begin, Bool.not_true, Bool.and_false, Bool.false_and,
    Bool.or_self, Bool.false_eq_true, if_false]
  rfl

theorem processInvoke_object (env : Env) (hdr : Msghdr) (o : Nat) (fd : Option Nat) {s : State}
    (parsed : Parsed lib content s) (bus : s.channel = false)
    (named : s.attrbuf .method = some name) :
    ubusProcessInvoke lib env hdr (some o) fd s =
      match ubusObjectFindMethod (s.setup.object o) (lib.blobString name.bytes) with
      | none =>
        sendAnswer lib env s.brk Status.methodNotFound.code (s.begin (filled hdr (some o) fd s))
      | some method =>
        invokeFound lib env (some o) (some method) s.brk (noReply lib content)
          (s.begin (filled hdr (some o) fd s)) := by
  rw [parsed.noReply]
  unfold ubusProcessInvoke
  simp only [bus, named, filled, State.begin, Option.isNone_some, Bool.false_and, Bool.and_false,
    Bool.or_self, Bool.false_eq_true, if_false]
  simp only [State.mapRd, Function.update_self, Function.update_idem]
  rfl

/-- **What `ubus_process_invoke` does first.** -/
theorem processInvoke_begun (env : Env) (hdr : Msghdr) (obj fd : Option Nat) {s : State}
    (parsed : Parsed lib content s) :
    Begun lib env hdr obj fd s (noReply lib content) (outcome lib s obj content)
      (ubusProcessInvoke lib env hdr obj fd s) := by
  have given : (lib.blobParse content .data).isNone = (s.attrbuf .data).isNone := by
    rw [← parsed .data, Option.isNone_map]
  by_cases missing : ((obj.isNone && !s.channel) || (!s.setup.requestHandler && s.channel)) = true
  · rw [show outcome lib s obj content = .missing from if_pos missing,
      show ubusProcessInvoke lib env hdr obj fd s =
        sendAnswer lib env s.brk Status.notFound.code (s.begin { reqFd := fd }) from if_pos missing]
    exact .unaddressed _ (.inl rfl) _
  rw [show outcome lib s obj content = _ from if_neg missing, given, ← parsed .method]
  cases named : s.attrbuf .method with
  | none =>
    rw [show ubusProcessInvoke lib env hdr obj fd s = _ from if_neg missing, named]
    exact .unaddressed .noMethod (.inr rfl) _
  | some name =>
    dsimp only [Option.map]
    cases channel : s.channel with
    | true =>
      have served : s.setup.requestHandler = true := by simpa [channel] using missing
      rw [processInvoke_channel env hdr obj fd parsed channel served named]
      exact invokeFound_begun ..
    | false =>
      cases obj with
      | none => simp [channel] at missing
      | some o =>
        rw [processInvoke_object env hdr o fd parsed channel named]
        simp only [Option.any_some, Bool.not_false, Bool.true_and]
        cases ubusObjectFindMethod (s.setup.object o) (lib.blobString name.bytes) with
        | none => exact .refused .methodNotFound (.inl rfl) _
        | some method => exact invokeFound_begun ..

/-! ### The numbers of calls -/

/-- Every call has a number that was given out. -/
structure Numbered (s : State) : Prop where
  frames : ∀ frame ∈ s.stack, ∀ k, frame.rd = some k → k < s.brk
  events : ∀ event ∈ s.trace, ∀ k, event.rd = some k → k < s.brk

theorem Numbered.moves {s : State} (numbered : Numbered s) (moves : Moves q c fds held s s')
    (given : ∀ k, c k → k < s'.brk) : Numbered s' := by
  obtain ⟨new, events, stack, trace, frames, own, -⟩ := moves.moved
  constructor
  · rw [stack]
    exact List.forall_mem_append.mpr ⟨fun frame mem j about => given j ((frames frame mem).call about),
      fun frame mem j about => (numbered.frames frame mem j about).trans_le moves.brk⟩
  · rw [trace]
    exact List.forall_mem_append.mpr ⟨fun event mem j about => given j ((own event mem).call about),
      fun event mem j about => (numbered.events event mem j about).trans_le moves.brk⟩

theorem Numbered.passes {s : State} (numbered : Numbered s) (passes : Passes fds s s') :
    Numbered s' := by
  obtain ⟨held, moves⟩ := passes
  exact numbered.moves moves fun _ => False.elim

theorem Numbered.touches {k : Nat} {s : State} (numbered : Numbered s) (touches : Touches q (Eq k) s s')
    (given : k < s'.brk) : Numbered s' := by
  obtain ⟨fds, moves⟩ := touches
  exact numbered.moves moves fun _ same => same ▸ given

theorem invoking_parsed (lib : Libubox) (buf : MsghdrBuf) (s : State) :
    Parsed lib (s.content buf) (invoking lib buf s) :=
  (invoking_fields lib buf s).2.2.2

theorem Numbered.pop {s : State} (numbered : Numbered s) (top : s.stack = frame :: rest) :
    Numbered { s with stack := rest } := by
  refine ⟨fun other mem => numbered.frames other ?_, numbered.events⟩
  rw [top]
  exact List.mem_cons_of_mem _ mem

theorem Serve.numbered {action : Action} {s : State} (serve : Serve lib env action s s')
    (numbered : Numbered s) : Numbered s' := by
  have own : ∀ {frame rest k}, s.stack = frame :: rest → frame.rd = some k → k < s.brk := by
    intro frame rest k top about
    exact numbered.frames frame (by rw [top]; exact List.mem_cons_self) k about
  cases serve with
  | ret idle value does after =>
    subst after
    exact ⟨fun frame mem => numbered.frames frame (List.mem_of_mem_tail mem), numbered.events⟩
  | quiet idle passes => exact numbered.passes passes
  | defer idle k does after =>
    subst after
    exact ⟨fun frame mem j about => (numbered.frames frame mem j about).trans (Nat.lt_succ_self _),
      fun event mem j about => (numbered.events event mem j about).trans (Nat.lt_succ_self _)⟩
  | setFd idle k fd does after =>
    subst after
    exact ⟨numbered.frames, numbered.events⟩
  | getCallerFd idle k does after =>
    subst after
    unfold ubusRequestGetCallerFd
    split
    · exact ⟨numbered.frames, numbered.events⟩
    · exact ⟨numbered.frames, List.forall_mem_cons.mpr ⟨fun _ about => (nomatch about), numbered.events⟩⟩
  | work frame rest top inside free dry passes => exact (numbered.pop top).passes passes
  | read rest top passes => exact (numbered.pop top).passes passes
  | invoke buf fd rest top depth type objid carries after =>
    subst after
    obtain ⟨touches, larger⟩ := touches_invoke (q := fun _ => True) env buf (s.hdr buf)
      (s.findObject (lib.blobGetU32 objid)) fd { s with stack := rest } rfl
    exact (numbered.pop top).touches touches larger
  | preInvoked obj method k noReply rest top after =>
    have touches : Touches (fun _ => True) (Eq k) { s with stack := rest } s' := by
      rw [after]
      exact touches_preInvoked rfl ..
    exact (numbered.pop top).touches touches ((own top rfl).trans_le touches.choose_spec.brk)
  | invoked k noReply rest top after =>
    have touches : Touches (fun _ => True) (Eq k) { s with stack := rest } s' := by
      rw [after]
      exact touches_invoked rfl ..
    exact (numbered.pop top).touches touches ((own top rfl).trans_le touches.choose_spec.brk)

theorem Reachable.numbered {s : State} (reachable : Reachable lib s) : Numbered s := by
  obtain ⟨channel, setup, path⟩ := reachable
  induction path with
  | refl => exact ⟨List.forall_mem_nil _, List.forall_mem_nil _⟩
  | tail _ next ih =>
    obtain ⟨env, action, rfl⟩ := next
    exact (step_serve lib env action _).numbered ih

/-! ### A call that is being served -/

/-- The places of `ubus_process_invoke`. -/
def Frame.serves (k : Nat) : Frame → Bool
  | .preInvoked _ _ j _ | .invoked j _ => j == k
  | _ => false

def Event.answers (k : Nat) : Event → Bool
  | .sent (.invoke j) _ _ _ _ _ => j == k
  | _ => false

/-- The messages that `ubus_process_invoke` has sent for a call. -/
def answers (k : Nat) (trace : List Event) : List Event := trace.filter (Event.answers k)

theorem serves_rd {k : Nat} (serves : frame.serves k = true) : frame.rd = some k := by
  cases frame <;> first | cases serves | exact congrArg some (eq_of_beq serves)

theorem answers_rd {k : Nat} (answers : event.answers k = true) : event.rd = some k := by
  cases event with
  | sent sender cmd seq peer msg ok =>
    cases sender with
    | invoke j => exact congrArg some (eq_of_beq answers)
    | other => cases answers
  | _ => cases answers

/-- **A call whose hook or handler is running**: its addressing fields are those of the message, and
nothing has been sent. -/
structure Serving (hdr : Msghdr) (k : Nat) (s : State) : Prop where
  given : k < s.brk
  peer : (s.rd k).peer = hdr.peer
  seq : (s.rd k).seq = hdr.seq
  once : s.stack.countP (Frame.serves k) = 1
  silent : answers k s.trace = []

theorem Moves.apart {k : Nat} {s : State} (moves : Moves q c fds held s s') (out : ¬c k) :
    s'.stack.countP (Frame.serves k) = s.stack.countP (Frame.serves k) ∧
      answers k s'.trace = answers k s.trace ∧ s'.rd k = s.rd k := by
  obtain ⟨new, events, stack, trace, frames, own, -⟩ := moves.moved
  refine ⟨?_, ?_, moves.rd k out⟩
  · rw [stack, List.countP_append, List.countP_eq_zero.mpr, Nat.zero_add]
    exact fun frame mem serves => out ((frames frame mem).call (serves_rd serves))
  · rw [trace, answers, List.filter_append, List.filter_eq_nil_iff.mpr, List.nil_append, answers]
    exact fun event mem sent => out ((own event mem).call (answers_rd sent))

/-- A property of call `k` that the work on other calls keeps. -/
structure Local (k : Nat) (P : State → Prop) : Prop where
  given : ∀ {s}, P s → k < s.brk
  moves : ∀ {s s' q c fds held}, Moves q c fds held s s' → ¬c k → P s → P s'
  pop : ∀ {s : State} {frame rest}, s.stack = frame :: rest → frame.serves k = false → P s →
    P { s with stack := rest }
  /-- The application changes a request structure, but not where the answer goes. -/
  update : ∀ {s : State} {j : Nat} {f : RequestData → RequestData},
    (∀ rd, (f rd).peer = rd.peer ∧ (f rd).seq = rd.seq ∧ (f rd).object = rd.object) → P s →
      P (s.mapRd j f)

/-- **The work of others does not touch a call.** -/
theorem Local.step {k : Nat} {P : State → Prop} (keeps : Local k P) {s : State} (holds : P s)
    (apart : ∀ frame rest, s.stack = frame :: rest → frame.serves k = false)
    (next : StepWhen lib ok s s') : P s' := by
  have given := Nat.ne_of_gt (keeps.given holds)
  have base : ∀ t, Moves (fun _ => True) (fun _ => False) [] 0 t t := .refl
  have plain : ∀ {fds} {t t' : State}, Passes fds t t' → P t → P t' := fun passes =>
    keeps.moves passes.choose_spec id
  have touched : ∀ {j} {t t' : State}, Touches (fun _ => True) (Eq j) t t' → j ≠ k → P t → P t' :=
    fun touches => keeps.moves touches.choose_spec
  have popped : ∀ {frame rest}, s.stack = frame :: rest → P { s with stack := rest } :=
    fun top => keeps.pop top (apart _ _ top) holds
  obtain ⟨env, action, -, rfl⟩ := next
  cases step_serve lib env action s with
  | ret idle value does after =>
    rw [after]
    rcases top : s.stack with _ | ⟨frame, rest⟩
    · have same : Passes [] s { s with stack := [], ret := value } :=
        ⟨0, .of_eq (by simp [State.seen, top]) le_rfl⟩
      exact plain same holds
    · exact plain ⟨_, (base _).returning value⟩ (popped top)
  | quiet idle passes => exact plain passes holds
  | defer idle j does after =>
    rw [after]
    refine keeps.update (fun _ => ⟨rfl, rfl, rfl⟩) (touched (j := s.brk) ⟨[], ?_⟩ given holds)
    exact (Moves.refl s).changed rfl (Nat.le_succ _) (fun _ _ => rfl) (fun _ _ => Iff.rfl)
      fun _ out => Function.update_of_ne (Ne.symm out) _ _
  | setFd idle j fd does after =>
    rw [after]
    exact keeps.update (fun _ => ⟨rfl, rfl, rfl⟩) holds
  | getCallerFd idle j does after =>
    rw [after]
    have taken : P (s.mapRd j fun req => { req with reqFd := none }) :=
      keeps.update (fun _ => ⟨rfl, rfl, rfl⟩) holds
    unfold ubusRequestGetCallerFd
    split
    · exact taken
    · exact plain ⟨_, (base _).hand _⟩ taken
  | work frame rest top inside free dry passes => exact plain passes (popped top)
  | read rest top passes => exact plain passes (popped top)
  | invoke buf fd rest top depth type objid carries after =>
    rw [after]
    exact touched (touches_invoke env buf _ _ fd { s with stack := rest } rfl).1 given (popped top)
  | preInvoked obj method j noReply rest top after =>
    rw [after]
    have other := beq_eq_false_iff_ne.mp (apart _ _ top)
    exact touched (touches_preInvoked rfl env obj method noReply _) other (popped top)
  | invoked j noReply rest top after =>
    rw [after]
    have other := beq_eq_false_iff_ne.mp (apart _ _ top)
    exact touched (touches_invoked rfl env noReply _) other (popped top)

theorem mapRd_fields {k : Nat} {f : RequestData → RequestData}
    (same : ∀ rd, (f rd).peer = rd.peer ∧ (f rd).seq = rd.seq ∧ (f rd).object = rd.object)
    (s : State) :
    ((s.mapRd j f).rd k).peer = (s.rd k).peer ∧ ((s.mapRd j f).rd k).seq = (s.rd k).seq ∧
      ((s.mapRd j f).rd k).object = (s.rd k).object := by
  by_cases own : k = j
  · subst own
    simp only [State.mapRd, Function.update_self]
    exact same _
  · have same : (s.mapRd j f).rd k = s.rd k := Function.update_of_ne own _ _
    rw [same]
    exact ⟨rfl, rfl, rfl⟩

theorem serving_local (hdr : Msghdr) (k : Nat) : Local k (Serving hdr k) where
  given serving := serving.given
  moves moves out serving := by
    obtain ⟨count, sent, rd⟩ := moves.apart out
    refine ⟨serving.given.trans_le moves.brk, ?_, ?_, count.trans serving.once,
      sent.trans serving.silent⟩
    · rw [rd, serving.peer]
    · rw [rd, serving.seq]
  pop {s frame rest} top apart serving := by
    refine ⟨serving.given, serving.peer, serving.seq, ?_, serving.silent⟩
    have once := serving.once
    rw [top, List.countP_cons_of_neg (by rw [apart]; exact Bool.false_ne_true)] at once
    exact once
  update {s j f} same serving := by
    obtain ⟨peer, seq, -⟩ := mapRd_fields (k := k) (j := j) same s
    exact ⟨serving.given, peer.trans serving.peer, seq.trans serving.seq, serving.once, serving.silent⟩

/-! ### The answer -/

/-- **What the caller is sent is right**: one status with the `seq` and the `peer` of the message, or
nothing if the call was deferred or wants no answer. -/
def Replied (hdr : Msghdr) (noReply : Bool) (k : Nat) (t : State) : Prop :=
  if (t.rd k).deferred || noReply then answers k t.trace = []
  else ∃ msg ok, answers k t.trace = [.sent (.invoke k) .status hdr.seq hdr.peer msg ok]

/-- The condition: `no_reply` is only respected once the handler was called, and an early exit answers
with `seq` 0 and `peer` 0. -/
def Answerable (way : Outcome) (hdr : Msghdr) (noReply : Bool) : Prop :=
  match way with
  | .missing | .noMethod => noReply = false ∧ hdr.seq = 0 ∧ hdr.peer = 0
  | .methodNotFound | .noData => noReply = false
  | .called => True

instance (way : Outcome) (hdr : Msghdr) (noReply : Bool) : Decidable (Answerable way hdr noReply) := by
  cases way <;> unfold Answerable <;> infer_instance

theorem close_fields (fd : Option Nat) (s : State) :
    (s.close fd).stack = s.stack ∧ (s.close fd).rd = s.rd ∧ (s.close fd).brk = s.brk ∧
      (s.close fd).trace = fd.toList.map .close ++ s.trace := by
  cases fd <;> exact ⟨rfl, rfl, rfl, rfl⟩

theorem sendMsg_fields (env : Env) (sender : Sender) (seq : UInt16) (msg : Payload)
    (cmd : MsgType) (peer : UInt32) (fd : Option Nat) (s : State)
    (after : result = (ubusSendMsg lib env sender seq msg cmd peer fd s).2) :
    result.stack = s.stack ∧ result.rd = s.rd ∧ result.brk = s.brk ∧
      ∃ ok, result.trace = fd.toList.map .close ++ .sent sender cmd seq peer msg ok :: s.trace := by
  subst after
  unfold ubusSendMsg
  split
  · cases fd <;> exact ⟨rfl, rfl, rfl, false, rfl⟩
  · cases fd <;> exact ⟨rfl, rfl, rfl, env.written, rfl⟩

theorem sendAnswer_fields (env : Env) (k : Nat) (ret : UInt32) (s : State)
    (after : result = sendAnswer lib env k ret s) :
    result.stack = s.stack ∧ result.rd = s.rd ∧ result.brk = s.brk ∧
      ∃ ok, result.trace = (s.rd k).fd.toList.map .close ++
        .sent (.invoke k) .status (s.rd k).seq (s.rd k).peer
          (.built [.int32 .status ret, .int32 .objid (s.rd k).object]) ok ::
            ((s.rd k).reqFd.toList.map .close ++ s.trace) := by
  obtain ⟨stack, rd, brk, trace⟩ := close_fields (s.rd k).reqFd s
  obtain ⟨stack', rd', brk', ok, trace'⟩ := sendMsg_fields env _ _ _ _ _ _ _ after
  refine ⟨stack'.trans stack, rd'.trans rd, brk'.trans brk, ok, ?_⟩
  rw [trace', trace, rd]

theorem invoked_stack {k : Nat} {noReply : Bool} {s t : State}
    (after : t = invoked lib env k noReply s) :
    t.stack = s.stack ∧ t.brk = s.brk ∧ t.rd = s.rd := by
  unfold invoked at after
  split at after
  · rw [after]
    obtain ⟨stack, rd, brk, -⟩ := close_fields (s.rd k).reqFd s
    exact ⟨stack, brk, rd⟩
  · obtain ⟨stack, rd, brk, -⟩ := sendAnswer_fields env k s.ret s after
    exact ⟨stack, brk, rd⟩

theorem answers_append (k : Nat) (events trace : List Event) :
    answers k (events ++ trace) = answers k events ++ answers k trace :=
  List.filter_append ..

theorem answers_close (k : Nat) (fds : List Nat) : answers k (fds.map .close) = [] :=
  List.filter_eq_nil_iff.mpr fun _ mem => by
    obtain ⟨fd, -, rfl⟩ := List.mem_map.mp mem
    exact Bool.false_ne_true

theorem answers_sendAnswer (lib : Libubox) (env : Env) (k : Nat) (ret : UInt32) (s : State) :
    ∃ msg ok, answers k (sendAnswer lib env k ret s).trace =
      .sent (.invoke k) .status (s.rd k).seq (s.rd k).peer msg ok :: answers k s.trace := by
  obtain ⟨-, -, -, ok, trace⟩ := sendAnswer_fields env k ret s (rfl : sendAnswer lib env k ret s = _)
  refine ⟨.built [.int32 .status ret, .int32 .objid (s.rd k).object], ok, ?_⟩
  rw [trace, answers_append, answers_close, List.nil_append, answers, List.filter_cons_of_pos
    (by simp [Event.answers]), ← answers, answers_append, answers_close, List.nil_append]

theorem invoked_replied (env : Env) {k : Nat} (noReply : Bool) {s t : State}
    (peer : (s.rd k).peer = hdr.peer) (seq : (s.rd k).seq = hdr.seq)
    (silent : answers k s.trace = []) (after : t = invoked lib env k noReply s) :
    t.stack = s.stack ∧ Replied hdr noReply k t := by
  unfold invoked at after
  split at after
  · rename_i quiet
    obtain ⟨stack, rd, -, trace⟩ := close_fields (s.rd k).reqFd s
    rw [← after] at stack rd trace
    refine ⟨stack, ?_⟩
    rw [Replied, rd, if_pos quiet, trace, answers_append, answers_close, silent]
    rfl
  · rename_i wanted
    obtain ⟨stack, rd, -⟩ := sendAnswer_fields env k s.ret s after
    obtain ⟨msg, ok, sent⟩ := answers_sendAnswer lib env k s.ret s
    rw [← after, silent, peer, seq] at sent
    refine ⟨stack, ?_⟩
    rw [Replied, rd, if_neg wanted]
    exact ⟨msg, ok, sent⟩

theorem invoking_silent (lib : Libubox) (buf : MsghdrBuf) {s : State} (numbered : Numbered s) :
    answers s.brk (invoking lib buf s).trace = [] ∧
      (invoking lib buf s).stack.countP (Frame.serves s.brk) = 0 := by
  have detach : Moves (fun _ => True) (fun _ => False) [] 0 s (detached lib buf s) := moves_detached buf s
  obtain ⟨count, sent, -⟩ := detach.apart (k := s.brk) id
  constructor
  · have none : answers s.brk s.trace = [] := List.filter_eq_nil_iff.mpr fun event mem own =>
      lt_irrefl _ (numbered.events event mem _ (answers_rd own))
    exact sent.trans none
  · refine count.trans (List.countP_eq_zero.mpr fun frame mem own => ?_)
    exact lt_irrefl _ (numbered.frames frame mem _ (serves_rd own))

theorem invoking_absent (lib : Libubox) (buf : MsghdrBuf) {s : State} (numbered : Numbered s) :
    (invoking lib buf s).stack.countP (Frame.serves (invoking lib buf s).brk) = 0 := by
  rw [(invoking_fields lib buf s).2.2.1]
  exact (invoking_silent lib buf numbered).2

theorem Returns.at_once {s t : State} (returns : Returns lib ok base s t) (out : s.stack = base) :
    t = s := by
  cases Relation.ReflTransGen.cases_head returns.path with
  | inl same => exact same.symm
  | inr later =>
    obtain ⟨_, ⟨-, inside⟩, -⟩ := later
    rw [out] at inside
    exact absurd inside (lt_irrefl _)

theorem StepWhen.resumes {s : State} (next : StepWhen lib ok s s') (top : s.stack = frame :: rest)
    (inside : ∀ cb, frame ≠ .app cb) :
    ∃ env, s' = resume lib env frame { s with stack := rest } := by
  obtain ⟨env, action, -, rfl⟩ := next
  refine ⟨env, ?_⟩
  unfold Libubus.step
  rw [top]
  cases frame with
  | app cb => exact absurd rfl (inside cb)
  | _ => rfl

/-- `ubus_process_invoke` is on the stack. -/
inductive Serves (k : Nat) (noReply : Bool) : Frame → Prop where
  | hook (obj method : Nat) : Serves k noReply (.preInvoked obj method k noReply)
  | handler : Serves k noReply (.invoked k noReply)

theorem Serves.serves {k : Nat} {noReply : Bool} (own : Serves k noReply frame) :
    frame.serves k = true := by
  cases own <;> exact beq_self_eq_true k

theorem Serving.call {k : Nat} {s : State} (given : k < s.brk) (peer : (s.rd k).peer = hdr.peer)
    (seq : (s.rd k).seq = hdr.seq) (none : s.stack.countP (Frame.serves k) = 0)
    (silent : answers k s.trace = []) (own : frame.serves k = true) :
    Serving hdr k ((s.push frame).call cb) := by
  refine ⟨given, peer, seq, ?_, silent⟩
  show List.countP (Frame.serves k) (.app cb :: frame :: s.stack) = 1
  rw [List.countP_cons_of_neg Bool.false_ne_true, List.countP_cons_of_pos own, none]

/-- **A call that reaches the application is answered as it should be.** -/
theorem called_replied {k : Nat} {noReply : Bool} {s t : State}
    (depth : s.stackDepth = depthOf s.stack) (start : Serving hdr k s)
    (called : ∃ new frame, Serves k noReply frame ∧ s.stack = new ++ frame :: base)
    (returns : Returns lib ok base s t) : Replied hdr noReply k t := by
  refine (Returns.through (P := Serving hdr k) (Q := Replied hdr noReply k) (Serves k noReply)
    ?_ ?_ depth start called returns).2
  · intro a b top new frame serving own stack next
    refine (serving_local hdr k).step serving ?_ next
    intro first others stack'
    obtain ⟨rfl, -⟩ := List.cons.inj (stack.symm.trans stack')
    have once := serving.once
    rw [stack, List.cons_append, List.countP_cons, List.countP_append,
      List.countP_cons_of_pos own.serves] at once
    by_contra other
    rw [Bool.not_eq_false] at other
    rw [if_pos other] at once
    omega
  · intro a b frame serving own stack next
    have once := serving.once
    rw [stack, List.countP_cons_of_pos own.serves] at once
    have below : base.countP (Frame.serves k) = 0 := Nat.succ.inj once
    have ends : ∀ {env}, b = invoked lib env k noReply { a with stack := base } →
        b.stack = base ∧ Replied hdr noReply k b := fun {env} after =>
      invoked_replied env noReply (s := { a with stack := base }) serving.peer serving.seq
        serving.silent after
    cases own with
    | handler =>
      obtain ⟨env, after⟩ := next.resumes stack fun _ => Frame.noConfusion
      exact .inr (ends after)
    | hook obj method =>
      obtain ⟨env, after⟩ := next.resumes stack fun _ => Frame.noConfusion
      have ended : b = preInvoked lib env obj method k noReply { a with stack := base } := after
      unfold preInvoked at ended
      split at ended
      · subst ended
        refine .inl ⟨?_, [.app (.handler (some obj) (some method) k (a.attrbuf .method)
          (a.attrbuf .data))], .invoked k noReply, .handler, rfl⟩
        exact Serving.call (s := { a with stack := base }) serving.given serving.peer serving.seq below
          serving.silent (beq_self_eq_true k)
      · exact .inr (ends ended)

theorem step_invoke (env : Env) (action : Action) {s : State} {buf : MsghdrBuf}
    (top : s.stack = .processMsg buf fd :: rest) (direct : s.stackDepth = 0)
    (type : (s.hdr buf).type = MsgType.invoke.code) {objid : Bytes}
    (carries : lib.blobParse (s.content buf) .objid = some objid) :
    step lib env action s = ubusProcessInvoke lib env (s.hdr buf)
      (s.findObject (lib.blobGetU32 objid)) fd (invoking lib buf { s with stack := rest }) := by
  have parsed := entered_attrbuf lib buf { s with stack := rest } .objid
  have setup := (entered_setup lib buf { s with stack := rest }).1
  have dispatched : step lib env action s = processObj lib env buf fd { s with stack := rest } := by
    have arrives : ({ s with stack := rest } : State).hdr buf = s.hdr buf := rfl
    simp only [step, top, resume, ubusProcessMsg, arrives, type]
    rfl
  rw [dispatched, processObj_entered env buf fd (s := { s with stack := rest }) direct]
  rcases given : (entered lib buf { s with stack := rest }).attrbuf .objid with _ | attr
  · rw [given] at parsed
    exact absurd (parsed.trans carries) (by simp)
  rw [given] at parsed
  obtain rfl : attr.bytes = objid := Option.some.inj (parsed.trans carries)
  dsimp only
  rw [if_pos (by exact type), State.findObject, setup]
  rfl

theorem sendAnswer_replied_iff (env : Env) (hdr : Msghdr) (noReply : Bool) (ret : UInt32)
    (rd : RequestData) (kept : rd.deferred = false) {s t : State}
    (silent : answers s.brk s.trace = [])
    (returns : Returns lib ok s.stack (sendAnswer lib env s.brk ret (s.begin rd)) t) :
    Replied hdr noReply s.brk t ↔ noReply = false ∧ hdr.seq = rd.seq ∧ hdr.peer = rd.peer := by
  obtain ⟨stack, same, -⟩ := sendAnswer_fields env s.brk ret (s.begin rd)
    (rfl : sendAnswer lib env s.brk ret (s.begin rd) = _)
  obtain ⟨msg, ok, sent⟩ := answers_sendAnswer lib env s.brk ret (s.begin rd)
  have own : (s.begin rd).rd s.brk = rd := Function.update_self ..
  rw [own, show answers s.brk (s.begin rd).trace = [] from silent] at sent
  rw [returns.at_once stack, Replied, same, own, kept, sent, Bool.false_or]
  cases noReply with
  | true => simp
  | false =>
    constructor
    · rintro ⟨msg', ok', equal⟩
      obtain ⟨-, -, seq, peer, -⟩ := Event.sent.inj (List.cons.inj equal).1
      exact ⟨rfl, seq.symm, peer.symm⟩
    · rintro ⟨-, seq, peer⟩
      rw [seq, peer]
      exact ⟨msg, ok, rfl⟩

theorem begun_replied_iff {noReply : Bool} {s t : State} {k : Nat} (number : s.brk = k)
    (begun : Begun lib env hdr obj fd s noReply way s') (depth : s'.stackDepth = depthOf s'.stack)
    (silent : answers k s.trace = []) (none : s.stack.countP (Frame.serves k) = 0)
    (returns : Returns lib ok s.stack s' t) :
    Replied hdr noReply k t ↔ Answerable way hdr noReply := by
  subst number
  obtain ⟨peer, seq, kept, -⟩ := filled_fields hdr obj fd s
  have own : (s.begin (filled hdr obj fd s)).rd s.brk = filled hdr obj fd s := Function.update_self ..
  have served : ∀ {frame cb}, Serves s.brk noReply frame →
      s' = ((s.begin (filled hdr obj fd s)).push frame).call cb → Replied hdr noReply s.brk t := by
    intro frame cb serves after
    subst after
    refine called_replied depth (Serving.call (Nat.lt_succ_self _) ?_ ?_ none silent serves.serves)
      ⟨[.app cb], frame, serves, rfl⟩ returns
    · rw [own, peer]
    · rw [own, seq]
  cases begun with
  | unaddressed way early ret =>
    rw [sendAnswer_replied_iff env hdr noReply ret { reqFd := fd } rfl silent returns]
    rcases early with rfl | rfl <;> rfl
  | refused way late ret =>
    rw [sendAnswer_replied_iff env hdr noReply ret _ kept silent returns, peer, seq]
    rcases late with rfl | rfl <;> exact ⟨And.left, fun wanted => ⟨wanted, rfl, rfl⟩⟩
  | asked o method found data given =>
    exact ⟨fun _ => trivial, fun _ => served (.hook o method) rfl⟩
  | called method => exact ⟨fun _ => trivial, fun _ => served .handler rfl⟩

/-- **When a call is answered to its caller exactly once.** -/
theorem invoke_answered_iff {s t : State} (reachable : Reachable lib s) {buf : MsghdrBuf}
    {fd : Option Nat} {rest : List Frame} (top : s.stack = .processMsg buf fd :: rest)
    (direct : s.stackDepth = 0) (type : (s.hdr buf).type = MsgType.invoke.code) {objid : Bytes}
    (carries : lib.blobParse (s.content buf) .objid = some objid) {env : Env} {action : Action}
    (returns : Returns lib (fun _ _ => True) (invoking lib buf { s with stack := rest }).stack
      (step lib env action s) t) :
    Replied (s.hdr buf) (noReply lib (s.content buf)) s.brk t ↔
      Answerable (outcome lib s (s.findObject (lib.blobGetU32 objid)) (s.content buf)) (s.hdr buf)
        (noReply lib (s.content buf)) := by
  have next : Step lib s (step lib env action s) := ⟨env, action, rfl⟩
  have depth := ((step_advance next.when).depth reachable.depth).2
  obtain ⟨silent, none⟩ := invoking_silent lib buf (reachable.numbered.pop top)
  obtain ⟨setup, channel, brk, -⟩ := invoking_fields lib buf { s with stack := rest }
  have begun := processInvoke_begun env (s.hdr buf) (s.findObject (lib.blobGetU32 objid)) fd
    (invoking_parsed lib buf { s with stack := rest })
  have same : outcome lib (invoking lib buf { s with stack := rest })
      (s.findObject (lib.blobGetU32 objid)) (s.content buf) =
        outcome lib s (s.findObject (lib.blobGetU32 objid)) (s.content buf) := by
    unfold outcome
    rw [setup, channel]
  rw [← step_invoke env action top direct type carries] at begun
  rw [← same]
  exact begun_replied_iff brk begun depth silent none returns

/-! ### Runs -/

/-- An object with the id 5 and a method `m`. -/
def oneObject : Setup := { objects := [(5, 0)], object := fun _ => { id := 5, methods := [some (cstr "m")] } }

/-- An `INVOKE` with `seq` 5 from client 9 is read. -/
def invokeRead (puts : List Put) (fd : Option Nat) : List (Env × Action) :=
  [doing .handleEvent] ++ quietly 2 ++
    [receiving { type := MsgType.invoke.code, seq := 5, peer := 9 } (Blob.rawBlob puts) fd]

/-- A call of the method: the handler returns, and the caller gets its answer. -/
theorem invoke_answered_iff_handler : ∃ s t,
    Reachable libubox s ∧ s.stack = [.processMsg .msgbuf none, .handled] ∧
    outcome libubox s (s.findObject 5) (s.content .msgbuf) = .called ∧
    Returns libubox (fun _ _ => True) (invoking libubox .msgbuf { s with stack := [.handled] }).stack
      (step libubox {} (.ret 0) s) t ∧
    Replied (s.hdr .msgbuf) (noReply libubox (s.content .msgbuf)) s.brk t := by
  obtain ⟨s, start⟩ : ∃ s, run libubox (invokeRead [.int32 .objid 5, .string .method (cstr "m"),
    .blob .data []] none) (init false oneObject) = s := ⟨_, rfl⟩
  have reachable : Reachable libubox s := ⟨false, oneObject, start ▸ run_steps _ _⟩
  have top : s.stack = [.processMsg .msgbuf none, .handled] := by rw [← start]; decide +kernel
  have type : (s.hdr .msgbuf).type = MsgType.invoke.code := by rw [← start]; decide +kernel
  have carries : libubox.blobParse (s.content .msgbuf) .objid = some [3, 0, 0, 8, 0, 0, 0, 5] := by
    rw [← start]; decide +kernel
  have way : outcome libubox s (s.findObject 5) (s.content .msgbuf) = .called := by
    rw [← start]; decide +kernel
  have returns : Returns libubox (fun _ _ => True)
      (invoking libubox .msgbuf { s with stack := [.handled] }).stack (step libubox {} (.ret 0) s)
      (run libubox (quietly 2) (step libubox {} (.ret 0) s)) :=
    run_returns (quietly 2) (fun _ _ _ => trivial) (by rw [← start]; decide +kernel)
      (by rw [← start]; decide +kernel)
  refine ⟨s, _, reachable, top, way, returns, ?_⟩
  refine (invoke_answered_iff reachable top (by rw [← start]; decide +kernel) type carries returns).mpr ?_
  rw [show libubox.blobGetU32 [3, 0, 0, 8, 0, 0, 0, 5] = 5 from by decide +kernel, way]
  exact trivial

/-- Where a message goes. -/
def Event.address : Event → Option (MsgType × UInt16 × UInt32)
  | .sent _ cmd seq peer _ _ => some (cmd, seq, peer)
  | _ => none

/-- **A call of an object that is not there is answered to nobody**: the status has `seq` 0 and
`peer` 0. -/
theorem invoke_missing_unanswered : ∃ s t,
    Reachable libubox s ∧ s.stack = [.processMsg .msgbuf none, .handled] ∧
    (s.hdr .msgbuf).type = MsgType.invoke.code ∧ (s.hdr .msgbuf).seq = 5 ∧ (s.hdr .msgbuf).peer = 9 ∧
    libubox.blobParse (s.content .msgbuf) .objid = some [3, 0, 0, 8, 0, 0, 0, 5] ∧
    Returns libubox (fun _ _ => True) (invoking libubox .msgbuf { s with stack := [.handled] }).stack
      (step libubox {} (.ret 0) s) t ∧
    (answers s.brk t.trace).map Event.address = [some (.status, 0, 0)] ∧
    ¬ Replied (s.hdr .msgbuf) (noReply libubox (s.content .msgbuf)) s.brk t := by
  obtain ⟨s, start⟩ : ∃ s, run libubox (invokeRead [.int32 .objid 5, .string .method (cstr "m"),
    .blob .data []] none) (init false {}) = s := ⟨_, rfl⟩
  have sent : (answers s.brk (step libubox {} (.ret 0) s).trace).map Event.address =
      [some (.status, 0, 0)] := by rw [← start]; decide +kernel
  have hdr : (s.hdr .msgbuf).seq = 5 := by rw [← start]; decide +kernel
  refine ⟨s, step libubox {} (.ret 0) s, ⟨false, {}, start ▸ run_steps _ _⟩, by rw [← start]; decide +kernel,
    by rw [← start]; decide +kernel, hdr, by rw [← start]; decide +kernel,
    by rw [← start]; decide +kernel, ⟨.refl, by rw [← start]; decide +kernel⟩, sent, ?_⟩
  intro replied
  unfold Replied at replied
  split at replied
  · rw [replied] at sent
    cases sent
  · obtain ⟨msg, ok, single⟩ := replied
    rw [single, hdr] at sent
    cases sent

end Ubus.Libubus
