/-
**The moves of the daemon.**

Whatever the event loop reports is handled in a few kinds of moves: something arrives, one `sendmsg`,
one `recvmsg` or `read`, a message is accepted or resumed, a client comes or goes, the access lists
are loaded. `Move lib s s'` lists them with the functions of the model.

* `Move.inv`: every move keeps the invariant.
* `step_moves`: an input of the event loop is handled by a sequence of moves.
-/

import Ubus.Session

namespace Ubus

open Lib Relation

/-- **The moves of the daemon.** -/
inductive Move (lib : Libubox) : State → State → Prop where
  | begin {s : State} (writes : List WriteOutcome) (allocs : List Bool) (rnd : List UInt32) :
      Move lib s { s with writes, allocs, rnd, cause := .idle }
  | connect {s : State} (cred : Option Cred) :
      Move lib s (ubusdProtoNewClient lib cred { s with cause := .connect s.reg.brk })
  | arrive {s : State} {cl : Nat} (known : s.reg.HasClient cl) (bytes : Bytes) (hup : Bool) :
      Move lib s ((s.mapRx cl fun rx => { rx with inbox := rx.inbox ++ bytes }).mapTx cl fun tx =>
        { tx with eof := tx.eof || hup })
  | write {s : State} {cl ub : Nat} (known : s.reg.HasClient cl)
      (first : (s.tx cl).txQueue.head? = some ub) (out : WriteOutcome) :
      Move lib s (txWrite lib cl ub out s)
  | resume {s : State} {cl : Nat} {cmd : ClientCmd} (known : s.reg.HasClient cl)
      (first : (s.sock cl).cmdQueue.head? = some cmd) :
      Move lib s (resumeCmd lib cl cmd s).1
  | quiet {s : State} {cl : Nat} (known : s.reg.HasClient cl) (written : (s.tx cl).txQueue = [])
      (served : (s.sock cl).cmdQueue = []) :
      Move lib s (s.mapTx cl fun tx => { tx with writeInterest := false })
  | header {s : State} {cl : Nat} (known : s.reg.HasClient cl) (none : (s.rx cl).pendingMsg = none)
      (opened : (s.tx cl).eof = false) (room : (s.rx cl).pendingMsgOffset < 12) (out : ReadOutcome) :
      Move lib s (recvHeader cl out s).2
  | body {s : State} {cl ub : Nat} (known : s.reg.HasClient cl)
      (pending : (s.rx cl).pendingMsg = some ub) (out : ReadOutcome) :
      Move lib s (recvBody lib cl ub out s).2
  | accept {s : State} {cl ub : Nat} (known : s.reg.HasClient cl)
      (pending : (s.rx cl).pendingMsg = some ub) (complete : bodyLeft lib cl ub s = 0) :
      Move lib s (acceptMessage lib cl ub s)
  | disconnect {s : State} {cl : Nat} (known : s.reg.HasClient cl) :
      Move lib s (handleClientDisconnect lib cl s)
  | aclLoad {s : State} (host : Host) (dir : Directory) (fault : Bool) :
      Move lib s (aclLoadAndAnnounce lib host dir fault s)

variable {lib : Libubox} {s s' : State}

/-- **Every move keeps the invariant.** -/
theorem Move.inv (move : Move lib s s') (inv : Inv lib [] s) : Inv lib [] s' := by
  cases move with
  | begin writes allocs rnd => exact inv.congr rfl rfl rfl rfl
  | connect cred => exact (newClient_spec inv cred).1
  | arrive known bytes hup =>
    have socket := inv.sockets _ known
    exact inv_mapTx (inv_mapRx inv socket rfl rfl) socket rfl
  | write known first out => exact inv_txWrite inv (inv.sockets _ known) first out
  | resume known first => exact (resumeCmd_spec inv known first).1
  | quiet known _ _ => exact inv_mapTx inv (inv.sockets _ known) rfl
  | header known none _ _ out => exact inv_recvHeader inv (inv.sockets _ known) none out
  | body known pending out => exact (inv_recvBody inv known pending out).1
  | accept known pending _ => exact (inv_acceptMessage inv known pending).1
  | disconnect known => exact (disconnect_spec inv known).1
  | aclLoad host dir fault =>
    have inv' : Inv lib [] { s with cause := .aclLoad } := inv.congr rfl rfl rfl rfl
    exact inv'.of_does (aclLoad_moved inv host dir fault)

theorem moves_inv (moves : ReflTransGen (Move lib) s s') (inv : Inv lib [] s) : Inv lib [] s' := by
  induction moves with
  | refl => exact inv
  | tail _ move ih => exact move.inv ih

/-! ### Steps are sequences of moves -/

section Steps

/-- A move from a state with a property. -/
def MoveIn (lib : Libubox) (P : State → Prop) (s s' : State) : Prop := Move lib s s' ∧ P s

/-- A property that the moves keep, apart from the start of an input. -/
structure Lasting (lib : Libubox) (P : State → Prop) : Prop where
  arrive : ∀ {s : State} (cl : Nat) (bytes : Bytes) (hup : Bool), P s →
    P ((s.mapRx cl fun rx => { rx with inbox := rx.inbox ++ bytes }).mapTx cl fun tx =>
      { tx with eof := tx.eof || hup })
  write : ∀ {s : State} (cl ub : Nat) (out : WriteOutcome), P s → P (txWrite lib cl ub out s)
  resume : ∀ {s : State} {cl : Nat} {cmd : ClientCmd}, Inv lib [] s → s.reg.HasClient cl →
    (s.sock cl).cmdQueue.head? = some cmd → P s → P (resumeCmd lib cl cmd s).1
  quiet : ∀ {s : State} (cl : Nat), P s → P (s.mapTx cl fun tx => { tx with writeInterest := false })
  header : ∀ {s : State} (cl : Nat) (out : ReadOutcome), P s → P (recvHeader cl out s).2
  body : ∀ {s : State} {cl ub : Nat} (out : ReadOutcome), Inv lib [] s → s.reg.HasClient cl →
    (s.rx cl).pendingMsg = some ub → P s → P (recvBody lib cl ub out s).2
  accept : ∀ {s : State} {cl ub : Nat}, Inv lib [] s → s.reg.HasClient cl →
    (s.rx cl).pendingMsg = some ub → P s → P (acceptMessage lib cl ub s)
  connect : ∀ {s : State} (cred : Option Cred), P s →
    P (ubusdProtoNewClient lib cred { s with cause := .connect s.reg.brk })
  disconnect : ∀ {s : State} (cl : Nat), Inv lib [] s → P s → P (handleClientDisconnect lib cl s)
  aclLoad : ∀ {s : State} (host : Host) (dir : Directory) (fault : Bool), Inv lib [] s → P s →
    P (aclLoadAndAnnounce lib host dir fault s)

theorem lasting_true (lib : Libubox) : Lasting lib fun _ => True := by
  constructor <;> intros <;> trivial

variable {P : State → Prop} {cl : Nat}

theorem MoveIn.moves (path : ReflTransGen (MoveIn lib P) s s') : ReflTransGen (Move lib) s s' :=
  path.lift id fun _ _ => And.left

theorem MoveIn.inv (path : ReflTransGen (MoveIn lib P) s s') (inv : Inv lib [] s) : Inv lib [] s' :=
  moves_inv (MoveIn.moves path) inv

/-- A client was served in a sequence of moves, and is still there. -/
structure Serves (lib : Libubox) (P : State → Prop) (cl : Nat) (s s' : State) : Prop where
  path : ReflTransGen (MoveIn lib P) s s'
  has : s'.reg.HasClient cl
  holds : P s'

theorem Serves.trans {s'' : State} (one : Serves lib P cl s s') (two : Serves lib P cl s' s'') :
    Serves lib P cl s s'' := ⟨one.path.trans two.path, two.has, two.holds⟩

theorem Serves.refl (has : s.reg.HasClient cl) (holds : P s) : Serves lib P cl s s :=
  ⟨.refl, has, holds⟩

theorem Serves.one (move : Move lib s s') (has : s.reg.HasClient cl)
    (clients : s'.reg.clients = s.reg.clients) (holds : P s) (holds' : P s') : Serves lib P cl s s' :=
  ⟨.single ⟨move, holds⟩, by rwa [Registry.HasClient, clients], holds'⟩

theorem txWrite_reg (lib : Libubox) (cl ub : Nat) (out : WriteOutcome) (s : State) :
    (txWrite lib cl ub out s).reg = s.reg := by
  have written : (ubusMsgWritev lib cl ub (s.tx cl).txqOfs out s).2.reg = s.reg := by
    cases out <;> rfl
  unfold txWrite
  rcases result : ubusMsgWritev lib cl ub (s.tx cl).txqOfs out s with ⟨_ | count, t⟩
  · rw [result] at written
    exact written
  rw [result] at written
  simp only [txAdvance]
  split
  · exact written
  · rw [ubusMsgListFree, (ubusMsgFree_reg ..).1]
    exact written

theorem txDrain_serves (lasting : Lasting lib P) (has : s.reg.HasClient cl) (holds : P s)
    (outs : List WriteOutcome) : Serves lib P cl s (txDrain lib cl outs s).1 := by
  induction outs generalizing s with
  | nil => exact Serves.refl has holds
  | cons out outs ih =>
    unfold txDrain
    rcases queue : (s.tx cl).txQueue with _ | ⟨ub, rest⟩
    · exact Serves.refl has holds
    have move : Serves lib P cl s (txWrite lib cl ub out s) :=
      Serves.one (.write has (by rw [queue]; rfl) out) has (by rw [txWrite_reg]) holds
        (lasting.write cl ub out holds)
    simp only
    unfold txWrite at move
    rcases result : ubusMsgWritev lib cl ub (s.tx cl).txqOfs out s with ⟨_ | count, t⟩
    · rw [result] at move
      exact move
    · rw [result] at move
      exact move.trans (ih move.has move.holds)

theorem cmdQueueProcess_serves (lasting : Lasting lib P) (inv : Inv lib [] s)
    (has : s.reg.HasClient cl) (holds : P s) {cmds : List ClientCmd}
    (queue : (s.net.sock cl).cmdQueue = cmds) :
    Serves lib P cl s (cmdQueueProcess lib cl cmds s) ∧
      (((cmdQueueProcess lib cl cmds s).tx cl).txQueue = [] →
        ((cmdQueueProcess lib cl cmds s).sock cl).cmdQueue = []) := by
  induction cmds generalizing s with
  | nil => exact ⟨Serves.refl has holds, fun _ => queue⟩
  | cons cmd rest ih =>
    have first : (s.net.sock cl).cmdQueue.head? = some cmd := by rw [queue]; rfl
    obtain ⟨inv', reg, goesOn⟩ := resumeCmd_spec inv has first
    have move : Serves lib P cl s (resumeCmd lib cl cmd s).1 :=
      Serves.one (.resume has first) has (by rw [reg]) holds (lasting.resume inv has first holds)
    have busy := resumeCmd_busy lib cl cmd s
    unfold cmdQueueProcess
    rcases result : resumeCmd lib cl cmd s with ⟨t, _ | _⟩
    · rw [result] at move busy
      exact ⟨move, fun empty => absurd empty (busy rfl)⟩
    · rw [result] at move inv' goesOn
      obtain ⟨others, drained⟩ := ih inv' move.has move.holds (by rw [goesOn rfl, queue]; rfl)
      exact ⟨move.trans others, drained⟩

theorem processQueued_serves (lasting : Lasting lib P) (inv : Inv lib [] s)
    (has : s.reg.HasClient cl) (holds : P s) : Serves lib P cl s (processQueued lib cl s) := by
  unfold processQueued
  split
  · obtain ⟨processed, drained⟩ := cmdQueueProcess_serves lasting inv has holds rfl
    simp only
    split
    · rename_i empty
      have written := List.isEmpty_iff.mp empty
      exact processed.trans (Serves.one (.quiet processed.has written (drained written)) processed.has rfl
        processed.holds (lasting.quiet cl processed.holds))
    · exact processed
  · exact Serves.refl has holds

theorem acceptComplete_serves (lasting : Lasting lib P) (inv : Inv lib [] s)
    (has : s.reg.HasClient cl) (holds : P s) : Serves lib P cl s (acceptComplete lib cl s) := by
  unfold acceptComplete
  rcases pending : (s.rx cl).pendingMsg with _ | ub
  · exact Serves.refl has holds
  simp only
  split
  · rename_i complete
    exact Serves.one (.accept has pending complete) has (inv_acceptMessage inv has pending).2 holds
      (lasting.accept inv has pending holds)
  · exact Serves.refl has holds

theorem headerDone_reg (cl : Nat) (s : State) : (headerDone cl s).2.reg = s.reg := by
  unfold headerDone
  simp only
  split
  · rfl
  split
  · rfl
  have made : Wire (fun _ => True) (fun _ => False) (fun _ => False) s
      (ubusMsgNew (.received ((s.rx cl).hdrbuf.drop 8)) false s).2 :=
    wire_new _ _ (by simp)
  rcases result : ubusMsgNew (.received ((s.rx cl).hdrbuf.drop 8)) false s with ⟨_ | ub, t⟩
  · rw [result] at made
    exact made.reg
  · rw [result] at made
    exact made.reg

theorem recvHeader_reg (cl : Nat) (out : ReadOutcome) (s : State) :
    (recvHeader cl out s).2.reg = s.reg := by
  have fdReg : ∀ fd t, (recvFd cl fd t).reg = t.reg := by
    intro fd t
    unfold recvFd
    split <;> rfl
  unfold recvHeader
  cases out with
  | again => rfl
  | got extra fd =>
    simp only
    split
    · exact fdReg ..
    · rw [headerDone_reg]
      exact fdReg ..

theorem recvStep_serves (lasting : Lasting lib P) (inv : Inv lib [] s) (has : s.reg.HasClient cl)
    (holds : P s) (out : ReadOutcome) : Serves lib P cl s (recvStep lib cl out s).2 := by
  unfold recvStep
  rcases pending : (s.rx cl).pendingMsg with _ | ub
  · simp only
    split
    · rename_i ready
      simp only [Bool.and_eq_true, Bool.not_eq_true', decide_eq_true_eq] at ready
      exact Serves.one (.header has pending ready.1 ready.2 out) has (by rw [recvHeader_reg]) holds
        (lasting.header cl out holds)
    · exact Serves.refl has holds
  · exact Serves.one (.body has pending out) has (inv_recvBody inv has pending out).2 holds
      (lasting.body out inv has pending holds)

theorem recvLoop_serves (lasting : Lasting lib P) (inv : Inv lib [] s) (has : s.reg.HasClient cl)
    (holds : P s) (reads : List ReadOutcome) : Serves lib P cl s (recvLoop lib cl reads s).1 := by
  induction reads generalizing s with
  | nil => exact acceptComplete_serves lasting inv has holds
  | cons out outs ih =>
    have complete := acceptComplete_serves lasting inv has holds
    have step := recvStep_serves lasting (MoveIn.inv complete.path inv) complete.has complete.holds out
    have both := complete.trans step
    unfold recvLoop
    rcases result : recvStep lib cl out (acceptComplete lib cl s) with ⟨next, t⟩
    rw [result] at both
    cases next with
    | retry => exact both.trans (ih (MoveIn.inv both.path inv) both.has both.holds)
    | out => exact both
    | disconnect => exact both

theorem endCb_moves (lasting : Lasting lib P) (inv : Inv lib [] s) (has : s.reg.HasClient cl)
    (holds : P s) : ReflTransGen (MoveIn lib P) s (endCb lib cl s) ∧ P (endCb lib cl s) := by
  unfold endCb
  split
  · exact ⟨.refl, holds⟩
  · exact ⟨.single ⟨.disconnect has, holds⟩, lasting.disconnect cl inv holds⟩

theorem clientCb_moves (lasting : Lasting lib P) (inv : Inv lib [] s) (has : s.reg.HasClient cl)
    (holds : P s) (write : Bool) (outs : List WriteOutcome) (reads : List ReadOutcome) :
    ReflTransGen (MoveIn lib P) s (clientCb lib cl write outs reads s) ∧
      P (clientCb lib cl write outs reads s) := by
  have leaves : ∀ {t}, Serves lib P cl s t →
      ReflTransGen (MoveIn lib P) s (handleClientDisconnect lib cl t) ∧
        P (handleClientDisconnect lib cl t) := fun served =>
    ⟨served.path.tail ⟨.disconnect served.has, served.holds⟩,
      lasting.disconnect cl (MoveIn.inv served.path inv) served.holds⟩
  have drained : Serves lib P cl s (txDrain lib cl outs s).1 := txDrain_serves lasting has holds outs
  unfold clientCb
  rcases result : txDrain lib cl outs s with ⟨t, _ | _⟩
  · rw [result] at drained
    have inv' := MoveIn.inv drained.path inv
    have processed : Serves lib P cl t (if write then processQueued lib cl t else t) := by
      split
      · exact processQueued_serves lasting inv' drained.has drained.holds
      · exact Serves.refl drained.has drained.holds
    have served := drained.trans (processed.trans (recvLoop_serves lasting
      (MoveIn.inv processed.path inv') processed.has processed.holds reads))
    simp only
    rcases result' : recvLoop lib cl reads (if write then processQueued lib cl t else t) with
      ⟨u, _ | _⟩
    · rw [result'] at served
      obtain ⟨path, final⟩ :=
        endCb_moves lasting (MoveIn.inv served.path inv) served.has served.holds
      exact ⟨served.path.trans path, final⟩
    · rw [result'] at served
      exact leaves served
  · rw [result] at drained
    exact leaves drained

theorem step_movesIn (lasting : Lasting lib P) (inv : Inv lib [] s) (holds : P s) (input : Input)
    (begins : P { s with
      writes := input.writes, allocs := input.allocs, rnd := input.rnd, cause := .idle }) :
    ReflTransGen (MoveIn lib P) s (step lib s input) ∧ P (step lib s input) := by
  have inv' := (Move.begin input.writes input.allocs input.rnd).inv inv
  have first : MoveIn lib P s { s with
      writes := input.writes, allocs := input.allocs, rnd := input.rnd, cause := .idle } :=
    ⟨.begin input.writes input.allocs input.rnd, holds⟩
  unfold step act
  split
  · exact ⟨.head first (.single ⟨.connect _, begins⟩), lasting.connect _ begins⟩
  · split
    · rename_i has
      obtain ⟨path, final⟩ := clientCb_moves lasting ((Move.arrive has _ _).inv inv') has
        (lasting.arrive _ _ _ begins) _ _ _
      exact ⟨.head first (.head ⟨.arrive has _ _, begins⟩ path), final⟩
    · exact ⟨.single first, begins⟩
  · exact ⟨.head first (.single ⟨.aclLoad _ _ _, begins⟩), lasting.aclLoad _ _ _ inv' begins⟩

/-- **An input is handled by a sequence of moves.** -/
theorem step_moves (inv : Inv lib [] s) (input : Input) :
    ReflTransGen (Move lib) s (step lib s input) :=
  MoveIn.moves (step_movesIn (lasting_true lib) inv trivial input trivial).1

end Steps

/-! ### Runs -/

/-- The states that the daemon goes through. -/
def Reachable (lib : Libubox) (s : State) : Prop := ReflTransGen (Move lib) State.init s

theorem inv_init (lib : Libubox) : Inv lib [] State.init where
  good := good_init
  sockets := (nomatch ·, ·)
  connected := (nomatch ·, ·)
  monitors := ⟨List.nodup_nil, (nomatch ·, ·)⟩
  posts := ⟨(nomatch ·, ·), (nomatch ·, ·), (nomatch ·, ·), (nomatch ·, ·)⟩
  status := (nomatch ·, ·)
  custody := ⟨⟨List.nodup_nil, fun _ => rfl⟩, (nomatch ·, ·), (nomatch ·, ·), (nomatch ·, ·),
    fun _ => Linear.start (by rintro (_ | _) <;> rfl) fun _ => Nat.not_lt_zero _⟩
  trace := (nomatch ·, ·)
  fault := rfl

/-- **The invariant holds in every state that the daemon goes through.** -/
theorem Reachable.inv (reachable : Reachable lib s) : Inv lib [] s :=
  moves_inv reachable (inv_init lib)

/-- **Every run leads through such states.** -/
theorem moves_run (reachable : Reachable lib s) (inputs : List Input) :
    ReflTransGen (Move lib) s (run lib inputs s) := by
  induction inputs generalizing s with
  | nil => exact .refl
  | cons input rest ih =>
    have first := step_moves reachable.inv input
    exact first.trans (ih (reachable.trans first))

theorem reachable_run (lib : Libubox) (inputs : List Input) : Reachable lib (run lib inputs State.init) :=
  moves_run .refl inputs

end Ubus
