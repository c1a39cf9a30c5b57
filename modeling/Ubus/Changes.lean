/-
**What a move of the daemon does to the registry.**

* `Registry.Change`: the kinds of change, each with what it leaves alone.
* `Reachable.owned`: an object with a type belongs to a client, for the system objects have none.
-/

import Ubus.Untouched

namespace Ubus

open Lib Relation

/-- **A change of the registry.** -/
inductive Registry.Change (lib : Libubox) (reg : Registry) : Registry → Prop where
  | same : Registry.Change lib reg reg
  /-- A client comes. -/
  | connect {clients : AvlTree UInt32} {client : Nat → Client} {brk : Nat}
      (kept : ∀ cl, reg.HasClient cl → clients.Has cl ∧ client cl = reg.client cl)
      (known : ∀ cl, clients.Has cl → reg.HasClient cl ∨ cl = reg.brk) (grows : reg.brk ≤ brk) :
      Registry.Change lib reg { reg with clients, client, brk }
  | message {cl : Nat} {reg' : Registry} (known : reg.HasClient cl)
      (effect : Effect lib cl reg reg') : Registry.Change lib reg reg'
  | disconnect {cl : Nat} (known : reg.HasClient cl) : Registry.Change lib reg (reg.disconnect cl)
  | acl (acl : AclState) : Registry.Change lib reg { reg with acl }

section Moves

variable {lib : Libubox} {cl ub : Nat} {s s' : State}

/-! ### Connections -/

theorem mails_hello (lib : Libubox) (cl : Nat) (s : State) :
    Mails s.reg s (ubusdSendHello lib cl s).2 := by
  have made := mails_new (.built []) true s
  unfold ubusdSendHello
  rcases result : ubusMsgNew (.built []) true s with ⟨_ | new, t⟩
  · rw [result] at made
    exact made
  rw [result] at made
  have filled := made.andThen (Mails.of_sock rfl rfl rfl : Mails t.reg t (t.mapHdr new fun _ =>
    { type := MsgType.hello.code, peer := (t.reg.client cl).id }))
  exact (filled.andThen (mails_send lib cl new _)).andThen (mails_free new _)

theorem initRetmsg_reg (cl : Nat) (s : State) : (ubusdProtoInitRetmsg cl s).2.reg = s.reg := by
  have made := mails_new (.built [.int32 .status 0]) true s
  unfold ubusdProtoInitRetmsg
  rcases result : ubusMsgNew (.built [.int32 .status 0]) true s with ⟨_ | new, t⟩
  · rw [result] at made
    exact made.reg
  · rw [result] at made
    exact made.reg

theorem greetClient_reg (lib : Libubox) (cl : Nat) (s : State) : (greetClient lib cl s).reg = s.reg ∨
    (greetClient lib cl s).reg = { s.reg with clients := s.reg.clients.delete cl } := by
  have init := initRetmsg_reg cl s
  unfold greetClient
  rcases result : ubusdProtoInitRetmsg cl s with ⟨_ | _, t⟩
  · rw [result] at init
    refine Or.inr ?_
    rw [← init]
    rfl
  · rw [result] at init
    have hello := (mails_hello lib cl t).reg
    simp only
    rcases sent : ubusdSendHello lib cl t with ⟨_ | _, u⟩
    · rw [sent] at hello
      have freed : (freeRetmsg cl u).reg = u.reg := (clears_freeRetmsg u).reg
      refine Or.inr ?_
      rw [← init, ← hello, ← freed]
      rfl
    · rw [sent] at hello
      exact Or.inl (hello.trans init)

theorem change_newClient (inv : Inv lib [] s) (cred : Option Cred) : Registry.Change lib s.reg
    (ubusdProtoNewClient lib cred { s with cause := .connect s.reg.brk }).reg := by
  cases cred with
  | none => exact .same
  | some cred =>
    unfold ubusdProtoNewClient
    simp only
    rcases alloc : ubusAllocId s.reg.clients s.reg.brk s.rnd with ⟨_ | ⟨id, clients⟩, rnd⟩
    · exact .same
    obtain ⟨-, rfl, -⟩ := ubusAllocId_some alloc
    simp only
    generalize started : admitClient id _ cred _ = t
    have reg : t.reg = { s.reg with
        clients := s.reg.clients.insert id s.reg.brk
        client := Function.update s.reg.client s.reg.brk { id, cred }
        brk := s.reg.brk + 1 } := by
      rw [← started]
      rfl
    have old : ∀ cl, s.reg.HasClient cl → cl ≠ s.reg.brk := fun cl has =>
      ne_of_lt (inv.good.clients.lt_of_has has)
    have client : ∀ cl, s.reg.HasClient cl →
        Function.update s.reg.client s.reg.brk { id, cred } cl = s.reg.client cl := fun cl has =>
      Function.update_of_ne (old cl has) ..
    rcases greetClient_reg lib s.reg.brk t with same | gone
    · rw [same, reg]
      exact .connect (fun cl has => ⟨AvlTree.has_insert.mpr (Or.inr has), client cl has⟩)
        (fun cl has => (AvlTree.has_insert.mp has).symm) (Nat.le_succ _)
    · rw [gone, reg]
      exact .connect (fun cl has => ⟨AvlTree.has_delete.mpr
          ⟨AvlTree.has_insert.mpr (Or.inr has), old cl has⟩, client cl has⟩)
        (fun cl has => (AvlTree.has_insert.mp (AvlTree.has_delete.mp has).1).symm) (Nat.le_succ _)

/-! ### Messages -/

theorem effect_resumeCmd (lib : Libubox) (cl : Nat) (cmd : ClientCmd) (s : State) :
    Effect lib cl s.reg (resumeCmd lib cl cmd s).1.reg := by
  unfold resumeCmd ubusdCmdLookup
  simp only
  generalize resumed : ({ s with cause := .resume cl cmd.msg (s.buf cmd.msg).hdr (s.buf cmd.msg).data }
    : State) = t
  have reg : t.reg = s.reg := resumed ▸ rfl
  rw [← reg]
  obtain ⟨v, acts, ending⟩ : ∃ v, Acts lib Nothing t.reg t v ∧ Ending lib cl cmd.msg False False v _ :=
    performs_handleLookup (ubusParseMsg lib (t.buf cmd.msg).data) (some cmd) t
  have looked := ending.same.trans acts.reg
  generalize handleLookup lib cl cmd.msg _ _ t = result at looked ⊢
  obtain ⟨_ | _ | _, u⟩ := result
  · rename_i status
    simp only
    rw [(clears_cmdFree _ cmd).reg, (mails_sendStatus lib cl _ status).reg, (mails_setRetmsg cl cmd.msg u).reg]
    exact looked ▸ .same
  · simp only
    rw [(clears_cmdFree _ cmd).reg]
    exact looked ▸ .same
  · exact looked ▸ .same

theorem effect_acceptMessage (lib : Libubox) (cl ub : Nat) (s : State) :
    Effect lib cl s.reg (acceptMessage lib cl ub s).reg := by
  have told := (mails_monitorMessage lib cl ub false (takeMessage cl ub s)).reg
  have effect := (deals_receiveMessage lib cl ub
    (ubusdMonitorMessage lib cl ub false (takeMessage cl ub s))).effect
  rw [told] at effect
  exact effect

theorem change_recvBody (known : s.reg.HasClient cl) (out : ReadOutcome) :
    Registry.Change lib s.reg (recvBody lib cl ub out s).2.reg := by
  obtain same | ⟨count, ⟨-, same⟩ | ⟨-, same⟩ | ⟨-, same⟩⟩ := recvBody_cases lib cl ub out s <;>
    rw [same]
  · exact .same
  · exact .same
  · exact .same
  · exact .message known (effect_acceptMessage lib cl ub (gotBody lib cl ub count s))

theorem change_aclLoad (lib : Libubox) (host : Host) (dir : Directory) (fault : Bool) (s : State) :
    Registry.Change lib s.reg (aclLoadAndAnnounce lib host dir fault s).reg := by
  unfold aclLoadAndAnnounce
  simp only
  split
  · exact .same
  · rw [(mails_sendEvent lib none _ _ _).reg]
    exact .acl _

/-- **A move of the daemon changes the registry in one of these ways.** -/
theorem Move.change (move : Move lib s s') (inv : Inv lib [] s) :
    Registry.Change lib s.reg s'.reg := by
  cases move with
  | begin writes allocs rnd => exact .same
  | connect cred => exact change_newClient inv cred
  | arrive known bytes hup => exact .same
  | write known first out =>
    rw [txWrite_reg]
    exact .same
  | resume known first => exact .message known (effect_resumeCmd lib _ _ s)
  | quiet known => exact .same
  | header known empty opened room out =>
    rw [recvHeader_reg]
    exact .same
  | body known pending out => exact change_recvBody known out
  | accept known pending complete => exact .message known (effect_acceptMessage lib _ _ s)
  | disconnect known =>
    rw [(apart_disconnect lib s).2]
    exact .disconnect known
  | aclLoad host dir fault => exact change_aclLoad lib host dir fault s

/-! ### Clients that are gone -/

theorem Registry.disconnect_grows (cl : Nat) (reg : Registry) : reg.brk ≤ (reg.disconnect cl).brk ∧
    ∀ other, (reg.disconnect cl).HasClient other → reg.HasClient other := by
  have grows : reg.Grows ((reg.client cl).objects.foldl (fun reg obj => reg.freeObject obj) reg) :=
    .foldl (fun reg obj => .freeObject obj reg) _ reg
  refine ⟨grows.brk, fun other has => ?_⟩
  have kept := (AvlTree.has_delete.mp has).1
  rw [grows.clients] at kept
  exact kept

theorem Registry.Change.clients {reg reg' : Registry} (change : reg.Change lib reg') :
    reg.brk ≤ reg'.brk ∧ ∀ cl, reg'.HasClient cl → reg.HasClient cl ∨ cl = reg.brk := by
  cases change with
  | same => exact ⟨le_rfl, fun cl has => Or.inl has⟩
  | connect kept known grows => exact ⟨grows, known⟩
  | message known effect =>
    refine ⟨effect.grows.brk, fun cl has => Or.inl ?_⟩
    rw [Registry.HasClient, ← effect.grows.clients]
    exact has
  | disconnect known =>
    obtain ⟨brk, has⟩ := Registry.disconnect_grows _ reg
    exact ⟨brk, fun cl has' => Or.inl (has cl has')⟩
  | acl acl => exact ⟨le_rfl, fun cl has => Or.inl has⟩

/-- **A client that is gone does not come back**: addresses are not used twice. -/
theorem moves_clients (reachable : Reachable lib s) (moves : ReflTransGen (Move lib) s s') :
    s.reg.brk ≤ s'.reg.brk ∧ ∀ cl < s.reg.brk, s'.reg.HasClient cl → s.reg.HasClient cl := by
  induction moves with
  | refl => exact ⟨le_rfl, fun cl old has => has⟩
  | @tail t u before move ih =>
    obtain ⟨brk, known⟩ := (move.change (Reachable.inv (reachable.trans before))).clients
    refine ⟨ih.1.trans brk, fun cl old has => ?_⟩
    rcases known cl has with has | rfl
    · exact ih.2 cl old has
    · exact absurd ih.1 old.not_ge

/-! ### Objects and their owners -/

/-- An object with a type belongs to a client. -/
def Registry.Owned (reg : Registry) : Prop :=
  ∀ obj, reg.HasObject obj → (reg.object obj).type ≠ none → (reg.object obj).client ≠ none

/-- The system objects are there, without an owner and without a type. -/
def Registry.Systems (reg : Registry) : Prop :=
  ∀ recv : RecvMsg, ∃ obj, reg.HasObject obj ∧ (reg.object obj).id = recv.id ∧
    (reg.object obj).client = none ∧ (reg.object obj).type = none

theorem Registry.Systems.owned {reg : Registry} (systems : reg.Systems) (good : reg.Ok) :
    reg.Owned := by
  intro obj has typed ownerless
  rcases good.owners.unowned obj has ownerless with ⟨recv, -, id⟩ | wip
  · obtain ⟨system, has', id', -, untyped⟩ := systems recv
    have member := good.objects.mem_iff.mpr ⟨has, id⟩
    have member' := good.objects.mem_iff.mpr ⟨has', id'⟩
    have same : obj = system := good.objects.unique.eq_of_key member member'
    exact typed (same ▸ untyped)
  · cases wip

theorem Registry.Change.systems {reg reg' : Registry} (change : reg.Change lib reg') (good : reg.Ok)
    (good' : reg'.Ok) (systems : reg.Systems) : reg'.Systems := by
  have of_same : ∀ {cl : Nat}, Untouched cl reg reg' → reg'.Systems := by
    intro cl untouched recv
    obtain ⟨obj, has, id, ownerless, untyped⟩ := systems recv
    obtain ⟨same, -⟩ := untouched.object obj has (by rw [ownerless]; exact nofun)
    refine ⟨obj, same.live, ?_, ?_, ?_⟩ <;> rw [same.same] <;> assumption
  cases change with
  | same => exact systems
  | connect kept known grows => exact systems
  | message known effect => exact of_same (effect.untouched good good')
  | disconnect known => exact of_same (disconnect_untouched good good' known)
  | acl acl => exact systems

theorem systems_init : Registry.init.Systems := by
  intro recv
  cases recv with
  | event => exact ⟨0, by decide, by decide, rfl, rfl⟩
  | acl => exact ⟨1, by decide, by decide, rfl, rfl⟩
  | monitor => exact ⟨2, by decide, by decide, rfl, rfl⟩

theorem Reachable.systems (reachable : Reachable lib s) : s.reg.Systems := by
  induction reachable with
  | refl => exact systems_init
  | @tail t u before move ih =>
    have inv : Inv lib [] t := Reachable.inv before
    exact (move.change inv).systems inv.good (move.inv inv).good ih

theorem Reachable.owned (reachable : Reachable lib s) : s.reg.Owned :=
  reachable.systems.owned reachable.inv.good

/-- **The system objects stay.** In every state the event, the ACL and the monitor object are found
under their ids, with their handlers and without an owner; and every other object has one. -/
theorem system_objects_stay (reachable : Reachable lib s) :
    (∀ recv : RecvMsg, ∃ obj, ubusdFindObject s.reg recv.id = some obj ∧
      (s.reg.object obj).client = none ∧ (s.reg.object obj).recvMsg = some recv) ∧
    ∀ obj, s.reg.HasObject obj → (s.reg.object obj).client = none →
      ∃ recv : RecvMsg, ubusdFindObject s.reg recv.id = some obj := by
  have good := reachable.inv.good
  have unowned : ∀ obj, s.reg.HasObject obj → (s.reg.object obj).client = none →
      ∃ recv, (s.reg.object obj).recvMsg = some recv ∧ (s.reg.object obj).id = recv.id :=
    fun obj has ownerless => (good.owners.unowned obj has ownerless).resolve_right nofun
  refine ⟨fun recv => ?_, fun obj has ownerless => ?_⟩
  · obtain ⟨obj, has, id, ownerless, -⟩ := reachable.systems recv
    obtain ⟨other, handler, id'⟩ := unowned obj has ownerless
    have same : other = recv := by
      rw [id] at id'
      revert id'
      cases other <;> cases recv <;> decide
    exact ⟨obj, good.objects.find_iff.mpr ⟨has, id⟩, ownerless, same ▸ handler⟩
  · obtain ⟨recv, -, id⟩ := unowned obj has ownerless
    exact ⟨recv, good.objects.find_iff.mpr ⟨has, id⟩⟩

theorem system_objects_stay_add : (run Blob.libubox addRun State.init).reg.HasObject 4 ∧ ∃ obj,
    ubusdFindObject (run Blob.libubox addRun State.init).reg ubusSystemObjectAcl = some obj ∧
      ((run Blob.libubox addRun State.init).reg.object obj).recvMsg = some .acl := by
  obtain ⟨obj, found, -, handler⟩ := (system_objects_stay (reachable_run Blob.libubox addRun)).1 .acl
  exact ⟨by decide +kernel, obj, found, handler⟩

end Moves

end Ubus
