import BufferPool.Proofs.Desk.WarrantedCalls
import BufferPool.Proofs.Desk.Actions
import BufferPool.Proofs.Pool.LicensedOperations

/-!
# How actions consist of licensed steps

Four kinds of actions need a licence: calls that put a buffer into the free lane directly, setting a pool
up, calls that make a lease of a buffer, and calls that release one which is not one-shot. Every other
action gets along with what every operation may do.
-/

namespace BufferPool.Desk

open PoolM World

variable {L : Licence} {p : PoolId} {me : Thread} {w : World Desk}

theorem minor_client (w : World Desk) (d : Desk) : Minor w { w with client := d } :=
  minor_of_eq rfl rfl rfl rfl rfl

theorem licensed_modifyDesk (f : Desk → Desk) : Licensed L (modifyDesk f) :=
  .modify fun w => minor_client w (f w.client)

theorem licensed_done {act : DeskM Unit} (h : Licensed L act) : Licensed L (done act) := h.map _

theorem withPool_of_none {act : Pool → DeskM Reply} (hp : w.pool? p = none) :
    withPool p act w = .ok (.refused .noPool) w := by
  rw [withPool, PoolM.get_bind, hp]
  rfl

theorem withPool_of_some {act : Pool → DeskM Reply} {pool : Pool} (hp : w.pool? p = some pool) :
    withPool p act w = act pool w := by
  rw [withPool, PoolM.get_bind, hp]

theorem withHandle_of_none {operand : Operand} {act : Handle → DeskM Reply}
    (hf : w.client.find? operand = none) :
    withHandle operand act w = .ok (.refused .noHandle) w := by
  rw [withHandle, PoolM.get_bind, hf]
  rfl

theorem withHandle_of_some {operand : Operand} {act : Handle → DeskM Reply} {handle : Handle}
    (hf : w.client.find? operand = some handle) : withHandle operand act w = act handle w := by
  rw [withHandle, PoolM.get_bind, hf]

theorem licensed_withHandle {operand : Operand} {act : Handle → DeskM Reply}
    (h : ∀ handle, Licensed L (act handle)) : Licensed L (withHandle operand act) := by
  refine .get_bind fun w => ?_
  cases w.client.find? operand with
  | none => exact .pure _
  | some handle => exact h handle

theorem licensed_withPool {act : Pool → DeskM Reply} (h : ∀ pool, Licensed L (act pool)) :
    Licensed L (withPool p act) := by
  refine .get_bind fun w => ?_
  cases w.pool? p with
  | none => exact .pure _
  | some pool => exact h pool

theorem licensed_handOver (operand : Operand) (kept : Bool) (handle : Handle) :
    Licensed L (handOver operand kept handle) := by
  unfold handOver
  split
  · exact licensed_modifyDesk _
  · exact licensed_retain handle.buffer

theorem spares_handOver (operand : Operand) (kept : Bool) (handle : Handle) :
    Spares (handOver operand kept handle) := by
  unfold handOver
  split
  · exact .modify fun _ _ => rfl
  · exact spares_retain handle.buffer

/-- Handing a handle over never fails. -/
theorem handOver_eq_ok (operand : Operand) (kept : Bool) (handle : Handle) (w : World Desk) :
    handOver operand kept handle w = .ok () ((handOver operand kept handle).leaves w) := by
  unfold handOver
  split <;> rfl

theorem licensed_store (name : String) (handle : Handle) : Licensed L (store name handle) := by
  refine .get_bind fun w => (licensed_modifyDesk _).bind fun _ => ?_
  cases w.client.handles.lookup name with
  | none => exact .pure _
  | some old => exact licensed_drop old.buffer

theorem licensed_keep (into : Option String) (obtained : Option Handle) :
    Licensed L (keep into obtained) := by
  cases obtained with
  | none => exact .pure _
  | some handle =>
      refine .get_bind fun w => ?_
      cases into with
      | none => exact (licensed_drop handle.buffer).bind fun _ => .pure _
      | some name => exact (licensed_store name handle).bind fun _ => .pure _

/-- The call puts a buffer into the free lane directly, unless it is refused. -/
def Call.inserts : Call → Bool
  | .place _ (.insert .free) | .place _ (.move .full) | .obtain (.provideLeaseTo .free) .. => true
  | _ => false

theorem licensed_request {size : UInt64} {t : Thread} (request : Request) (hleast : L.least ≤ size)
    (hfills : request = .provideLeaseTo .free → L.fills p) :
    Licensed L (request.perform p size t) := by
  cases request with
  | allocate => exact Pool.licensed_allocate hleast
  | allocateWithin => exact Pool.licensed_allocateWithin hleast
  | find => exact Pool.licensed_find size t
  | provide => exact Pool.licensed_provide hleast
  | provideAcquired => exact Pool.licensed_provideAcquired hleast
  | provideTransient => exact (Pool.licensedFrom_provideTransient hleast).licensed
  | provideLease => exact Pool.licensed_provideLease hleast
  | provideFull => exact Pool.licensed_provideFull hleast
  | provideTransientFull => exact Pool.licensed_provideTransientFull hleast
  | provideLeaseTo lane => exact Pool.licensed_provideLeaseTo hleast fun hlane => hfills (hlane ▸ rfl)
  | take => exact Pool.licensed_find size t
  | takeRetrying retries => exact Pool.licensed_takeRetrying retries
  | takeDetached => exact Pool.licensed_takeDetached
  | takeToFull => exact Pool.licensed_takeToFull
  | obtainFull => exact Pool.licensed_obtainFull hleast
  | takeLeaseRetrying retries => exact Pool.licensed_takeLeaseRetrying retries
  | obtainLease => exact Pool.licensed_obtainLease hleast

/-- What is given back is released, to be kept or not. -/
def Giving.releases : Giving → Bool
  | .deallocate => false
  | .release _ | .giveBack _ => true

/-- The handle whose buffer the call releases. -/
def Call.released? (w : World Desk) : Call → Option Handle
  | .give operand _ giving => if giving.releases then w.client.find? operand else none
  | _ => none

theorem licensedSteps_give {handle : Handle} {giving : Giving}
    (hkeeps : giving.releases = true → Pool.Releasable L handle.buffer w) :
    LicensedSteps L w ((giving.perform p handle).leaves w) := by
  cases giving with
  | deallocate => exact Pool.licensed_deallocate w
  | release lane => exact (Pool.licensedFrom_release lane w (hkeeps rfl)).1
  | giveBack lane => exact (Pool.licensedFrom_giveBack lane w (hkeeps rfl)).1

/-- A handle is handed over and its buffer is given back, or nothing happens. -/
theorem leaves_give_call (operand : Operand) (kept : Bool) (giving : Giving) (me : Thread)
    (p : PoolId) (w : World Desk) :
    (∃ handle, w.client.find? operand = some handle ∧
      ((Call.give operand kept giving).perform me p).leaves w =
        (giving.perform p handle).leaves ((handOver operand kept handle).leaves w)) ∨
      ((Call.give operand kept giving).perform me p).leaves w = w := by
  cases hp : w.pool? p with
  | none => exact .inr (leaves_of_ok (withPool_of_none hp))
  | some pool =>
      cases hf : w.client.find? operand with
      | none => exact .inr (leaves_of_ok ((withPool_of_some hp).trans (withHandle_of_none hf)))
      | some handle =>
          refine .inl ⟨handle, rfl, ?_⟩
          rw [Call.perform, leaves, withPool_of_some hp, withHandle_of_some hf,
            bind_of_ok _ (handOver_eq_ok operand kept handle w)]
          exact leaves_map _ _ _

theorem licensed_place {operand : Operand} {handle : Handle} (placing : Placing)
    (hfills : (Call.place operand placing).inserts = true → L.fills p) :
    Licensed L (placing.perform p handle) := by
  cases placing with
  | insert lane => exact Pool.licensed_insert fun hlane => hfills (hlane ▸ rfl)
  | remove lane => exact Pool.licensed_remove lane
  | move source => exact Pool.licensed_move fun hsource => hfills (hsource ▸ rfl)

theorem licensed_pickNth (lane : Lane) (dir : Direction) (n : Nat) :
    Licensed L (pickNth p lane dir n) := by
  refine (licensed_readArena p _).bind fun entries => ?_
  cases entries[n]? with
  | none => exact .pure _
  | some entry => exact (licensed_retain _).bind fun _ => .pure _

/-- The licence covers the call. -/
structure Call.Permitted (L : Licence) (me : Thread) (p : PoolId) (w : World Desk) (call : Call) :
    Prop where
  keeps : ∀ h, call.released? w = some h → Pool.Releasable L h.buffer w
  inserts : call.inserts = true → L.fills p
  builds : ∀ config debug, call = .build config debug → L.fills w.pools.size ∧ L.least = 0
  requests : ∀ request size t into, call = .obtain request size t into → L.least ≤ size
  marks : ∀ b acts, call.work? me w = some (b, acts) → b < w.cells.size →
    acts.any Buffer.Act.marksLease = true → L.marks ∨ (w.buffer b).transient = true

theorem licensedSteps_work {call : Call} (hc : call.Permitted L me p w) :
    LicensedSteps L w ((call.work? me w).elim w fun work => w.work work.1 work.2) := by
  cases hwork : call.work? me w with
  | none => exact .refl
  | some work => exact .single (.work (hc.marks _ _ hwork))

/-- Whatever is called, on any thread and for any pool, consists of licensed steps. -/
theorem licensedSteps_call {call : Call} (hc : call.Permitted L me p w) :
    LicensedSteps L w ((call.perform me p).leaves w) := by
  have hthen : ∀ {act : DeskM Unit} {reply : Reply}, Licensed L act →
      Licensed L (do act; return reply) := fun hact => hact.bind fun _ => .pure _
  cases call with
  | clone operand into =>
      exact licensed_withHandle (fun handle => (licensed_retain handle.buffer).bind fun _ =>
        licensed_done (licensed_store into handle)) w
  | discard operand =>
      cases operand with
      | visited => exact .refl
      | named name =>
          refine Licensed.get_bind (fun w => ?_) w
          cases w.client.find? (.named name) with
          | none => exact .pure _
          | some handle =>
              exact (licensed_handOver (.named name) false handle).bind fun _ =>
                hthen (licensed_drop handle.buffer)
  | same left right => exact licensed_withHandle (fun _ => licensed_withHandle fun _ => .pure _) w
  | onBuffer operand call =>
      rw [leaves_onBuffer_call]
      exact licensedSteps_work hc
  | carryOver old new used requested =>
      rw [leaves_carryOver_call]
      exact licensedSteps_work hc
  | allowBuffers allowance => exact licensedSteps_minor (minor_of_eq rfl rfl rfl rfl rfl)
  | stop => exact hthen (licensed_modifyDesk _) w
  | build config debug =>
      obtain ⟨hfills, hleast⟩ := hc.builds config debug rfl
      have hbuilt : LicensedFrom L (· = w) (Pool.build config) fun _ _ => True := by
        rintro _ rfl
        exact ⟨Pool.licensedSteps_build config hfills hleast, fun _ _ _ => trivial⟩
      have hreply : LicensedFrom L (· = w) ((Call.build config debug).perform me p) fun _ _ => True :=
        hbuilt.bind fun built => by cases built <;> exact .of_licensed (.pure _)
      exact (hreply w rfl).1
  | close =>
      refine Licensed.get_bind (fun w => ?_) w
      split_ifs
      · exact hthen Pool.licensed_close
      · exact .pure _
  | allowRequests allowance =>
      exact licensed_withPool (fun _ => hthen (licensed_modifyPool p _ (by intro; rfl))) w
  | obtain request size t into =>
      refine licensed_withPool (fun _ => Licensed.bind ?_ (licensed_keep into)) w
      refine licensed_request request (hc.requests request size t into rfl) ?_
      rintro rfl
      exact hc.inserts rfl
  | pick lane dir n into =>
      exact licensed_withPool (fun _ => (licensed_pickNth lane dir n).bind (licensed_keep into)) w
  | give operand kept giving =>
      rcases leaves_give_call operand kept giving me p w with ⟨handle, hf, hleaves⟩ | hleaves
      · rw [hleaves]
        refine (licensed_handOver operand kept handle w).trans (licensedSteps_give fun hreleases => ?_)
        refine Pool.Releasable.of_buffer (hc.keeps handle ?_)
          ((spares_handOver operand kept handle).buffer_leaves w handle.buffer)
        rw [Call.released?, if_pos hreleases, hf]
      · rw [hleaves]
  | place operand placing =>
      exact licensed_withPool (fun _ => licensed_withHandle fun _ =>
        licensed_done (licensed_place placing hc.inserts)) w
  | inLane operand lane =>
      exact licensed_withPool (fun _ => licensed_withHandle fun _ =>
        (Pool.licensed_inLane lane).map _) w
  | counts | debugSection | query | debugPool => exact licensed_withPool (fun _ => .pure _) w
  | list lane dir => exact licensed_withPool (fun _ => .get_bind fun _ => .pure _) w
  | sweep lane route dir maker passes =>
      exact licensed_withPool (fun _ => (Sweep.licensed_passes route dir passes _).map _) w

namespace Action

/-- The action is a call to put a buffer into the free lane of the pool directly, which may be refused. -/
def mayInsertInto (p : PoolId) : Action → Bool
  | .call _ q request => q == p && request.inserts
  | _ => false

/-- The action sets a pool up. -/
def builds : Action → Bool
  | .call _ _ (.build ..) => true
  | _ => false

/-- The handle whose buffer the action releases. What a sweep releases is one-shot anyway. -/
def released? (w : World Desk) : Action → Option Handle
  | .call _ _ request => request.released? w
  | _ => none

/-- The size of the buffer that is requested, if one is. -/
def requested? : Action → Option UInt64
  | .call _ _ (.obtain _ size ..) => some size
  | .make _ requested => some requested
  | _ => none

/-- The buffer that the action makes a lease of by a call on just that buffer. -/
def leases? (w : World Desk) : Action → Option BufferId
  | .call _ _ (.onBuffer operand .markLease) => (w.client.find? operand).map Handle.buffer
  | _ => none

/-- The licence covers the action. -/
structure Permitted (L : Licence) (w : World Desk) (action : Action) : Prop where
  keeps : ∀ h, action.released? w = some h → Pool.Releasable L h.buffer w
  fills : ∀ p, action.mayInsertInto p = true → L.fills p
  builds : action.builds = true → L.fills w.pools.size ∧ L.least = 0
  requests : ∀ size, action.requested? = some size → L.least ≤ size
  marks : w.profile = .unchecked → ∀ b, action.leases? w = some b → b < w.cells.size →
    L.marks ∨ (w.buffer b).transient = true

/-- In the checked profile a call on a buffer makes a lease of a one-shot buffer only. -/
theorem transient_of_acts {b : Buffer} {call : BufferCall}
    (hmarks : (call.acts me w.profile b).any Buffer.Act.marksLease = true) :
    call = .markLease ∧ (w.profile = .unchecked ∨ b.transient = true) := by
  cases call with
  | markLease =>
      refine ⟨rfl, ?_⟩
      rw [BufferCall.acts] at hmarks
      split_ifs at hmarks with hrefused
      · exact nomatch hmarks
      · cases hprofile : w.profile with
        | unchecked => exact .inl rfl
        | checked => exact .inr (Bool.eq_true_of_not_eq_false fun hno => hrefused ⟨hprofile, hno⟩)
  | write | stage =>
      rw [BufferCall.acts] at hmarks
      split_ifs at hmarks <;> exact absurd hmarks Bool.false_ne_true
  | _ => exact nomatch hmarks

/-- What a call does to a buffer makes a lease of it only when the call asks for that. -/
theorem eq_markLease_of_work? {call : Call} {acts : List Buffer.Act}
    (hwork : call.work? me w = some (b, acts))
    (hmarks : acts.any Buffer.Act.marksLease = true) :
    ∃ operand handle, call = .onBuffer operand .markLease ∧ w.client.find? operand = some handle ∧
      handle.buffer = b ∧ (w.profile = .unchecked ∨ (w.buffer b).transient = true) := by
  cases call with
  | onBuffer operand call =>
      obtain ⟨handle, hf, hwork⟩ := Option.bind_eq_some_iff.1 hwork
      obtain ⟨rfl, rfl⟩ := Prod.mk.inj (Option.some.inj hwork)
      obtain ⟨rfl, hone⟩ := transient_of_acts hmarks
      exact ⟨operand, handle, rfl, hf, rfl, hone⟩
  | carryOver old new used requested =>
      obtain ⟨source, -, hwork⟩ := Option.bind_eq_some_iff.1 hwork
      obtain ⟨target, -, hwork⟩ := Option.bind_eq_some_iff.1 hwork
      obtain ⟨rfl, rfl⟩ := Prod.mk.inj (Option.some.inj hwork)
      split_ifs at hmarks <;> exact absurd hmarks Bool.false_ne_true
  | _ => exact nomatch hwork

theorem Permitted.call {call : Call} (h : Permitted L w (.call me p call)) :
    call.Permitted L me p w where
  keeps := h.keeps
  inserts hinserts := h.fills p (by rw [mayInsertInto, beq_self_eq_true, Bool.true_and, hinserts])
  builds config debug hcall := h.builds (hcall ▸ rfl)
  requests request size t into hcall := h.requests size (hcall ▸ rfl)
  marks b acts hwork hb hmarks := by
    obtain ⟨operand, handle, rfl, hf, rfl, hprofile | htransient⟩ :=
      eq_markLease_of_work? hwork hmarks
    · exact h.marks hprofile handle.buffer (congrArg (Option.map Handle.buffer) hf) hb
    · exact .inr htransient

theorem minor_letGoAt (place : Nat) (w : World Desk) : Minor w (letGoAt place w) :=
  (minor_dropAll w _).trans (minor_held _ _)

theorem minor_leaveVisit (w : World Desk) : Minor w (Desk.leaveVisit w) := by
  unfold Desk.leaveVisit
  cases w.client.present with
  | none => exact .refl w
  | some visit => exact (minor_client w _).trans (minor_drop _ _)

theorem minor_leaveSuspended (w : World Desk) : Minor w (Desk.leaveSuspended w) :=
  (minor_client w _).trans (minor_dropAll _ _)

/-- Whoever takes an action, it consists of licensed steps. -/
theorem licensedSteps {action : Action} (h : action.Permitted L w) :
    LicensedSteps L w (action.perform.leaves w) := by
  cases action with
  | call me p call => exact licensedSteps_call h.call
  | capture p lane dir => exact (Pool.licensed_capture lane dir).map _ w
  | hold operand =>
      exact licensed_withHandle (fun handle => licensed_done (.modify fun w => minor_hold w _)) w
  | letGo place => exact licensed_done (.modify (minor_letGoAt place)) w
  | sweep me s handle => exact Sweep.licensed_visit.map _ w
  | enterVisit handle =>
      exact licensed_done ((licensed_retain handle.buffer).bind fun _ => licensed_modifyDesk _) w
  | leaveVisit => exact licensed_done (.modify minor_leaveVisit) w
  | suspend => exact licensed_done (licensed_modifyDesk _) w
  | resume => exact licensed_done (licensed_modifyDesk _) w
  | leaveSuspended => exact licensed_done (.modify minor_leaveSuspended) w
  | note p n => exact licensed_done (licensed_note p n) w
  | trace replies => exact licensed_done (licensed_modifyDesk _) w
  | reclaim p => exact licensed_done Pool.licensed_reclaim w
  | make p requested => exact (Pool.licensed_make (h.requests requested rfl)).map _ w
  | enroll p b name =>
      exact licensed_done (Pool.licensed_enroll.bind fun handle => licensed_store name handle) w

end Action

end BufferPool.Desk
