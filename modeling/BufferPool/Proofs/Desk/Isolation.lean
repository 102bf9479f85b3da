import BufferPool.Proofs.Desk.LicensedActions
import BufferPool.Proofs.Pool.Discarding
import BufferPool.Proofs.Pool.Isolation

/-!
# Pools are isolated

Whatever is called for one pool, nothing changes that can be seen of another: neither its slots and
lanes, nor the places of its buffers, nor what is allocated, nor what it has told. The exception is a
traversal whose visitor does something to the other pool. A handle of the other pool is refused, also
when its key happens to be registered, and then the pool that has refused it is as it was, too.
-/

namespace BufferPool.Desk

open PoolM World

variable {p q : PoolId} {h : Handle} {w : World Desk}

theorem skirts_modifyDesk (f : Desk → Desk) : Skirts q (modifyDesk f) := .modify fun _ => rfl

theorem skirts_done {act : DeskM Unit} (h : Skirts q act) : Skirts q (done act) := h.map _

theorem skirts_withHandle {operand : Operand} {act : Handle → DeskM Reply}
    (h : ∀ handle, Skirts q (act handle)) : Skirts q (withHandle operand act) := by
  apply Skirts.get.bind
  intro w
  cases w.client.find? operand with
  | none => exact .pure _
  | some handle => exact h handle

theorem skirts_withPool {act : Pool → DeskM Reply} (h : ∀ pool, Skirts q (act pool)) :
    Skirts q (withPool p act) := by
  apply Skirts.get.bind
  intro w
  cases w.pool? p with
  | none => exact .pure _
  | some pool => exact h pool

theorem skirts_handOver (operand : Operand) (kept : Bool) (handle : Handle) :
    Skirts q (handOver operand kept handle) := by
  unfold handOver
  split
  · exact skirts_modifyDesk _
  · exact skirts_retain handle.buffer

theorem skirts_store (name : String) (handle : Handle) : Skirts q (store name handle) := by
  apply Skirts.get.bind
  intro w
  apply (skirts_modifyDesk _).bind
  intro _
  cases w.client.handles.lookup name with
  | none => exact .pure _
  | some old => exact skirts_drop old.buffer

theorem skirts_keep (into : Option String) (obtained : Option Handle) :
    Skirts q (keep into obtained) := by
  cases obtained with
  | none => exact .pure _
  | some handle =>
      apply Skirts.get.bind
      intro w
      cases into with
      | none => exact (skirts_drop handle.buffer).bind fun _ => .pure _
      | some name => exact (skirts_store name handle).bind fun _ => .pure _

section Others

variable (hne : p ≠ q)
include hne

theorem skirts_request (size : UInt64) (t : Thread) (request : Request) :
    Skirts q (request.perform p size t) := by
  cases request with
  | allocate => exact Pool.skirts_allocate hne size
  | allocateWithin => exact Pool.skirts_allocateWithin hne size
  | find => exact Pool.skirts_find hne size t
  | provide => exact Pool.skirts_provide hne size
  | provideAcquired => exact Pool.skirts_provideAcquired hne size t
  | provideTransient => exact Pool.skirts_provideTransient hne size t
  | provideLease => exact Pool.skirts_provideLease hne size t
  | provideFull => exact Pool.skirts_provideFull hne size t
  | provideTransientFull => exact Pool.skirts_provideTransientFull hne size t
  | provideLeaseTo lane => exact Pool.skirts_provideLeaseTo hne lane size t
  | take => exact Pool.skirts_find hne size t
  | takeRetrying retries => exact Pool.skirts_takeRetrying hne size retries t
  | takeDetached => exact Pool.skirts_takeDetached hne size t
  | takeToFull => exact Pool.skirts_takeToFull hne size t
  | obtainFull => exact Pool.skirts_obtainFull hne size t
  | takeLeaseRetrying retries => exact Pool.skirts_takeLeaseRetrying hne size retries t
  | obtainLease => exact Pool.skirts_obtainLease hne size t

theorem skirts_give (handle : Handle) (giving : Giving) : Skirts q (giving.perform p handle) := by
  cases giving with
  | deallocate => exact Pool.skirts_deallocate hne handle
  | release lane => exact Pool.skirts_release hne lane handle
  | giveBack lane => exact Pool.skirts_giveBack hne lane handle

theorem skirts_place (handle : Handle) (placing : Placing) : Skirts q (placing.perform p handle) := by
  cases placing with
  | insert lane => exact Pool.skirts_insert hne lane handle
  | remove lane => exact Pool.skirts_remove hne lane handle
  | move source => exact Pool.skirts_move hne source handle

theorem skirts_pickNth (lane : Lane) (dir : Direction) (n : Nat) :
    Skirts q (pickNth p lane dir n) := by
  apply (skirts_readArena hne _).bind
  intro entries
  cases entries[n]? with
  | none => exact .pure _
  | some entry => exact (skirts_retain entry.2).bind fun _ => .pure _

/-- Whatever is called for one pool, nothing changes that can be seen of another. -/
theorem sight_call (hq : q < w.pools.size) (me : Thread) (call : Call) :
    ((call.perform me p).leaves w).sight q = w.sight q := by
  have hwork : ∀ work : Option (BufferId × List Buffer.Act),
      (work.elim w fun work => w.work work.1 work.2).sight q = w.sight q := by
    rintro (_ | ⟨b, acts⟩)
    · rfl
    · exact sight_modifyBuffer w b (·.perform acts)
  cases call with
  | clone operand into =>
      exact (skirts_withHandle fun handle => (skirts_retain handle.buffer).bind fun _ =>
        skirts_done (skirts_store into handle)).sight_leaves w
  | discard operand =>
      cases operand with
      | visited => rfl
      | named name =>
          refine Skirts.sight_leaves (Skirts.get.bind fun w => ?_) w
          cases w.client.find? (.named name) with
          | none => exact .pure _
          | some handle =>
              exact (skirts_handOver _ _ handle).bind fun _ => (skirts_drop handle.buffer).bind
                fun _ => .pure _
  | same left right =>
      exact (skirts_withHandle fun _ => skirts_withHandle fun _ => .pure _).sight_leaves w
  | onBuffer operand call =>
      rw [leaves_onBuffer_call]
      exact hwork _
  | carryOver old new used requested =>
      rw [leaves_carryOver_call]
      exact hwork _
  | allowBuffers allowance => rfl
  | stop => rfl
  | build config debug =>
      have hreply : ((Call.build config debug).perform me p).leaves w =
          (Pool.build config).leaves w := by
        rw [Call.perform, leaves]
        cases hr : Pool.build config w with
        | ok built w' =>
            rw [bind_of_ok _ hr, leaves_of_ok hr]
            cases built <;> rfl
        | error fault w' => rw [bind_of_error _ hr, leaves_of_error hr]
      rw [hreply]
      exact Pool.sight_build config hq
  | close =>
      refine Skirts.sight_leaves (Skirts.get.bind fun w => ?_) w
      split_ifs
      · exact (Pool.skirts_close hne).bind fun _ => .pure _
      · exact .pure _
  | allowRequests allowance =>
      exact (skirts_withPool fun _ => (skirts_modifyPool hne _).bind fun _ => .pure _).sight_leaves w
  | obtain request size t into =>
      exact (skirts_withPool fun _ => (skirts_request hne size _ request).bind
        (skirts_keep into)).sight_leaves w
  | pick lane dir n into =>
      exact (skirts_withPool fun _ => (skirts_pickNth hne lane dir n).bind
        (skirts_keep into)).sight_leaves w
  | give operand kept giving =>
      exact (skirts_withPool fun _ => skirts_withHandle fun handle =>
        (skirts_handOver operand kept handle).bind fun _ =>
          skirts_done (skirts_give hne handle giving)).sight_leaves w
  | place operand placing =>
      exact (skirts_withPool fun _ => skirts_withHandle fun handle =>
        skirts_done (skirts_place hne handle placing)).sight_leaves w
  | inLane operand lane =>
      exact (skirts_withPool fun _ => skirts_withHandle fun handle =>
        (Pool.skirts_inLane p lane handle).map _).sight_leaves w
  | counts | debugSection | query | debugPool =>
      exact (skirts_withPool fun _ => .pure _).sight_leaves w
  | list lane dir => exact (skirts_withPool fun _ => Skirts.get.bind fun _ => .pure _).sight_leaves w
  | sweep lane route dir maker passes =>
      exact (skirts_withPool fun _ => (Sweep.skirts_passes (s := ⟨p, lane, maker.getD me, 0⟩) hne
        route dir passes).map _).sight_leaves w

end Others

/-- The pool for which an action is taken. -/
def Action.names? : Action → Option PoolId
  | .call _ p _ | .capture p .. | .note p _ | .reclaim p | .make p _ | .enroll p .. => some p
  | .sweep _ s _ => some s.pool
  | .hold _ | .letGo _ | .enterVisit _ | .leaveVisit | .suspend | .resume | .leaveSuspended
  | .trace _ => none

theorem Action.sight_leaves {action : Action} (haction : action.names? ≠ some q) (hq : q < w.pools.size) :
    (action.perform.leaves w).sight q = w.sight q := by
  have hother : ∀ {p}, action.names? = some p → p ≠ q := by
    rintro p hp rfl
    exact haction hp
  cases action with
  | call me p call => exact sight_call (hother rfl) hq me call
  | capture p lane dir => exact ((Pool.skirts_capture (hother rfl) lane dir).map _).sight_leaves w
  | hold operand =>
      exact (skirts_withHandle fun handle => skirts_done (.modify fun w =>
        sight_hold w [handle])).sight_leaves w
  | letGo place => exact sight_dropAll w _
  | sweep me s handle => exact ((Sweep.skirts_visit (hother rfl) handle).map _).sight_leaves w
  | enterVisit handle => exact sight_retain w handle.buffer
  | leaveVisit =>
      change (Desk.leaveVisit w).sight q = w.sight q
      unfold Desk.leaveVisit
      cases w.client.present with
      | none => rfl
      | some visit => exact sight_drop _ visit.handle.buffer
  | suspend | resume | trace replies => rfl
  | leaveSuspended => exact sight_dropAll { w with client := { w.client with suspended := [] } } _
  | note p n => exact (skirts_done (skirts_note (hother rfl) n)).sight_leaves w
  | reclaim p => exact (skirts_done (Pool.skirts_reclaim (hother rfl))).sight_leaves w
  | make p requested => exact ((Pool.skirts_make (hother rfl) requested).map _).sight_leaves w
  | enroll p b name =>
      exact (skirts_done ((Pool.skirts_enroll (hother rfl) b).bind
        (skirts_store name))).sight_leaves w

/-- As long as nobody does anything for a pool, it looks the same. -/
theorem Scene.sight_after {actions : List Action} (hactions : ∀ action ∈ actions, action.names? ≠ some q)
    (s : Scene) (hq : q < s.world.pools.size) : (s.after actions).world.sight q = s.world.sight q := by
  induction actions generalizing s with
  | nil => rfl
  | cons action rest ih =>
      have hfirst : (action.take s).2.world.sight q = s.world.sight q := by
        rw [Action.world_take]
        exact action.sight_leaves (hactions action List.mem_cons_self) hq
      have hq' : q < (action.take s).2.world.pools.size := by
        have hthere := congrArg (fun seen : Sight => seen.pool.isSome) hfirst
        simpa [sight, hq] using hthere
      rw [Scene.after_cons, ih (fun action h => hactions action (List.mem_cons_of_mem _ h)) _ hq', hfirst]

/-- The pool refuses the handle in every operation. A handle that it was given is dropped, and nothing
else changes. -/
structure Foreign (p : PoolId) (h : Handle) (w : World Desk) : Prop where
  inLane : ∀ lane, Pool.inLane p lane h w = .error (.foreign h.pool p) w
  place : ∀ placing : Placing, placing.perform p h w = .error (.foreign h.pool p) w
  give : ∀ giving : Giving, ∃ fault, giving.perform p h w = .error fault (w.drop h.buffer)

theorem release_of_ne (hne : h.pool ≠ p) (lane : Lane) :
    Pool.release p lane h w = .error (.foreign h.pool p) (w.drop h.buffer) :=
  bind_of_error _ (onFault_of_error (bind_of_error _ (Pool.checkOwner_of_ne hne)))

theorem giveBack_of_ne (hne : h.pool ≠ p) (lane : Lane) :
    ∃ fault, Pool.giveBack p lane h w = .error fault (w.drop h.buffer) := by
  rcases Pool.giveBack_cases p lane h w with ⟨fault, he⟩ | he
  · exact ⟨fault, he⟩
  · exact ⟨_, he.trans (release_of_ne hne lane)⟩

/-- The owner of a handle is checked before its key is looked up. -/
theorem foreign_of_ne (hne : h.pool ≠ p) (w : World Desk) : Foreign p h w := by
  have hcheck : ∀ {α : Type} (next : Unit → DeskM α),
      (Pool.checkOwner p h >>= next) w = .error (.foreign h.pool p) w :=
    fun next => bind_of_error next (Pool.checkOwner_of_ne hne)
  constructor
  · intro lane
    exact hcheck _
  · intro placing
    cases placing with
    | insert lane => exact hcheck _
    | remove lane => exact hcheck _
    | move source => exact bind_of_error _ (hcheck _)
  · intro giving
    cases giving with
    | deallocate => exact ⟨_, bind_of_error _ (onFault_of_error (hcheck _))⟩
    | release lane => exact ⟨_, release_of_ne hne lane⟩
    | giveBack lane => exact giveBack_of_ne hne lane

/-- The handle that a call hands to a pool. -/
def Call.handed? : Call → Option Operand
  | .give operand .. | .place operand _ | .inLane operand _ => some operand
  | _ => none

theorem refused_of_foreign {operand : Operand} {pool : Pool} {call : Call} {me : Thread}
    (hne : h.pool ≠ p) (hp : w.pool? p = some pool) (hf : w.client.find? operand = some h)
    (hcall : call.handed? = some operand) : Refused (call.perform me p) w := by
  have hreach : ∀ {act : Handle → DeskM Reply}, Refused (act h) w →
      Refused (withPool p fun _ => withHandle operand act) w := by
    rintro act ⟨fault, w', hr, hpools⟩
    exact ⟨fault, w', (withPool_of_some hp).trans ((withHandle_of_some hf).trans hr), hpools⟩
  cases call with
  | give operand' kept giving =>
      obtain rfl := Option.some.inj hcall
      apply hreach
      obtain ⟨fault, hgive⟩ := (foreign_of_ne hne ((handOver operand' kept h).leaves w)).give giving
      refine ⟨fault, _, (bind_of_ok _ (handOver_eq_ok operand' kept h w)).trans
        (bind_of_error _ hgive), ?_⟩
      rw [pools_drop]
      unfold handOver
      split <;> rfl
  | place operand' placing =>
      obtain rfl := Option.some.inj hcall
      apply hreach
      exact ⟨_, w, bind_of_error _ ((foreign_of_ne hne w).place placing), rfl⟩
  | inLane operand' lane =>
      obtain rfl := Option.some.inj hcall
      apply hreach
      exact ⟨_, w, bind_of_error _ ((foreign_of_ne hne w).inLane lane), rfl⟩
  | _ => exact nomatch hcall

/-- What is done for pool `p` has nothing to do with pool `q`. -/
structure Isolated (w : World Desk) (p q : PoolId) : Prop where
  /-- No call for `p` changes what can be seen of `q`. -/
  call : ∀ me call, ((Call.perform me p call).leaves w).sight q = w.sight q
  /-- What a walk over `p` changes of `q` is what its visits change. -/
  walk : ∀ {α : Type} (route : Pool.Route) (dir : Direction)
    (visit : α → Handle → DeskM (Bool × α)) (start : α),
    Relation.ReflTransGen
      (fun seen seen' => ∃ a h w', seen = w'.sight q ∧ seen' = ((visit a h).leaves w').sight q)
      (w.sight q) (((Pool.travel p route dir visit start).leaves w).sight q)
  /-- Whatever actions are taken, until one is taken for `q`. -/
  actions : ∀ made actions, (∀ action ∈ actions, Action.names? action ≠ some q) →
    ((Scene.mk w made).after actions).world.sight q = w.sight q
  /-- Handles of `q` are refused, whatever their keys name. -/
  foreign : ∀ h : Handle, h.pool = q → Foreign p h w
  /-- When a call hands such a handle to `p`, the call faults and all pools stay as they are. -/
  refused : ∀ operand h, w.client.find? operand = some h → h.pool = q → (w.pool? p).isSome →
    ∀ me call, Call.handed? call = some operand → Refused (call.perform me p) w

/-- Pools are isolated from each other, however many there are and whatever has become of them. -/
theorem pools_isolated {w : World Desk} {p q : PoolId} (hne : p ≠ q) (hq : q < w.pools.size) :
    Isolated w p q := by
  have hother : ∀ h : Handle, h.pool = q → h.pool ≠ p := fun h hpool hsame =>
    hne (hsame.symm.trans hpool)
  constructor
  · exact sight_call hne hq
  · intro α route dir visit start
    exact Pool.sight_travel hne route dir visit start w
  · intro made actions hactions
    exact Scene.sight_after hactions ⟨w, made⟩ hq
  · intro h hpool
    exact foreign_of_ne (hother h hpool) w
  · intro operand h hf hpool hlive me call hcall
    obtain ⟨pool, hp⟩ := Option.isSome_iff_exists.1 hlive
    exact refused_of_foreign (hother h hpool) hp hf hcall

/-- Two pools with one buffer each. The keys of both buffers are the same, and still the first pool does
not take the buffer of the second one into its free lane. -/
theorem same_keys_isolated :
    let w := performAll 0 1 [.obtain .allocate 100 none (some "b")]
      (performAll 0 0 [.build .standard false, .build .standard false,
        .obtain .allocate 100 none (some "a")] (.empty .checked .plain (.within none) .empty))
    (w.client.find? (.named "a") = some ⟨0, ⟨0, 0⟩, 0⟩ ∧
      w.client.find? (.named "b") = some ⟨1, ⟨0, 0⟩, 1⟩) ∧
      Isolated w 0 1 ∧ Refused ((Call.place (.named "b") (.insert .free)).perform 0 0) w := by
  intro w
  have hq : 1 < w.pools.size := by decide +kernel
  have hb : w.client.find? (.named "b") = some ⟨1, ⟨0, 0⟩, 1⟩ := by decide +kernel
  have hisolated : Isolated w 0 1 := pools_isolated (by decide) hq
  refine ⟨⟨by decide +kernel, hb⟩, hisolated, ?_⟩
  exact hisolated.refused _ _ hb rfl (by decide +kernel) 0 _ rfl

end BufferPool.Desk
