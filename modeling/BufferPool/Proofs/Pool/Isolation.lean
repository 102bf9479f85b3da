import BufferPool.Proofs.Pool.Sights
import BufferPool.Proofs.Pool.Skipping
import BufferPool.Proofs.Pool.LicensedOperations

/-!
# Operations on one pool and the sight of another

Keys of different pools coincide all the time, since every pool numbers its slots from zero. That no
operation reaches into another pool rests on two things: what it updates is always the pool that it is
called for, and whoever takes a handle checks to which pool the handle belongs before anything is looked
up by its key.

A traversal runs a visitor, who may do anything. What it changes of another pool is what its visits
change.
-/

namespace BufferPool

open PoolM World

variable {σ α : Type} {p q : PoolId} {h : Handle}

namespace Pool

theorem skirts_prepare (capacity : UInt64) : Skirts (σ := σ) q (prepare capacity) := by
  apply Skirts.of_get
  intro w
  cases w.format <;> rfl

theorem skirts_checkOwner (p : PoolId) (h : Handle) : Skirts (σ := σ) q (checkOwner p h) := by
  unfold checkOwner
  split_ifs
  · exact .throw _
  · exact .pure _

theorem skirts_inLane (p : PoolId) (lane : Lane) (h : Handle) :
    Skirts (σ := σ) q (inLane p lane h) :=
  (skirts_checkOwner p h).bind fun _ => (skirts_getPool p).bind fun _ => .pure _

theorem skirts_census (p : PoolId) : Skirts (σ := σ) q (census p) :=
  (skirts_getPool p).bind fun _ => .pure _

theorem skirts_firstFit (size : UInt64) (t : Thread) (entries : List (Arena.Key × BufferId)) :
    Skirts (σ := σ) q (firstFit size t entries) := by
  induction entries with
  | nil => exact .pure _
  | cons entry rest ih =>
      obtain ⟨key, b⟩ := entry
      apply (skirts_getBuffer b).bind
      intro buffer
      split_ifs
      · exact ih
      · apply (skirts_tryAcquire b t).bind
        intro won
        split_ifs
        · apply (skirts_getBuffer b).bind
          intro acquired
          split_ifs
          · exact .pure _
          · exact (skirts_modifyBuffer b _).bind fun _ => ih
        · exact ih

theorem skirts_expectIdle (b : BufferId) : Skirts (σ := σ) q (expectIdle b) :=
  (skirts_getBuffer b).bind fun _ => (skirts_expect _ _).bind fun _ =>
    (skirts_expect _ _).bind fun _ => skirts_expect _ _

theorem skirts_onSome {act : Handle → PoolM σ Unit} (hact : ∀ h, Skirts q (act h))
    (obtained : Option Handle) : Skirts q (onSome obtained act) := by
  cases obtained with
  | none => exact .pure _
  | some h => exact (hact h).owning.bind fun _ => .pure _

theorem skirts_makeLease (h : Handle) : Skirts (σ := σ) q (makeLease h) :=
  (skirts_modifyBuffer h.buffer _).bind fun _ => skirts_markLease h.buffer

section Others

variable (hne : p ≠ q)
include hne

theorem skirts_retire (b : BufferId) : Skirts (σ := σ) q (retire p b) := by
  apply (skirts_getBuffer b).bind
  intro buffer
  apply (skirts_modifyPool hne _).bind
  intro _
  apply (skirts_tell hne rfl).bind
  intro _
  exact skirts_note hne _

theorem skirts_retireAll (buffers : List BufferId) : Skirts (σ := σ) q (retireAll p buffers) := by
  induction buffers with
  | nil => exact .pure _
  | cons b rest ih => exact (skirts_retire hne b).bind fun _ => (skirts_drop b).bind fun _ => ih

theorem skirts_reclaim : Skirts (σ := σ) q (reclaim p) := by
  apply Skirts.get.bind
  intro w
  apply (skirts_onArena hne _).bind
  intro abandoned
  split_ifs
  · exact (skirts_note hne _).bind fun _ => skirts_retireAll hne abandoned
  · exact .pure _

theorem skirts_requestPayload (capacity : UInt64) :
    Skirts (σ := σ) q (requestPayload p capacity) := by
  apply (skirts_getPool p).bind
  intro pool
  apply (skirts_modifyPool hne _).bind
  intro _
  cases pool.heap.supply.grants capacity with
  | true =>
      apply Skirts.of_get
      intro w
      exact sight_emit _ (Event.tellsOf_of_ne hne rfl)
  | false =>
      refine (skirts_tell hne ?_).bind fun _ => .pure _
      split_ifs <;> rfl

theorem skirts_make (requested : UInt64) : Skirts (σ := σ) q (make p requested) := by
  apply (skirts_getPool p).bind
  intro pool
  cases SizeClass.ofRequest? requested pool.minimum with
  | none =>
      exact (skirts_expect _ _).bind fun _ => (skirts_note hne _).bind fun _ => .pure _
  | some capacity =>
      apply (skirts_requestPayload hne capacity).bind
      intro granted
      cases granted with
      | none => exact (skirts_note hne _).bind fun _ => .pure _
      | some b =>
          apply (skirts_prepare capacity).bind
          intro ready
          split_ifs
          · apply (skirts_getBuffer b).bind
            intro buffer
            apply (skirts_modifyPool hne _).bind
            intro _
            apply (skirts_tell hne rfl).bind
            intro _
            exact (skirts_note hne _).bind fun _ => .pure _
          · exact (skirts_drop b).bind fun _ => .pure _

theorem skirts_enroll (b : BufferId) : Skirts (σ := σ) q (enroll p b) :=
  (skirts_onArena hne _).owning.bind fun _ => (skirts_retain b).bind fun _ => .pure _

theorem skirts_allocate (requested : UInt64) : Skirts (σ := σ) q (allocate p requested) := by
  apply (skirts_reclaim hne).bind
  intro _
  apply (skirts_make hne requested).bind
  intro made
  cases made with
  | none => exact .pure _
  | some b => exact (skirts_enroll hne b).map _

theorem skirts_allocateWithin (requested : UInt64) :
    Skirts (σ := σ) q (allocateWithin p requested) := by
  apply (skirts_reclaim hne).bind
  intro _
  apply (skirts_make hne requested).bind
  intro made
  cases made with
  | none => exact .pure _
  | some b => exact (skirts_enroll hne b).map _

theorem skirts_deallocate (h : Handle) : Skirts (σ := σ) q (deallocate p h) := by
  apply ((skirts_checkOwner p h).bind fun _ => skirts_onArena hne _).owning.bind
  intro b
  exact (skirts_drop h.buffer).bind fun _ => (skirts_retire hne b).bind fun _ => skirts_drop b

theorem skirts_insert (lane : Lane) (h : Handle) : Skirts (σ := σ) q (insert p lane h) := by
  apply (skirts_checkOwner p h).bind
  intro _
  apply (skirts_onArena hne _).bind
  intro _
  split_ifs
  · exact (skirts_getBuffer h.buffer).bind fun _ => (skirts_tell hne rfl).bind fun _ =>
      skirts_tell hne rfl
  · exact skirts_tell hne rfl

theorem skirts_remove (lane : Lane) (h : Handle) : Skirts (σ := σ) q (remove p lane h) :=
  (skirts_checkOwner p h).bind fun _ => skirts_onArena hne _

theorem skirts_move (source : Lane) (h : Handle) : Skirts (σ := σ) q (move p source h) :=
  (skirts_remove hne source h).bind fun _ => skirts_insert hne source.other h

theorem skirts_find (size : UInt64) (t : Thread) : Skirts (σ := σ) q (find p size t) := by
  apply (skirts_readArena hne _).bind
  intro entries
  apply (skirts_firstFit size t entries).bind
  intro found
  cases found with
  | none => exact .pure _
  | some entry =>
      exact (skirts_note hne _).bind fun _ => (skirts_retain entry.2).bind fun _ => .pure _

theorem skirts_consult : Skirts (σ := σ) q (consult p) := by
  apply (skirts_census p).bind
  intro census
  apply (skirts_getPool p).bind
  intro pool
  apply (skirts_modifyPool hne _).bind
  intro _
  exact (skirts_tell hne rfl).bind fun _ => .pure _

theorem skirts_dispose (h : Handle) : Skirts (σ := σ) q (dispose p h) := by
  apply (skirts_getBuffer h.buffer).bind
  intro buffer
  split_ifs
  · exact (skirts_note hne _).bind fun _ => skirts_deallocate hne h
  · apply ((skirts_expectIdle h.buffer).bind fun _ => skirts_consult hne).owning.bind
    intro keep
    split_ifs
    · exact (skirts_onArena hne _).owning.bind fun _ => (skirts_tell hne rfl).bind fun _ =>
        skirts_drop h.buffer
    · exact skirts_deallocate hne h

theorem skirts_release (lane : Lane) (h : Handle) : Skirts (σ := σ) q (release p lane h) :=
  (skirts_remove hne lane h).owning.bind fun _ => skirts_dispose hne h

theorem skirts_giveBack (lane : Lane) (h : Handle) : Skirts (σ := σ) q (giveBack p lane h) :=
  ((skirts_getBuffer h.buffer).bind fun _ => skirts_expect _ _).owning.bind fun _ =>
    skirts_release hne lane h

theorem skirts_provide (size : UInt64) : Skirts (σ := σ) q (provide p size) :=
  (skirts_getPool p).bind fun _ => skirts_allocate hne _

theorem skirts_provideAcquired (size : UInt64) (t : Thread) :
    Skirts (σ := σ) q (provideAcquired p size t) :=
  (skirts_provide hne size).bind (skirts_onSome fun h => skirts_acquire h.buffer t)

theorem skirts_provideTransient (size : UInt64) (t : Thread) :
    Skirts (σ := σ) q (provideTransient p size t) :=
  (skirts_provideAcquired hne size t).bind (skirts_onSome fun h =>
    (skirts_getBuffer h.buffer).bind fun _ => (skirts_expect _ _).bind fun _ =>
      skirts_modifyBuffer h.buffer _)

theorem skirts_provideLease (size : UInt64) (t : Thread) :
    Skirts (σ := σ) q (provideLease p size t) :=
  (skirts_provideTransient hne size t).bind (skirts_onSome fun h => skirts_markLease h.buffer)

theorem skirts_provideFull (size : UInt64) (t : Thread) :
    Skirts (σ := σ) q (provideFull p size t) :=
  (skirts_getPool p).bind fun _ => (skirts_allocateWithin hne _).bind (skirts_onSome fun h =>
    (skirts_acquire h.buffer t).bind fun _ => skirts_insert hne .full h)

theorem skirts_provideTransientFull (size : UInt64) (t : Thread) :
    Skirts (σ := σ) q (provideTransientFull p size t) :=
  (skirts_provideTransient hne size t).bind (skirts_onSome (skirts_insert hne .full))

theorem skirts_provideLeaseTo (lane : Lane) (size : UInt64) (t : Thread) :
    Skirts (σ := σ) q (provideLeaseTo p lane size t) :=
  (skirts_provideLease hne size t).bind (skirts_onSome fun h =>
    (skirts_insert hne lane h).bind fun _ => (skirts_getBuffer h.buffer).bind fun _ =>
      skirts_expect _ _)

theorem skirts_takeWithin (size : UInt64) (retries : Nat) (t : Thread) (remaining : Nat) :
    Skirts (σ := σ) q (takeWithin p size retries t remaining) := by
  induction remaining with
  | zero => exact .pure _
  | succ remaining ih =>
      apply (skirts_find hne size t).bind
      intro taken
      cases taken with
      | some h => exact .pure _
      | none => exact (skirts_note hne _).bind fun _ => ih

theorem skirts_takeRetrying (size : UInt64) (retries : Nat) (t : Thread) :
    Skirts (σ := σ) q (takeRetrying p size retries t) :=
  (skirts_getPool p).bind fun _ => (skirts_expect _ _).bind fun _ =>
    skirts_takeWithin hne size retries t retries

theorem skirts_takeDetached (size : UInt64) (t : Thread) :
    Skirts (σ := σ) q (takeDetached p size t) :=
  (skirts_find hne size t).bind (skirts_onSome (skirts_remove hne .free))

theorem skirts_takeToFull (size : UInt64) (t : Thread) :
    Skirts (σ := σ) q (takeToFull p size t) :=
  (skirts_getPool p).bind fun _ => (skirts_expect _ _).bind fun _ =>
    (skirts_find hne size t).bind (skirts_onSome (skirts_move hne .free))

theorem skirts_obtainFull (size : UInt64) (t : Thread) :
    Skirts (σ := σ) q (obtainFull p size t) := by
  apply (skirts_getPool p).bind
  intro pool
  dsimp only
  split_ifs
  · apply (skirts_takeToFull hne _ t).bind
    intro taken
    cases taken with
    | some h => exact .pure _
    | none => exact skirts_provideFull hne _ t
  · exact skirts_provideFull hne _ t

theorem skirts_takeLeaseRetrying (size : UInt64) (retries : Nat) (t : Thread) :
    Skirts (σ := σ) q (takeLeaseRetrying p size retries t) :=
  (skirts_takeRetrying hne size retries t).bind (skirts_onSome skirts_makeLease)

theorem skirts_obtainLease (size : UInt64) (t : Thread) :
    Skirts (σ := σ) q (obtainLease p size t) := by
  apply (skirts_find hne size t).bind
  intro taken
  cases taken with
  | some h =>
      exact skirts_onSome (fun h => (skirts_makeLease h).bind fun _ =>
        (skirts_getBuffer h.buffer).bind fun _ => skirts_expect _ _) _
  | none => exact skirts_provideLeaseTo hne .full size t

theorem skirts_preallocate (allocated remaining : Nat) :
    Skirts (σ := σ) q (preallocate p allocated remaining) := by
  induction remaining generalizing allocated with
  | zero => exact .pure _
  | succ remaining ih =>
      apply (skirts_getPool p).bind
      intro pool
      apply (skirts_allocateWithin hne _).bind
      intro obtained
      cases obtained with
      | none => exact (skirts_note hne _).bind fun _ => .pure _
      | some h =>
          exact (skirts_insert hne .free h).owning.bind fun _ => (skirts_drop h.buffer).bind
            fun _ => ih _

theorem skirts_close : Skirts (σ := σ) q (close p) := by
  apply (skirts_getPool p).bind
  intro pool
  apply (skirts_onArena hne _).bind
  intro buffers
  exact (skirts_note hne _).bind fun _ => (skirts_retireAll hne buffers).bind fun _ =>
    skirts_modifyPool hne _

theorem skirts_closing {act : PoolM σ α} (h : Skirts q act) : Skirts q (closing p act) := by
  rw [closing_eq_onFault]
  exact h.onFault (skirts_close hne).sight_leaves

theorem skirts_capture (lane : Lane) (dir : Direction) :
    Skirts (σ := σ) q (capture p lane dir) :=
  (skirts_readArena hne _).bind fun _ =>
    (Skirts.modify fun w => sight_hold w _).bind fun _ => .pure _

/-- What is known of another pool by its sight, and is kept by every visit, is kept by a traversal. `V`
is what the visits need of the value that they carry along. -/
theorem triple_travel_sight {S : Sight → Prop} {V : α → Prop}
    {visit : α → Handle → PoolM σ (Bool × α)} {start : α} (hstart : V start)
    (hv : ∀ a h, V a → Triple (fun w => S (w.sight q)) (visit a h)
      (fun r w => S (w.sight q) ∧ V r.2) (fun w => S (w.sight q)))
    (route : Route) (dir : Direction) :
    Triple (fun w => S (w.sight q)) (travel p route dir visit start)
      (fun r w => S (w.sight q) ∧ V r.2) (fun w => S (w.sight q)) := by
  have hlet : ∀ w : World σ, S (w.sight q) → S (w.letGo.sight q) := by simp
  have htold : ∀ (w : World σ) (n : Note), S (w.sight q) → S ((w.emit (.noted p n)).sight q) := by
    intro w n hw
    rw [sight_emit w (Event.tellsOf_of_ne hne rfl)]
    exact hw
  have hcapture := ((skirts_capture hne route.target dir).triple (σ := σ) S).post
    fun handles w hw => htold w (.traversing route.target dir handles.length) hw
  apply triple_travel (P := fun _ _ a w => S (w.sight q) ∧ V a) (F := fun _ w => S (w.sight q))
    (Q := fun a w => S (w.sight q) ∧ V a)
  · exact fun w hw => hw
  · exact fun w pool hw _ _ => ⟨hw, hstart⟩
  · exact hcapture.post fun handles w hw => ⟨hw, hstart⟩
  · intro handles a h rest w hw
    exact ((hv a h hw.2).post fun r w' hw' => ⟨hw', fun _ => ⟨hlet w' hw'.1, hw'.2⟩⟩) w hw.1
  · exact fun handles a w hw => ⟨hlet w hw.1, hw.2⟩
  · exact fun handles w hw => hlet w hw

end Others

/-- A pool that is set up is another one than those that are there. -/
theorem sight_build (c : Config) {w : World σ} (hq : q < w.pools.size) :
    ((build c).leaves w).sight q = w.sight q := by
  have hne : w.pools.size ≠ q := Nat.ne_of_gt hq
  let S (s : Sight) : Prop := s = w.sight q
  have hadd : ∀ minimum live, Triple (· = w) (add c minimum live) (fun _ w' => S (w'.sight q))
      fun w' => S (w'.sight q) := by
    intro minimum live
    refine .modify ?_
    rintro _ rfl
    exact sight_push _ _ hq
  have hbuild : Triple (· = w) (build c) (fun _ w' => S (w'.sight q)) fun w' => S (w'.sight q) := by
    unfold build
    refine Triple.get_bind ?_
    rintro _ rfl
    cases c.validate with
    | error e => exact (hadd 0 false).bind fun _ => .pure fun _ hw => hw
    | ok minimum =>
        refine (hadd minimum true).bind fun _ => ?_
        refine ((skirts_closing hne (skirts_preallocate hne 0 c.cacheCount)).triple S).bind
          fun failed => ?_
        cases failed with
        | some allocated => exact ((skirts_close hne).triple S).bind fun _ => .pure fun _ hw => hw
        | none => exact ((skirts_note hne _).triple S).bind fun _ => .pure fun _ hw => hw
  exact hbuild.leaves rfl

/-- Whatever a visitor does, what is seen of another pool changes as its visits change it. -/
theorem sight_travel (hne : p ≠ q) (route : Route) (dir : Direction)
    (visit : α → Handle → PoolM σ (Bool × α)) (start : α) (w : World σ) :
    Relation.ReflTransGen (fun s s' => ∃ a h w, s = w.sight q ∧ s' = ((visit a h).leaves w).sight q)
      (w.sight q) (((travel p route dir visit start).leaves w).sight q) := by
  let changes (s s' : Sight) : Prop := ∃ a h w, s = w.sight q ∧ s' = ((visit a h).leaves w).sight q
  let S (s : Sight) : Prop := Relation.ReflTransGen changes (w.sight q) s
  have hvisit : ∀ a h, True → Triple (fun w' => S (w'.sight q)) (visit a h)
      (fun _ w' => S (w'.sight q) ∧ True) fun w' => S (w'.sight q) := by
    intro a h _
    have hleaves : Triple (fun w' => S (w'.sight q)) (visit a h) (fun _ w' => S (w'.sight q))
        fun w' => S (w'.sight q) := .of_leaves fun w' hw' => hw'.tail ⟨a, h, w', rfl, rfl⟩
    exact hleaves.post fun _ _ hw => ⟨hw, trivial⟩
  have hvisits : Triple (fun w' => S (w'.sight q)) (travel p route dir visit start)
      (fun _ w' => S (w'.sight q) ∧ True) fun w' => S (w'.sight q) :=
    triple_travel_sight hne trivial hvisit route dir
  exact (hvisits.post fun _ _ hw => hw.1).leaves .refl

end Pool

namespace Sweep

variable {s : Sweep} {me : Thread}

theorem skirts_hold (b : BufferId) : Skirts (σ := σ) q (s.hold me b) := by
  apply Skirts.of_work
  intro w
  obtain ⟨acts, hl⟩ := hold_work me s b w
  exact ⟨b, acts, hl⟩

theorem skirts_recycle (b : BufferId) : Skirts (σ := σ) q (recycle me b) :=
  (skirts_reset b me).bind fun _ => (skirts_getBuffer b).bind fun _ => (skirts_expect _ _).bind
    fun _ => (skirts_getBuffer b).bind fun _ => (skirts_expect _ _).bind fun _ =>
      skirts_modifyBuffer b _

theorem skirts_visit (hne : s.pool ≠ q) (h : Handle) : Skirts (σ := σ) q (s.visit me h) := by
  apply (skirts_getBuffer h.buffer).bind
  intro buffer
  split_ifs
  · exact (skirts_retain h.buffer).bind fun _ => (Pool.skirts_giveBack hne s.lane h).bind
      fun _ => .pure _
  · apply (skirts_hold h.buffer).bind
    intro held
    split_ifs
    · exact (skirts_recycle h.buffer).bind fun _ => .pure _
    · exact .pure _

/-- All visits of a sweep release buffers from the same pool. -/
theorem pool_visit {w w' : World σ} {r : Bool × Sweep} (hv : s.visit me h w = .ok r w') :
    r.2.pool = s.pool := by
  rw [(visit_eq_ok hv).2]
  split_ifs <;> rfl

theorem triple_pass (hne : s.pool ≠ q) (route : Pool.Route) (dir : Direction) (seen : Sight) :
    Triple (σ := σ) (fun w => w.sight q = seen) (s.pass me route dir)
      (fun s' w => w.sight q = seen ∧ s'.pool = s.pool) (fun w => w.sight q = seen) := by
  have hvisit : ∀ (s' : Sweep) (h : Handle), s'.pool = s.pool →
      Triple (σ := σ) (fun w => w.sight q = seen) (s'.visit me h)
        (fun r w => w.sight q = seen ∧ r.2.pool = s.pool) (fun w => w.sight q = seen) := by
    intro s' h hpool
    rw [← hpool] at hne
    exact ((skirts_visit hne h).triple (· = seen)).and_post fun w r w' _ hr =>
      (pool_visit hr).trans hpool
  exact (Pool.triple_travel_sight hne (S := (· = seen)) (V := fun s' => s'.pool = s.pool) rfl hvisit
    route dir).bind fun _ => .pure fun _ hw => hw

theorem skirts_passes (hne : s.pool ≠ q) (route : Pool.Route) (dir : Direction) (n : Nat) :
    Skirts (σ := σ) q (passes me route dir n s) := by
  apply Skirts.of_triple
  intro seen
  induction n generalizing s with
  | zero => exact .pure fun _ hw => hw
  | succ n ih =>
      apply (triple_pass hne route dir seen).bind
      intro s' w hw
      rw [← hw.2] at hne
      exact ((ih hne).bind fun _ => .pure fun _ hw => hw) w hw.1

end Sweep

end BufferPool
