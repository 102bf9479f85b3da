import BufferPool.Proofs.Pool.Frame
import BufferPool.Proofs.Pool.LicensedSteps
import BufferPool.Proofs.SizeClass
import BufferPool.Proofs.World.Quiet
import BufferPool.Sweep

/-!
# How the operations of a pool consist of licensed steps

One statement for each operation. Only what puts a buffer into the free lane directly needs a licence
for the pool, and so does setting a pool up; and only the release of a buffer that is not one-shot asks
the rule. No operation of a pool marks a lease that is not one-shot. What is requested for a caller is at
least as large as the caller wants.
-/

namespace BufferPool

open PoolM World

variable {σ α β : Type} {L : Licence} {P : World σ → Prop} {p : PoolId} {b : BufferId} {h : Handle}
  {size : UInt64} {t : Thread}

namespace Pool

theorem licensed_retire : Licensed (σ := σ) L (retire p b) :=
  (licensed_getBuffer b).bind fun _ => (licensed_modifyPool p _ (by intro; rfl)).bind fun _ =>
    (licensed_emit rfl).bind fun _ => licensed_note p _

theorem licensed_retireAll (buffers : List BufferId) : Licensed (σ := σ) L (retireAll p buffers) := by
  induction buffers with
  | nil => exact .pure _
  | cons b rest ih => exact licensed_retire.bind fun _ => (licensed_drop b).bind fun _ => ih

theorem licensed_reclaim : Licensed (σ := σ) L (reclaim p) := by
  refine .get_bind fun w => (licensed_reclaim_arena _).bind fun abandoned => ?_
  split_ifs
  · exact (licensed_note p _).bind fun _ => licensed_retireAll abandoned
  · exact .pure _

/-- Heaps are only asked for sizes of classes. -/
theorem licensedFrom_requestPayload (capacity : UInt64) :
    LicensedFrom (σ := σ) L (fun w => Sized L w p capacity) (requestPayload p capacity) fun _ _ => True := by
  refine LicensedFrom.of_getPool fun pool => ?_
  have hsettings : LicensedFrom (σ := σ) L (fun w => Sized L w p capacity ∧ w.pool? p = some pool)
      (modifyPool p fun pool =>
        { pool with heap := { pool.heap with supply := pool.heap.supply.after capacity } })
      fun _ w => Sized L w p capacity := by
    refine LicensedFrom.weaken (P := fun w => Sized L w p capacity) (Q := fun _ w => Sized L w p capacity)
      (.of_minor (fun w => minor_modifyPool w p fun _ => rfl) fun w w' ha hs => hs.minor ha)
      (fun _ hw => hw.1) fun _ _ hw => hw
  refine hsettings.bind fun _ => ?_
  cases pool.heap.supply.grants capacity with
  | true =>
      intro w hw
      refine ⟨?_, fun _ _ _ => trivial⟩
      let tag := if pool.heap.recorded then some w.tags else none
      let counted : World σ := { w with tags := if pool.heap.recorded then w.tags + 1 else w.tags }
      have hcounted : Minor w counted := minor_of_eq rfl rfl rfl rfl rfl
      exact (licensedSteps_minor hcounted).tail (.grant tag (hw.minor hcounted))
  | false =>
      refine LicensedFrom.bind (Q := fun _ _ => True) (fun w hw => ⟨?_, fun _ _ _ => trivial⟩)
        fun _ => .pure fun _ _ => trivial
      refine .single (.refuse ?_ hw)
      by_cases hpermits : pool.heap.supply.permits capacity = true
      · exact .inr (if_pos hpermits)
      · exact .inl (if_neg hpermits)

theorem licensed_prepare (capacity : UInt64) : Licensed (σ := σ) L (prepare capacity) := by
  refine .of_minor fun w => ?_
  have hget : (get : PoolM σ (World σ)) w = .ok w w := rfl
  unfold prepare
  rw [leaves, bind_of_ok _ hget]
  cases hformat : w.format with
  | plain => exact .refl w
  | metered => exact minor_of_eq rfl rfl rfl hformat.symm rfl

theorem licensed_make {requested : UInt64} (hleast : L.least ≤ requested) :
    Licensed (σ := σ) L (make p requested) := by
  refine LicensedFrom.licensed (Q := fun _ _ => True) (LicensedFrom.of_getPool fun pool => ?_)
  cases hclass : SizeClass.ofRequest? requested pool.minimum with
  | none =>
      exact .of_licensed ((licensed_expect _ _).bind fun _ => (licensed_note p _).bind fun _ => .pure _)
  | some capacity =>
      refine LicensedFrom.bind ((licensedFrom_requestPayload capacity).weaken
        (fun w hw => ⟨pool, requested, hw.2, hleast, hclass⟩) fun _ _ h => h) fun granted => ?_
      cases granted with
      | none => exact .of_licensed ((licensed_note p _).bind fun _ => .pure _)
      | some b =>
          refine .of_licensed ((licensed_prepare capacity).bind fun ready => ?_)
          split_ifs
          · exact (licensed_getBuffer b).bind fun _ => (licensed_modifyPool p _ (by intro; rfl)).bind
              fun _ => (licensed_emit rfl).bind fun _ => (licensed_note p _).bind
                fun _ => .pure _
          · exact (licensed_drop b).bind fun _ => .pure _

theorem licensed_enroll : Licensed (σ := σ) L (enroll p b) :=
  (licensed_register b).owning.bind fun _ => (licensed_retain b).bind fun _ => .pure _

theorem licensed_allocate {requested : UInt64} (hleast : L.least ≤ requested) :
    Licensed (σ := σ) L (allocate p requested) := by
  refine licensed_reclaim.bind fun _ => (licensed_make hleast).bind fun made => ?_
  cases made with
  | none => exact .pure _
  | some b => exact licensed_enroll.map _

theorem licensed_allocateWithin {requested : UInt64} (hleast : L.least ≤ requested) :
    Licensed (σ := σ) L (allocateWithin p requested) := by
  refine licensed_reclaim.bind fun _ => (licensed_make hleast).bind fun made => ?_
  cases made with
  | none => exact .pure _
  | some b => exact licensed_enroll.map _

theorem licensed_checkOwner : Licensed (σ := σ) L (checkOwner p h) := by
  unfold checkOwner
  split_ifs
  · exact .throw _
  · exact .pure _

theorem licensed_deallocate : Licensed (σ := σ) L (deallocate p h) :=
  (licensed_checkOwner.bind fun _ => licensed_unregister h.key).owning.bind fun b =>
    (licensed_drop h.buffer).bind fun _ => licensed_retire.bind fun _ => licensed_drop b

theorem licensed_insert {lane : Lane} (hlane : lane = .free → L.fills p) :
    Licensed (σ := σ) L (insert p lane h) := by
  have hprepend : Licensed (σ := σ) L
      (onArena p fun arena => (arena.prepend lane h.key).map ((), ·)) :=
    (licensedFrom_prepend (P := fun _ => True) h.key fun hl _ _ _ _ => .inl (hlane hl)).licensed
  refine licensed_checkOwner.bind fun _ => hprepend.bind fun _ => ?_
  split_ifs
  · exact (licensed_getBuffer _).bind fun _ => (licensed_emit rfl).bind fun _ =>
      licensed_emit rfl
  · exact licensed_emit rfl

theorem licensed_remove (lane : Lane) : Licensed (σ := σ) L (remove p lane h) :=
  licensed_checkOwner.bind fun _ => licensed_remove_key lane h.key

theorem licensed_move {source : Lane} (hlane : source = .full → L.fills p) :
    Licensed (σ := σ) L (move p source h) := by
  refine (licensed_remove source).bind fun _ => licensed_insert fun hother => hlane ?_
  cases source with
  | full => rfl
  | free => exact nomatch hother

theorem licensed_inLane (lane : Lane) : Licensed (σ := σ) L (inLane p lane h) :=
  licensed_checkOwner.bind fun _ => (licensed_getPool p).bind fun _ => .pure _

theorem licensed_count (lane : Lane) : Licensed (σ := σ) L (count p lane) :=
  (licensed_getPool p).bind fun _ => .pure _

theorem licensed_firstFit (size : UInt64) (t : Thread) (entries : List (Arena.Key × BufferId)) :
    Licensed (σ := σ) L (firstFit size t entries) := by
  induction entries with
  | nil => exact .pure _
  | cons entry rest ih =>
      obtain ⟨key, b⟩ := entry
      refine (licensed_getBuffer b).bind fun buffer => ?_
      split_ifs
      · exact ih
      · refine (licensed_tryAcquire b t).bind fun won => ?_
        split_ifs
        · refine (licensed_getBuffer b).bind fun acquired => ?_
          split_ifs
          · exact .pure _
          · exact (PoolM.licensed_release b).bind fun _ => ih
        · exact ih

theorem licensed_find (size : UInt64) (t : Thread) : Licensed (σ := σ) L (find p size t) := by
  refine (licensed_readArena p _).bind fun entries => ?_
  refine (licensed_firstFit size t entries).bind fun found => ?_
  cases found with
  | none => exact .pure _
  | some entry => exact (licensed_note p _).bind fun _ => (licensed_retain _).bind fun _ => .pure _

theorem licensed_expectIdle : Licensed (σ := σ) L (expectIdle b) :=
  (licensed_getBuffer b).bind fun _ => (licensed_expect _ _).bind fun _ =>
    (licensed_expect _ _).bind fun _ => licensed_expect _ _

/-- The rule is asked about the lanes as they are, and when it has kept a buffer they still are. -/
theorem licensedFrom_consult :
    LicensedFrom (σ := σ) L P (consult p) fun keep w =>
      keep = true → ∀ pool, w.pool? p = some pool → pool.Retains := by
  have hcensus : consult p = (do
      let pool ← getPool p
      let census : Census := ⟨pool.arena.count .free, pool.arena.count .full,
        pool.config.cacheCount, pool.allocated, pool.config.limit⟩
      let pool ← getPool p
      let keep := pool.config.retention.keeps pool.consultations census
      modifyPool p fun pool => { pool with consultations := pool.consultations + 1 }
      emit (.consulted p census keep)
      return keep : PoolM σ Bool) := by
    unfold consult census
    simp only [bind_assoc, pure_bind]
  rw [hcensus]
  refine LicensedFrom.of_getPool fun pool => LicensedFrom.of_getPool fun pool' => ?_
  intro w hw
  obtain ⟨⟨-, hp⟩, hp'⟩ := hw
  obtain rfl : pool' = pool := Option.some.inj (hp'.symm.trans hp)
  refine ⟨Licensed.bind (licensed_modifyPool p _ (by intro; rfl))
    (fun _ => (licensed_emit rfl).bind fun _ => .pure _) w, ?_⟩
  intro keep w' hr hkeep pool' hpool'
  obtain ⟨rfl, rfl⟩ := EStateM.Result.ok.inj hr
  have hafter := pool?_modifyPool w p p
    (fun pool => { pool with consultations := pool.consultations + 1 }) fun _ => rfl
  rw [if_pos rfl, hp, Option.map_some] at hafter
  obtain rfl := Option.some.inj (hafter.symm.trans hpool')
  exact ⟨_, _, hkeep, rfl, rfl⟩

/-- A buffer may be released by this licence: it is one-shot, or what is released may be kept. -/
def Releasable (L : Licence) (b : BufferId) (w : World σ) : Prop :=
  L.keeps ∨ (w.buffer b).transient = true

theorem Releasable.of_buffer {w w' : World σ} (h : Releasable L b w)
    (hb : w'.buffer b = w.buffer b) : Releasable L b w' := by
  rw [Releasable, hb]
  exact h

/-- What leaves the buffers does not change what may be released. -/
theorem licensedFrom_of_spares {act : PoolM σ α} (h : Licensed L act) (hspares : Spares act) :
    LicensedFrom L (Releasable L b) act fun _ => Releasable L b := by
  refine fun w hw => ⟨h w, fun a w' hr => hw.of_buffer ?_⟩
  rw [← leaves_of_ok hr]
  exact hspares.buffer_leaves w b

/-- A buffer that a release puts into the free lane is kept. -/
theorem licensedFrom_dispose :
    LicensedFrom (σ := σ) L (Releasable L h.buffer) (dispose p h) fun _ _ => True := by
  refine .of_getBuffer fun buffer => ?_
  split_ifs with hone
  · exact .of_licensed ((licensed_note p _).bind fun _ => licensed_deallocate)
  by_cases hkeeps : L.keeps
  · have hdecide : LicensedFrom (σ := σ) L (fun _ => True)
        (owning h.buffer do
          expectIdle h.buffer
          consult p) fun keep w => keep = true → ∀ pool, w.pool? p = some pool → pool.Retains :=
      ((LicensedFrom.of_licensed licensed_expectIdle).bind fun _ => licensedFrom_consult).owning
    refine (hdecide.weaken (fun _ _ => trivial) fun _ _ h => h).bind fun keep => ?_
    cases keep with
    | false => exact .of_licensed licensed_deallocate
    | true =>
        exact (licensedFrom_prepend h.key fun _ w hkept pool hp =>
          .inr ⟨hkeeps, hkept rfl pool hp⟩).owning.bind
          fun _ => .of_licensed ((licensed_emit rfl).bind fun _ => licensed_drop h.buffer)
  · rintro w ⟨hreleasable, rfl⟩
    exact absurd (hreleasable.resolve_left hkeeps) hone

theorem licensedFrom_release (lane : Lane) :
    LicensedFrom (σ := σ) L (Releasable L h.buffer) (release p lane h) fun _ _ => True :=
  (licensedFrom_of_spares (licensed_remove lane) (spares_remove p lane h)).owning.bind
    fun _ => licensedFrom_dispose

theorem licensedFrom_giveBack (lane : Lane) :
    LicensedFrom (σ := σ) L (Releasable L h.buffer) (giveBack p lane h) fun _ _ => True :=
  (licensedFrom_of_spares ((licensed_getBuffer h.buffer).bind fun _ => licensed_expect _ _)
    ((spares_getBuffer h.buffer).bind fun _ => spares_expect _ _)).owning.bind
      fun _ => licensedFrom_release lane

theorem licensedFrom_onSome {Q : Handle → World σ → Prop} {act : Handle → PoolM σ Unit}
    {obtained : Option Handle} (hact : ∀ h, obtained = some h → LicensedFrom L P (act h) fun _ => Q h) :
    LicensedFrom L P (onSome obtained act) fun r w => ∀ h, r = some h → Q h w := by
  cases obtained with
  | none => exact .pure nofun
  | some h => exact (hact h rfl).owning.bind fun _ => .pure fun w hQ h' hh => Option.some.inj hh ▸ hQ

theorem licensed_onSome {act : Handle → PoolM σ Unit} (hact : ∀ h, Licensed L (act h))
    (obtained : Option Handle) : Licensed L (onSome obtained act) :=
  (licensedFrom_onSome fun h _ => .of_licensed (P := fun _ => True) (hact h)).licensed

theorem licensed_provide (hleast : L.least ≤ size) : Licensed (σ := σ) L (provide p size) :=
  (licensed_getPool p).bind fun _ =>
    licensed_allocate (UInt64.le_trans hleast (SizeClass.le_atLeast size _))

theorem licensed_provideAcquired (hleast : L.least ≤ size) :
    Licensed (σ := σ) L (provideAcquired p size t) :=
  (licensed_provide hleast).bind (licensed_onSome fun h => licensed_acquire h.buffer t)

/-- What is provided as one-shot is one-shot. -/
theorem licensedFrom_provideTransient (hleast : L.least ≤ size) :
    LicensedFrom (σ := σ) L (fun _ => True) (provideTransient p size t) fun r w =>
      ∀ h, r = some h → OneShot h.buffer w :=
  (LicensedFrom.of_licensed (licensed_provideAcquired hleast)).bind fun _ => licensedFrom_onSome fun h _ =>
    (LicensedFrom.of_licensed (licensed_getBuffer h.buffer)).bind fun _ =>
      (LicensedFrom.of_licensed (licensed_expect _ _)).bind fun _ => licensedFrom_markTransient h.buffer

theorem licensed_provideLease (hleast : L.least ≤ size) :
    Licensed (σ := σ) L (provideLease p size t) :=
  ((licensedFrom_provideTransient hleast).bind fun _ => licensedFrom_onSome fun h hobtained =>
    (licensedFrom_markLease h.buffer).weaken (fun _ hone => hone h hobtained) fun _ _ h => h).licensed

theorem licensed_provideFull (hleast : L.least ≤ size) :
    Licensed (σ := σ) L (provideFull p size t) :=
  (licensed_getPool p).bind fun _ =>
    (licensed_allocateWithin (UInt64.le_trans hleast (SizeClass.le_atLeast size _))).bind
      (licensed_onSome fun h => (licensed_acquire h.buffer t).bind fun _ => licensed_insert nofun)

theorem licensed_provideTransientFull (hleast : L.least ≤ size) :
    Licensed (σ := σ) L (provideTransientFull p size t) :=
  (licensedFrom_provideTransient hleast).licensed.bind (licensed_onSome fun _ => licensed_insert nofun)

theorem licensed_provideLeaseTo (hleast : L.least ≤ size) {lane : Lane}
    (hlane : lane = .free → L.fills p) :
    Licensed (σ := σ) L (provideLeaseTo p lane size t) :=
  (licensed_provideLease hleast).bind (licensed_onSome fun h => (licensed_insert hlane).bind fun _ =>
    (licensed_getBuffer h.buffer).bind fun _ => licensed_expect _ _)

theorem licensed_takeWithin (retries remaining : Nat) :
    Licensed (σ := σ) L (takeWithin p size retries t remaining) := by
  induction remaining with
  | zero => exact .pure _
  | succ remaining ih =>
      refine (licensed_find size t).bind fun taken => ?_
      cases taken with
      | some h => exact .pure _
      | none => exact (licensed_note p _).bind fun _ => ih

theorem licensed_takeRetrying (retries : Nat) :
    Licensed (σ := σ) L (takeRetrying p size retries t) :=
  (licensed_getPool p).bind fun _ => (licensed_expect _ _).bind fun _ => licensed_takeWithin retries _

theorem licensed_takeDetached : Licensed (σ := σ) L (takeDetached p size t) :=
  (licensed_find size t).bind (licensed_onSome fun _ => licensed_remove .free)

theorem licensed_takeToFull : Licensed (σ := σ) L (takeToFull p size t) :=
  (licensed_getPool p).bind fun _ => (licensed_expect _ _).bind fun _ => (licensed_find size t).bind
    (licensed_onSome fun _ => licensed_move nofun)

theorem licensed_obtainFull (hleast : L.least ≤ size) :
    Licensed (σ := σ) L (obtainFull p size t) := by
  refine (licensed_getPool p).bind fun pool => ?_
  have hraised := UInt64.le_trans hleast (SizeClass.le_atLeast size pool.minimum)
  dsimp only
  split_ifs
  · refine licensed_takeToFull.bind fun taken => ?_
    cases taken with
    | some h => exact .pure _
    | none => exact licensed_provideFull hraised
  · exact licensed_provideFull hraised

theorem licensed_makeLease : Licensed (σ := σ) L (makeLease h) :=
  ((licensedFrom_markTransient (P := fun _ => True) h.buffer).bind fun _ =>
    licensedFrom_markLease h.buffer).licensed

theorem licensed_takeLeaseRetrying (retries : Nat) :
    Licensed (σ := σ) L (takeLeaseRetrying p size retries t) :=
  (licensed_takeRetrying retries).bind (licensed_onSome fun _ => licensed_makeLease)

theorem licensed_obtainLease (hleast : L.least ≤ size) :
    Licensed (σ := σ) L (obtainLease p size t) := by
  refine (licensed_find size t).bind fun taken => ?_
  cases taken with
  | some h =>
      exact licensed_onSome (fun h => licensed_makeLease.bind fun _ =>
        (licensed_getBuffer h.buffer).bind fun _ => licensed_expect _ _) _
  | none => exact licensed_provideLeaseTo hleast nofun

theorem licensed_preallocate (hfills : L.fills p) (hleast : L.least = 0)
    (allocated remaining : Nat) :
    Licensed (σ := σ) L (preallocate p allocated remaining) := by
  induction remaining generalizing allocated with
  | zero => exact .pure _
  | succ remaining ih =>
      refine (licensed_getPool p).bind fun pool => (licensed_allocateWithin ?_).bind fun obtained => ?_
      · rw [hleast]
        exact UInt64.zero_le
      cases obtained with
      | none => exact (licensed_note p _).bind fun _ => .pure _
      | some h =>
          exact (licensed_insert fun _ => hfills).owning.bind fun _ => (licensed_drop h.buffer).bind
            fun _ => ih _

/-- Closing a pool begins with emptying it. -/
theorem licensed_close : Licensed (σ := σ) L (close p) :=
  (licensed_getPool p).bind fun _ => licensed_drain.bind fun buffers => (licensed_note p _).bind
    fun _ => (licensed_retireAll buffers).bind fun _ => fun w => .single (.close w p)

/-- Closing a pool is a clean-up like any other. -/
theorem closing_eq_onFault (p : PoolId) (act : PoolM σ α) :
    closing p act = onFault (close p).leaves act := by
  funext w
  rw [closing, onFault]
  cases act w with
  | ok a w' => rfl
  | error fault w' =>
      dsimp only
      rw [leaves]
      cases close p w' <;> rfl

theorem Licensed.closing {act : PoolM σ α} (h : Licensed L act) :
    Licensed L (Pool.closing p act) := by
  rw [closing_eq_onFault]
  exact h.onFault licensed_close

/-- A pool that is set up is filled. -/
theorem licensedSteps_build (c : Config) {w : World σ} (hfills : L.fills w.pools.size)
    (hleast : L.least = 0) :
    LicensedSteps L w ((build c).leaves w) := by
  unfold build
  rw [leaves, PoolM.get_bind]
  cases hc : c.validate with
  | error e => exact .single (.found hfills rfl fun hlive => absurd hlive Bool.false_ne_true)
  | ok minimum =>
      have hadded : LicensedStep L w
          { w with pools := w.pools.push ⟨c, minimum, c.heap, .empty, 0, 0, true⟩ } :=
        .found hfills rfl fun _ => hc
      refine Relation.ReflTransGen.head hadded ?_
      refine Licensed.bind (Licensed.closing (licensed_preallocate hfills hleast 0 c.cacheCount))
        (fun failed => ?_) _
      cases failed with
      | some allocated => exact licensed_close.bind fun _ => .pure _
      | none => exact (licensed_note _ _).bind fun _ => .pure _

theorem licensed_capture (lane : Lane) (dir : Direction) :
    Licensed (σ := σ) L (capture p lane dir) :=
  (licensed_readArena p _).bind fun _ =>
    (Licensed.modify fun w => minor_hold w _).bind fun _ => .pure _

theorem licensed_visitAll {visit : α → Handle → PoolM σ (Bool × α)}
    (hv : ∀ a h, Licensed L (visit a h)) (handles : List Handle) (a : α) :
    Licensed L (visitAll visit a handles) := by
  induction handles generalizing a with
  | nil => exact .pure _
  | cons h rest ih =>
      refine (hv a h).bind fun r => ?_
      obtain ⟨more, a'⟩ := r
      cases more with
      | true => exact ih a'
      | false => exact .pure _

theorem licensed_traverse {visit : α → Handle → PoolM σ (Bool × α)}
    (hv : ∀ a h, Licensed L (visit a h)) (lane : Lane) (dir : Direction) (start : α) :
    Licensed L (traverse p lane dir visit start) :=
  (licensed_capture lane dir).bind fun handles =>
    Licensed.ensuring ((licensed_note p _).bind fun _ => licensed_visitAll hv handles start)
      fun w => licensedSteps_minor (minor_letGo w)

theorem licensed_travel {visit : α → Handle → PoolM σ (Bool × α)}
    (hv : ∀ a h, Licensed L (visit a h)) (route : Route) (dir : Direction) (start : α) :
    Licensed L (travel p route dir visit start) := by
  cases route with
  | full =>
      refine (licensed_count .full).bind fun n => ?_
      split_ifs
      · exact .pure _
      · exact (licensed_traverse hv .full dir start).bind fun _ => .pure _
  | free =>
      exact (licensed_count .free).bind fun n => (licensed_expect _ _).bind fun _ =>
        (licensed_traverse hv .free dir start).bind fun _ => .pure _
  | lane lane => exact (licensed_traverse hv lane dir start).bind fun _ => .pure _

end Pool

namespace Sweep

variable {s : Sweep} {me : Thread}

theorem licensed_hold : Licensed (σ := σ) L (s.hold me b) := by
  refine (licensed_getBuffer b).bind fun buffer => ?_
  split_ifs
  · exact .pure _
  · exact licensed_tryAcquire b s.maker

theorem licensed_recycle : Licensed (σ := σ) L (recycle me b) :=
  (licensed_reset b me).bind fun _ => (licensed_getBuffer b).bind fun _ => (licensed_expect _ _).bind
    fun _ => (licensed_getBuffer b).bind fun _ => (licensed_expect _ _).bind fun _ =>
      PoolM.licensed_release b

/-- A visit releases one-shot buffers only. -/
theorem licensed_visit : Licensed (σ := σ) L (s.visit me h) := by
  refine LicensedFrom.licensed (Q := fun _ _ => True) (LicensedFrom.of_getBuffer fun buffer => ?_)
  split_ifs with hone
  · refine LicensedFrom.bind ((Pool.licensedFrom_of_spares (licensed_retain h.buffer)
      (spares_retain h.buffer)).weaken (fun w hw => ?_) fun _ _ h => h) fun _ =>
        (Pool.licensedFrom_giveBack s.lane).bind fun _ => .pure fun _ _ => trivial
    obtain ⟨-, rfl⟩ := hw
    exact .inr hone
  · refine .of_licensed (licensed_hold.bind fun held => ?_)
    split_ifs
    · exact licensed_recycle.bind fun _ => .pure _
    · exact .pure _

theorem licensed_pass (route : Pool.Route) (dir : Direction) :
    Licensed (σ := σ) L (s.pass me route dir) :=
  (Pool.licensed_travel (fun _ _ => licensed_visit) route dir s).bind fun _ => .pure _

theorem licensed_passes (route : Pool.Route) (dir : Direction) (n : Nat) (s : Sweep) :
    Licensed (σ := σ) L (passes me route dir n s) := by
  induction n generalizing s with
  | zero => exact .pure _
  | succ n ih => exact (licensed_pass route dir).bind fun s' => (ih s').bind fun _ => .pure _

end Sweep

end BufferPool
