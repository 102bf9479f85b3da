import Mathlib.Data.UInt
import BufferPool.Proofs.Pool.Supplying
import BufferPool.Proofs.World.Past

/-!
# How new buffers are handed out

A new buffer is handed out plain, acquired, as a one-shot buffer, or as a lease, and it is detached or
goes to the head of a lane. Each way to be handed one adds a step to another way: it works on the buffer
that has just been made, or it puts that buffer into a lane. The step is taken only if there is a buffer,
nothing can refuse it, and it concerns no other buffer. So the outcome of the request for memory is the
outcome of the whole.
-/

namespace BufferPool

open Arena (Catalog)
open PoolM

/-- What becomes of a buffer that is handed out as a lease. -/
def Buffer.lend (b : Buffer) (t : Thread) : Buffer :=
  { b.claim t with transient := true, lease := true }

variable {σ : Type} {w w₁ w' : World σ} {p : PoolId} {pool : Pool}
  {minimum requested capacity size : UInt64} {c : Catalog BufferId} {f f' g : Buffer → Buffer}
  {target : Option Lane} {lane : Lane} {h : Handle} {t : Thread}
  {gone : List (Arena.Key × BufferId)} {found : Option Handle}

namespace World

/-- Nothing is done to a buffer that is not there. -/
theorem Provides.of_none (hp : w.Provides p requested capacity f none gone none w')
    (f' : Buffer → Buffer) (target : Option Lane) :
    w.Provides p requested capacity f' target gone none w' := by
  refine { hp with new := nofun, place := fun key b lane => ?_, row := fun lane => ?_ }
  · rw [hp.place]
    simp
  · rw [hp.row lane]
    split_ifs <;> rfl

/-- The detached buffer is worked on. -/
theorem Provides.work (hp : w.Provides p requested capacity f none gone (some h) w')
    (g : Buffer → Buffer) :
    w.Provides p requested capacity (g ∘ f) none gone (some h) (w'.modifyBuffer h.buffer g) := by
  obtain ⟨hh, hbuffer, hlt, hfresh⟩ := hp.new h rfl
  refine { hp with new := ?_, lost := nofun, buffer := fun b hb => ?_ }
  · rintro _ ⟨⟩
    refine ⟨hh, hbuffer, (size_modifyBuffer w' h.buffer g).symm ▸ hlt, ?_⟩
    rw [buffer_modifyBuffer_self g hlt, hfresh]
    rfl
  · refine (buffer_modifyBuffer_of_ne w' g ?_).trans (hp.buffer b hb)
    exact Nat.ne_of_lt (hbuffer ▸ hb)

/-- The detached buffer is put into a lane. -/
theorem Provides.enter (ht : w.Tidy p pool) (hs : w₁.Stocks p minimum c)
    (hp : w.Provides p requested capacity f none gone (some h) w₁) (lane : Lane) :
    ∃ w₂ c₂, Pool.insert p lane h w₁ = .ok () w₂ ∧
      w.Provides p requested capacity f (some lane) gone (some h) w₂ ∧ w₂.Stocks p minimum c₂ := by
  obtain ⟨hh, hbuffer, hlt, hfresh⟩ := hp.new h rfl
  obtain ⟨answer, hanswer, hevents⟩ := hp.told
  have hself : h = ⟨p, h.key, h.buffer⟩ := by rw [← hh]
  have hdetached : c.place h.key = some (h.buffer, none) := by
    rw [← hs.place?, hp.place]
    exact .inr ⟨congrArg some hself, rfl⟩
  obtain ⟨arena, hinsert, hs₂⟩ := Pool.insert_arrives hs hh lane hdetached
  refine ⟨_, _, hinsert, { hp with
    told := ⟨answer, hanswer, ?told⟩
    new := hp.new
    lost := nofun
    buffer := hp.buffer
    place := fun k b other => ?place
    row := fun other => ?row }, hs₂⟩
  case told =>
    have hone : ∀ w : World σ, w.welcome p (some lane) (some h) = w.arrival p lane h := fun w => by
      simp [welcome]
    have hnone : w₁.welcome p none (some h) = [] := rfl
    rw [hnone, List.nil_append] at hevents
    rw [hone, ← hevents]
    cases lane <;> rfl
  case place =>
    rw [hs₂.place?, Catalog.place_enter]
    by_cases hk : k = h.key
    · subst hk
      rw [if_pos rfl]
      constructor
      · rintro ⟨⟩
        exact .inr ⟨congrArg some hself, rfl⟩
      · rintro (hold | ⟨hsame, rfl⟩)
        -- The new buffer cannot have been there before.
        · have hplace := (hs.place? h.key).symm.trans ((hp.place h.key b other).2 (.inl hold))
          rw [hdetached] at hplace
          obtain ⟨rfl, rfl⟩ := Prod.mk.inj (Option.some.inj hplace)
          exact absurd (hbuffer ▸ ht.lt_size hold.1) (Nat.lt_irrefl _)
        · rw [Option.some.inj hsame]
    · have hne : some h ≠ some ⟨p, k, b⟩ := fun hsame => hk (by rw [Option.some.inj hsame])
      rw [if_neg hk, ← hs.place?, hp.place]
      simp [hne]
  case row =>
    rw [hs.row_enter hdetached hs₂, hp.row]
    by_cases hl : other = lane
    · rw [hl, if_pos rfl, if_pos rfl]
      rfl
    · rw [if_neg hl, if_neg (fun he => hl (Option.some.inj he).symm)]
      rfl

/-- It matters only what is done to a fresh buffer. -/
theorem Provides.congr (hp : w.Provides p requested capacity f target gone found w')
    (hf : f (.fresh w.format capacity) = f' (.fresh w.format capacity)) :
    w.Provides p requested capacity f' target gone found w' :=
  { hp with new := fun h hh => hf ▸ hp.new h hh }

end World

namespace Pool

open World

/-- The operation ends, and a buffer was provided or not. -/
def Delivers (p : PoolId) (pool : Pool) (requested capacity : UInt64) (f : Buffer → Buffer)
    (target : Option Lane) (act : PoolM σ (Option Handle)) (w : World σ) : Prop :=
  ∃ gone found w' c, act w = .ok found w' ∧
    w.Provides p requested capacity f target gone found w' ∧ w'.Stocks p pool.minimum c

theorem onSome_of_ok {act : Handle → PoolM σ Unit} (hr : act h w = .ok () w') :
    onSome (some h) act w = .ok (some h) w' := by
  rw [onSome, bind_of_ok _ (owning_of_ok hr)]
  rfl

/-- One more step. -/
theorem Delivers.step {act : PoolM σ (Option Handle)} {next : Handle → PoolM σ Unit}
    (ha : Delivers p pool requested capacity f none act w)
    (hnext : ∀ gone h w₁ c₁, w.Provides p requested capacity f none gone (some h) w₁ →
      w₁.Stocks p pool.minimum c₁ → ∃ w₂ c₂, next h w₁ = .ok () w₂ ∧
        w.Provides p requested capacity f' target gone (some h) w₂ ∧ w₂.Stocks p pool.minimum c₂) :
    Delivers p pool requested capacity f' target (act >>= fun found => onSome found next) w := by
  obtain ⟨gone, found, w₁, c₁, hr, hp, hs⟩ := ha
  cases found with
  | none => exact ⟨gone, none, w₁, c₁, bind_of_ok _ hr, hp.of_none f' target, hs⟩
  | some h =>
      obtain ⟨w₂, c₂, hr₂, hp₂, hs₂⟩ := hnext gone h w₁ c₁ hp hs
      exact ⟨gone, some h, w₂, c₂, (bind_of_ok _ hr).trans (onSome_of_ok hr₂), hp₂, hs₂⟩

/-- One more step that works on the buffer. -/
theorem Delivers.work {act : PoolM σ (Option Handle)} {next : Handle → PoolM σ Unit}
    (ha : Delivers p pool requested capacity f none act w)
    (hnext : ∀ (h : Handle) (w₁ : World σ), w₁.buffer h.buffer = f (.fresh w.format capacity) →
      next h w₁ = .ok () (w₁.modifyBuffer h.buffer g)) :
    Delivers p pool requested capacity (g ∘ f) none (act >>= fun found => onSome found next) w :=
  ha.step fun _ h w₁ c₁ hp hs =>
    ⟨_, c₁, hnext h w₁ (hp.new h rfl).2.2.2, hp.work g, hs.quiet (quiet_modifyBuffer w₁ h.buffer g)⟩

theorem Delivers.congr {act : PoolM σ (Option Handle)}
    (ha : Delivers p pool requested capacity f target act w)
    (hf : f (.fresh w.format capacity) = f' (.fresh w.format capacity)) :
    Delivers p pool requested capacity f' target act w := by
  obtain ⟨gone, found, w', c, hr, hp, hs⟩ := ha
  exact ⟨gone, found, w', c, hr, hp.congr hf, hs⟩

/-- The last step puts the buffer into a lane. -/
theorem Delivers.insert {act : PoolM σ (Option Handle)} (ht : w.Tidy p pool)
    (ha : Delivers p pool requested capacity f none act w) (lane : Lane) :
    Delivers p pool requested capacity f (some lane)
      (act >>= fun found => onSome found fun h => insert p lane h) w :=
  ha.step fun _ _ _ _ hp hs => hp.enter ht hs lane

section Ways

variable (ht : w.Tidy p pool) (hclass : SizeClass.ofRequest? size pool.minimum = some capacity)
include ht hclass

theorem delivers_provide :
    Delivers p pool (SizeClass.atLeast size pool.minimum) capacity id none (provide p size) w := by
  obtain ⟨gone, found, w', c, hr, hp, hs⟩ :=
    allocate_provides ht ((SizeClass.ofRequest?_atLeast size pool.minimum).trans hclass)
  exact ⟨gone, found, w', c, (bind_of_ok _ (getPool_of_some ht.present)).trans hr, hp, hs⟩

theorem delivers_provideAcquired (t : Thread) :
    Delivers p pool (SizeClass.atLeast size pool.minimum) capacity (·.claim t) none
      (provideAcquired p size t) w :=
  (delivers_provide ht hclass).work (g := (·.claim t)) fun _ _ hb =>
    acquire_ok t (congrArg Buffer.owner hb)

theorem delivers_provideTransient (t : Thread) :
    Delivers p pool (SizeClass.atLeast size pool.minimum) capacity
      (fun b => { b.claim t with transient := true }) none (provideTransient p size t) w := by
  refine (delivers_provideAcquired ht hclass t).work
    (g := fun b => { b with transient := true }) fun h w₁ hb => ?_
  rw [getBuffer_bind, hb, Buffer.ownedBy, Buffer.claim, beq_self_eq_true,
    bind_of_ok _ (expect_true _ w₁)]
  rfl

theorem delivers_provideLease (t : Thread) :
    Delivers p pool (SizeClass.atLeast size pool.minimum) capacity (·.lend t) none
      (provideLease p size t) w := by
  refine (delivers_provideTransient ht hclass t).work
    (g := fun b => { b with lease := true }) fun h w₁ hb => ?_
  rw [markLease, getBuffer_bind, hb, bind_of_ok _ (expect_true _ w₁)]
  rfl

/-- All in one critical section. -/
theorem delivers_provideFull (t : Thread) :
    Delivers p pool (SizeClass.atLeast size pool.minimum) capacity (·.claim t) (some .full)
      (provideFull p size t) w := by
  have hone : provideFull (σ := σ) p size t = (provide p size >>= fun found =>
      onSome found fun h => do
        acquire h.buffer t
        insert p .full h) := by
    simp only [provideFull, provide, allocateWithin_eq_allocate, bind_assoc]
  rw [hone]
  refine (delivers_provide ht hclass).step fun gone h w₁ c₁ hp hs => ?_
  obtain ⟨w₂, c₂, hinsert, hp₂, hs₂⟩ := (hp.work (·.claim t)).enter ht
    (hs.quiet (quiet_modifyBuffer w₁ h.buffer (·.claim t))) .full
  have hacquire := acquire_ok t (congrArg Buffer.owner (hp.new h rfl).2.2.2)
  exact ⟨w₂, c₂, (bind_of_ok _ hacquire).trans hinsert, hp₂, hs₂⟩

theorem delivers_provideTransientFull (t : Thread) :
    Delivers p pool (SizeClass.atLeast size pool.minimum) capacity
      (fun b => { b.claim t with transient := true }) (some .full) (provideTransientFull p size t) w :=
  (delivers_provideTransient ht hclass t).insert ht .full

theorem delivers_provideLeaseTo (lane : Lane) (t : Thread) :
    Delivers p pool (SizeClass.atLeast size pool.minimum) capacity (·.lend t) (some lane)
      (provideLeaseTo p lane size t) w := by
  refine (delivers_provideLease ht hclass t).step fun gone h w₁ c₁ hp hs => ?_
  obtain ⟨w₂, c₂, hinsert, hp₂, hs₂⟩ := hp.enter ht hs lane
  refine ⟨w₂, c₂, (bind_of_ok _ hinsert).trans ?_, hp₂, hs₂⟩
  rw [getBuffer_bind, (hp₂.new h rfl).2.2.2]
  exact expect_true _ w₂

end Ways

end Pool

namespace World

/-- A new buffer, worked on as `f` says, was provided at the head of the full lane, as far as that is on
record. -/
structure Furnishes (p : PoolId) (capacity : UInt64) (f : Buffer → Buffer)
    (gone : List (Arena.Key × BufferId)) (found : Option Handle) (w w' : World σ) : Prop where
  supplied : found.isSome = w.supplies p capacity
  abandoned : ∀ key b, (key, b) ∈ gone ↔ w.place? p key = some (b, none) ∧ w.refs b = 1
  /-- The heap was asked once, and the new buffer was published once. -/
  record : ∃ e : Event, e.asks p capacity = true ∧ w'.record =
    found.toList.flatMap (fun h =>
      [.inserted p .full h.key, .published p h.buffer h.key (Buffer.fresh w.format capacity).totalSize,
        .allocated p h.buffer (Buffer.fresh w.format capacity).totalSize]) ++ e ::
      ((gone.map fun g => .deallocated p g.2 (w.buffer g.2).totalSize).reverse ++ w.record)
  new : ∀ h, found = some h → h.pool = p ∧ h.buffer = w.cells.size ∧
    w'.buffer h.buffer = f (.fresh w.format capacity)
  place : ∀ key b lane, w'.place? p key = some (b, lane) ↔
    (w.place? p key = some (b, lane) ∧ (key, b) ∉ gone) ∨ found = some ⟨p, key, b⟩ ∧ lane = some .full
  free : w'.row p .free = w.row p .free
  full : w'.row p .full = found.toList.map (fun h => (h.key, h.buffer)) ++ w.row p .full

/-- A buffer that is provided at the head of the full lane is furnished. -/
theorem Provides.furnishes (hf : ∀ b, (f b).totalSize = b.totalSize)
    (hp : w.Provides p requested capacity f (some .full) gone found w') :
    w.Furnishes p capacity f gone found w' := by
  refine ⟨hp.supplied, hp.abandoned, ?record, fun h hh => ?new, hp.place, hp.row .free, hp.row .full⟩
  case record =>
    obtain ⟨answer, hanswer, hevents⟩ := hp.told
    obtain ⟨e, hasks, hrecord⟩ := hanswer.record
    have hwelcome : (w'.welcome p (some .full) found).filter Event.isRecorded =
        found.toList.flatMap fun h => [.inserted p .full h.key,
          .published p h.buffer h.key (Buffer.fresh w.format capacity).totalSize] := by
      cases found with
      | none => rfl
      | some h =>
          rw [← hf, ← (hp.new h rfl).2.2.2]
          rfl
    refine ⟨e, hasks, ?_⟩
    rw [← List.append_assoc, ← List.append_assoc] at hevents
    rw [record_append hevents, List.filter_append, List.filter_append, hwelcome, hrecord,
      record_clearance]
    cases found with
    | none => rfl
    | some h => simp
  case new =>
    obtain ⟨hh, hbuffer, -, hworked⟩ := hp.new h hh
    exact ⟨hh, hbuffer, hworked⟩

theorem ofNat_sum_toNat {α : Type} (l : List α) (size : α → UInt64) :
    UInt64.ofNat (l.map fun a => (size a).toNat).sum = (l.map size).sum := by
  induction l with
  | nil => rfl
  | cons a rest ih =>
      rw [List.map_cons, List.sum_cons, List.map_cons, List.sum_cons, UInt64.ofNat_add, ih,
        UInt64.ofNat_toNat]

/-- Only a buffer that was made counts. -/
theorem Answers.totals {made : Option BufferId} {told : List Event}
    (h : w.Answers p requested capacity made told) :
    (told.map (Event.allocatedTo p)).sum =
      (made.toList.map fun _ => (Buffer.fresh w.format capacity).totalSize.toNat).sum ∧
    (told.map (Event.deallocatedFrom p)).sum = 0 := by
  cases h with
  | denied _ he => rcases he with rfl | rfl <;> exact ⟨rfl, rfl⟩
  | unready => exact ⟨rfl, rfl⟩
  | made => exact ⟨by simp [Event.allocatedTo], rfl⟩

/-- What leaves for good does not count any more. -/
theorem totals_farewells (w : World σ) (p : PoolId) (buffers : List BufferId) :
    ((buffers.flatMap (w.farewell p)).map (Event.allocatedTo p)).sum = 0 ∧
    ((buffers.flatMap (w.farewell p)).map (Event.deallocatedFrom p)).sum =
      (buffers.map fun b => (w.buffer b).totalSize.toNat).sum := by
  induction buffers with
  | nil => exact ⟨rfl, rfl⟩
  | cons b rest ih =>
      rw [List.flatMap_cons, List.map_append, List.sum_append, ih.1, List.map_append, List.sum_append,
        ih.2, List.map_cons, List.sum_cons]
      exact ⟨rfl, congrArg (· + _) (by simp [farewell, Event.deallocatedFrom])⟩

theorem totals_clearance (w : World σ) (p : PoolId) (gone : List (Arena.Key × BufferId)) :
    ((w.clearance p gone).map (Event.allocatedTo p)).sum = 0 ∧
    ((w.clearance p gone).map (Event.deallocatedFrom p)).sum =
      (gone.map fun g => (w.buffer g.2).totalSize.toNat).sum := by
  have hfarewells := totals_farewells w p (gone.map (·.2))
  rw [List.flatMap_map, List.map_map] at hfarewells
  have hnote : ∀ f : Event → Nat, (∀ n, f (.noted p n) = 0) →
      ((if gone = [] then [] else [Event.noted p (.reclaiming gone.length)]).map f).sum = 0 := by
    intro f hf
    split_ifs
    · rfl
    · simp [hf]
  constructor
  · rw [clearance, List.map_append, List.sum_append, hnote _ fun _ => rfl, List.map_reverse,
      List.sum_reverse]
    exact hfarewells.1
  · rw [clearance, List.map_append, List.sum_append, hnote _ fun _ => rfl, List.map_reverse,
      List.sum_reverse]
    exact hfarewells.2

/-- Being put into a lane does not count. -/
theorem totals_welcome (w : World σ) (p : PoolId) (target : Option Lane) (found : Option Handle) :
    ((w.welcome p target found).map (Event.allocatedTo p)).sum = 0 ∧
    ((w.welcome p target found).map (Event.deallocatedFrom p)).sum = 0 := by
  cases found with
  | none => exact ⟨rfl, rfl⟩
  | some h =>
      cases target with
      | none => exact ⟨rfl, rfl⟩
      | some lane => cases lane <;> exact ⟨rfl, rfl⟩

/-- What was made and what was reclaimed, and nothing else, is told of the account. -/
theorem Provides.totals (hp : w.Provides p requested capacity f target gone found w')
    (hf : ∀ b, (f b).totalSize = b.totalSize) :
    w'.allocatedTotal p = w.allocatedTotal p +
      (found.toList.map fun h => (w'.buffer h.buffer).totalSize.toNat).sum ∧
    w'.deallocatedTotal p = w.deallocatedTotal p +
      (gone.map fun g => (w.buffer g.2).totalSize.toNat).sum := by
  obtain ⟨answer, hanswer, hevents⟩ := hp.told
  rw [← List.append_assoc, ← List.append_assoc] at hevents
  have hmade : found.toList.map (fun h => (w'.buffer h.buffer).totalSize.toNat) =
      (found.map (·.buffer)).toList.map
        fun _ => (Buffer.fresh w.format capacity).totalSize.toNat := by
    cases found with
    | none => rfl
    | some h =>
        rw [Option.toList_some, List.map_singleton, (hp.new h rfl).2.2.2, hf]
        rfl
  constructor
  · rw [allocatedTotal_append hevents, List.map_append, List.map_append, List.sum_append,
      List.sum_append, (totals_welcome ..).1, hanswer.totals.1, (totals_clearance ..).1, hmade,
      Nat.zero_add, Nat.add_zero, Nat.add_comm]
  · rw [deallocatedTotal_append hevents, List.map_append, List.map_append, List.sum_append,
      List.sum_append, (totals_welcome ..).2, hanswer.totals.2, (totals_clearance ..).2,
      Nat.zero_add, Nat.add_comm]

/-- The account grows by what was made and shrinks by what was reclaimed. -/
theorem Provides.allocated {counted counted' : Multiset BufferId} {before after : UInt64}
    (hp : w.Provides p requested capacity f target gone found w')
    (hf : ∀ b, (f b).totalSize = b.totalSize) (hpast : Past counted w) (hpast' : Past counted' w')
    (hbefore : w.allocated? p = some before) (hafter : w'.allocated? p = some after) :
    after = before - (gone.map fun g => (w.buffer g.2).totalSize).sum +
      (found.toList.map fun h => (w'.buffer h.buffer).totalSize).sum := by
  obtain ⟨hin, hout⟩ := hp.totals hf
  have hthen := hpast'.allocated p after hafter
  rw [hin, hout, UInt64.ofNat_add, UInt64.ofNat_add, ofNat_sum_toNat, ofNat_sum_toNat,
    ← hpast.allocated p before hbefore] at hthen
  rw [← UInt64.add_left_inj (UInt64.ofNat (w.deallocatedTotal p) +
    (gone.map fun g => (w.buffer g.2).totalSize).sum), hthen]
  grind

end World

namespace Pool

open World

theorem Delivers.furnishes {act : PoolM σ (Option Handle)}
    (ha : Delivers p pool requested capacity f (some .full) act w)
    (hf : ∀ b, (f b).totalSize = b.totalSize) :
    ∃ gone found w', act w = .ok found w' ∧ w.Furnishes p capacity f gone found w' ∧
      ∀ b < w.cells.size, w'.buffer b = w.buffer b := by
  obtain ⟨gone, found, w', -, hr, hp, -⟩ := ha
  exact ⟨gone, found, w', hr, hp.furnishes hf, hp.buffer⟩

/-- A new buffer at the head of the full lane. -/
theorem provideFull_furnishes (ht : w.Tidy p pool)
    (hclass : SizeClass.ofRequest? size pool.minimum = some capacity) (t : Thread) :
    ∃ gone found w', provideFull p size t w = .ok found w' ∧
      w.Furnishes p capacity (·.claim t) gone found w' ∧
      ∀ b < w.cells.size, w'.buffer b = w.buffer b :=
  (delivers_provideFull ht hclass t).furnishes fun _ => rfl

/-- A new lease at the head of the full lane. -/
theorem provideLeaseTo_furnishes (ht : w.Tidy p pool)
    (hclass : SizeClass.ofRequest? size pool.minimum = some capacity) (t : Thread) :
    ∃ gone found w', provideLeaseTo p .full size t w = .ok found w' ∧
      w.Furnishes p capacity (·.lend t) gone found w' ∧
      ∀ b < w.cells.size, w'.buffer b = w.buffer b :=
  (delivers_provideLeaseTo ht hclass .full t).furnishes fun _ => rfl

end Pool

end BufferPool
