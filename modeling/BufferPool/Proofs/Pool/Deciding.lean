import BufferPool.Proofs.Pool.Completion
import BufferPool.Proofs.Pool.Discarding
import BufferPool.Proofs.World.Record

/-!
# What is decided about a buffer that is given up

A buffer that is released leaves its lane. Then the rule of its pool is asked once whether to keep it,
unless it is one-shot. The rule is shown a census without the buffer in either lane, in which its size
still counts. A buffer that is kept goes to the head of the free lane under the key that it had, and
any other one leaves the pool. Nothing else in the lanes moves, and no buffer is changed.
-/

namespace BufferPool

open Arena (Catalog)
open PoolM

variable {σ : Type} {w w' : World σ} {p : PoolId} {pool : Pool} {minimum : UInt64}
  {c : Catalog BufferId} {lane : Lane} {h : Handle} {b : BufferId} {verdict : Option Bool}
  {census : Census}

namespace World

/-- What the rule of a pool is shown when it is asked about the buffer under a key. -/
def censusWithout (w : World σ) (p : PoolId) (pool : Pool) (key : Arena.Key) : Census :=
  ⟨((w.row p .free).filter (·.1 != key)).length, ((w.row p .full).filter (·.1 != key)).length,
    pool.config.cacheCount, pool.allocated, pool.config.limit⟩

/-- What the rule says about the buffer of the handle. It is not asked about a one-shot buffer. -/
def verdict? (w : World σ) (p : PoolId) (pool : Pool) (h : Handle) : Option Bool :=
  if (w.buffer h.buffer).transient then none
  else some (pool.config.retention.keeps pool.consultations (w.censusWithout p pool h.key))

/-- The rule of the pool was asked, if there is a verdict, and nothing else has happened. -/
structure Consults (p : PoolId) (pool : Pool) (verdict : Option Bool) (census : Census)
    (w w' : World σ) : Prop where
  pool : w'.pool? p = some { pool with consultations := pool.consultations + verdict.toList.length }
  pools : ∀ q, q ≠ p → w'.pools[q]? = w.pools[q]?
  place : ∀ key, w'.place? p key = w.place? p key
  row : ∀ lane, w'.row p lane = w.row p lane
  buffer : ∀ b, w'.buffer b = w.buffer b
  record : w'.record = verdict.toList.map (.consulted p census) ++ w.record
  profile : w'.profile = w.profile
  size : w'.cells.size = w.cells.size

/-- The buffer of the handle has left its lane. It is at the head of the free lane if the verdict is to
keep it, and otherwise it has left the pool. -/
structure Decides (p : PoolId) (h : Handle) (pool : Pool) (verdict : Option Bool) (census : Census)
    (w w' : World σ) : Prop where
  place : ∀ key, w'.place? p key =
    if key = h.key then if verdict = some true then some (h.buffer, some .free) else none
    else w.place? p key
  row : ∀ lane, w'.row p lane =
    if verdict = some true ∧ lane = .free then
      (h.key, h.buffer) :: (w.row p lane).filter (·.1 != h.key)
    else (w.row p lane).filter (·.1 != h.key)
  /-- A verdict is one question more, and what leaves the pool is not allocated any more. -/
  pool : ∃ arena, w'.pool? p = some { pool with
    arena := arena
    allocated := if verdict = some true then pool.allocated
      else pool.allocated - (w.buffer h.buffer).totalSize
    consultations := pool.consultations + verdict.toList.length }
  pools : ∀ q, q ≠ p → w'.pools[q]? = w.pools[q]?
  buffer : ∀ b, w'.buffer b = w.buffer b
  record : w'.record =
    (if verdict = some true then .kept p h.key
      else .deallocated p h.buffer (w.buffer h.buffer).totalSize) ::
    (verdict.toList.map (.consulted p census) ++ w.record)

/-- A detached buffer is in no lane. -/
theorem Stocks.row_filter (hs : w.Stocks p minimum c) (hp : c.place h.key = some (b, none))
    (lane : Lane) : (w.row p lane).filter (·.1 != h.key) = w.row p lane := by
  rw [List.filter_eq_self]
  intro e he
  refine bne_iff_ne.2 fun hsame => ?_
  have hlisted := hs.mem_row.1 he
  rw [hs.place?, hsame, hp] at hlisted
  exact nomatch hlisted

/-- What was a member of a lane before it was decided about. -/
theorem Decides.after_remove {arena : Arena BufferId} (hs : w.Stocks p minimum c)
    (hp : c.place h.key = some (b, some lane))
    (hs₁ : (w.setArena p arena).Stocks p minimum (c.leave lane h.key b))
    (h' : Decides p h { pool with arena := arena } verdict census (w.setArena p arena) w') :
    Decides p h pool verdict census w w' := by
  have hplace : ∀ key, key ≠ h.key → (w.setArena p arena).place? p key = w.place? p key :=
    fun key hne => by rw [hs₁.place?, Catalog.place_leave, if_neg hne, hs.place?]
  refine ⟨fun key => ?_, fun lane' => ?_, h'.pool, fun q hq => ?_, h'.buffer, h'.record⟩
  · rw [h'.place]
    by_cases hkey : key = h.key
    · rw [if_pos hkey, if_pos hkey]
    · rw [if_neg hkey, if_neg hkey, hplace key hkey]
  · rw [h'.row, hs.row_leave hp hs₁, List.filter_filter]
    simp only [Bool.and_self]
  · exact (h'.pools q hq).trans (pools_modifyPool_of_ne hq w _)

end World

namespace Pool

open World

/-- What is detached can always be deallocated. -/
theorem deallocate_records (hs : w.Stocks p minimum c) (hh : h.pool = p)
    (hpool : w.pool? p = some pool) (hp : c.place h.key = some (b, none)) :
    ∃ w', deallocate p h w = .ok () w' ∧ w'.Stocks p minimum (c.delete [h.key]) ∧
      w'.profile = w.profile ∧ w'.cells.size = w.cells.size ∧
      (∃ arena, w'.pool? p = some { pool with
        arena := arena
        allocated := pool.allocated - (w.buffer b).totalSize }) ∧
      (∀ q, q ≠ p → w'.pools[q]? = w.pools[q]?) ∧ (∀ b, w'.buffer b = w.buffer b) ∧
      w'.record = .deallocated p b (w.buffer b).totalSize :: w.record := by
  obtain ⟨arena, hon, hs₁⟩ := stocks_unregister hs hp
  let w₁ := w.setArena p arena
  let w₂ := (retire p b).leaves (w₁.drop h.buffer)
  have hout : owning h.buffer (do
      checkOwner p h
      onArena p (·.unregister h.key)) w = .ok b w₁ :=
    owning_of_ok ((bind_of_ok _ (checkOwner_of_eq hh)).trans hon)
  have hdrop : (PoolM.drop h.buffer : PoolM σ Unit) w₁ = .ok () (w₁.drop h.buffer) := rfl
  have hretire : retire p b (w₁.drop h.buffer) = .ok () w₂ := rfl
  have htotal : ((w₁.drop h.buffer).buffer b).totalSize = (w.buffer b).totalSize :=
    congrArg Buffer.totalSize (buffer_drop w₁ h.buffer b)
  have hquiet := ((quiet_drop w₁ h.buffer).trans (quiet_retire p b (w₁.drop h.buffer))).trans
    (quiet_drop w₂ b)
  let f (pool : Pool) : Pool :=
    { pool with allocated := pool.allocated - ((w₁.drop h.buffer).buffer b).totalSize }
  have hpools : (w₂.drop b).pools = ((w₁.drop h.buffer).modifyPool p f).pools := pools_drop w₂ b
  refine ⟨w₂.drop b, ?_, hs₁.quiet hquiet, hquiet.profile,
    (size_drop w₂ b).trans (size_drop w₁ h.buffer), ⟨arena, ?_⟩, fun q hq => ?_, fun b' => ?_, ?_⟩
  · rw [deallocate, bind_of_ok _ hout, bind_of_ok _ hdrop, bind_of_ok _ hretire]
    rfl
  · have hpool₁ : (w₁.drop h.buffer).pool? p = some { pool with arena := arena } := by
      rw [pool?, pools_drop]
      exact (pool?_setArena w p p arena).trans (by rw [if_pos rfl, hpool]; rfl)
    have hpool₂ : (w₂.drop b).pool? p = ((w₁.drop h.buffer).modifyPool p f).pool? p := by
      rw [pool?, hpools, pool?]
    rw [hpool₂, pool?_modifyPool _ p p f (by intro; rfl), if_pos rfl, hpool₁, Option.map_some,
      ← htotal]
  · rw [hpools, pools_modifyPool_of_ne hq, pools_drop]
    exact pools_modifyPool_of_ne hq w _
  · rw [buffer_drop]
    exact buffer_drop w₁ h.buffer b'
  · have hrecord : w₂.record =
        .deallocated p b ((w₁.drop h.buffer).buffer b).totalSize :: (w₁.drop h.buffer).record := rfl
    rw [record_drop, hrecord, htotal, record_drop]
    rfl

/-- Nothing is counted but the members of the lanes. -/
theorem census_eq (hs : w.Stocks p minimum c) (hpool : w.pool? p = some pool) :
    Pool.census p w = .ok ⟨(w.row p .free).length, (w.row p .full).length, pool.config.cacheCount,
      pool.allocated, pool.config.limit⟩ w := by
  rw [hs.length_row hpool, hs.length_row hpool, Pool.census, bind_of_ok _ (getPool_of_some hpool)]
  rfl

/-- The rule is asked about a detached buffer. -/
theorem consult_consults (hs : w.Stocks p minimum c) (hpool : w.pool? p = some pool)
    (hp : c.place h.key = some (b, none)) :
    let census := w.censusWithout p pool h.key
    let keep := pool.config.retention.keeps pool.consultations census
    ∃ w', consult p w = .ok keep w' ∧ Consults p pool (some keep) census w w' ∧
      w'.Stocks p minimum c := by
  intro census keep
  let f (pool : Pool) : Pool := { pool with consultations := pool.consultations + 1 }
  let w' := (w.modifyPool p f).emit (.consulted p census keep)
  have hcensus : Pool.census p w = .ok census w := by
    have hrows := census_eq hs hpool
    rwa [← hs.row_filter hp .free, ← hs.row_filter hp .full] at hrows
  have hconsult : consult p w = .ok keep w' := by
    rw [consult, bind_of_ok _ hcensus, bind_of_ok _ (getPool_of_some hpool)]
    rfl
  have hquiet : World.Quiet w w' := by
    have hq := quiet_consult p w
    rwa [leaves_of_ok hconsult] at hq
  refine ⟨w', hconsult, ⟨?_, fun q hq => pools_modifyPool_of_ne hq w f,
    place?_congr (hquiet.arena p), World.row_congr (hquiet.arena p), fun _ => rfl, rfl, rfl, rfl⟩,
    hs.quiet hquiet⟩
  change (w.modifyPool p f).pool? p = _
  rw [pool?_modifyPool w p p f (by intro; rfl), if_pos rfl, hpool]
  rfl

/-- Without a favourable verdict a detached buffer leaves the pool. -/
theorem deallocate_decides {w₁ : World σ} (hc : Consults p pool verdict census w w₁)
    (hs : w.Stocks p minimum c) (hs₁ : w₁.Stocks p minimum c) (hh : h.pool = p)
    (hp : c.place h.key = some (h.buffer, none)) (hno : verdict ≠ some true) :
    ∃ w' c', deallocate p h w₁ = .ok () w' ∧ Decides p h pool verdict census w w' ∧
      w'.Stocks p minimum c' ∧ w'.profile = w.profile ∧ w'.cells.size = w.cells.size := by
  obtain ⟨w', hr, hs', hprofile, hsize, ⟨arena, harena⟩, hpools, hbuffer, hrecord⟩ :=
    deallocate_records hs₁ hh hc.pool hp
  rw [hc.buffer] at harena hrecord
  refine ⟨w', _, hr, ⟨fun key => ?_, fun lane => ?_, ⟨arena, ?_⟩, fun q hq => ?_, fun b => ?_, ?_⟩,
    hs', hprofile.trans hc.profile, hsize.trans hc.size⟩
  · rw [hs'.place?, if_neg hno, hs.place?]
    simp only [Catalog.delete, List.mem_singleton]
  · have hkeys : ∀ key ∈ [h.key], ∃ b, c.place key = some (b, none) :=
      fun key hk => ⟨h.buffer, List.mem_singleton.1 hk ▸ hp⟩
    rw [if_neg fun hyes => hno hyes.1, hs.row_filter hp, hs₁.row_delete hkeys hs', hc.row]
  · rw [if_neg hno]
    exact harena
  · exact (hpools q hq).trans (hc.pools q hq)
  · exact (hbuffer b).trans (hc.buffer b)
  · rw [if_neg hno, hrecord, hc.record]

/-- With a favourable verdict a detached buffer enters the free lane. -/
theorem keep_decides {w₁ : World σ} (hc : Consults p pool (some true) census w w₁)
    (hs : w.Stocks p minimum c) (hs₁ : w₁.Stocks p minimum c)
    (hp : c.place h.key = some (h.buffer, none)) :
    ∃ w' c', (do
        owning h.buffer (onArena p fun arena => (arena.prepend .free h.key).map ((), ·))
        PoolM.emit (.kept p h.key)
        PoolM.drop h.buffer) w₁ = .ok () w' ∧ Decides p h pool (some true) census w w' ∧
      w'.Stocks p minimum c' ∧ w'.profile = w.profile ∧ w'.cells.size = w.cells.size := by
  obtain ⟨arena, hon, hs₂⟩ := stocks_prepend hs₁ .free hp
  let w₂ := (w₁.setArena p arena).emit (.kept p h.key)
  have hquiet : World.Quiet (w₁.setArena p arena) (w₂.drop h.buffer) :=
    (quiet_emit (.kept p h.key) _).trans (quiet_drop w₂ h.buffer)
  have hs' := hs₂.quiet hquiet
  have hpools : (w₂.drop h.buffer).pools = (w₁.setArena p arena).pools := pools_drop w₂ h.buffer
  refine ⟨w₂.drop h.buffer, _, bind_of_ok _ (owning_of_ok hon), ⟨fun key => ?_, fun lane => ?_,
    ⟨arena, ?_⟩, fun q hq => ?_, fun b => ?_, ?_⟩, hs', ?_, (size_drop w₂ h.buffer).trans hc.size⟩
  · rw [hs'.place?, Catalog.place_enter, hs.place?, if_pos rfl]
  · rw [hs.row_filter hp, hs₁.row_enter hp hs', hc.row]
    simp only [true_and]
  · rw [pool?, hpools]
    refine (pool?_setArena w₁ p p arena).trans ?_
    rw [if_pos rfl, hc.pool]
    rfl
  · rw [hpools]
    exact (pools_modifyPool_of_ne hq w₁ _).trans (hc.pools q hq)
  · exact (buffer_drop w₂ h.buffer b).trans (hc.buffer b)
  · have hrecord : w₂.record = .kept p h.key :: w₁.record := rfl
    rw [record_drop, hrecord, hc.record, if_pos rfl]
  · exact hquiet.profile.trans hc.profile

/-- A detached buffer is kept if the rule says so. It leaves the pool if the rule says no, and if it is
one-shot. -/
theorem dispose_decides (hs : w.Stocks p minimum c) (hh : h.pool = p)
    (hpool : w.pool? p = some pool) (hp : c.place h.key = some (h.buffer, none))
    (hfit : (w.buffer h.buffer).transient = false →
      w.profile = .unchecked ∨ (w.buffer h.buffer).unfit? = none) :
    ∃ w' c', dispose p h w = .ok () w' ∧
      Decides p h pool (w.verdict? p pool h) (w.censusWithout p pool h.key) w w' ∧
      w'.Stocks p minimum c' ∧ w'.profile = w.profile ∧ w'.cells.size = w.cells.size := by
  rw [dispose, getBuffer_bind, verdict?]
  cases hone : (w.buffer h.buffer).transient with
  | true =>
      let w₁ := w.tell [.noted p .releasingTransient]
      have hsilent : Consults p pool none (w.censusWithout p pool h.key) w w₁ :=
        ⟨hpool, fun _ _ => rfl, fun _ => rfl, fun _ => rfl, fun _ => rfl, rfl, rfl, rfl⟩
      have hs₁ : w₁.Stocks p minimum c := hs.tell [.noted p .releasingTransient]
      exact deallocate_decides hsilent hs hs₁ hh hp (Option.some_ne_none true).symm
  | false =>
      obtain ⟨w₁, hconsult, hconsults, hs₁⟩ := consult_consults hs hpool hp
      rw [if_neg Bool.false_ne_true, if_neg Bool.false_ne_true,
        bind_of_ok _ (owning_of_ok ((bind_of_ok _ (expectIdle_of_fit (hfit hone))).trans hconsult))]
      cases hkeep : pool.config.retention.keeps pool.consultations (w.censusWithout p pool h.key) with
      | true =>
          rw [hkeep] at hconsults
          exact keep_decides hconsults hs hs₁ hp
      | false =>
          rw [hkeep] at hconsults
          exact deallocate_decides hconsults hs hs₁ hh hp (by decide)

/-- A member of a lane leaves it, and then it is decided about. -/
theorem release_decides (hs : w.Stocks p minimum c) (hh : h.pool = p)
    (hpool : w.pool? p = some pool) (hp : c.place h.key = some (h.buffer, some lane))
    (hfit : (w.buffer h.buffer).transient = false →
      w.profile = .unchecked ∨ (w.buffer h.buffer).unfit? = none) :
    ∃ w' c', release p lane h w = .ok () w' ∧
      Decides p h pool (w.verdict? p pool h) (w.censusWithout p pool h.key) w w' ∧
      w'.Stocks p minimum c' ∧ w'.profile = w.profile ∧ w'.cells.size = w.cells.size := by
  obtain ⟨arena, hon, hs₁⟩ := stocks_remove hs hp
  let w₁ := w.setArena p arena
  have hremove : remove p lane h w = .ok () w₁ := (bind_of_ok _ (checkOwner_of_eq hh)).trans hon
  have hpool₁ : w₁.pool? p = some { pool with arena := arena } := by
    rw [pool?_setArena, if_pos rfl, hpool, Option.map_some]
  have hdetached : (c.leave lane h.key h.buffer).place h.key = some (h.buffer, none) :=
    Function.update_self ..
  obtain ⟨w', c', hr, hdecides, hs', hprofile, hsize⟩ :=
    dispose_decides hs₁ hh hpool₁ hdetached hfit
  -- the rule is shown the same census, since it does not matter that the buffer has left already
  have hcensus : w₁.censusWithout p { pool with arena := arena } h.key =
      w.censusWithout p pool h.key := by
    rw [censusWithout, censusWithout, hs.row_leave hp hs₁, hs.row_leave hp hs₁]
    simp only [List.filter_filter, Bool.and_self]
  have hverdict : w₁.verdict? p { pool with arena := arena } h = w.verdict? p pool h := by
    rw [verdict?, verdict?, hcensus]
    rfl
  rw [hcensus, hverdict] at hdecides
  refine ⟨w', c', ?_, hdecides.after_remove hs hp hs₁, hs', hprofile, hsize⟩
  rw [release, bind_of_ok _ (owning_of_ok hremove)]
  exact hr

theorem giveBack_of_flushed
    (hflushed : w.profile = .checked → (w.buffer h.buffer).unflushedSize = 0) :
    giveBack p lane h w = release p lane h w := by
  have hmet : expect (σ := σ) ((w.buffer h.buffer).unflushedSize == 0)
      (.flushed (w.buffer h.buffer).unflushedSize) w = .ok () w := by
    cases hc : w.profile with
    | checked =>
        rw [hflushed hc]
        exact expect_true _ w
    | unchecked => exact expect_of_unchecked _ _ hc
  rw [giveBack, bind_of_ok _ (owning_of_ok ((getBuffer_bind h.buffer _ w).trans hmet))]

end Pool

end BufferPool
