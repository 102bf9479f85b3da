import BufferPool.Producer
import BufferPool.Proofs.Pool.Failing
import BufferPool.Proofs.Pool.Lookup
import BufferPool.Proofs.Pool.Rows

/-!
# Operations in two steps

Some operations do two things one after the other, both of which may be refused: a buffer is taken out
of a lane and put into the other one, or it is looked up and then taken out. What is refused is refused
in the first step. Once a buffer has left its lane nothing can keep it from entering another one, and
what a lookup has found is a member of the free lane of its pool.
-/

namespace BufferPool

open Arena (Catalog)
open PoolM

/-- At most, an attempt to acquire the buffer was counted. -/
def Buffer.Glanced (b b' : Buffer) : Prop := b' = b ∨ b' = b.countAttempt

theorem Buffer.Glanced.owner {b b' : Buffer} (h : b.Glanced b') : b'.owner = b.owner := by
  rcases h with rfl | rfl <;> rfl

variable {σ : Type} {w w' : World σ} {p : PoolId} {pool : Pool} {minimum size : UInt64}
  {c : Catalog BufferId} {lane source : Lane} {target : Option Lane} {h : Handle} {b : BufferId}
  {t : Thread} {found : Option Handle}

namespace World

/-- Adds events, the latest first. -/
def tell (w : World σ) (told : List Event) : World σ := { w with events := told ++ w.events }

/-- What is told when a buffer is put into a lane, the latest first. -/
def arrival (w : World σ) (p : PoolId) (lane : Lane) (h : Handle) : List Event :=
  match lane with
  | .free => [.inserted p .free h.key]
  | .full =>
    [.inserted p .full h.key, .published p h.buffer h.key (w.buffer h.buffer).totalSize]

/-- What the key of the handle names has left a lane, and stands at the head of another one unless it is
detached now. -/
structure Shifts (p : PoolId) (h : Handle) (b : BufferId) (source : Lane) (target : Option Lane)
    (w w' : World σ) : Prop where
  owner : h.pool = p
  listed : w.place? p h.key = some (b, some source)
  place : ∀ key, w'.place? p key = if key = h.key then some (b, target) else w.place? p key
  row : ∀ lane, w'.row p lane = if target = some lane
    then (h.key, b) :: (w.row p lane).filter (·.1 != h.key)
    else (w.row p lane).filter (·.1 != h.key)
  pools : ∀ q, q ≠ p → w'.pools[q]? = w.pools[q]?
  allocated : ∀ q, w'.allocated? q = w.allocated? q
  /-- Only the arena has changed, and events were added. -/
  rest : w' = { w with pools := w'.pools, events := w'.events }

/-- Nothing has come of an operation: both lanes of every pool and their order are as they were, and
so are the places, what is allocated, and the buffers but for the count of attempts. -/
structure Abstains (w w' : World σ) : Prop where
  row : ∀ q lane, w'.row q lane = w.row q lane
  place : ∀ q key, w'.place? q key = w.place? q key
  allocated : ∀ q, w'.allocated? q = w.allocated? q
  owner : ∀ b, (w'.buffer b).owner = (w.buffer b).owner
  buffer : ∀ b, (w.buffer b).Glanced (w'.buffer b)

/-- What is told makes no difference to the catalog. -/
theorem Stocks.tell (hs : w.Stocks p minimum c) (told : List Event) :
    (w.tell told).Stocks p minimum c :=
  hs.quiet (.of_pools rfl (Nat.le_refl _) rfl rfl rfl rfl)

theorem LooksUp.size_eq {entries : List (Arena.Key × BufferId)}
    (hl : w.LooksUp p size t entries found w') : w'.cells.size = w.cells.size := by
  refine eq_of_forall_lt_iff fun b => ?_
  rw [← isSome_getElem? w'.cells b, hl.cells, Option.isSome_map, isSome_getElem?]

theorem LooksUp.stocks {entries : List (Arena.Key × BufferId)} (hs : w.Stocks p minimum c)
    (hl : w.LooksUp p size t entries found w') : w'.Stocks p minimum c := by
  rw [hl.rest]
  exact hs.quiet (.of_pools rfl (Nat.le_of_eq hl.size_eq.symm) rfl rfl rfl rfl)

/-- A lookup changes one buffer only, the one that it finds. -/
theorem LooksUp.glanced {entries : List (Arena.Key × BufferId)}
    (hl : w.LooksUp p size t entries found w') (hb : ∀ h, found = some h → h.buffer ≠ b) :
    (w.buffer b).Glanced (w'.buffer b) := by
  have hother : (found.any (·.buffer == b)) = false := by
    cases found with
    | none => rfl
    | some h => exact beq_false_of_ne (hb h rfl)
  rw [World.buffer, World.buffer, hl.cells, hother]
  cases w.cells[b]? with
  | none => exact .inl rfl
  | some cell =>
      by_cases htried : b ∈ w.tried size entries
      · exact .inr (by simp [Cell.lookedAt, htried])
      · exact .inl (by simp [Cell.lookedAt, htried])

/-- What is found counts the attempt and is acquired. -/
theorem LooksUp.buffer_found {entries : List (Arena.Key × BufferId)}
    (hl : w.LooksUp p size t entries (some h) w') (hb : h.buffer < w.cells.size) :
    w'.buffer h.buffer = (w.buffer h.buffer).countAttempt.claim t := by
  have hchosen := hl.first
  obtain ⟨e, hchoice, he⟩ := Option.map_eq_some_iff.1 hchosen.symm
  have htried := mem_tried_of_choice hchoice
  rw [show e.2 = h.buffer by rw [← he]] at htried
  rw [World.buffer, hl.cells, World.buffer, Array.getElem?_eq_getElem hb]
  simp [Cell.lookedAt, htried]

/-- A lookup that finds nothing leaves everything in place. -/
theorem LooksUp.abstains {entries : List (Arena.Key × BufferId)}
    (hl : w.LooksUp p size t entries none w') : Abstains w w' := by
  have hrest := hl.rest
  have hglanced : ∀ b, (w.buffer b).Glanced (w'.buffer b) := fun b =>
    hl.glanced fun h hno => (Option.some_ne_none h hno.symm).elim
  refine ⟨fun q lane => ?_, fun q key => ?_, fun q => ?_, fun b => (hglanced b).owner, hglanced⟩
  · rw [hrest]
    rfl
  · rw [hrest]
    rfl
  · rw [hrest]
    rfl

end World

namespace Pool

open World

theorem remove_shifts (hs : w.Stocks p minimum c) (hh : h.pool = p)
    (hp : c.place h.key = some (b, some source)) :
    ∃ w', remove p source h w = .ok () w' ∧ Shifts p h b source none w w' ∧
      w'.Stocks p minimum (c.leave source h.key b) ∧ w'.events = w.events := by
  obtain ⟨arena, hon, hs'⟩ := stocks_remove hs hp
  refine ⟨w.setArena p arena, (bind_of_ok _ (checkOwner_of_eq hh)).trans hon, ⟨hh, ?_, fun key => ?_,
    fun lane => ?_, fun q hq => pools_modifyPool_of_ne hq w _,
    fun q => allocated?_setArena w p q arena, rfl⟩, hs', rfl⟩
  · rw [hs.place?, hp]
  · rw [hs'.place?, Catalog.place_leave, hs.place?]
  · rw [if_neg (Option.some_ne_none lane).symm]
    exact hs.row_leave hp hs' lane

/-- What is detached can always be put into a lane. -/
theorem insert_arrives (hs : w.Stocks p minimum c) (hh : h.pool = p) (lane : Lane)
    (hp : c.place h.key = some (b, none)) :
    ∃ arena, insert p lane h w = .ok () ((w.setArena p arena).tell (w.arrival p lane h)) ∧
      ((w.setArena p arena).tell (w.arrival p lane h)).Stocks p minimum (c.enter lane h.key b) := by
  obtain ⟨arena, hon, hs'⟩ := stocks_prepend hs lane hp
  refine ⟨arena, ?_, hs'.tell _⟩
  rw [insert, bind_of_ok _ (checkOwner_of_eq hh), bind_of_ok _ hon]
  cases lane <;> rfl

theorem move_shifts (hs : w.Stocks p minimum c) (hh : h.pool = p)
    (hp : c.place h.key = some (b, some source)) :
    ∃ w', move p source h w = .ok () w' ∧ Shifts p h b source (some source.other) w w' ∧
      w'.Stocks p minimum ((c.leave source h.key b).enter source.other h.key b) ∧
      w'.events = w.arrival p source.other h ++ w.events := by
  obtain ⟨w₁, hremove, hshifts, hs₁, hevents⟩ := remove_shifts hs hh hp
  have hdetached : (c.leave source h.key b).place h.key = some (b, none) := Function.update_self ..
  obtain ⟨arena, hinsert, hs₂⟩ := insert_arrives hs₁ hh source.other hdetached
  have harrival : w₁.arrival p source.other h = w.arrival p source.other h := by
    rw [hshifts.rest]
    rfl
  refine ⟨_, (bind_of_ok _ hremove).trans hinsert, ⟨hh, hshifts.listed, fun key => ?_, fun lane => ?_,
    fun q hq => ?_, fun q => ?_, ?_⟩, hs₂, ?_⟩
  · rw [hs₂.place?, Catalog.place_enter, ← hs₁.place?, hshifts.place]
    split_ifs <;> rfl
  · rw [hs₁.row_enter hdetached hs₂, hshifts.row, if_neg (Option.some_ne_none lane).symm]
    simp only [Option.some.injEq, eq_comm]
  · exact (pools_modifyPool_of_ne hq w₁ _).trans (hshifts.pools q hq)
  · exact (allocated?_setArena w₁ p q arena).trans (hshifts.allocated q)
  · rw [hshifts.rest]
    rfl
  · rw [← harrival, ← hevents]
    rfl

/-- Moving a buffer succeeds or nothing happens. -/
theorem move_or_hinders (hs : w.Sound) (p : PoolId) (source : Lane) (h : Handle) :
    (∃ b w', move p source h w = .ok () w' ∧ Shifts p h b source (some source.other) w w') ∨
      ∃ fault, w.Hinders p source h fault ∧ move p source h w = .error fault w := by
  rcases unlinks_or_hinders hs p source h with ⟨arena, -, hu⟩ | ⟨fault, hf, hr⟩
  · obtain ⟨minimum, c, b, hstocks, hp, -⟩ := hu.leaves
    obtain ⟨w', hr, hshifts, -⟩ := move_shifts hstocks hu.owner hp
    exact .inl ⟨b, w', hr, hshifts⟩
  · exact .inr ⟨fault, hf, bind_of_error _ hr⟩

/-- What has been taken out of a lane can be put into any lane. -/
theorem insert_of_remove (hs : w.Sound) (hr : remove p source h w = .ok () w') (lane : Lane) :
    ∃ w'', insert p lane h w' = .ok () w'' := by
  rcases unlinks_or_hinders hs p source h with ⟨arena, hr', hu⟩ | ⟨fault, -, hr'⟩
  · obtain ⟨-, rfl⟩ := EStateM.Result.ok.inj (hr.symm.trans hr')
    obtain ⟨minimum, c, b, -, -, hs'⟩ := hu.leaves
    have hdetached : (c.leave source h.key b).place h.key = some (b, none) :=
      Function.update_self ..
    obtain ⟨arena', hinsert, -⟩ := insert_arrives hs' hu.owner lane hdetached
    exact ⟨_, hinsert⟩
  · exact nomatch hr.symm.trans hr'

/-- A lookup in a pool in order. -/
theorem find_tidy (ht : w.Tidy p pool) (size : UInt64) (t : Thread) :
    ∃ found w', find p size t w = .ok found w' ∧ w.LooksUp p size t (w.row p .free) found w' := by
  obtain ⟨c, hs⟩ := ht.stocks
  obtain ⟨entries, he, -⟩ := Arena.exists_entries_forward ht.sound ht.nodup .free
  obtain rfl : w.row p .free = entries := by
    rw [row, arena?_of_pool? ht.present, Option.bind_some, he]
    rfl
  exact find_looksUp ht.present he (ht.nodup_row .free) size t

/-- What is found is in the free lane of its pool. -/
theorem place_of_found (hs : w.Stocks p minimum c)
    (hl : w.LooksUp p size t (w.row p .free) (some h) w') :
    h.pool = p ∧ c.place h.key = some (h.buffer, some .free) := by
  obtain ⟨hh, -, before, after, hsplit, -⟩ := hl.exists_append rfl
  have hmem : (h.key, h.buffer) ∈ w.row p .free := by
    rw [hsplit]
    exact List.mem_append_cons_self
  exact ⟨hh, (hs.place? h.key).symm.trans (hs.mem_row.1 hmem)⟩

/-- How an operation ends that looks for a free buffer and then takes it out of the free lane: the buffer
is acquired and has left the lane, or there is none, or the operation is refused at once. -/
inductive Takes (p : PoolId) (size : UInt64) (t : Thread) (target : Option Lane) (w : World σ) :
    EStateM.Result Fault (World σ) (Option Handle) → Prop where
  | taken {h : Handle} {w₁ w' : World σ} (find : find p size t w = .ok (some h) w₁)
      (suits : (w.buffer h.buffer).suits size = true) (acquired : (w₁.buffer h.buffer).owner = some t)
      (shifts : Shifts p h h.buffer .free target w₁ w') : Takes p size t target w (.ok (some h) w')
  | missing {w' : World σ} (find : find p size t w = .ok none w') (abstains : Abstains w w') :
      Takes p size t target w (.ok none w')
  | refused (fault : Fault) : Takes p size t target w (.error fault w)

/-- If only the lookup decides, nothing is left half done. -/
theorem takes_onSome (hall : ∀ pool, w.pool? p = some pool → w.Tidy p pool)
    {act : Handle → PoolM σ Unit}
    (hact : ∀ {w₁ : World σ} {minimum : UInt64} {c : Catalog BufferId} (h : Handle),
      w₁.Stocks p minimum c → h.pool = p → c.place h.key = some (h.buffer, some .free) →
        ∃ w', act h w₁ = .ok () w' ∧ Shifts p h h.buffer .free target w₁ w') :
    Takes p size t target w ((find p size t >>= fun found => onSome found act) w) := by
  cases hp : w.pool? p with
  | none =>
      have hfind : find p size t w = .error (.noPool p) w := bind_of_error _ (readArena_of_none hp)
      rw [bind_of_error _ hfind]
      exact .refused _
  | some pool =>
      have ht := hall pool hp
      obtain ⟨c, hs⟩ := ht.stocks
      obtain ⟨found, w₁, hfind, hl⟩ := find_tidy ht size t
      rw [bind_of_ok _ hfind]
      cases found with
      | none => exact .missing hfind hl.abstains
      | some h =>
          obtain ⟨hh, hplace⟩ := place_of_found hs hl
          obtain ⟨w', hr, hshifts⟩ := hact h (hl.stocks hs) hh hplace
          rw [onSome, bind_of_ok _ (owning_of_ok hr)]
          exact .taken hfind (hl.exists_append rfl).2.1
            (hl.owner rfl (ht.lt_size ((hs.place? h.key).trans hplace))) hshifts

theorem takes_takeDetached (hall : ∀ pool, w.pool? p = some pool → w.Tidy p pool) (size : UInt64)
    (t : Thread) : Takes p size t none w (takeDetached p size t w) := by
  refine takes_onSome hall fun h hs hh hp => ?_
  obtain ⟨w', hr, hshifts, -⟩ := remove_shifts hs hh hp
  exact ⟨w', hr, hshifts⟩

theorem takes_takeToFull (hall : ∀ pool, w.pool? p = some pool → w.Tidy p pool) (size : UInt64)
    (t : Thread) : Takes p size t (some .full) w (takeToFull p size t w) := by
  rw [takeToFull]
  cases hp : w.pool? p with
  | none =>
      rw [bind_of_error _ (getPool_of_none hp)]
      exact .refused _
  | some pool =>
      rw [bind_of_ok _ (getPool_of_some hp)]
      rcases expect_cases (decide (size ≤ pool.minimum)) .fitsSmallestClass w with hr | hr
      · rw [bind_of_ok _ hr]
        refine takes_onSome hall fun h hs hh hplace => ?_
        obtain ⟨w', hr, hshifts, -⟩ := move_shifts hs hh hplace
        exact ⟨w', hr, hshifts⟩
      · rw [bind_of_error _ hr]
        exact .refused _

end Pool

end BufferPool
