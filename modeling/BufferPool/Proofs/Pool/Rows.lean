import BufferPool.Proofs.Arena.Distinct
import BufferPool.Proofs.Pool.Frame
import BufferPool.Proofs.Pool.Stock
import BufferPool.Proofs.World.Books

/-!
# The lanes of a pool as sequences

The members of a lane, from the head on, are a value that can be compared between two worlds. What
enters a lane comes to the front of its sequence, what leaves is taken out of it wherever it stands,
and detached buffers may come and go unnoticed.
-/

namespace BufferPool

open PoolM

namespace Arena.Catalog

variable {α : Type} {c c' : Catalog α} {lane other : Lane} {key : Key} {b : α}

/-- The members of a lane with their keys, from the head on. -/
def row (c : Catalog α) (lane : Lane) : List (Key × α) :=
  (c.order lane).filterMap fun key => (c.place key).map fun place => (key, place.1)

/-- Only the places of the members matter. -/
theorem row_congr (horder : c'.order lane = c.order lane)
    (hplace : ∀ key ∈ c.order lane, c'.place key = c.place key) : c'.row lane = c.row lane := by
  rw [row, horder]
  exact List.filterMap_congr fun key hk => by rw [hplace key hk]

theorem place_add (c : Catalog α) (key : Key) (b : α) (k : Key) :
    (c.add key b).place k = if k = key then some (b, none) else c.place k :=
  Function.update_apply ..

theorem place_enter (c : Catalog α) (lane : Lane) (key : Key) (b : α) (k : Key) :
    (c.enter lane key b).place k = if k = key then some (b, some lane) else c.place k :=
  Function.update_apply ..

theorem place_leave (c : Catalog α) (lane : Lane) (key : Key) (b : α) (k : Key) :
    (c.leave lane key b).place k = if k = key then some (b, none) else c.place k :=
  Function.update_apply ..

theorem place_enter_of_mem (hnot : key ∉ c.order other) :
    ∀ k ∈ c.order other, (c.enter lane key b).place k = c.place k := by
  intro k hk
  rw [place_enter, if_neg]
  rintro rfl
  exact hnot hk

theorem row_enter_self (hnot : key ∉ c.order lane) :
    (c.enter lane key b).row lane = (key, b) :: c.row lane := by
  have hplace : (c.enter lane key b).place key = some (b, some lane) := by
    rw [place_enter, if_pos rfl]
  have hrest : (c.order lane).filterMap (fun k => ((c.enter lane key b).place k).map (k, ·.1)) =
      c.row lane :=
    List.filterMap_congr fun k hk => by rw [place_enter_of_mem hnot k hk]
  rw [row, order_enter_self, List.filterMap_cons, hplace]
  exact congrArg (List.cons (key, b)) hrest

theorem row_enter_of_ne (hne : other ≠ lane) (hnot : key ∉ c.order other) :
    (c.enter lane key b).row other = c.row other :=
  row_congr (order_enter_of_ne hne c key b) (place_enter_of_mem hnot)

/-- What leaves may be sought in the other lane too. -/
theorem row_leave (hnodup : (c.order lane).Nodup) (hnot : ∀ other, other ≠ lane → key ∉ c.order other)
    (other : Lane) : (c.leave lane key b).row other = (c.row other).filter (·.1 != key) := by
  have hplace : ∀ k, k ≠ key → (c.leave lane key b).place k = c.place k :=
    fun k hk => (place_leave c lane key b k).trans (if_neg hk)
  have horder : (c.leave lane key b).order other = (c.order other).filter (· != key) := by
    by_cases hl : other = lane
    · subst hl
      rw [order_leave_self, hnodup.erase_eq_filter]
    · rw [order_leave_of_ne hl, List.filter_eq_self.2]
      intro k hk
      refine bne_iff_ne.2 ?_
      rintro rfl
      exact hnot other hl hk
  rw [row, horder, row, List.filterMap_filter, List.filter_filterMap]
  apply List.filterMap_congr
  intro k _
  by_cases hk : k = key
  · cases c.place k <;> simp [hk, Option.filter]
  · cases hc : c.place k <;> simp [hk, hplace k hk, hc, Option.filter]

end Arena.Catalog

namespace World

open Arena (Catalog)

variable {σ : Type} {w w' : World σ} {p : PoolId} {minimum : UInt64} {c : Catalog BufferId}
  {lane : Lane} {key : Arena.Key} {b : BufferId}

/-- The members of a lane with their keys, from the head on. -/
def row (w : World σ) (p : PoolId) (lane : Lane) : List (Arena.Key × BufferId) :=
  ((w.arena? p).bind fun a => (a.entries lane .forward).toOption).getD []

theorem row_of_arena? {arena : Arena BufferId} {entries : List (Arena.Key × BufferId)}
    (ha : w.arena? p = some arena) (he : arena.entries lane .forward = .ok entries) :
    w.row p lane = entries := by
  rw [row, ha, Option.bind_some, he]
  rfl

theorem row_congr (h : w'.arena? p = w.arena? p) (lane : Lane) : w'.row p lane = w.row p lane := by
  rw [row, h, row]

theorem Stocks.place? (hs : w.Stocks p minimum c) (key : Arena.Key) :
    w.place? p key = c.place key := by
  obtain ⟨a, wiring, ha, -, rfl⟩ := hs.catalog
  rw [World.place?, ha]
  rfl

theorem Stocks.notMem_order (hs : w.Stocks p minimum c) {place : BufferId × Option Lane}
    (hp : c.place key = some place) (hne : place.2 ≠ some lane) : key ∉ c.order lane := by
  intro hk
  obtain ⟨b, hb⟩ := hs.mem_order.1 hk
  rw [hp, Option.some.injEq] at hb
  exact hne (hb ▸ rfl)

theorem Stocks.row (hs : w.Stocks p minimum c) (lane : Lane) : w.row p lane = c.row lane := by
  obtain ⟨a, wiring, ha, hw, rfl⟩ := hs.catalog
  have hentries := (hw.lanes lane).entries_forward
  rw [World.row, ha, Option.bind_some, hentries, Catalog.row, Arena.catalog, List.filterMap_map]
  refine ((List.filterMap_congr fun e he => ?_).trans List.filterMap_some).symm
  have hplace : a.place? e.1 = some (e.2, some lane) := Arena.place?_of_mem_entries (hw.lanes lane) he
  exact congrArg (Option.map fun place => (e.1, place.1)) hplace

/-- The members of a lane are what is in it, each once. -/
theorem Stocks.mem_row (hs : w.Stocks p minimum c) {e : Arena.Key × BufferId} :
    e ∈ w.row p lane ↔ w.place? p e.1 = some (e.2, some lane) := by
  rw [hs.row, hs.place?, Catalog.row, List.mem_filterMap]
  constructor
  · rintro ⟨key, hk, he⟩
    obtain ⟨b, hb⟩ := hs.mem_order.1 hk
    rw [hb, Option.map_some, Option.some.injEq] at he
    rw [← he, hb]
  · intro he
    exact ⟨e.1, hs.mem_order.2 ⟨e.2, he⟩, by rw [he]; rfl⟩

/-- A key is in one lane at most, and names one buffer. -/
theorem Stocks.eq_of_mem_row (hs : w.Stocks p minimum c) {lane' : Lane} {b' : BufferId}
    (h : (key, b) ∈ w.row p lane) (h' : (key, b') ∈ w.row p lane') : b' = b ∧ lane' = lane := by
  have hplace : w.place? p key = some (b, some lane) := hs.mem_row.1 h
  have hplace' : w.place? p key = some (b', some lane') := hs.mem_row.1 h'
  obtain ⟨hb, hlane⟩ := Prod.mk.inj (Option.some.inj (hplace'.symm.trans hplace))
  exact ⟨hb, Option.some.inj hlane⟩

theorem Stocks.map_fst_row (hs : w.Stocks p minimum c) (lane : Lane) :
    (w.row p lane).map (·.1) = c.order lane := by
  rw [hs.row, Catalog.row, List.map_filterMap]
  refine (List.filterMap_congr fun key hk => ?_).trans List.filterMap_some
  obtain ⟨b, hb⟩ := hs.mem_order.1 hk
  rw [hb]
  rfl

theorem Stocks.nodup_row (hs : w.Stocks p minimum c) (lane : Lane) :
    ((w.row p lane).map (·.1)).Nodup :=
  hs.map_fst_row lane ▸ hs.nodup_order lane

/-- The arena counts the members of its lanes. -/
theorem Stocks.length_row (hs : w.Stocks p minimum c) {pool : Pool} (hpool : w.pool? p = some pool)
    (lane : Lane) : (w.row p lane).length = pool.arena.count lane := by
  have hlength : (w.row p lane).length = (c.order lane).length := by
    rw [← hs.map_fst_row lane, List.length_map]
  obtain ⟨pool', wiring, hp, -, hw, rfl⟩ := hs.pool
  obtain rfl : pool' = pool := Option.some.inj (hp.symm.trans hpool)
  rw [hlength, hw.shows_catalog.count]

/-- What a look at a lane shows. -/
theorem Stocks.readArena (hs : w.Stocks p minimum c) (lane : Lane) :
    readArena p (·.entries lane .forward) w = .ok (w.row p lane) w ∧
      readArena p (·.entries lane .backward) w = .ok (w.row p lane).reverse w := by
  obtain ⟨pool, wiring, hp, -, hw, -⟩ := hs.pool
  have hrow : w.row p lane = (wiring.lane lane).filterMap pool.arena.entryAt? := by
    rw [World.row, arena?_of_pool? hp, Option.bind_some, (hw.lanes lane).entries_forward]
    rfl
  rw [hrow]
  exact ⟨readArena_of_ok hp (hw.lanes lane).entries_forward,
    readArena_of_ok hp (hw.lanes lane).entries_backward⟩

theorem Stocks.row_enter (hs : w.Stocks p minimum c) (hp : c.place key = some (b, none))
    (hs' : w'.Stocks p minimum (c.enter lane key b)) (other : Lane) :
    w'.row p other = if other = lane then (key, b) :: w.row p other else w.row p other := by
  have hnot : ∀ lane, key ∉ c.order lane := fun lane => hs.notMem_order hp nofun
  rw [hs'.row, hs.row]
  split_ifs with hl
  · rw [hl, Catalog.row_enter_self (hnot lane)]
  · exact Catalog.row_enter_of_ne hl (hnot other)

theorem Stocks.row_leave (hs : w.Stocks p minimum c) (hp : c.place key = some (b, some lane))
    (hs' : w'.Stocks p minimum (c.leave lane key b)) (other : Lane) :
    w'.row p other = (w.row p other).filter (·.1 != key) := by
  rw [hs'.row, hs.row]
  exact Catalog.row_leave (hs.nodup_order lane)
    (fun other hne => hs.notMem_order hp fun he => hne (Option.some.inj he).symm) other

theorem Stocks.row_add (hs : w.Stocks p minimum c) (hp : c.place key = none)
    (hs' : w'.Stocks p minimum (c.add key b)) (other : Lane) : w'.row p other = w.row p other := by
  rw [hs'.row, hs.row]
  refine Catalog.row_congr rfl fun k hk => Function.update_of_ne ?_ _ _
  rintro rfl
  obtain ⟨b, hb⟩ := hs.mem_order.1 hk
  exact nomatch hp.symm.trans hb

/-- What is detached is in no lane. -/
theorem Stocks.row_delete (hs : w.Stocks p minimum c) {keys : List Arena.Key}
    (hkeys : ∀ key ∈ keys, ∃ b, c.place key = some (b, none))
    (hs' : w'.Stocks p minimum (c.delete keys)) (other : Lane) : w'.row p other = w.row p other := by
  rw [hs'.row, hs.row]
  refine Catalog.row_congr rfl fun k hk => if_neg fun hin => ?_
  obtain ⟨b, hb⟩ := hkeys k hin
  exact hs.notMem_order hb nofun hk

/-- The pool is set up and its arena is sound. Nothing is registered twice, and only what was made for
the pool. -/
structure Tidy (w : World σ) (p : PoolId) (pool : Pool) : Prop where
  present : w.pool? p = some pool
  sound : pool.arena.Sound
  nodup : pool.arena.values.Nodup
  home : ∀ key b lane, w.place? p key = some (b, lane) → w.home? b = some p

variable {pool : Pool}

theorem Tidy.stocks (h : w.Tidy p pool) : ∃ c, w.Stocks p pool.minimum c := by
  obtain ⟨wiring, hw⟩ := h.sound
  exact ⟨_, minimum?_of_pool? h.present, pool.arena, wiring, arena?_of_pool? h.present, hw, rfl⟩

theorem Tidy.lt_size (h : w.Tidy p pool) {place : Option Lane}
    (hp : w.place? p key = some (b, place)) : b < w.cells.size := by
  obtain ⟨c, hc, -⟩ := Option.map_eq_some_iff.1 (h.home key b place hp)
  exact (Array.getElem?_eq_some_iff.1 hc).choose

/-- A buffer is registered under one key at most. -/
theorem Tidy.key_unique (h : w.Tidy p pool) {other : Arena.Key} {place place' : Option Lane}
    (hp : w.place? p key = some (b, place)) (hp' : w.place? p other = some (b, place')) :
    other = key := by
  rw [place?_of_pool? h.present] at hp hp'
  exact Arena.key_eq_of_nodup_values h.nodup hp' hp

theorem Tidy.nodup_row (h : w.Tidy p pool) (lane : Lane) : ((w.row p lane).map (·.2)).Nodup := by
  obtain ⟨c, hs⟩ := h.stocks
  refine List.Nodup.map_on (fun e he e' he' hsame => ?_) (List.Nodup.of_map _ (hs.nodup_row lane))
  have hp := hs.mem_row.1 he
  rw [hsame] at hp
  exact Prod.ext (h.key_unique (hs.mem_row.1 he') hp) hsame

/-- What happens to buffers and references does not matter. -/
theorem Tidy.congr (h : w.Tidy p pool) (hpools : w'.pools = w.pools)
    (hhome : ∀ b, w'.home? b = w.home? b) : w'.Tidy p pool := by
  have hpool : w'.pool? p = w.pool? p := by rw [pool?, hpools, pool?]
  refine ⟨hpool.trans h.present, h.sound, h.nodup, fun key b lane hp => ?_⟩
  rw [hhome]
  refine h.home key b lane ?_
  rwa [World.place?, arena?, ← hpool]

end World

end BufferPool
