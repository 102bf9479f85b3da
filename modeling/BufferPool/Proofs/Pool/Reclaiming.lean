import BufferPool.Proofs.Arena.Contents
import BufferPool.Proofs.Pool.WarrantedOperations
import BufferPool.Proofs.Pool.SendingOff

/-!
# What is reclaimed

A pool that is about to grow first looks for detached buffers to which its arena has the only
reference. They leave in slot order. For each of them the listener is told and the payload goes back
before the next one leaves, and nothing else happens. Only then the heap is asked, so what is reclaimed
does not depend on the size of the request or on how the request ends.
-/

namespace BufferPool

variable {σ α : Type}

namespace Arena

/-- The detached values that satisfy `abandoned`, each with its key, in slot order. -/
def abandonedEntries (a : Arena α) (abandoned : α → Bool) : List (Key × α) :=
  (a.abandonedKeys abandoned).filterMap fun key => (a.get? key).map (key, ·)

variable {a : Arena α} {abandoned : α → Bool}

theorem map_snd_abandonedEntries (a : Arena α) (abandoned : α → Bool) :
    (a.abandonedEntries abandoned).map (·.2) = (a.abandonedKeys abandoned).filterMap a.get? := by
  rw [abandonedEntries, List.map_filterMap]
  congr 1
  funext key
  cases a.get? key <;> rfl

theorem map_fst_abandonedEntries (a : Arena α) (abandoned : α → Bool) :
    (a.abandonedEntries abandoned).map (·.1) = a.abandonedKeys abandoned := by
  rw [abandonedEntries, List.map_filterMap]
  have hlive : ∀ key ∈ a.abandonedKeys abandoned,
      ((a.get? key).map (key, ·)).map (·.1) = some key := by
    intro key hk
    obtain ⟨value, hplace, -⟩ := mem_abandonedKeys.1 hk
    rw [get?_eq_place?, hplace]
    rfl
  rw [List.filterMap_congr hlive, List.filterMap_some]

theorem mem_abandonedEntries {key : Key} {value : α} :
    (key, value) ∈ a.abandonedEntries abandoned ↔
      a.place? key = some (value, none) ∧ abandoned value = true := by
  rw [abandonedEntries, List.mem_filterMap]
  constructor
  · rintro ⟨other, ho, he⟩
    obtain ⟨v, hv, hpair⟩ := Option.map_eq_some_iff.1 he
    obtain ⟨rfl, rfl⟩ := Prod.mk.inj hpair
    obtain ⟨v', hplace, habandoned⟩ := mem_abandonedKeys.1 ho
    rw [get?_eq_place?, hplace] at hv
    obtain rfl : v' = v := Option.some.inj hv
    exact ⟨hplace, habandoned⟩
  · rintro ⟨hplace, habandoned⟩
    refine ⟨key, mem_abandonedKeys.2 ⟨value, hplace, habandoned⟩, ?_⟩
    rw [get?_eq_place?, hplace]
    rfl

theorem pairwise_abandonedEntries (a : Arena α) (abandoned : α → Bool) :
    (a.abandonedEntries abandoned).Pairwise fun x y => x.1.index < y.1.index := by
  have hkeys := pairwise_abandonedKeys a abandoned
  rw [← map_fst_abandonedEntries, List.pairwise_map] at hkeys
  exact hkeys

end Arena

namespace World

/-- The heap of a pool that is set up and not closed. -/
def heap? (w : World σ) (p : PoolId) : Option Heap := (w.pool? p).map (·.heap)

/-- What is heard of a buffer when it leaves a pool for good, the earliest event first. -/
def farewell (w : World σ) (p : PoolId) (b : BufferId) : List Event :=
  [.deallocated p b (w.buffer b).totalSize, .noted p (.deallocated (w.buffer b).totalSize),
    .freed p b (w.tag? b) (w.buffer b).capacity]

/-- Buffers have left a pool for good, one after the other. -/
structure Parted (p : PoolId) (buffers : List BufferId) (w w' : World σ) : Prop
    extends Calm w w' where
  heap : ∀ q, w'.heap? q = w.heap? q
  told : w'.events = (buffers.flatMap (w.farewell p)).reverse ++ w.events

variable {w w' : World σ} {p : PoolId} {b : BufferId}

theorem sendOff_of_last (h : w.refs b = 1) : w.sendOff p b = w.farewell p b := by
  rw [sendOff, if_pos h]
  rfl

/-- Sending buffers off concerns no heap. -/
theorem SentOff.heap? {buffers : List BufferId} (h : SentOff p buffers w w') (q : PoolId) :
    w'.heap? q = w.heap? q := by
  rw [World.heap?, pool?, h.pools, World.heap?, pool?]
  cases hpool : w.pools[q]? with
  | none => rfl
  | some pool =>
      rw [Option.map_some]
      split_ifs
      · cases hl : pool.live <;> simp [Option.filter_some, hl]
      · rfl

theorem heap?_modifyPool (w : World σ) (p q : PoolId) (f : Pool → Pool)
    (hlive : ∀ pool, (f pool).live = pool.live) (hheap : ∀ pool, (f pool).heap = pool.heap) :
    (w.modifyPool p f).heap? q = w.heap? q :=
  map_pool?_modifyPool w p q hlive hheap

end World

namespace Pool

open PoolM World

variable {w : World σ} {p : PoolId} {b : BufferId}

/-- What the arena has the only references to parts from the pool for good. -/
theorem retireAll_parted {buffers : List BufferId} (hnodup : buffers.Nodup)
    (hhome : ∀ b ∈ buffers, w.home? b = some p) (hrefs : ∀ b ∈ buffers, w.refs b = 1) :
    ∃ w', retireAll p buffers w = .ok () w' ∧ w.Parted p buffers w' := by
  obtain ⟨w', hr, hsent⟩ := retireAll_sentOff hnodup hhome
  have hcalm := calm_retireAll p buffers w
  rw [leaves_of_ok hr] at hcalm
  refine ⟨w', hr, hcalm, hsent.heap?, ?_⟩
  rw [hsent.told, List.flatMap_congr fun b hb => sendOff_of_last (hrefs b hb)]

end Pool

namespace World

/-- The entries `gone` were abandoned and have been reclaimed. Everything else is as it was. -/
structure Reclaimed (p : PoolId) (gone : List (Arena.Key × BufferId)) (w w' : World σ) : Prop where
  /-- They were detached, and nothing but the arena referred to them. -/
  abandoned : ∀ key b, (key, b) ∈ gone ↔ w.place? p key = some (b, none) ∧ w.refs b = 1
  order : gone.Pairwise fun x y => x.1.index < y.1.index
  place : ∀ q key, w'.place? q key = if q = p ∧ key ∈ gone.map (·.1) then none else w.place? q key
  heap : ∀ q, w'.heap? q = w.heap? q
  size : w.cells.size ≤ w'.cells.size
  buffer : ∀ b < w.cells.size, w'.buffer b = w.buffer b
  client : w'.client = w.client
  held : w'.held = w.held
  events : w'.events = (gone.flatMap fun e => w.farewell p e.2).reverse ++
    ((if gone = [] then [] else [.noted p (.reclaiming gone.length)]) ++ w.events)

theorem heap?_setArena (w : World σ) (p q : PoolId) (arena : Arena BufferId) :
    (w.setArena p arena).heap? q = w.heap? q :=
  heap?_modifyPool w p q _ (fun _ => rfl) fun _ => rfl

end World

namespace Pool

open PoolM World

variable {w : World σ} {p : PoolId} {pool : Pool}

theorem reclaim_of_none (hp : w.pool? p = none) : reclaim p w = .error (.noPool p) w := by
  unfold reclaim
  rw [get_bind]
  exact bind_of_error _ (onArena_of_none hp)

/-- What is abandoned is reclaimed, and nothing else happens. -/
theorem reclaim_reclaimed (hp : w.pool? p = some pool) (hs : pool.arena.Sound)
    (hnodup : pool.arena.values.Nodup)
    (hhome : ∀ key b lane, w.place? p key = some (b, lane) → w.home? b = some p) :
    ∃ gone w', reclaim p w = .ok () w' ∧ w.Reclaimed p gone w' := by
  obtain ⟨wiring, hwired⟩ := hs
  let lonely : BufferId → Bool := fun b => w.refs b == 1
  let gone := pool.arena.abandonedEntries lonely
  obtain ⟨arena, hreclaim, hcleared, -⟩ := Arena.reclaim_wired hwired lonely
  rw [← Arena.map_snd_abandonedEntries] at hreclaim
  rw [← Arena.map_fst_abandonedEntries] at hcleared
  have habandoned : ∀ key b, (key, b) ∈ gone ↔ w.place? p key = some (b, none) ∧ w.refs b = 1 := by
    intro key b
    rw [Arena.mem_abandonedEntries, place?_of_pool? hp, beq_iff_eq]
  let w₁ := w.setArena p arena
  have hplace : ∀ q key, w₁.place? q key =
      if q = p ∧ key ∈ gone.map (·.1) then none else w.place? q key := by
    intro q key
    rw [place?_setArena hp, hcleared.place?]
    by_cases hq : q = p
    · subst hq
      simp only [true_and, if_true, place?_of_pool? hp]
      rfl
    · simp only [hq, false_and, if_false]
  have hon : onArena p (fun arena => arena.reclaim lonely) w = .ok (gone.map (·.2)) w₁ :=
    onArena_of_ok hp hreclaim
  by_cases hempty : gone = []
  · refine ⟨gone, w₁, ?_, habandoned, Arena.pairwise_abandonedEntries _ _, hplace,
      fun q => heap?_setArena w p q arena, Nat.le_refl _, fun _ _ => rfl, rfl, rfl, ?_⟩
    · unfold reclaim
      rw [get_bind, bind_of_ok _ hon, hempty]
      rfl
    · rw [hempty]
      rfl
  · let w₂ := w₁.emit (.noted p (.reclaiming gone.length))
    have hnote : note p (.reclaiming (gone.map (·.2)).length) w₁ = .ok () w₂ := by
      rw [List.length_map]
      rfl
    have hgone : ∀ b ∈ gone.map (·.2), w₂.home? b = some p ∧ w₂.refs b = 1 := by
      intro b hb
      obtain ⟨⟨key, b⟩, hin, rfl⟩ := List.mem_map.1 hb
      obtain ⟨hk, hrefs⟩ := (habandoned key b).1 hin
      exact ⟨hhome key b none hk, hrefs⟩
    have hbuffers : (gone.map (·.2)).Nodup := by
      refine List.Nodup.map_on ?_ ?_
      · rintro ⟨key, b⟩ hx ⟨key', b'⟩ hy rfl
        have hk := ((habandoned key b).1 hx).1
        have hk' := ((habandoned key' b).1 hy).1
        rw [place?_of_pool? hp] at hk hk'
        rw [Arena.key_eq_of_nodup_values hnodup hk hk']
      · have hkeys := Arena.nodup_abandonedKeys pool.arena lonely
        rw [← Arena.map_fst_abandonedEntries, List.map_map] at hkeys
        exact hkeys.of_map
    obtain ⟨w₃, hretire, hparted⟩ := retireAll_parted hbuffers (fun b hb => (hgone b hb).1)
      fun b hb => (hgone b hb).2
    refine ⟨gone, w₃, ?_, habandoned, Arena.pairwise_abandonedEntries _ _, fun q key => ?_,
      fun q => (hparted.heap q).trans (heap?_setArena w p q arena), hparted.size, hparted.buffer,
      hparted.client, hparted.held, ?_⟩
    · unfold reclaim
      rw [get_bind, bind_of_ok _ hon, if_pos (by simpa using hempty), bind_of_ok _ hnote]
      exact hretire
    · rw [place?_congr (hparted.arena q), ← hplace]
      rfl
    · rw [hparted.told, List.flatMap_map, if_neg hempty]
      rfl

/-- The two ways to allocate do the same. -/
theorem allocateWithin_eq_allocate (p : PoolId) (requested : UInt64) :
    allocateWithin (σ := σ) p requested = allocate p requested := by
  unfold allocateWithin allocate
  congr 1
  funext _
  congr 1
  funext made
  cases made <;> rfl

/-- What a pool does for a request, after it has reclaimed. -/
theorem allocate_of_reclaim {w' : World σ} {requested : UInt64} (h : reclaim p w = .ok () w') :
    allocate p requested w = (make p requested >>= fun made => made.mapM (enroll p)) w' := by
  rw [← allocateWithin_eq_allocate, allocateWithin, bind_of_ok _ h]

/-- A pool has grown by the entry in the handle, if there is one. -/
structure Grown (result : Option Handle) (w w' : World σ) : Prop where
  place : ∀ q key b lane, w'.place? q key = some (b, lane) ↔
    w.place? q key = some (b, lane) ∨ result = some ⟨q, key, b⟩ ∧ lane = none
  size : w.cells.size ≤ w'.cells.size
  buffer : ∀ b < w.cells.size, w'.buffer b = w.buffer b
  client : w'.client = w.client
  held : w'.held = w.held

variable {w' w'' : World σ} {result : Option Handle}

theorem grown_none (h : World.Calm w w') : Grown none w w' :=
  ⟨fun q key b lane => by simp [place?_congr (h.arena q)], h.size, h.buffer, h.client, h.held⟩

theorem Grown.after_calm (h : World.Calm w w') (hg : Grown result w' w'') : Grown result w w'' := by
  refine ⟨fun q key b lane => ?_, Nat.le_trans h.size hg.size, fun b hb => ?_,
    hg.client.trans h.client, hg.held.trans h.held⟩
  · rw [hg.place, place?_congr (h.arena q)]
  · rw [hg.buffer b (Nat.lt_of_lt_of_le hb h.size), h.buffer b hb]

/-- A buffer is registered under a key that named nothing, or the arena is not there. -/
theorem enroll_cases (hs : w.Sound) (p : PoolId) (b : BufferId) :
    (∃ fault w', enroll p b w = .error fault w' ∧ World.Calm w w') ∨
    ∃ h w', enroll p b w = .ok h w' ∧ h.pool = p ∧ h.buffer = b ∧ Grown (some h) w w' := by
  cases hp : w.pool? p with
  | none =>
      have hnone : owning b (onArena p (·.register b)) w = .error (.noPool p) (w.drop b) :=
        onFault_of_error (onArena_of_none hp)
      exact .inl ⟨_, _, bind_of_error _ hnone, calm_drop w b⟩
  | some pool =>
      obtain ⟨wiring, hwired⟩ := hs p pool.arena (arena?_of_pool? hp)
      obtain ⟨key, arena, hregister, hregistered, -⟩ := Arena.register_wired hwired b
      have hon : owning b (onArena p (·.register b)) w = .ok key (w.setArena p arena) :=
        owning_of_ok (onArena_of_ok hp hregister)
      have hnone : w.place? p key = none :=
        (place?_of_pool? hp key).trans (Arena.place?_eq_none_of_registered hregistered)
      refine .inr ⟨⟨p, key, b⟩, (w.setArena p arena).retain b, bind_of_ok _ hon, rfl, rfl,
        fun q other b' lane => ?_, ?_, fun b' _ => buffer_retain _ b b', rfl, rfl⟩
      · change (w.setArena p arena).place? q other = _ ↔ _
        rw [place?_setArena hp, hregistered.place?]
        by_cases hq : q = p
        · subst hq
          rw [if_pos rfl, ← place?_of_pool? hp]
          by_cases hkey : other = key
          · subst hkey
            rw [if_pos rfl, hnone]
            simp only [Option.some.injEq, Prod.mk.injEq, Handle.mk.injEq, reduceCtorEq, false_or,
              true_and]
            exact and_congr_right fun _ => eq_comm
          · rw [if_neg hkey]
            simp only [Option.some.injEq, Handle.mk.injEq, Ne.symm hkey, false_and, and_false,
              or_false]
        · rw [if_neg hq]
          simp only [Option.some.injEq, Handle.mk.injEq, Ne.symm hq, false_and, or_false]
      · rw [World.size_retain]
        exact Nat.le_refl _

/-- A request gets a new buffer, which is registered, or the pool is as it was. -/
theorem grown_leaves (hs : w.Sound) (p : PoolId) (requested : UInt64) :
    let act : PoolM σ (Option Handle) := make p requested >>= fun made => made.mapM (enroll p)
    Grown (act.run' w).join w (act.leaves w) ∧
      ∀ h, (act.run' w).join = some h → h.pool = p ∧ h.buffer = w.cells.size := by
  intro act
  have hcalm := calm_make p requested w
  cases hmake : make p requested w with
  | error fault w₁ =>
      have hact : act w = .error fault w₁ := bind_of_error _ hmake
      rw [leaves_of_error hmake] at hcalm
      rw [leaves_of_error hact, run'_of_error hact]
      exact ⟨grown_none hcalm, fun h hh => (Option.some_ne_none h hh.symm).elim⟩
  | ok made w₁ =>
      rw [leaves_of_ok hmake] at hcalm
      cases made with
      | none =>
          have hact : act w = .ok none w₁ := bind_of_ok _ hmake
          rw [leaves_of_ok hact, run'_of_ok hact]
          exact ⟨grown_none hcalm, fun h hh => (Option.some_ne_none h hh.symm).elim⟩
      | some b =>
          have hsound : w₁.Sound := fun q a ha => hs q a ((hcalm.arena q).symm.trans ha)
          obtain ⟨rfl, -⟩ := make_eq_ok hmake
          have hact : act w = (some <$> enroll p w.cells.size) w₁ := bind_of_ok _ hmake
          rcases enroll_cases hsound p w.cells.size with
            ⟨fault, w₂, henroll, hcalm₂⟩ | ⟨h, w₂, henroll, hpool, hbuffer, hgrown⟩
          · rw [map_eq_pure_bind, bind_of_error _ henroll] at hact
            rw [leaves_of_error hact, run'_of_error hact]
            exact ⟨grown_none (hcalm.trans hcalm₂),
              fun h hh => (Option.some_ne_none h hh.symm).elim⟩
          · rw [map_eq_pure_bind, bind_of_ok _ henroll] at hact
            rw [leaves_of_ok hact, run'_of_ok hact]
            refine ⟨hgrown.after_calm hcalm, fun g hg => ?_⟩
            rw [← Option.some.inj hg]
            exact ⟨hpool, hbuffer⟩

end Pool

end BufferPool
