import BufferPool.Proofs.Pool.Cache
import BufferPool.Proofs.Pool.Discarding
import BufferPool.Proofs.Pool.SettingUp

/-!
# How the free lane is filled

Apart from releases, there are two ways to fill the free lane of a pool. A buffer is put there through a
handle, and then it is the one that the key of the handle names. Or the pool is set up, and then all that
it has are buffers of the smallest capacity.
-/

namespace BufferPool

open PoolM

variable {σ α : Type} {w : World σ} {p q : PoolId} {key : Arena.Key} {b : BufferId} {h : Handle}

/-- The key of the handle is that one, and the buffer is registered under it. -/
structure World.Denotes (w : World σ) (h : Handle) (p : PoolId) (key : Arena.Key) (b : BufferId) :
    Prop where
  pool : h.pool = p
  named : h.key = key
  place : ∃ lane, w.place? p key = some (b, lane)

namespace Pool

open World

variable {w₀ : World σ} {R : BufferId → Prop}

theorem rests_insert (hne : q = p → key ≠ h.key) (lane : Lane) :
    Keeps (Rests w₀ · q key) (insert (σ := σ) p lane h) := by
  refine (quiet_checkOwner p h).rests.bind fun _ => (rests_prepend hne lane).bind fun _ => ?_
  apply Quiet.rests
  split_ifs
  · exact (quiet_getBuffer h.buffer).bind fun _ => (quiet_emit _).bind fun _ => quiet_emit _
  · exact quiet_emit _

theorem rests_takeOut (hne : q = p → key ≠ h.key) (lane : Lane) :
    Keeps (Rests w₀ · q key) (remove (σ := σ) p lane h) :=
  (quiet_checkOwner p h).rests.bind fun _ => rests_remove hne lane

theorem rests_move (hne : q = p → key ≠ h.key) (source : Lane) :
    Keeps (Rests w₀ · q key) (move (σ := σ) p source h) :=
  (rests_takeOut hne source).bind fun _ => rests_insert hne source.other

theorem allots_insert (lane : Lane) :
    Keeps (Allots (σ := σ) (fun b _ => R b) p h.key) (insert p lane h) := by
  refine (allots_quiet (quiet_checkOwner p h)).bind fun _ =>
    (allots_prepend fun _ _ hb => hb).bind fun _ => allots_quiet ?_
  split_ifs
  · exact (quiet_getBuffer h.buffer).bind fun _ => (quiet_emit _).bind fun _ => quiet_emit _
  · exact quiet_emit _

theorem allots_takeOut (lane : Lane) :
    Keeps (Allots (σ := σ) (fun b _ => R b) p h.key) (remove p lane h) :=
  (allots_quiet (quiet_checkOwner p h)).bind fun _ => allots_remove fun _ hb => hb

theorem allots_move (source : Lane) :
    Keeps (Allots (σ := σ) (fun b _ => R b) p h.key) (move p source h) :=
  (allots_takeOut source).bind fun _ => allots_insert source.other

/-- An operation that is for handles of the pool, and does nothing but to the place that the key of the
handle names, puts nothing else into a free lane. -/
theorem free_of_rests {act : PoolM σ α} (hs : w.Sound)
    (hforeign : h.pool ≠ p → act.leaves w = w)
    (hrests : ∀ {q key}, (q = p → key ≠ h.key) → Keeps (Rests w · q key) act)
    (hallots : ∀ {R : BufferId → Prop}, Keeps (Allots (fun b _ => R b) p h.key) act)
    (hfree : (act.leaves w).place? q key = some (b, some .free)) :
    w.place? q key = some (b, some .free) ∨ w.Denotes h q key b := by
  by_cases hh : h.pool = p
  swap
  · rw [hforeign hh] at hfree
    exact .inl hfree
  by_cases hother : q = p ∧ key = h.key
  · obtain ⟨rfl, rfl⟩ := hother
    have hnamed : Allots (fun b _ => ∃ lane, w.place? q h.key = some (b, lane)) q h.key
        (act.leaves w) := hallots w ⟨hs q, fun _ lane hb => ⟨lane, hb⟩⟩
    exact .inr ⟨hh, rfl, hnamed.place b _ hfree⟩
  · have hsame : Rests w (act.leaves w) q key :=
      hrests (fun hq hkey => hother ⟨hq, hkey⟩) w ⟨rfl, hs q⟩
    exact .inl (hsame.place.symm.trans hfree)

variable {c : Config} {minimum : UInt64} {keys : List Arena.Key}

/-- What is in the free lane of a pool is in its row. -/
theorem mem_row_of_place? (hs : w.Sound) (hplace : w.place? p key = some (b, some .free)) :
    (key, b) ∈ w.row p .free := by
  obtain ⟨arena, ha, -⟩ := Option.bind_eq_some_iff.1 hplace
  obtain ⟨pool, hp, rfl⟩ := Option.map_eq_some_iff.1 ha
  obtain ⟨wiring, hw⟩ := hs p pool.arena ha
  have hstocks : w.Stocks p pool.minimum (pool.arena.catalog wiring) :=
    ⟨minimum?_of_pool? hp, pool.arena, wiring, ha, hw, rfl⟩
  exact hstocks.mem_row.2 hplace

theorem place?_of_pool?_eq_none (hp : w.pool? p = none) (key : Arena.Key) : w.place? p key = none := by
  rw [place?, World.arena?, hp]
  rfl

/-- The pool under the last number is not there when it is not live. -/
theorem pool?_push_of_dead {pools : Array Pool} {pool : Pool} (hpools : w.pools = pools.push pool)
    (hdead : pool.live = false) : w.pool? pools.size = none := by
  rw [pool?, hpools, Array.getElem?_push_size, Option.filter_some, hdead]
  rfl

/-- A pool that has been set up has free buffers of the smallest capacity only. -/
theorem capacity_of_build (hs : w.Sound) (c : Config)
    (hfree : ((build c).leaves w).place? w.pools.size key = some (b, some .free)) :
    ((build c).leaves w).minimum? w.pools.size = some (((build c).leaves w).buffer b).capacity := by
  have hdead : ∀ {w' : World σ} {pool : Pool}, (build c).leaves w = w' →
      w'.pools = w.pools.push pool → pool.live = false →
      ((build c).leaves w).minimum? w.pools.size =
        some (((build c).leaves w).buffer b).capacity := by
    rintro _ pool rfl hpools hlive
    have hnone := place?_of_pool?_eq_none (pool?_push_of_dead hpools hlive) key
    exact absurd (hfree.symm.trans hnone) (Option.some_ne_none _)
  cases hv : c.validate with
  | error e => exact hdead (leaves_of_ok (build_of_error hv)) rfl rfl
  | ok minimum =>
      by_cases hcount : c.cacheCount = 0
      · have harena : ((build c).leaves w).arena? w.pools.size = some .empty := by
          rw [leaves_of_ok (build_of_no_buffers hv hcount)]
          exact arena?_of_pool? (pool?_opened ..)
        rw [World.place?, harena] at hfree
        exact absurd hfree.symm (Option.some_ne_none _)
      rcases UInt64.lt_or_le SizeClass.maximum minimum with hlarge | hle
      · cases hprofile : w.profile with
        | checked =>
            exact hdead (leaves_of_error (build_of_overreaching_checked hv hlarge hcount hprofile)) rfl rfl
        | unchecked =>
            exact hdead (leaves_of_ok (build_of_overreaching_unchecked hv hlarge hcount hprofile)) rfl rfl
      rcases all_met_or_first_unmet w c minimum c.cacheCount with hall | ⟨n, hn, hmet, hunmet⟩
      · obtain ⟨keys, w', -, hbuild, hbuilt⟩ := build_of_meets hv hle hall
        have hsteps : LicensedSteps ⟨fun _ => True, True, True, 0⟩ w ((build c).leaves w) :=
          licensedSteps_build c trivial rfl
        have hsound := hsteps.sound hs
        rw [leaves_of_ok hbuild] at hsound hfree ⊢
        obtain ⟨-, -, -, -, -, hcapacity⟩ := hbuilt.fresh _ (mem_row_of_place? hsound hfree)
        obtain ⟨arena, rfl⟩ := hbuilt.exact
        rw [hcapacity]
        exact minimum?_of_pool? pool?_stocked
      · obtain ⟨keys, told, w', -, hbuild, hundone⟩ := build_of_not_meets hv hle hn hmet hunmet
        obtain ⟨allocated, hpools⟩ := hundone.pools
        exact hdead (leaves_of_ok hbuild) hpools rfl

end Pool

end BufferPool
