import BufferPool.Proofs.Config
import BufferPool.Proofs.Pool.Undoing

/-!
# Setting up a pool, all or nothing

A pool is set up with all its buffers or not at all. The first request that is not met is the last one.
Then the pool is closed, and what it had goes back to the heap.
-/

namespace BufferPool

open PoolM

variable {σ : Type} {w : World σ} {minimum : UInt64} {c : Config} {keys : List Arena.Key}
  {arena : Arena BufferId}

namespace World

/-- A pool has been set up with buffers under these keys. -/
structure Built (c : Config) (minimum : UInt64) (keys : List Arena.Key) (w w' : World σ) : Prop where
  free : w'.row w.pools.size .free = (keys.zipIdx w.cells.size).reverse
  full : w'.row w.pools.size .full = []
  attached : ∀ key b, w'.place? w.pools.size key ≠ some (b, none)
  nodup : ((w'.row w.pools.size .free).map (·.2)).Nodup
  /-- The buffers are new, empty and unmarked, nobody owns them, and there are no handles. -/
  fresh : ∀ e ∈ w'.row w.pools.size .free, w.cells.size ≤ e.2 ∧ w'.refs e.2 = 1 ∧
    (w'.buffer e.2).isEmpty = true ∧ (w'.buffer e.2).owner = none ∧ (w'.buffer e.2).flags = 0 ∧
    (w'.buffer e.2).capacity = minimum
  allocated : w'.allocated? w.pools.size = some (.ofNat
    ((w'.row w.pools.size .free).map fun e => (w'.buffer e.2).totalSize.toNat).sum)
  /-- Nothing else has happened. -/
  exact : ∃ arena, w' = (w.stocked c minimum keys arena).emit
    (.noted w.pools.size (.ready minimum c.limit c.cacheCount))

theorem built_stocked (hi : arena.Inventory [] (keys.zipIdx w.cells.size).reverse []) :
    Built c minimum keys w ((w.stocked c minimum keys arena).emit
      (.noted w.pools.size (.ready minimum c.limit c.cacheCount))) := by
  set w' := (w.stocked c minimum keys arena).emit
    (.noted w.pools.size (.ready minimum c.limit c.cacheCount))
  have hpool : w'.pool? w.pools.size = _ := pool?_stocked
  have harena : w'.arena? w.pools.size = some arena := arena?_of_pool? hpool
  have hfree := row_of_arena? harena hi.entries_free
  have hbuffers : ((keys.zipIdx w.cells.size).reverse).map Prod.snd =
      (List.range' w.cells.size keys.length).reverse := by
    rw [List.map_reverse, List.zipIdx_map_snd]
  have hcell : ∀ e ∈ (keys.zipIdx w.cells.size).reverse,
      e.2 ∈ List.range' w.cells.size keys.length ∧
        w'.cells[e.2]? = some (w.newCell c minimum e.2) := by
    intro e he
    have hb := List.mem_map_of_mem (f := Prod.snd) he
    rw [hbuffers, List.mem_reverse] at hb
    have hnew : (w.stocked c minimum keys arena).cells[e.2]? = some (w.newCell c minimum e.2) :=
      getElem?_stocked hb
    exact ⟨hb, hnew⟩
  refine ⟨hfree, row_of_arena? harena hi.entries_full, fun key b hplace => ?attached, ?nodup,
    fun e he => ?fresh, ?allocated, arena, rfl⟩
  case attached =>
    rw [World.place?, harena] at hplace
    exact List.not_mem_nil ((hi.detached key b).2 hplace)
  case nodup =>
    rw [hfree]
    exact hbuffers ▸ List.nodup_reverse.2 List.nodup_range'
  case fresh =>
    rw [hfree] at he
    obtain ⟨hb, hnew⟩ := hcell e he
    rw [buffer_of_getElem? hnew, refs_of_getElem? hnew]
    exact ⟨(List.mem_range'_1.1 hb).1, rfl, rfl, rfl, rfl, rfl⟩
  case allocated =>
    have htotal : ∀ e ∈ (keys.zipIdx w.cells.size).reverse, (w'.buffer e.2).totalSize.toNat =
        (Buffer.fresh w.format minimum).totalSize.toNat := by
      intro e he
      rw [buffer_of_getElem? (hcell e he).2]
      rfl
    rw [hfree, List.map_congr_left htotal, List.map_const', List.sum_replicate_nat, List.length_reverse,
      List.length_zipIdx, allocated?, hpool]
    rfl

end World

namespace Pool

open World

theorem build_of_error {e : SetupError} (hv : c.validate = .error e) : build c w =
    .ok (.error e) { w with pools := w.pools.push ⟨c, 0, c.heap, .empty, 0, 0, false⟩ } := by
  unfold build
  rw [get_bind]
  simp only [hv]
  rfl

theorem add_stocked (c : Config) (minimum : UInt64) (w : World σ) :
    add c minimum true w = .ok () (w.stocked c minimum [] .empty) := by
  rw [stocked_nil]
  rfl

/-- All requests are met. -/
theorem build_of_meets (hv : c.validate = .ok minimum) (hle : minimum ≤ SizeClass.maximum)
    (hmeets : ∀ i < c.cacheCount, w.meets c minimum i = true) :
    ∃ keys w', keys.length = c.cacheCount ∧ build c w = .ok (.ok w.pools.size) w' ∧
      Built c minimum keys w w' := by
  obtain ⟨keys, arena, hlength, -, hi, hrun⟩ := preallocate_stocked (SizeClass.ofRequest?_self hle) hmeets
  refine ⟨keys, _, hlength, ?_, built_stocked hi⟩
  have hfilled : preallocate w.pools.size 0 c.cacheCount (w.stocked c minimum [] .empty) =
      .ok none (w.stocked c minimum keys arena) := hrun 0
  unfold build
  rw [get_bind]
  simp only [hv]
  rw [bind_of_ok _ (add_stocked c minimum w), bind_of_ok _ (closing_of_ok hfilled)]
  rfl

/-- Some request is not met. -/
theorem build_of_not_meets (hv : c.validate = .ok minimum) (hle : minimum ≤ SizeClass.maximum)
    {n : Nat} (hn : n < c.cacheCount) (hmeets : ∀ i < n, w.meets c minimum i = true)
    (hnot : w.meets c minimum n = false) :
    ∃ keys told w', keys.length = n ∧
      build c w = .ok (.error (.preallocationFailed n c.cacheCount)) w' ∧
      Undone c minimum keys told w w' := by
  obtain ⟨keys, arena, rfl, hsound, hi, hrun⟩ := preallocate_stocked (SizeClass.ofRequest?_self hle) hmeets
  obtain ⟨wiring, hw⟩ := hsound
  have hd := hi.detached_eq_zero hw
  obtain ⟨remaining, hremaining⟩ := Nat.exists_eq_add_of_lt hn
  obtain ⟨told, w₁, hfailed, hunmet⟩ := preallocate_of_not_supplies pool?_stocked hd
    (SizeClass.ofRequest?_self hle) (supplies_stocked.trans hnot) keys.length remaining
  obtain ⟨allocated, w', hclose, hcloses⟩ := hunmet.closes ⟨wiring, hw⟩ hi
    (.noted w.pools.size (.preallocationFailed keys.length c.cacheCount))
  refine ⟨keys, told, w', rfl, ?_, hunmet.undone hi hd hcloses⟩
  have hstopped : preallocate w.pools.size 0 c.cacheCount (w.stocked c minimum [] .empty) =
      .ok (some keys.length)
        (w₁.emit (.noted w.pools.size (.preallocationFailed keys.length c.cacheCount))) := by
    calc preallocate w.pools.size 0 c.cacheCount (w.stocked c minimum [] .empty)
      _ = preallocate w.pools.size 0 (keys.length + (remaining + 1))
            (w.stocked c minimum [] .empty) := by rw [hremaining, Nat.add_assoc]
      _ = preallocate w.pools.size keys.length (remaining + 1) (w.stocked c minimum keys arena) :=
        hrun _
      _ = _ := hfailed
  unfold build
  rw [get_bind]
  simp only [hv]
  rw [bind_of_ok _ (add_stocked c minimum w), bind_of_ok _ (closing_of_ok hstopped)]
  dsimp only
  rw [bind_of_ok _ hclose]
  rfl

/-- Whatever the size of a page is, a pool is set up with all its buffers or not at all. If the sizes are
not acceptable, the first reason is given, and neither the heap nor anybody else hears of it. Otherwise
all buffers are asked for until a request is not met. If all are met, the pool is there, with its buffers
in the free lane. If not, the answer says how many were met, nothing else is asked for, and each buffer
that the pool had is retired and its payload freed, once. The heaps are owed nothing. -/
theorem built_or_undone (c : Config) (w : World σ) :
    let minimum := c.minimum.getD c.pageSize
    let refused : World σ :=
      { w with pools := w.pools.push ⟨c, 0, c.heap, .empty, 0, 0, false⟩ }
    (minimum = 0 → build c w = .ok (.error .zeroMinimum) refused) ∧
    (minimum ≠ 0 → minimum % c.pageSize ≠ 0 →
      build c w = .ok (.error (.notPageAligned "min_elem_size" minimum c.pageSize)) refused) ∧
    (minimum ≠ 0 → minimum % c.pageSize = 0 → c.limit % c.pageSize ≠ 0 →
      build c w = .ok (.error (.notPageAligned "limit_size" c.limit c.pageSize)) refused) ∧
    (minimum ≠ 0 → minimum % c.pageSize = 0 → c.limit % c.pageSize = 0 →
      minimum ≤ SizeClass.maximum →
      ((∀ i < c.cacheCount, w.meets c minimum i = true) →
        ∃ keys w', keys.length = c.cacheCount ∧ build c w = .ok (.ok w.pools.size) w' ∧
          Built c minimum keys w w') ∧
      ∀ n < c.cacheCount, (∀ i < n, w.meets c minimum i = true) → w.meets c minimum n = false →
        ∃ keys told w', keys.length = n ∧
          build c w = .ok (.error (.preallocationFailed n c.cacheCount)) w' ∧
          Undone c minimum keys told w w' ∧
          (∀ b ∈ List.range' w.cells.size n, w'.life b =
            [.freed w.pools.size b (w.newCell c minimum b).tag minimum,
              .deallocated w.pools.size b (w.newCell c minimum b).buffer.totalSize,
              .allocated w.pools.size b (w.newCell c minimum b).buffer.totalSize,
              .granted w.pools.size b (w.newCell c minimum b).tag minimum] ++ w.life b) ∧
          (∀ q, w'.grantedTotal q + w.freedTotal q = w.grantedTotal q + w'.freedTotal q) ∧
          w'.outstanding = w.outstanding) := by
  intro minimum refused
  refine ⟨fun hzero => build_of_error ?_, fun hne hodd => build_of_error ?_,
    fun hne heven hlimit => build_of_error ?_, fun hne heven hlimit hle => ?_⟩
  · rw [Config.validate_eq, if_pos hzero]
  · rw [Config.validate_eq, if_neg hne, if_neg hodd]
  · rw [Config.validate_eq, if_neg hne, if_pos heven, if_neg hlimit]
  have hv : c.validate = .ok minimum := by
    rw [Config.validate_eq, if_neg hne, if_pos heven, if_pos hlimit]
  refine ⟨build_of_meets hv hle, fun n hn hmeets hnot => ?_⟩
  obtain ⟨keys, told, w', rfl, hbuild, hundone⟩ := build_of_not_meets hv hle hn hmeets hnot
  exact ⟨keys, told, w', rfl, hbuild, hundone, fun b hb => hundone.life hb, hundone.balance,
    outstanding_congr hundone.cells hundone.lost⟩

/-- The heap grants two payloads. That is enough for a pool with two buffers, but nothing is left of one
with four. No payload is asked for if a size is not acceptable, and the smallest capacity is looked at
first. Where pages are larger, so must the smallest capacity be. -/
theorem two_of_four_undone :
    let c : Config := { Config.standard with cacheCount := 4, heap := .recording (some 2) 1048576 }
    let w : World Unit := .empty .checked .plain (.within none) ()
    let refuses (c : Config) (e : SetupError) : Prop :=
      ∃ w', build c w = .ok (.error e) w' ∧ w'.events = []
    refuses { c with minimum := some 0, limit := 5 } .zeroMinimum ∧
    refuses { c with minimum := some 5000, limit := 5 } (.notPageAligned "min_elem_size" 5000 4096) ∧
    refuses { c with limit := 5 } (.notPageAligned "limit_size" 5 4096) ∧
    refuses { c with minimum := some 4096, pageSize := 16384 }
      (.notPageAligned "min_elem_size" 4096 16384) ∧
    (∃ keys w', keys.length = 2 ∧
      build { c with cacheCount := 2, pageSize := 16384 } w = .ok (.ok 0) w' ∧
      Built { c with cacheCount := 2, pageSize := 16384 } 16384 keys w w') ∧
    (∃ keys w', keys.length = 2 ∧ build { c with cacheCount := 2 } w = .ok (.ok 0) w' ∧
      Built { c with cacheCount := 2 } 4096 keys w w') ∧
    ∃ keys told w', keys.length = 2 ∧ build c w = .ok (.error (.preallocationFailed 2 4)) w' ∧
      Undone c 4096 keys told w w' ∧ w'.outstanding = 0 := by
  intro c w refuses
  have hne : (4096 : UInt64) ≠ 0 ∧ (16384 : UInt64) ≠ 0 := by decide
  have haligned : (4096 : UInt64) % 4096 = 0 ∧ (0 : UInt64) % 4096 = 0 := by decide
  have hlarge : (16384 : UInt64) % 16384 = 0 ∧ (0 : UInt64) % 16384 = 0 := by decide
  have hodd : (5 : UInt64) % 4096 ≠ 0 ∧ (5000 : UInt64) % 4096 ≠ 0 ∧
      (4096 : UInt64) % 16384 ≠ 0 := by decide
  have hle : (4096 : UInt64) ≤ SizeClass.maximum ∧ (16384 : UInt64) ≤ SizeClass.maximum := by decide
  have hmets : ∀ i < 2, w.meets { c with cacheCount := 2, pageSize := 16384 } 16384 i = true := by
    decide +kernel
  have hmet : ∀ i < 2, w.meets { c with cacheCount := 2 } 4096 i = true := by decide +kernel
  have hmet' : ∀ i < 2, w.meets c 4096 i = true := by decide +kernel
  have hnot : w.meets c 4096 2 = false := by decide +kernel
  obtain ⟨hzero, -⟩ := built_or_undone { c with minimum := some 0, limit := 5 } w
  obtain ⟨-, hminimum, -⟩ := built_or_undone { c with minimum := some 5000, limit := 5 } w
  obtain ⟨-, -, hlimit, -⟩ := built_or_undone { c with limit := 5 } w
  obtain ⟨-, hsmall, -⟩ := built_or_undone { c with minimum := some 4096, pageSize := 16384 } w
  obtain ⟨-, -, -, hbuilds⟩ := built_or_undone { c with cacheCount := 2, pageSize := 16384 } w
  obtain ⟨-, -, -, hbuild⟩ := built_or_undone { c with cacheCount := 2 } w
  obtain ⟨-, -, -, hbuild'⟩ := built_or_undone c w
  obtain ⟨hbuilts, -⟩ := hbuilds hne.2 hlarge.1 hlarge.2 hle.2
  obtain ⟨hbuilt, -⟩ := hbuild hne.1 haligned.1 haligned.2 hle.1
  obtain ⟨-, hundone⟩ := hbuild' hne.1 haligned.1 haligned.2 hle.1
  obtain ⟨keys, told, w', hlength, hrun, h, -, -, hout⟩ := hundone 2 (by decide) hmet' hnot
  exact ⟨⟨_, hzero rfl, rfl⟩, ⟨_, hminimum (by decide) hodd.2.1, rfl⟩,
    ⟨_, hlimit hne.1 haligned.1 hodd.1, rfl⟩, ⟨_, hsmall hne.1 hodd.2.2, rfl⟩, hbuilts hmets,
    hbuilt hmet, keys, told, w', hlength, hrun, h, hout⟩

end Pool

end BufferPool
