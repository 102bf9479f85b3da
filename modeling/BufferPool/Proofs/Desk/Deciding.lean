import BufferPool.Proofs.Desk.Completion
import BufferPool.Proofs.Desk.LicensedActions
import BufferPool.Proofs.Pool.Deciding

/-!
# What is decided when a buffer is released

At every scene, whoever releases a member of a lane takes it out of that lane, and then the rule of the
pool decides. It makes no difference which of the operations is used, and whether the handle is kept.
-/

namespace BufferPool.Desk

open PoolM World

variable {s : Scene} {w w' : World Desk} {p : PoolId} {pool : Pool} {h : Handle} {b : BufferId}
  {lane : Lane} {giving : Giving} {operand : Operand} {key : Arena.Key}

/-- Handing a handle over concerns the desk alone. -/
theorem handOver_rest (operand : Operand) (kept : Bool) (handle : Handle) (w : World Desk) :
    ((handOver operand kept handle).leaves w).pools = w.pools ∧
      ((handOver operand kept handle).leaves w).profile = w.profile ∧
      ((handOver operand kept handle).leaves w).record = w.record := by
  unfold handOver
  split <;> exact ⟨rfl, rfl, rfl⟩

/-- What a pool does with a handle is what the call does that hands it over. -/
theorem give_call_eq_ok (hp : w.pool? p = some pool) (hf : w.client.find? operand = some h)
    {kept : Bool} (hr : giving.perform p h ((handOver operand kept h).leaves w) = .ok () w')
    (me : Thread) : (Call.give operand kept giving).perform me p w = .ok .nothing w' := by
  rw [Call.perform, withPool_of_some hp, withHandle_of_some hf,
    bind_of_ok _ (handOver_eq_ok operand kept h w)]
  change (Function.const Unit Reply.nothing <$> giving.perform p h) _ = _
  rw [map_eq_pure_bind]
  exact bind_of_ok _ hr

/-- The operations that release a member of the lane. -/
def Giving.Releases (lane : Lane) (giving : Giving) : Prop :=
  giving = .release lane ∨ giving = .giveBack lane

/-- In the checked profile a buffer must be fit to be kept unless it is one-shot, and flushed if it is
given back. -/
def Giving.Expects (giving : Giving) (lane : Lane) (profile : Profile) (b : Buffer) : Prop :=
  profile = .checked →
    (giving = .giveBack lane → b.unflushedSize = 0) ∧
      (b.transient = false → b.isEmpty = true ∧ b.retired = false ∧ b.owner = none)

theorem perform_decides {minimum : UInt64} {c : Arena.Catalog BufferId} (hs : w.Stocks p minimum c)
    (hp : w.pool? p = some pool) (hh : h.pool = p)
    (hplace : w.place? p h.key = some (h.buffer, some lane)) (hgiving : giving.Releases lane)
    (hexpects : giving.Expects lane w.profile (w.buffer h.buffer)) :
    ∃ w', giving.perform p h w = .ok () w' ∧
      Decides p h pool (w.verdict? p pool h) (w.censusWithout p pool h.key) w w' := by
  have hfit : (w.buffer h.buffer).transient = false →
      w.profile = .unchecked ∨ (w.buffer h.buffer).unfit? = none := by
    intro hlasting
    cases hprofile : w.profile with
    | unchecked => exact .inl rfl
    | checked => exact .inr (Buffer.unfit?_eq_none_iff.2 ((hexpects hprofile).2 hlasting))
  obtain ⟨w', -, hr, hdecides, -⟩ :=
    Pool.release_decides hs hh hp ((hs.place? h.key).symm.trans hplace) hfit
  refine ⟨w', ?_, hdecides⟩
  rcases hgiving with rfl | rfl
  · exact hr
  · exact (Pool.giveBack_of_flushed fun hc => (hexpects hc).1 rfl).trans hr

/-- Nothing is decided differently if only the desk has changed. -/
theorem decides_of_same {w₁ : World Desk} {verdict : Option Bool} {census : Census}
    (hpools : w₁.pools = w.pools) (hbuffer : ∀ b, w₁.buffer b = w.buffer b)
    (hrecord : w₁.record = w.record) (hdecides : Decides p h pool verdict census w₁ w') :
    Decides p h pool verdict census w w' := by
  have harena : w₁.arena? p = w.arena? p := by rw [arena?, pool?, hpools, arena?, pool?]
  obtain ⟨arena, hpool⟩ := hdecides.pool
  refine ⟨fun key => ?_, fun lane => ?_, ⟨arena, ?_⟩, fun q hq => ?_,
    fun b => (hdecides.buffer b).trans (hbuffer b), ?_⟩
  · rw [hdecides.place, place?_congr harena]
  · rw [hdecides.row, row_congr harena]
  · rw [hpool, hbuffer]
  · rw [hdecides.pools q hq, hpools]
  · rw [hdecides.record, hbuffer, hrecord]

/-- A call that gives a member of a lane up has it decided about. -/
theorem give_call_decides (ht : w.Tidy p pool) (hh : h.pool = p)
    (hplace : w.place? p h.key = some (h.buffer, some lane)) (hgiving : giving.Releases lane)
    (hexpects : giving.Expects lane w.profile (w.buffer h.buffer))
    (hf : w.client.find? operand = some h) (me : Thread) (kept : Bool) :
    ∃ w', (Call.give operand kept giving).perform me p w = .ok .nothing w' ∧
      Decides p h pool (w.verdict? p pool h) (w.censusWithout p pool h.key) w w' := by
  let w₁ := (handOver operand kept h).leaves w
  obtain ⟨hpools, hprofile, hrecord⟩ := handOver_rest operand kept h w
  have hbuffer : ∀ b, w₁.buffer b = w.buffer b := (spares_handOver operand kept h).buffer_leaves w
  have hp₁ : w₁.pool? p = some pool := by
    rw [pool?, hpools]
    exact ht.present
  have harena : w₁.arena? p = w.arena? p := by rw [arena?, hp₁, arena?, ht.present]
  obtain ⟨c, hs⟩ := ht.stocks
  have hs₁ : w₁.Stocks p pool.minimum c := ⟨minimum?_of_pool? hp₁, harena.symm ▸ hs.catalog⟩
  have hcensus : w₁.censusWithout p pool h.key = w.censusWithout p pool h.key := by
    rw [censusWithout, row_congr harena, row_congr harena, censusWithout]
  have hverdict : w₁.verdict? p pool h = w.verdict? p pool h := by
    rw [verdict?, hbuffer, hcensus, verdict?]
  obtain ⟨w', hr, hdecides⟩ := perform_decides hs₁ hp₁ hh ((place?_congr harena h.key).trans hplace)
    hgiving (by rw [hbuffer, hprofile]; exact hexpects)
  rw [hcensus, hverdict] at hdecides
  exact ⟨w', give_call_eq_ok ht.present hf hr me, decides_of_same hpools hbuffer hrecord hdecides⟩

/-- At every scene of a run, a member of a lane that is released, or given back, leaves its lane. If it
is one-shot it leaves the pool, and nobody is asked. If it is not, the rule of the pool is asked once.
It is shown how many members the lanes have without the buffer, how much is allocated with it, and how
the pool was set up. If it says so the buffer goes to the head of the free lane under the same key, and
otherwise it leaves the pool. What leaves the pool is not allocated any more, and there is one notice of
it. Everything else stays in place and as it is, and nothing is published. -/
theorem release_decided {profile : Profile} {format : Format} {maker : Supply}
    (hs : (Scene.empty profile format maker).Reaches s) (hp : s.world.pool? p = some pool)
    (hmem : (key, b) ∈ s.world.row p lane) (hgiving : giving.Releases lane)
    (hexpects : giving.Expects lane s.world.profile (s.world.buffer b)) :
    let h : Handle := ⟨p, key, b⟩
    let verdict := s.world.verdict? p pool h
    let census := s.world.censusWithout p pool key
    (∃ w', giving.perform p h s.world = .ok () w' ∧ Decides p h pool verdict census s.world w') ∧
      ∀ me operand kept, s.world.client.find? operand = some h →
        ∃ w', (Call.give operand kept giving).perform me p s.world = .ok .nothing w' ∧
          Decides p h pool verdict census s.world w' := by
  intro h verdict census
  obtain ⟨k, hk⟩ := Scene.Reaches.kept (kept_empty profile format maker) hs
  have ht : s.world.Tidy p pool := hk.tidy hp
  obtain ⟨c, hstocks⟩ := ht.stocks
  have hplace : s.world.place? p h.key = some (h.buffer, some lane) := hstocks.mem_row.1 hmem
  exact ⟨perform_decides hstocks hp rfl hplace hgiving hexpects, fun me operand kept hf =>
    give_call_decides ht rfl hplace hgiving hexpects hf me kept⟩

/-- A pool that keeps one buffer has one in each lane. The free one would be kept if it was released,
since it does not count itself. The full one is given back, and leaves the pool. -/
theorem one_kept_one_dismissed :
    let w := performAll 0 0 [.build { Config.standard with cacheCount := 1 } false,
      .obtain .provideFull 100 none (some "a"), .onBuffer (.named "a") .release]
        (.empty .checked .plain (.within none) .empty)
    let free : Handle := ⟨0, ⟨0, 0⟩, 0⟩
    let full : Handle := ⟨0, ⟨1, 0⟩, 1⟩
    ∃ pool, w.pool? 0 = some pool ∧
      (∃ w', (Giving.release .free).perform 0 free w = .ok () w' ∧
        Decides 0 free pool (some true) ⟨0, 1, 1, 8336, 0⟩ w w') ∧
      ∃ w', (Call.give (.named "a") false (.giveBack .full)).perform 0 0 w = .ok .nothing w' ∧
        Decides 0 full pool (some false) ⟨1, 0, 1, 8336, 0⟩ w w' := by
  intro w free full
  have hrun : (Scene.empty .checked .plain (.within none)).Reaches ⟨w, []⟩ :=
    reaches_performAll 0 0 _ _
  have hasked : (w.pool? 0).map (fun pool => (w.verdict? 0 pool free,
      w.censusWithout 0 pool free.key, w.verdict? 0 pool full, w.censusWithout 0 pool full.key)) =
        some (some true, ⟨0, 1, 1, 8336, 0⟩, some false, ⟨1, 0, 1, 8336, 0⟩) := by decide +kernel
  have hmembers : (⟨0, 0⟩, 0) ∈ w.row 0 .free ∧ (⟨1, 0⟩, 1) ∈ w.row 0 .full := by decide +kernel
  have hfit : ∀ b ∈ [0, 1], (w.buffer b).unflushedSize = 0 ∧ (w.buffer b).isEmpty = true ∧
      (w.buffer b).retired = false ∧ (w.buffer b).owner = none := by decide +kernel
  have hf : w.client.find? (.named "a") = some full := by decide +kernel
  clear_value w
  obtain ⟨pool, hp, hpool⟩ := Option.map_eq_some_iff.1 hasked
  obtain ⟨hverdict, hrest⟩ := Prod.mk.inj hpool
  obtain ⟨hcensus, hrest⟩ := Prod.mk.inj hrest
  obtain ⟨hverdict', hcensus'⟩ := Prod.mk.inj hrest
  obtain ⟨⟨w₁, hr, hdecides⟩, -⟩ := release_decided hrun hp hmembers.1 (.inl rfl)
    fun _ => ⟨fun _ => (hfit 0 (by decide)).1, fun _ => (hfit 0 (by decide)).2⟩
  obtain ⟨-, hcall⟩ := release_decided hrun hp hmembers.2 (.inr rfl)
    fun _ => ⟨fun _ => (hfit 1 (by decide)).1, fun _ => (hfit 1 (by decide)).2⟩
  obtain ⟨w₂, hr', hdecides'⟩ := hcall 0 (.named "a") false hf
  rw [hverdict, hcensus] at hdecides
  rw [hverdict', hcensus'] at hdecides'
  exact ⟨pool, hp, ⟨w₁, hr, hdecides⟩, w₂, hr', hdecides'⟩

end BufferPool.Desk
