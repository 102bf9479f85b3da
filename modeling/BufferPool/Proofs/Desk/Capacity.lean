import BufferPool.Proofs.Desk.Marks
import BufferPool.Proofs.Pool.Capacity

/-!
# Capacities along actions

Every buffer there is has an apt capacity for its pool and is large enough for the request that it was
made for. Its size remains as it is for good. Since every request to a heap is for an apt capacity, too,
none is refused for want of a layout, and what goes back to a heap has one.
-/

namespace BufferPool.Desk

open PoolM World

variable {s : Scene} {b : BufferId}

/-- An action that requests a buffer requests no smaller one. -/
theorem Action.permitted_request {action : Action} {size : UInt64} (h : action.requested? = some size)
    (w : World Desk) : action.Permitted ⟨fun _ => True, True, True, size⟩ w where
  keeps _ _ := .inl trivial
  fills _ _ := trivial
  builds hyes := by
    obtain ⟨me, p, config, debug, rfl⟩ := Action.eq_build_of_builds hyes
    exact absurd h.symm (Option.some_ne_none size)
  requests size' hsize := (Option.some.inj (h.symm.trans hsize)).symm ▸ UInt64.le_refl size
  marks _ _ _ _ := .inl trivial

/-- What is made in an action that requests a buffer is large enough. -/
theorem Action.le_capacity {action : Action} {size : UInt64} (h : action.requested? = some size)
    (hb : s.world.cells.size ≤ b) (hb' : b < (action.take s).2.world.cells.size) :
    size ≤ ((action.take s).2.world.buffer b).capacity := by
  have haction := Action.licensedSteps (action.permitted_request h s.world)
  rw [← Action.world_take] at haction
  have hall := haction.forall_cells (I := fun b c => s.world.cells.size ≤ b → size ≤ c.buffer.capacity)
    (fun b c hc hge => absurd (Array.getElem?_eq_some_iff.1 hc).choose (Nat.not_lt.2 hge))
    (fun hdescends hle hge => hdescends.weight.2 ▸ hle hge) fun hsized _ => by
      obtain ⟨pool, requested, -, hleast, hclass⟩ := hsized
      exact UInt64.le_trans hleast (SizeClass.le_of_ofRequest? hclass).1
  have hc := Array.getElem?_eq_getElem hb'
  rw [buffer_of_getElem? hc]
  exact hall b _ hc hb

theorem Scene.measured_after (profile : Profile) (format : Format) (maker : Supply)
    (actions : List Action) :
    ((Scene.empty profile format maker).after actions).world.Measured ∧
      ((Scene.empty profile format maker).after actions).world.format = format := by
  have hsteps := (Scene.empty profile format maker).licensedSteps_after actions
  exact ⟨hsteps.measured (measured_empty profile format maker Desk.empty), hsteps.format⟩

/-- The size of a buffer remains. -/
structure SameSize (x y : Buffer) : Prop where
  capacity : y.capacity = x.capacity
  total : y.totalSize = x.totalSize

theorem Scene.sameSize_after (s : Scene) (actions : List Action) (hb : b < s.world.cells.size) :
    b < (s.after actions).world.cells.size ∧
      SameSize (s.world.buffer b) ((s.after actions).world.buffer b) := by
  have hc := Array.getElem?_eq_getElem hb
  obtain ⟨c', hc', hheader, hcapacity⟩ := (s.licensedSteps_after actions).cell
    (I := fun c' => c'.buffer.header = s.world.cells[b].buffer.header ∧
      c'.buffer.capacity = s.world.cells[b].buffer.capacity) hc ⟨rfl, rfl⟩
    fun hdescends hsame => ⟨hdescends.weight.1.trans hsame.1, hdescends.weight.2.trans hsame.2⟩
  rw [buffer_of_getElem? hc, buffer_of_getElem? hc']
  refine ⟨(Array.getElem?_eq_some_iff.1 hc').choose, hcapacity, ?_⟩
  rw [Buffer.totalSize, hheader, hcapacity, Buffer.totalSize]

/-- After any actions, every buffer has the smallest capacity of its pool, doubled some times, a multiple of
the page size within the bounds, and its total size is computed without leaving the word. A buffer that
is made for a request is as large as requested, and no buffer ever changes its size. If pages are aligned
to 16 bytes, as payloads are, then whatever heaps were asked for, granted or not, and whatever went back
to them, has a layout, so that the memory of the system refuses only what it has no room for. -/
theorem capacities_have_layouts (profile : Profile) (format : Format) (maker : Supply)
    (actions : List Action) :
    let s := (Scene.empty profile format maker).after actions
    (∀ (b : BufferId) c, s.world.cells[b]? = some c → ∃ config minimum,
      s.world.config? c.home = some config ∧ config.validate = .ok minimum ∧
        c.buffer.Measured format config.pageSize minimum) ∧
    (∀ (action : Action) size, action.requested? = some size → ∀ b, s.world.cells.size ≤ b →
      b < (action.take s).2.world.cells.size → size ≤ ((action.take s).2.world.buffer b).capacity) ∧
    (∀ more, ∀ b < s.world.cells.size, b < (s.after more).world.cells.size ∧
      SameSize (s.world.buffer b) ((s.after more).world.buffer b)) ∧
    ∀ e ∈ s.world.events, ∀ p size, e.payload? = some (p, size) → ∃ config,
      s.world.config? p = some config ∧ (config.pageSize % 16 = 0 →
        Heap.HasLayout size ∧ Heap.systemServes size = decide (size < Heap.memoryLimit)) := by
  intro s
  obtain ⟨hmeasured, hformat⟩ := Scene.measured_after profile format maker actions
  refine ⟨fun b c hc => ?_, fun action size hsize b hb hb' => Action.le_capacity hsize hb hb',
    fun more b hb => s.sameSize_after more hb, fun e he p size hsize => ?_⟩
  · obtain ⟨config, minimum, hconfig, hvalid, hbuffer⟩ := hmeasured.cells b c hc
    rw [hformat] at hbuffer
    exact ⟨config, minimum, hconfig, hvalid, hbuffer⟩
  · obtain ⟨config, minimum, hconfig, hapt⟩ := hmeasured.events e he p size hsize
    refine ⟨config, hconfig, fun hwide => ?_⟩
    have hlayout := hapt.layout hwide
    exact ⟨hlayout, Heap.systemServes_of_hasLayout hlayout hapt.nonzero⟩

/-- The smallest capacity of a pool need not be a power of two. Three pages, doubled once, cover four. -/
theorem three_pages_doubled :
    let calls : List Call := [.build { Config.standard with minimum := some 12288 } false,
      .obtain .allocate 16384 none (some "a")]
    let s := (Scene.empty .checked .plain (.within none)).after (calls.map (.call 0 0))
    (s.world.buffer 0).capacity = 24576 ∧ (s.world.buffer 0).Measured .plain 4096 12288 ∧
      SameSize (s.world.buffer 0) ((s.after [.call 0 0 (.discard (.named "a"))]).world.buffer 0) := by
  intro calls s
  obtain ⟨hmeasured, -, hsame, -⟩ := capacities_have_layouts .checked .plain (.within none)
    (calls.map (.call 0 0))
  have hb : 0 < s.world.cells.size := by decide +kernel
  have hsizes : ((s.world.cells[0]?.map (·.home)).bind s.world.config?).map
      (fun config => (config.pageSize, config.validate.toOption)) = some (4096, some 12288) := by
    decide +kernel
  have hc : s.world.cells[0]? = some s.world.cells[0] := Array.getElem?_eq_getElem hb
  obtain ⟨config, minimum, hconfig, hvalid, hbuffer⟩ := hmeasured 0 _ hc
  rw [hc, Option.map_some, Option.bind_some, hconfig, Option.map_some, hvalid] at hsizes
  obtain ⟨hpage, hminimum⟩ := Prod.mk.inj (Option.some.inj hsizes)
  obtain rfl : minimum = 12288 := Option.some.inj hminimum
  rw [hpage] at hbuffer
  refine ⟨by decide +kernel, ?_, (hsame _ 0 hb).2⟩
  rw [buffer_of_getElem? hc]
  exact hbuffer

end BufferPool.Desk
