import BufferPool.Proofs.Pool.Completion
import BufferPool.Proofs.Pool.Reclaiming
import BufferPool.Proofs.SizeClass
import BufferPool.Proofs.World.Record

/-!
# Where new buffers come from

A request that has a class gets a new buffer if the heap grants the payload and the set-up does not
refuse. The heap is asked once, and before that the pool gets rid of what is abandoned, one buffer after
another. If nothing comes of the request, nothing is left of it. Besides what was abandoned everything
stays where it is.
-/

namespace BufferPool

open Arena (Catalog)
open PoolM

variable {σ : Type} {w w' : World σ} {p : PoolId} {pool : Pool} {minimum requested capacity : UInt64}
  {c : Catalog BufferId} {f : Buffer → Buffer} {target : Option Lane}
  {gone : List (Arena.Key × BufferId)} {made : Option BufferId} {found : Option Handle}

/-- The supply after so many requests of one size. -/
def Supply.afterAll (s : Supply) (size : UInt64) (n : Nat) : Supply := (·.after size)^[n] s

theorem Supply.afterAll_succ (s : Supply) (size : UInt64) (n : Nat) :
    s.afterAll size (n + 1) = (s.afterAll size n).after size :=
  Function.iterate_succ_apply' ..

/-- The heap after so many requests of one size. -/
def Heap.afterAll (h : Heap) (size : UInt64) (n : Nat) : Heap :=
  { h with supply := h.supply.afterAll size n }

theorem Heap.afterAll_succ (h : Heap) (size : UInt64) (n : Nat) :
    h.afterAll size (n + 1) = (h.afterAll size n).afterAll size 1 := by
  rw [afterAll, Supply.afterAll_succ]
  rfl

namespace World

/-- What decides about set-ups, after so many of them. Those of plain buffers leave no trace. -/
def makerAfter (w : World σ) (capacity : UInt64) (n : Nat) : Supply :=
  match w.format with
  | .plain => w.maker
  | .metered => w.maker.afterAll capacity n

/-- Whether the next request for a payload will be granted and the buffer around it set up. -/
def supplies (w : World σ) (p : PoolId) (capacity : UInt64) : Bool :=
  (w.heap? p).any (·.supply.grants capacity) && (w.format == .plain || w.maker.grants capacity)

/-- What the supply of buffers depends on. -/
theorem supplies_congr (hheap : w'.heap? p = w.heap? p) (hformat : w'.format = w.format)
    (hmaker : w'.maker = w.maker) (capacity : UInt64) :
    w'.supplies p capacity = w.supplies p capacity := by
  rw [supplies, hheap, hformat, hmaker, supplies]

/-- How a request is answered, with a new buffer or none, and what is told of it, the latest first. The
heap is asked once. -/
inductive Answers (p : PoolId) (requested capacity : UInt64) (w : World σ) :
    Option BufferId → List Event → Prop where
  /-- The heap does not grant the payload. -/
  | denied {e : Event} (withheld : (w.heap? p).any (·.supply.grants capacity) = false)
      (refusal : e = .refused p capacity ∨ e = .unserved p capacity) :
      Answers p requested capacity w none [.noted p (.heapFailed requested capacity), e]
  /-- The set-up refuses, and the payload goes back at once. -/
  | unready (tag : Option Nat) (granted : (w.heap? p).any (·.supply.grants capacity) = true) :
      Answers p requested capacity w none
        [.freed p w.cells.size tag capacity, .granted p w.cells.size tag capacity]
  | made (tag : Option Nat) (granted : (w.heap? p).any (·.supply.grants capacity) = true) :
      Answers p requested capacity w (some w.cells.size)
        [.noted p (.allocated requested capacity (Buffer.fresh w.format capacity).totalSize),
          .allocated p w.cells.size (Buffer.fresh w.format capacity).totalSize,
          .granted p w.cells.size tag capacity]

theorem Answers.congr {told : List Event} (hheap : w'.heap? p = w.heap? p)
    (hformat : w'.format = w.format) (hsize : w'.cells.size = w.cells.size)
    (h : w'.Answers p requested capacity made told) : w.Answers p requested capacity made told := by
  cases h with
  | denied hno he => exact .denied (hheap ▸ hno) he
  | unready tag hyes =>
      rw [hsize]
      exact .unready tag (hheap ▸ hyes)
  | made tag hyes =>
      rw [hsize, hformat]
      exact .made tag (hheap ▸ hyes)

/-- What is on record of an answer. -/
theorem Answers.record {told : List Event} (h : w.Answers p requested capacity made told) :
    ∃ e : Event, e.asks p capacity = true ∧ told.filter Event.isRecorded = made.toList.map
      (fun b => .allocated p b (Buffer.fresh w.format capacity).totalSize) ++ [e] := by
  cases h with
  | denied _ he =>
      rcases he with rfl | rfl
      · exact ⟨.refused p capacity, by simp [Event.asks], rfl⟩
      · exact ⟨.unserved p capacity, by simp [Event.asks], rfl⟩
  | unready tag _ => exact ⟨.granted p w.cells.size tag capacity, by simp [Event.asks], rfl⟩
  | made tag _ => exact ⟨.granted p w.cells.size tag capacity, by simp [Event.asks], rfl⟩

/-- A request for a class has been answered. -/
structure Makes (p : PoolId) (requested capacity : UInt64) (made : Option BufferId) (w w' : World σ) :
    Prop where
  answer : made = if w.supplies p capacity then some w.cells.size else none
  told : ∃ told, w.Answers p requested capacity made told ∧ w'.events = told ++ w.events
  cells : ∀ b < w.cells.size, w'.cells[b]? = w.cells[b]?
  fresh : ∀ b ∈ made, b < w'.cells.size ∧ w'.buffer b = .fresh w.format capacity
  lost : made = none → ∀ b, w.cells.size ≤ b → w'.refs b = 0

/-- What is told when the entries `gone` are reclaimed, the latest first. -/
def clearance (w : World σ) (p : PoolId) (gone : List (Arena.Key × BufferId)) : List Event :=
  (gone.flatMap fun e => w.farewell p e.2).reverse ++
    if gone = [] then [] else [.noted p (.reclaiming gone.length)]

/-- What is told when what was found is put where it belongs, the latest first. -/
def welcome (w : World σ) (p : PoolId) (target : Option Lane) (found : Option Handle) : List Event :=
  found.toList.flatMap fun h => target.toList.flatMap fun lane => w.arrival p lane h

/-- What is abandoned has left the pool, and after that the heap was asked for a new buffer. If it was
supplied, it was worked on as `f` says and put into the lane `target`, if there is one. -/
structure Provides (p : PoolId) (requested capacity : UInt64) (f : Buffer → Buffer)
    (target : Option Lane) (gone : List (Arena.Key × BufferId)) (found : Option Handle)
    (w w' : World σ) : Prop where
  supplied : found.isSome = w.supplies p capacity
  abandoned : ∀ key b, (key, b) ∈ gone ↔ w.place? p key = some (b, none) ∧ w.refs b = 1
  /-- All that is told, the latest first: the arrival in the lane, the answer to the one request, and
  before that what is reclaimed. -/
  told : ∃ answer, w.Answers p requested capacity (found.map (·.buffer)) answer ∧
    w'.events = w'.welcome p target found ++ (answer ++ (w.clearance p gone ++ w.events))
  new : ∀ h, found = some h → h.pool = p ∧ h.buffer = w.cells.size ∧ h.buffer < w'.cells.size ∧
    w'.buffer h.buffer = f (.fresh w.format capacity)
  /-- Nothing is left of a payload that was granted in vain. -/
  lost : found = none → ∀ b, w.cells.size ≤ b → w'.refs b = 0
  buffer : ∀ b < w.cells.size, w'.buffer b = w.buffer b
  place : ∀ key b lane, w'.place? p key = some (b, lane) ↔
    (w.place? p key = some (b, lane) ∧ (key, b) ∉ gone) ∨ found = some ⟨p, key, b⟩ ∧ lane = target
  row : ∀ lane, w'.row p lane =
    (if target = some lane then found.toList.map fun h => (h.key, h.buffer) else []) ++ w.row p lane

/-- What is on record of buffers that have left for good. -/
theorem record_farewell (w : World σ) (p : PoolId) (buffers : List BufferId) :
    ((buffers.flatMap (w.farewell p)).reverse).filter Event.isRecorded =
      (buffers.map fun b => .deallocated p b (w.buffer b).totalSize).reverse := by
  rw [List.filter_reverse, List.filter_flatMap, List.map_eq_flatMap]
  rfl

/-- What is on record of a reclamation. -/
theorem record_clearance (w : World σ) (p : PoolId) (gone : List (Arena.Key × BufferId)) :
    (w.clearance p gone).filter Event.isRecorded =
      (gone.map fun g => .deallocated p g.2 (w.buffer g.2).totalSize).reverse := by
  have hfarewell := record_farewell w p (gone.map (·.2))
  rw [List.flatMap_map, List.map_map] at hfarewell
  have hnote : (if gone = [] then [] else [Event.noted p (.reclaiming gone.length)]).filter
      Event.isRecorded = [] := by
    split_ifs <;> rfl
  rw [clearance, List.filter_append, hfarewell, hnote, List.append_nil]
  rfl

theorem refs_of_size_le {b : BufferId} (h : w.cells.size ≤ b) : w.refs b = 0 := by
  rw [refs, Array.getElem?_eq_none h]
  rfl

theorem refs_drop_self (w : World σ) (b : BufferId) : (w.drop b).refs b = w.refs b - 1 := by
  rw [refs, getElem?_drop, if_pos rfl, refs]
  cases w.cells[b]? <;> rfl

theorem maker_drop (w : World σ) (b : BufferId) : (w.drop b).maker = w.maker := by
  rw [drop_eq]

end World

namespace Pool

open World

theorem prepare_answer (w : World σ) (capacity : UInt64) : prepare capacity w =
    .ok (w.format == .plain || w.maker.grants capacity)
      { w with maker := w.makerAfter capacity 1 } := by
  obtain ⟨profile, format, maker, pools, cells, tags, held, events, client⟩ := w
  cases format <;> rfl

theorem make_makes (hp : w.pool? p = some pool)
    (hclass : SizeClass.ofRequest? requested pool.minimum = some capacity) :
    ∃ made w', make p requested w = .ok made w' ∧ w.Makes p requested capacity made w' := by
  have hheap : (w.heap? p).any (·.supply.grants capacity) = pool.heap.supply.grants capacity := by
    rw [heap?, hp]
    rfl
  unfold make
  rw [bind_of_ok _ (getPool_of_some hp)]
  simp only [hclass]
  cases hgrants : pool.heap.supply.grants capacity with
  | false =>
      rw [hgrants] at hheap
      obtain ⟨w₁, hrequest, hcells, hevents⟩ :=
        requestPayload_of_denied hp (Bool.eq_false_iff.1 hgrants)
      have hrefusal : ∀ e : Event, e = (if pool.heap.supply.permits capacity then
          .unserved p capacity else .refused p capacity) →
          e = .refused p capacity ∨ e = .unserved p capacity := by
        rintro e rfl
        split_ifs
        · exact .inr rfl
        · exact .inl rfl
      rw [bind_of_ok _ hrequest]
      refine ⟨none, _, rfl, by rw [supplies, hheap]; rfl,
        ⟨_, .denied hheap (hrefusal _ rfl), congrArg (_ :: ·) hevents⟩,
        fun b _ => congrArg (fun cells : Array Cell => cells[b]?) hcells, by simp,
        fun _ b hb => (refs_of_cells hcells b).trans (refs_of_size_le hb)⟩
  | true =>
      rw [hgrants] at hheap
      obtain ⟨tag, w₁, hrequest, hcells, hevents, hformat, hmaker⟩ := requestPayload_of_grants hp hgrants
      have hprepare := prepare_answer w₁ capacity
      have hanswer : (w₁.format == .plain || w₁.maker.grants capacity) =
          (w.format == .plain || w.maker.grants capacity) := by rw [hformat, hmaker]
      have hold : ∀ b < w.cells.size, w₁.cells[b]? = w.cells[b]? := fun b hb => by
        rw [hcells, Array.getElem?_push_lt hb, Array.getElem?_eq_getElem hb]
      have hcell : w₁.cells[w.cells.size]? = some ⟨.fresh w.format capacity, 1, p, tag⟩ := by
        rw [hcells, Array.getElem?_push_size]
      have hsize : w₁.cells.size = w.cells.size + 1 := by rw [hcells, Array.size_push]
      have hfresh : w₁.buffer w.cells.size = .fresh w.format capacity := buffer_of_getElem? hcell
      rw [bind_of_ok _ hrequest]
      dsimp only
      rw [bind_of_ok _ hprepare, hanswer]
      let w₂ : World σ := { w₁ with maker := w₁.makerAfter capacity 1 }
      cases hready : (w.format == .plain || w.maker.grants capacity) with
      | true =>
          refine ⟨some w.cells.size, _, rfl, by rw [supplies, hheap, hready]; rfl,
            ⟨_, .made tag hheap, ?_⟩, hold, fun b hb => ?_, by simp⟩
          · rw [← hfresh]
            exact congrArg (_ :: _ :: ·) hevents
          · obtain rfl := Option.some.inj hb
            exact ⟨(Nat.lt_succ_self _).trans_eq hsize.symm, hfresh⟩
      | false =>
          refine ⟨none, w₂.drop w.cells.size, rfl, by rw [supplies, hheap, hready]; rfl,
            ⟨_, .unready tag hheap, ?_⟩, fun b hb => ?_, by simp, fun _ b hb => ?_⟩
          · have hfreed := events_drop_last (w := w₂) hcell rfl
            exact hfreed.trans (congrArg (_ :: ·) hevents)
          · rw [getElem?_drop, if_neg (Nat.ne_of_lt hb)]
            exact hold b hb
          · rcases Nat.eq_or_lt_of_le hb with rfl | hlt
            · exact (refs_drop_self w₂ _).trans (congrArg (· - 1) (refs_of_getElem? (w := w₂) hcell))
            · rw [refs_drop_of_ne w₂ (Nat.ne_of_gt hlt)]
              exact refs_of_size_le (hsize.trans_le hlt)

/-- What decides whether a buffer can be set up is as it was. -/
def SetUpAs (w₀ w : World σ) : Prop := w.maker = w₀.maker ∧ w.format = w₀.format

theorem keeps_setUpAs_retireAll (w₀ : World σ) (p : PoolId) (buffers : List BufferId) :
    Keeps (SetUpAs w₀) (retireAll p buffers) := by
  induction buffers with
  | nil => exact .pure _
  | cons b rest ih =>
      have hretire : Keeps (SetUpAs w₀) (retire p b) := fun _ hw => hw
      have hdrop : Keeps (SetUpAs w₀) (PoolM.drop b) := fun w hw =>
        ⟨(maker_drop w b).trans hw.1, (format_drop w b).trans hw.2⟩
      exact hretire.bind fun _ => hdrop.bind fun _ => ih

theorem keeps_setUpAs_onArena {α : Type} (w₀ : World σ) (p : PoolId)
    (f : Arena BufferId → Except Arena.Fault (α × Arena BufferId)) :
    Keeps (SetUpAs w₀) (onArena p f) := by
  have hget : Keeps (SetUpAs w₀) (getPool p) := Keeps.get.bind fun w => by
    cases w.pool? p with
    | none => exact .throw _
    | some pool => exact .pure _
  refine hget.bind fun pool => ?_
  cases f pool.arena with
  | error fault => exact .throw _
  | ok answer =>
      have hmodify : Keeps (SetUpAs w₀) (modifyPool (σ := σ) p fun pool =>
        { pool with arena := answer.2 }) := fun _ hw => hw
      exact hmodify.bind fun _ => .pure _

theorem keeps_setUpAs_reclaim (w₀ : World σ) (p : PoolId) : Keeps (SetUpAs w₀) (reclaim p) := by
  refine Keeps.get.bind fun w => ?_
  refine (keeps_setUpAs_onArena w₀ p _).bind fun abandoned => ?_
  have hnote : Keeps (SetUpAs w₀) (note (σ := σ) p (.reclaiming abandoned.length)) := fun _ hw => hw
  split_ifs
  · exact hnote.bind fun _ => keeps_setUpAs_retireAll w₀ p abandoned
  · exact .pure _

/-- Reclaiming leaves the lanes alone, and whatever the supply of buffers depends on. -/
theorem reclaim_clears (ht : w.Tidy p pool) : ∃ gone w₁ c₁, reclaim p w = .ok () w₁ ∧
    w.Reclaimed p gone w₁ ∧ w₁.Stocks p pool.minimum c₁ ∧ SetUpAs w w₁ ∧
      w₁.cells.size = w.cells.size ∧ ∀ lane, w₁.row p lane = w.row p lane := by
  obtain ⟨c, hs⟩ := ht.stocks
  obtain ⟨gone, w₁, hr, hreclaimed⟩ := reclaim_reclaimed ht.present ht.sound ht.nodup ht.home
  obtain ⟨keys, w₂, hr', hgathered, hs', -, hsize, -⟩ := reclaim_ok hs
  obtain ⟨-, rfl⟩ := EStateM.Result.ok.inj (hr.symm.trans hr')
  have hset := keeps_setUpAs_reclaim w p w ⟨rfl, rfl⟩
  rw [leaves_of_ok hr] at hset
  refine ⟨gone, w₁, _, hr, hreclaimed, hs', hset, hsize,
    fun lane => hs.row_delete (fun key hk => ?_) hs' lane⟩
  obtain ⟨b, hb, -⟩ := (hgathered.mem_iff key).1 hk
  exact ⟨b, hb⟩

theorem place_reclaimed {w₁ : World σ} (hr : w.Reclaimed p gone w₁) (key : Arena.Key) (b : BufferId)
    (lane : Option Lane) : w₁.place? p key = some (b, lane) ↔
      w.place? p key = some (b, lane) ∧ (key, b) ∉ gone := by
  rw [hr.place]
  split_ifs with hin
  · obtain ⟨⟨other, b'⟩, hmem, rfl⟩ := List.mem_map.1 hin.2
    refine ⟨nofun, fun ⟨hplace, hnot⟩ => ?_⟩
    have hgone := ((hr.abandoned other b').1 hmem).1
    obtain ⟨rfl, -⟩ := Prod.mk.inj (Option.some.inj (hgone.symm.trans hplace))
    exact absurd hmem hnot
  · exact ⟨fun hplace => ⟨hplace, fun hmem => hin ⟨rfl, List.mem_map.2 ⟨_, hmem, rfl⟩⟩⟩,
      fun hplace => hplace.1⟩

theorem enroll_registers (hs : w.Stocks p minimum c) (b : BufferId) :
    ∃ key w', enroll p b w = .ok ⟨p, key, b⟩ w' ∧ w'.Stocks p minimum (c.add key b) ∧
      c.place key = none ∧ w'.events = w.events ∧ w'.cells.size = w.cells.size ∧
      ∀ b, w'.buffer b = w.buffer b := by
  obtain ⟨key, arena, hnone, hon, hs'⟩ := stocks_register hs b
  refine ⟨key, (w.setArena p arena).retain b, ?_, hs'.quiet (World.quiet_retain _ b), hnone, rfl,
    size_retain _ b, fun b' => buffer_retain _ b b'⟩
  rw [enroll, bind_of_ok _ (owning_of_ok hon)]
  rfl

/-- An allocation of a class. -/
theorem allocate_provides (ht : w.Tidy p pool)
    (hclass : SizeClass.ofRequest? requested pool.minimum = some capacity) :
    ∃ gone found w' c', allocate p requested w = .ok found w' ∧
      w.Provides p requested capacity id none gone found w' ∧ w'.Stocks p pool.minimum c' := by
  obtain ⟨gone, w₁, c₁, hreclaim, hgone, hs₁, ⟨hmaker, hformat⟩, hsize, hrow⟩ := reclaim_clears ht
  obtain ⟨pool₁, -, hp₁, hminimum, -⟩ := hs₁.pool
  obtain ⟨made, w₂, hmake, hmakes⟩ := make_makes hp₁ (hminimum ▸ hclass)
  have hquiet := quiet_make p requested w₁
  rw [leaves_of_ok hmake] at hquiet
  have hs₂ := hs₁.quiet hquiet
  have hanswer := hmakes.answer
  rw [supplies_congr (hgone.heap p) hformat hmaker capacity, hsize] at hanswer
  have hbuffer : ∀ b < w.cells.size, w₂.buffer b = w.buffer b := fun b hb =>
    (buffer_congr (hmakes.cells b (hsize ▸ hb))).trans (hgone.buffer b hb)
  have hplace : ∀ key b lane, w₂.place? p key = some (b, lane) ↔
      w.place? p key = some (b, lane) ∧ (key, b) ∉ gone := by
    intro key b lane
    rw [place?_congr (hquiet.arena p)]
    exact place_reclaimed hgone key b lane
  have hrow₂ : ∀ lane, w₂.row p lane = w.row p lane := fun lane =>
    (row_congr (hquiet.arena p) lane).trans (hrow lane)
  obtain ⟨told, htold, hevents⟩ := hmakes.told
  have htold' := htold.congr (hgone.heap p) hformat hsize
  have hcleared : w₁.events = w.clearance p gone ++ w.events := by
    rw [hgone.events, clearance, List.append_assoc]
  rw [hcleared] at hevents
  rw [allocate_of_reclaim hreclaim, bind_of_ok _ hmake]
  by_cases hyes : w.supplies p capacity = true
  · obtain rfl : made = some w.cells.size := hanswer.trans (if_pos hyes)
    obtain ⟨hlt, hfresh⟩ := hmakes.fresh _ rfl
    obtain ⟨key, w₃, henroll, hs₃, hnone, hevents₃, hsize₃, hbuffer₃⟩ :=
      enroll_registers hs₂ w.cells.size
    refine ⟨gone, some ⟨p, key, w.cells.size⟩, w₃, _, bind_of_ok _ henroll,
      ⟨hyes.symm, hgone.abandoned, ⟨told, htold', hevents₃.trans hevents⟩, ?_, nofun,
        fun b hb => (hbuffer₃ b).trans (hbuffer b hb), fun k b lane => ?_,
        fun lane => (hs₂.row_add hnone hs₃ lane).trans (hrow₂ lane)⟩, hs₃⟩
    · rintro _ ⟨⟩
      exact ⟨rfl, rfl, hsize₃ ▸ hlt, by rw [hbuffer₃, hfresh, hformat, id]⟩
    · rw [hs₃.place?, ← hplace, hs₂.place?, Catalog.place_add]
      by_cases hk : k = key
      · subst hk
        simp [hnone, eq_comm]
      · simp [hk, Ne.symm hk]
  · obtain rfl : made = none := hanswer.trans (if_neg hyes)
    refine ⟨gone, none, w₂, _, rfl, ⟨(Bool.eq_false_iff.2 hyes).symm, hgone.abandoned,
      ⟨told, htold', hevents⟩, nofun, fun _ b hb => hmakes.lost rfl b (hsize.symm ▸ hb), hbuffer,
      fun key b lane => ?_, hrow₂⟩, hs₂⟩
    rw [hplace]
    simp

end Pool

end BufferPool
