import Mathlib.Algebra.BigOperators.Group.List.Basic
import Mathlib.Algebra.Order.Group.Multiset
import Mathlib.Algebra.Ring.Nat
import BufferPool.Proofs.World.Bulletin

/-!
# What the events say about each buffer

The events of a buffer are those about its payload and those about its place in the accounts of its
pool. There are only a few ways in which they can follow each other: the payload is granted, then the
buffer is counted by its pool and later retired, and the payload is freed when nothing refers to it
any more. A buffer whose set-up is refused has its payload freed at once.

Given which buffers are counted at present, the past of a world is in order if the events of every
buffer are what its cell says they should be, and if every open pool has counted what its events say.
-/

namespace BufferPool

variable {σ : Type}

namespace Event

/-- Whether the event is about the payload of a buffer or about its place in the accounts. -/
def concerns (b : BufferId) : Event → Bool
  | granted _ c _ _ | freed _ c _ _ | allocated _ c _ | deallocated _ c _ => c == b
  | _ => false

/-- An event that neither payloads nor accounts are concerned with. -/
def isAside : Event → Bool
  | published .. => true
  | e => e.isRemark

/-- What the event adds to the account of a pool. -/
def allocatedTo (p : PoolId) : Event → Nat
  | allocated q _ total => if q = p then total.toNat else 0
  | _ => 0

/-- What the event takes from the account of a pool. -/
def deallocatedFrom (p : PoolId) : Event → Nat
  | deallocated q _ total => if q = p then total.toNat else 0
  | _ => 0

theorem isAside_of_isRemark {e : Event} (h : e.isRemark = true) : e.isAside = true := by
  cases e <;> first | rfl | exact h

theorem concerns_of_isAside {e : Event} (h : e.isAside = true) (b : BufferId) :
    e.concerns b = false := by
  cases e <;> first | rfl | exact nomatch h

theorem allocatedTo_of_isAside {e : Event} (h : e.isAside = true) (p : PoolId) :
    e.allocatedTo p = 0 := by
  cases e <;> first | rfl | exact nomatch h

theorem deallocatedFrom_of_isAside {e : Event} (h : e.isAside = true) (p : PoolId) :
    e.deallocatedFrom p = 0 := by
  cases e <;> first | rfl | exact nomatch h

end Event

/-- How far a buffer has come. -/
inductive Standing where
  /-- It was never counted, because its set-up was refused. -/
  | refused
  | counted
  /-- It was counted and is not any more. -/
  | retired

namespace Cell

/-- What the listener of its pool has been told about a buffer, the latest first. -/
def notices (b : BufferId) (c : Cell) : Standing → List Event
  | .refused => []
  | .counted => [.allocated c.home b c.buffer.totalSize]
  | .retired =>
    [.deallocated c.home b c.buffer.totalSize, .allocated c.home b c.buffer.totalSize]

/-- All events of a buffer, the latest first. -/
def life (b : BufferId) (c : Cell) (s : Standing) : List Event :=
  (if c.refs = 0 then [.freed c.home b c.tag c.buffer.capacity] else []) ++ c.notices b s ++
    [.granted c.home b c.tag c.buffer.capacity]

theorem life_congr {c c' : Cell} (h : c.Reworked c') (hrefs : c'.refs = 0 ↔ c.refs = 0)
    (b : BufferId) (s : Standing) : c'.life b s = c.life b s := by
  obtain ⟨acts, ha⟩ := h.buffer
  have htotal : c'.buffer.totalSize = c.buffer.totalSize := by
    rw [ha, Buffer.totalSize_perform]
  have hcapacity : c'.buffer.capacity = c.buffer.capacity := by
    rw [ha, (Buffer.weight_perform c.buffer acts).2]
  have hnotices : c'.notices b s = c.notices b s := by
    cases s <;> simp only [notices, h.home, htotal]
  simp only [life, hnotices, hrefs, h.home, h.tag, hcapacity]

end Cell

namespace World

/-- The events of a buffer, the latest first. -/
def life (w : World σ) (b : BufferId) : List Event := w.events.filter (Event.concerns b)

/-- The sizes of all buffers that were ever counted by a pool. -/
def allocatedTotal (w : World σ) (p : PoolId) : Nat := (w.events.map (Event.allocatedTo p)).sum

/-- The sizes of all buffers that were counted by a pool and retired. -/
def deallocatedTotal (w : World σ) (p : PoolId) : Nat :=
  (w.events.map (Event.deallocatedFrom p)).sum

/-- The events of a buffer are as its cell says. A buffer whose set-up was refused has its payload
freed right after it was granted. -/
structure Lived (w : World σ) (b : BufferId) (c : Cell) (s : Standing) : Prop where
  life : w.life b = c.life b s
  refused : s = .refused → c.refs = 0 ∧ ∃ later earlier, w.events =
    later ++ .freed c.home b c.tag c.buffer.capacity ::
      .granted c.home b c.tag c.buffer.capacity :: earlier

theorem Lived.of_life {w : World σ} {b : BufferId} {c : Cell} {s : Standing}
    (hlife : w.life b = c.life b s) (hs : s ≠ .refused) : w.Lived b c s :=
  ⟨hlife, fun h => absurd h hs⟩

/-- The buffers of `counted` are those that are counted at present. -/
structure Past (counted : Multiset BufferId) (w : World σ) : Prop where
  life : ∀ (b : BufferId) c, w.cells[b]? = some c →
    ∃ s, w.Lived b c s ∧ (s = .counted ↔ b ∈ counted)
  unborn : ∀ b, w.cells.size ≤ b → w.life b = []
  home : ∀ (b : BufferId) c, w.cells[b]? = some c → c.home < w.pools.size
  fresh : ∀ (b : BufferId) c, w.cells[b]? = some c →
    ∃ capacity acts, c.buffer = (Buffer.fresh w.format capacity).perform acts
  allocated : ∀ p total, w.allocated? p = some total →
    total + UInt64.ofNat (w.deallocatedTotal p) = UInt64.ofNat (w.allocatedTotal p)

theorem life_append {w w' : World σ} {es : List Event} (he : w'.events = es ++ w.events)
    (b : BufferId) : w'.life b = es.filter (Event.concerns b) ++ w.life b := by
  rw [life, he, List.filter_append]
  rfl

theorem allocatedTotal_append {w w' : World σ} {es : List Event} (he : w'.events = es ++ w.events)
    (p : PoolId) :
    w'.allocatedTotal p = (es.map (Event.allocatedTo p)).sum + w.allocatedTotal p := by
  rw [allocatedTotal, he, List.map_append, List.sum_append]
  rfl

theorem deallocatedTotal_append {w w' : World σ} {es : List Event}
    (he : w'.events = es ++ w.events) (p : PoolId) :
    w'.deallocatedTotal p = (es.map (Event.deallocatedFrom p)).sum + w.deallocatedTotal p := by
  rw [deallocatedTotal, he, List.map_append, List.sum_append]
  rfl

/-- Events were added that no payload and no account is concerned with. -/
def Aside (w w' : World σ) : Prop :=
  ∃ asides : List Event, (∀ e ∈ asides, e.isAside = true) ∧ w'.events = asides ++ w.events

theorem Aside.of_events {w w' : World σ} (h : w'.events = w.events) : Aside w w' := ⟨[], nofun, h⟩

section Aside

variable {w w' : World σ} (h : Aside w w')

include h

theorem Aside.life (b : BufferId) : w'.life b = w.life b := by
  obtain ⟨asides, haside, he⟩ := h
  have hnone : asides.filter (Event.concerns b) = [] := by
    rw [List.filter_eq_nil_iff]
    intro e hm
    rw [Event.concerns_of_isAside (haside e hm)]
    exact Bool.false_ne_true
  rw [life_append he, hnone, List.nil_append]

theorem Aside.allocatedTotal (p : PoolId) : w'.allocatedTotal p = w.allocatedTotal p := by
  obtain ⟨asides, haside, he⟩ := h
  have hnone : (asides.map (Event.allocatedTo p)).sum = 0 := by
    apply List.sum_eq_zero
    intro n hn
    obtain ⟨e, hm, rfl⟩ := List.mem_map.1 hn
    exact Event.allocatedTo_of_isAside (haside e hm) p
  rw [allocatedTotal_append he, hnone, Nat.zero_add]

theorem Aside.deallocatedTotal (p : PoolId) : w'.deallocatedTotal p = w.deallocatedTotal p := by
  obtain ⟨asides, haside, he⟩ := h
  have hnone : (asides.map (Event.deallocatedFrom p)).sum = 0 := by
    apply List.sum_eq_zero
    intro n hn
    obtain ⟨e, hm, rfl⟩ := List.mem_map.1 hn
    exact Event.deallocatedFrom_of_isAside (haside e hm) p
  rw [deallocatedTotal_append he, hnone, Nat.zero_add]

theorem Aside.suffix : w.events <:+ w'.events := by
  obtain ⟨asides, -, he⟩ := h
  exact ⟨asides, he.symm⟩

end Aside

theorem Lived.step {w w' : World σ} {b : BufferId} {c c' : Cell} {s : Standing} (h : w.Lived b c s)
    (hr : c.Reworked c') (hrefs : c'.refs = 0 ↔ c.refs = 0) (hlife : w'.life b = w.life b)
    (he : w.events <:+ w'.events) : w'.Lived b c' s := by
  refine ⟨by rw [hlife, h.life, Cell.life_congr hr hrefs], fun hs => ?_⟩
  obtain ⟨hzero, later, earlier, hevents⟩ := h.refused hs
  obtain ⟨acts, ha⟩ := hr.buffer
  obtain ⟨added, hadded⟩ := he
  refine ⟨hrefs.2 hzero, added ++ later, earlier, ?_⟩
  rw [← hadded, hevents, List.append_assoc, hr.home, hr.tag, ha,
    (Buffer.weight_perform c.buffer acts).2]

variable {counted counted' : Multiset BufferId} {w w' : World σ}

/-- An event that concerns a buffer is one of its life, so the buffer is there. -/
theorem Past.exists_of_concerns (h : Past counted w) {e : Event} {b : BufferId} (he : e ∈ w.events)
    (hb : e.concerns b = true) : ∃ c s, w.cells[b]? = some c ∧ e ∈ c.life b s := by
  have hmem : e ∈ w.life b := List.mem_filter.2 ⟨he, hb⟩
  cases hc : w.cells[b]? with
  | none =>
      rw [h.unborn b (Array.getElem?_eq_none_iff.1 hc)] at hmem
      exact nomatch hmem
  | some c =>
      obtain ⟨s, hs, -⟩ := h.life b c hc
      rw [hs.life] at hmem
      exact ⟨c, s, rfl, hmem⟩

/-- All notices about a buffer are those of its own pool. -/
theorem pool_of_mem_life {c : Cell} {b b' : BufferId} {s : Standing} {p : PoolId} {total : UInt64}
    {e : Event} (he : e = .allocated p b' total ∨ e = .deallocated p b' total)
    (hm : e ∈ c.life b s) : p = c.home := by
  unfold Cell.life at hm
  rcases he with rfl | rfl <;> cases s <;> by_cases hc : c.refs = 0 <;>
    simp_all [Cell.notices]

theorem Past.allocatedTotal_of_le (h : Past counted w) {p : PoolId} (hp : w.pools.size ≤ p) :
    w.allocatedTotal p = 0 ∧ w.deallocatedTotal p = 0 := by
  have hnever : ∀ (b : BufferId) total e, (e = .allocated p b total ∨ e = .deallocated p b total) →
      e ∉ w.events := by
    intro b total e he hm
    have hconcerns : e.concerns b = true := by
      rcases he with rfl | rfl <;> exact beq_self_eq_true b
    obtain ⟨c, s, hc, hlife⟩ := h.exists_of_concerns hm hconcerns
    exact absurd (pool_of_mem_life he hlife ▸ h.home b c hc) (Nat.not_lt.2 hp)
  constructor
  · apply List.sum_eq_zero
    intro n hn
    obtain ⟨e, hm, rfl⟩ := List.mem_map.1 hn
    cases e with
    | allocated q b total =>
        refine if_neg ?_
        rintro rfl
        exact hnever b total _ (.inl rfl) hm
    | _ => rfl
  · apply List.sum_eq_zero
    intro n hn
    obtain ⟨e, hm, rfl⟩ := List.mem_map.1 hn
    cases e with
    | deallocated q b total =>
        refine if_neg ?_
        rintro rfl
        exact hnever b total _ (.inr rfl) hm
    | _ => rfl

/-- The cells are those of the other world, with more acts done to their buffers, and the same of
them are referred to. -/
def SameCells (w w' : World σ) : Prop :=
  w'.cells.size = w.cells.size ∧ ∀ (b : BufferId) c', w'.cells[b]? = some c' →
    ∃ c, w.cells[b]? = some c ∧ c.Reworked c' ∧ (c'.refs = 0 ↔ c.refs = 0)

theorem SameCells.of_eq (h : w'.cells = w.cells) : SameCells w w' :=
  ⟨by rw [h], fun b c' hc => ⟨c', by rw [← h]; exact hc, .refl c', Iff.rfl⟩⟩

theorem Past.step (h : Past counted w) (hcells : SameCells w w') (he : Aside w w')
    (hformat : w'.format = w.format) (hpools : w.pools.size ≤ w'.pools.size)
    (hallocated : ∀ p total, w'.allocated? p = some total →
      w.allocated? p = some total ∨ w.pools.size ≤ p ∧ total = 0)
    (hcounted : ∀ b, b ∈ counted' ↔ b ∈ counted) : Past counted' w' := by
  obtain ⟨hsize, hback⟩ := hcells
  refine { life := ?life, unborn := ?unborn, home := ?home, fresh := ?fresh,
           allocated := ?allocated }
  case life =>
    intro b c' hc'
    obtain ⟨c, hc, hr, hrefs⟩ := hback b c' hc'
    obtain ⟨s, hs, hin⟩ := h.life b c hc
    exact ⟨s, hs.step hr hrefs (he.life b) he.suffix, hin.trans (hcounted b).symm⟩
  case unborn =>
    intro b hb
    rw [he.life]
    exact h.unborn b (hsize ▸ hb)
  case home =>
    intro b c' hc'
    obtain ⟨c, hc, hr, -⟩ := hback b c' hc'
    rw [hr.home]
    exact Nat.lt_of_lt_of_le (h.home b c hc) hpools
  case fresh =>
    intro b c' hc'
    obtain ⟨c, hc, hr, -⟩ := hback b c' hc'
    obtain ⟨capacity, acts, hfresh⟩ := h.fresh b c hc
    obtain ⟨more, hmore⟩ := hr.buffer
    refine ⟨capacity, acts ++ more, ?_⟩
    rw [hmore, hfresh, hformat, Buffer.perform_append]
  case allocated =>
    intro p total hp
    rw [he.allocatedTotal, he.deallocatedTotal]
    rcases hallocated p total hp with hold | ⟨hnew, rfl⟩
    · exact h.allocated p total hold
    · obtain ⟨ha, hd⟩ := h.allocatedTotal_of_le hnew
      rw [ha, hd]
      rfl

theorem Idle.sameCells (h : Idle w w') : SameCells w w' := by
  refine ⟨h.size, fun b c' hc' => ?_⟩
  have hlt : b < w.cells.size := h.size ▸ (Array.getElem?_eq_some_iff.1 hc').choose
  obtain ⟨c'', hc'', hr, hrefs⟩ := h.cells b _ (Array.getElem?_eq_getElem hlt)
  obtain rfl := Option.some.inj (hc'.symm.trans hc'')
  exact ⟨_, Array.getElem?_eq_getElem hlt, hr, by rw [hrefs]⟩

theorem Idle.aside (h : Idle w w') : Aside w w' := by
  obtain ⟨remarks, hremarks, he⟩ := h.events
  exact ⟨remarks, fun e hm => Event.isAside_of_isRemark (hremarks e hm), he⟩

/-- One more reference where there is one already. -/
theorem sameCells_retain {b : BufferId} (hb : w.refs b ≠ 0) : SameCells w (w.retain b) := by
  refine ⟨size_retain w b, fun b' c' hc' => ?_⟩
  rw [getElem?_retain] at hc'
  split_ifs at hc' with h
  · obtain ⟨c, hc, rfl⟩ := Option.map_eq_some_iff.1 hc'
    refine ⟨c, hc, ⟨⟨[], rfl⟩, rfl, rfl⟩, iff_of_false (Nat.succ_ne_zero _) ?_⟩
    rw [refs, ← h, hc] at hb
    exact hb
  · exact ⟨c', hc', .refl c', Iff.rfl⟩

/-- Something happens to one buffer, and to no other. -/
theorem Past.concerning {b : BufferId} {es : List Event} (h : Past counted w)
    (hother : ∀ b', b' ≠ b → w'.cells[b']? = w.cells[b']?) (he : w'.events = es ++ w.events)
    (hes : ∀ e ∈ es, ∀ b', b' ≠ b → e.concerns b' = false) (hformat : w'.format = w.format)
    (hpools : w'.pools.size = w.pools.size)
    (hcounted : ∀ b', b' ≠ b → (b' ∈ counted' ↔ b' ∈ counted))
    (hself : ∃ c', w'.cells[b]? = some c' ∧ (∃ s, w'.Lived b c' s ∧ (s = .counted ↔ b ∈ counted')) ∧
      c'.home < w.pools.size ∧
      ∃ capacity acts, c'.buffer = (Buffer.fresh w.format capacity).perform acts)
    (hallocated : ∀ p total, w'.allocated? p = some total →
      total + UInt64.ofNat (w'.deallocatedTotal p) = UInt64.ofNat (w'.allocatedTotal p)) :
    Past counted' w' := by
  obtain ⟨c', hc', hlived, hhome, hfresh⟩ := hself
  have hlife : ∀ b', b' ≠ b → w'.life b' = w.life b' := by
    intro b' hb'
    have hnone : es.filter (Event.concerns b') = [] := by
      rw [List.filter_eq_nil_iff]
      intro e hm
      rw [hes e hm b' hb']
      exact Bool.false_ne_true
    rw [life_append he, hnone, List.nil_append]
  have hcell : ∀ (b' : BufferId) c, w'.cells[b']? = some c →
      b' = b ∧ c = c' ∨ b' ≠ b ∧ w.cells[b']? = some c := by
    intro b' c hc
    by_cases hb : b' = b
    · rw [hb, hc', Option.some.injEq] at hc
      exact .inl ⟨hb, hc.symm⟩
    · exact .inr ⟨hb, hother b' hb ▸ hc⟩
  refine { life := ?life, unborn := ?unborn, home := ?home, fresh := ?fresh,
           allocated := hallocated }
  case life =>
    intro b' c hc
    rcases hcell b' c hc with ⟨rfl, rfl⟩ | ⟨hb, hc⟩
    · exact hlived
    · obtain ⟨s, hs, hin⟩ := h.life b' c hc
      exact ⟨s, hs.step (.refl c) Iff.rfl (hlife b' hb) ⟨es, he.symm⟩,
        hin.trans (hcounted b' hb).symm⟩
  case unborn =>
    intro b' hb'
    have hnone := Array.getElem?_eq_none_iff.2 hb'
    have hb : b' ≠ b := by
      rintro rfl
      rw [hnone] at hc'
      cases hc'
    rw [hlife b' hb]
    apply h.unborn
    rw [← Array.getElem?_eq_none_iff, ← hother b' hb]
    exact hnone
  case home =>
    intro b' c hc
    rw [hpools]
    rcases hcell b' c hc with ⟨rfl, rfl⟩ | ⟨-, hc⟩
    · exact hhome
    · exact h.home b' c hc
  case fresh =>
    intro b' c hc
    rw [hformat]
    rcases hcell b' c hc with ⟨rfl, rfl⟩ | ⟨-, hc⟩
    · exact hfresh
    · exact h.fresh b' c hc

/-- One reference less. If it was the last one, the buffer must not be counted any more. -/
theorem Past.drop {b : BufferId} {c : Cell} (h : Past counted w) (hc : w.cells[b]? = some c)
    (hrefs : c.refs ≠ 0) (hlast : c.refs = 1 → b ∉ counted) : Past counted (w.drop b) := by
  have hcells : (w.drop b).cells[b]? = some { c with refs := c.refs - 1 } := by
    rw [getElem?_drop, if_pos rfl, hc, Option.map_some]
  have hother : ∀ b', b' ≠ b → (w.drop b).cells[b']? = w.cells[b']? := by
    intro b' hb'
    rw [getElem?_drop, if_neg hb']
  have hpools : (w.drop b).pools = w.pools := by
    by_cases hone : c.refs = 1
    · rw [drop_of_last hc hone]
      rfl
    · rw [drop_of_ne_one hc hone]
  have hallocated : ∀ p, (w.drop b).allocated? p = w.allocated? p := by
    intro p
    rw [allocated?, pool?, hpools]
    rfl
  by_cases hone : c.refs = 1
  · obtain ⟨s, hs, hin⟩ := h.life b c hc
    have hevents : (w.drop b).events = [.freed c.home b c.tag c.buffer.capacity] ++ w.events := by
      rw [drop_of_last hc hone]
      rfl
    have hes : ∀ e ∈ [Event.freed c.home b c.tag c.buffer.capacity], ∀ b', b' ≠ b →
        e.concerns b' = false := by
      intro e he b' hb'
      rw [List.mem_singleton.1 he]
      exact beq_eq_false_iff_ne.2 (Ne.symm hb')
    apply h.concerning hother hevents hes (format_drop w b) (congrArg _ hpools) (fun _ _ => Iff.rfl)
    · refine ⟨_, hcells, ⟨s, ⟨?_, fun hr => absurd (hs.refused hr).1 hrefs⟩, hin⟩, h.home b c hc,
        h.fresh b c hc⟩
      rw [life_append hevents, hs.life]
      simp [Cell.life, Cell.notices, Event.concerns, hone]
    · intro p total hp
      rw [hallocated] at hp
      rw [allocatedTotal_append hevents, deallocatedTotal_append hevents]
      simpa [Event.allocatedTo, Event.deallocatedFrom] using h.allocated p total hp
  · have hevents : (w.drop b).events = w.events := by
      rw [drop_of_ne_one hc hone]
    apply h.step ⟨size_drop w b, fun b' c' hc' => ?_⟩ (.of_events hevents) (format_drop w b)
      (Nat.le_of_eq (congrArg _ hpools.symm)) (fun p total hp => .inl (hallocated p ▸ hp))
      fun _ => Iff.rfl
    by_cases hb : b' = b
    · subst hb
      rw [hcells, Option.some.injEq] at hc'
      subst hc'
      refine ⟨c, hc, ⟨⟨[], rfl⟩, rfl, rfl⟩, ?_⟩
      change c.refs - 1 = 0 ↔ c.refs = 0
      omega
    · exact ⟨c', hother b' hb ▸ hc', .refl c', Iff.rfl⟩

theorem allocated?_modifyPool (w : World σ) (p q : PoolId) (g : UInt64 → UInt64) :
    (w.modifyPool p fun pool => { pool with allocated := g pool.allocated }).allocated? q =
      if q = p then (w.allocated? q).map g else w.allocated? q := by
  rw [allocated?, allocated?, pool?_modifyPool w p q _ (by exact fun _ => rfl)]
  split_ifs
  · rw [Option.map_map, Option.map_map]
    rfl
  · rfl

/-- A buffer is retired: it leaves the account of its pool. -/
def strike (w : World σ) (p : PoolId) (b : BufferId) : World σ :=
  (w.modifyPool p fun pool =>
    { pool with allocated := pool.allocated - (w.buffer b).totalSize }).emit
      (.deallocated p b (w.buffer b).totalSize)

theorem Past.strike {b : BufferId} {c : Cell} {p : PoolId} (h : Past (b ::ₘ counted) w)
    (hc : w.cells[b]? = some c) (hrefs : c.refs ≠ 0) (hhome : c.home = p) (hb : b ∉ counted) :
    Past counted (w.strike p b) := by
  subst hhome
  obtain ⟨s, hs, hin⟩ := h.life b c hc
  obtain rfl := hin.2 (Multiset.mem_cons_self b counted)
  have hbuffer : w.buffer b = c.buffer := by
    rw [buffer, hc]
    rfl
  have hevents : (w.strike c.home b).events =
      [.deallocated c.home b c.buffer.totalSize] ++ w.events := by
    rw [World.strike, hbuffer]
    rfl
  have hes : ∀ e ∈ [Event.deallocated c.home b c.buffer.totalSize], ∀ b', b' ≠ b →
      e.concerns b' = false := by
    intro e he b' hb'
    rw [List.mem_singleton.1 he]
    exact beq_eq_false_iff_ne.2 (Ne.symm hb')
  apply h.concerning ?_ hevents hes rfl (size_modifyPool ..)
  · intro b' hb'
    rw [Multiset.mem_cons]
    exact (or_iff_right hb').symm
  · refine ⟨c, hc, ⟨.retired, .of_life ?_ (by simp), iff_of_false (by simp) hb⟩, h.home b c hc,
      h.fresh b c hc⟩
    rw [life_append hevents, hs.life]
    simp [Cell.life, Cell.notices, Event.concerns, hrefs]
  · intro p total hp
    have hallocated : (w.strike c.home b).allocated? p =
        if p = c.home then (w.allocated? p).map (· - c.buffer.totalSize) else w.allocated? p := by
      rw [← hbuffer]
      exact allocated?_modifyPool w c.home p (· - (w.buffer b).totalSize)
    rw [hallocated] at hp
    rw [allocatedTotal_append hevents, deallocatedTotal_append hevents]
    simp only [List.map_cons, List.map_nil, List.sum_cons, List.sum_nil, Event.allocatedTo,
      Event.deallocatedFrom, Nat.add_zero, Nat.zero_add]
    by_cases hq : p = c.home
    · rw [if_pos hq] at hp
      obtain ⟨old, hold, rfl⟩ := Option.map_eq_some_iff.1 hp
      rw [if_pos hq.symm, UInt64.ofNat_add, UInt64.ofNat_toNat, ← UInt64.add_assoc,
        UInt64.sub_add_cancel]
      exact h.allocated p old hold
    · rw [if_neg hq] at hp
      rw [if_neg (Ne.symm hq), Nat.zero_add]
      exact h.allocated p total hp
  · exact fun _ _ => rfl

/-- A payload is granted and a fresh buffer is put around it. -/
def grant (w : World σ) (p : PoolId) (capacity : UInt64) (tag : Option Nat) (tags : Nat) : World σ :=
  { w with
    cells := w.cells.push ⟨.fresh w.format capacity, 1, p, tag⟩
    tags := tags }.emit (.granted p w.cells.size tag capacity)

/-- The latest buffer is counted: it enters the account of its pool. -/
def enter (w : World σ) (p : PoolId) (b : BufferId) : World σ :=
  (w.modifyPool p fun pool =>
    { pool with allocated := pool.allocated + (w.buffer b).totalSize }).emit
      (.allocated p b (w.buffer b).totalSize)

section Grant

variable {p : PoolId} {capacity : UInt64} {tag : Option Nat} {tags : Nat}

theorem getElem?_grant (w : World σ) (p : PoolId) (capacity : UInt64) (tag : Option Nat)
    (tags : Nat) (b : BufferId) : (w.grant p capacity tag tags).cells[b]? =
      if b = w.cells.size then some ⟨.fresh w.format capacity, 1, p, tag⟩ else w.cells[b]? :=
  Array.getElem?_push

theorem buffer_grant (w : World σ) (p : PoolId) (capacity : UInt64) (tag : Option Nat)
    (tags : Nat) : (w.grant p capacity tag tags).buffer w.cells.size = .fresh w.format capacity := by
  rw [buffer, getElem?_grant, if_pos rfl]
  rfl

/-- A new buffer was set up and counted. -/
theorem Past.grant_enter (h : Past counted w) (hp : p < w.pools.size) :
    Past (w.cells.size ::ₘ counted) ((w.grant p capacity tag tags).enter p w.cells.size) := by
  let fresh := Buffer.fresh w.format capacity
  have hevents : ((w.grant p capacity tag tags).enter p w.cells.size).events =
      [.allocated p w.cells.size fresh.totalSize, .granted p w.cells.size tag capacity] ++
        w.events := by
    rw [enter, buffer_grant]
    rfl
  have hes : ∀ e ∈ [Event.allocated p w.cells.size fresh.totalSize,
      .granted p w.cells.size tag capacity], ∀ b', b' ≠ w.cells.size → e.concerns b' = false := by
    intro e he b' hb'
    rcases List.mem_pair.1 he with rfl | rfl <;> exact beq_eq_false_iff_ne.2 (Ne.symm hb')
  apply h.concerning (b := w.cells.size) ?_ hevents hes rfl (size_modifyPool ..)
  · intro b' hb'
    rw [Multiset.mem_cons]
    exact or_iff_right hb'
  · refine ⟨⟨fresh, 1, p, tag⟩, ?_, ⟨.counted, .of_life ?_ (by simp),
      iff_of_true rfl (Multiset.mem_cons_self _ _)⟩, hp, capacity, [], rfl⟩
    · exact (getElem?_grant w p capacity tag tags _).trans (if_pos rfl)
    · rw [life_append hevents, h.unborn _ (Nat.le_refl _)]
      simp [Cell.life, Cell.notices, Event.concerns, fresh, Buffer.fresh, Buffer.capacity,
        Payload.fresh]
  · intro q total hq
    have hallocated : ((w.grant p capacity tag tags).enter p w.cells.size).allocated? q =
        if q = p then (w.allocated? q).map (· + fresh.totalSize) else w.allocated? q := by
      have hmodify := allocated?_modifyPool (w.grant p capacity tag tags) p q
        (· + ((w.grant p capacity tag tags).buffer w.cells.size).totalSize)
      rw [buffer_grant] at hmodify
      rw [enter, buffer_grant]
      exact hmodify
    rw [hallocated] at hq
    rw [allocatedTotal_append hevents, deallocatedTotal_append hevents]
    simp only [List.map_cons, List.map_nil, List.sum_cons, List.sum_nil, Event.allocatedTo,
      Event.deallocatedFrom, Nat.add_zero, Nat.zero_add]
    by_cases hqp : q = p
    · rw [if_pos hqp] at hq
      obtain ⟨old, hold, rfl⟩ := Option.map_eq_some_iff.1 hq
      rw [if_pos hqp.symm, UInt64.ofNat_add, UInt64.ofNat_toNat, ← h.allocated q old hold,
        UInt64.add_comm old, UInt64.add_assoc]
    · rw [if_neg hqp] at hq
      rw [if_neg (Ne.symm hqp), Nat.zero_add]
      exact h.allocated q total hq
  · intro b' hb'
    exact (getElem?_grant w p capacity tag tags b').trans (if_neg hb')

/-- The set-up of a new buffer was refused. -/
theorem Past.grant_drop (h : Past counted w) (hp : p < w.pools.size)
    (hnew : w.cells.size ∉ counted) :
    Past counted ((w.grant p capacity tag tags).drop w.cells.size) := by
  let w₁ := w.grant p capacity tag tags
  let fresh := Buffer.fresh w.format capacity
  have hcell : w₁.cells[w.cells.size]? = some ⟨fresh, 1, p, tag⟩ :=
    (getElem?_grant w p capacity tag tags _).trans (if_pos rfl)
  have hevents : (w₁.drop w.cells.size).events =
      [.freed p w.cells.size tag capacity, .granted p w.cells.size tag capacity] ++ w.events := by
    rw [drop_of_last hcell rfl]
    rfl
  have hpools : (w₁.drop w.cells.size).pools = w.pools := by
    rw [drop_of_last hcell rfl]
    rfl
  have hes : ∀ e ∈ [Event.freed p w.cells.size tag capacity,
      .granted p w.cells.size tag capacity], ∀ b', b' ≠ w.cells.size → e.concerns b' = false := by
    intro e he b' hb'
    rcases List.mem_pair.1 he with rfl | rfl <;> exact beq_eq_false_iff_ne.2 (Ne.symm hb')
  apply h.concerning (b := w.cells.size) ?_ hevents hes (format_drop w₁ _) (congrArg _ hpools)
    fun _ _ => Iff.rfl
  · refine ⟨⟨fresh, 0, p, tag⟩, ?_, ⟨.refused, ⟨?_, fun _ => ⟨rfl, [], w.events, hevents⟩⟩,
      iff_of_false nofun hnew⟩, hp, capacity, [], rfl⟩
    · rw [getElem?_drop, if_pos rfl, hcell]
      rfl
    · rw [life_append hevents, h.unborn _ (Nat.le_refl _)]
      simp [Cell.life, Cell.notices, Event.concerns, fresh, Buffer.fresh, Buffer.capacity,
        Payload.fresh]
  · intro q total hq
    have hallocated : (w₁.drop w.cells.size).allocated? q = w.allocated? q := by
      rw [allocated?, pool?, hpools]
      rfl
    rw [hallocated] at hq
    rw [allocatedTotal_append hevents, deallocatedTotal_append hevents]
    simpa [Event.allocatedTo, Event.deallocatedFrom] using h.allocated q total hq
  · intro b' hb'
    rw [getElem?_drop, if_neg hb']
    exact (getElem?_grant w p capacity tag tags b').trans (if_neg hb')

end Grant

end World

end BufferPool
