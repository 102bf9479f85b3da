import BufferPool.Proofs.Arena.Contents
import BufferPool.Proofs.World.Idle

/-!
# What a pool displays and announces

A pool displays the buffers in its full lane, and announces to its listener that one was published.
The question is whether what is announced is what comes to be displayed. A single operation relates
the world before it to the world after it in one of three manners: the displays and announcements
stay, or some displays end, or one buffer is displayed that was not, and is announced once.
-/

namespace BufferPool

variable {σ α : Type}

/-- Whether the event announces that a buffer of the pool was published. -/
def Event.announces (p : PoolId) : Event → Bool
  | .published q .. => q == p
  | _ => false

theorem Event.announces_of_isRemark {e : Event} (he : e.isRemark = true) (p : PoolId) :
    e.announces p = false := by
  cases e <;> first | rfl | exact nomatch he

namespace World

/-- The buffer is in the full lane of the pool. -/
def Displays (w : World σ) (p : PoolId) (b : BufferId) : Prop :=
  ∃ a, w.arena? p = some a ∧ a.Lists .full b

/-- How many buffers the pool has announced so far. -/
def announced (w : World σ) (p : PoolId) : Nat := w.events.countP (Event.announces p)

theorem Follows.of_cells {w w' : World σ} (hc : w'.cells = w.cells) (he : w.events <:+ w'.events)
    (hf : w'.format = w.format) : Follows w w' :=
  ⟨fun b c h => ⟨c, by rw [hc]; exact h, .refl c⟩, he, hf⟩

theorem follows_retain (w : World σ) (b : BufferId) : Follows w (w.retain b) := by
  refine ⟨fun b' c hc => ?_, List.suffix_refl _, rfl⟩
  rw [getElem?_retain]
  split_ifs
  · rw [hc]
    exact ⟨_, rfl, ⟨[], rfl⟩, rfl, rfl⟩
  · exact ⟨c, hc, .refl c⟩

theorem drop_of_none {w : World σ} {b : BufferId} (h : w.cells[b]? = none) : w.drop b = w := by
  rw [drop, h]

theorem drop_of_ne_one {w : World σ} {b : BufferId} {c : Cell} (hc : w.cells[b]? = some c)
    (h : c.refs ≠ 1) :
    w.drop b = { w with cells := w.cells.setIfInBounds b { c with refs := c.refs - 1 } } := by
  rw [drop, hc]
  exact if_neg h

theorem drop_of_last {w : World σ} {b : BufferId} {c : Cell} (hc : w.cells[b]? = some c)
    (h : c.refs = 1) :
    w.drop b = { w with cells := w.cells.setIfInBounds b { c with refs := c.refs - 1 } }.emit
      (.freed c.home b c.tag c.buffer.capacity) := by
  rw [drop, hc]
  exact if_pos h

theorem events_drop (w : World σ) (b : BufferId) :
    (w.drop b).events = w.events ∨
      ∃ c, w.cells[b]? = some c ∧ (w.drop b).events =
        .freed c.home b c.tag c.buffer.capacity :: w.events := by
  cases hc : w.cells[b]? with
  | none => exact .inl (by rw [drop_of_none hc])
  | some c =>
      by_cases h : c.refs = 1
      · exact .inr ⟨c, rfl, by rw [drop_of_last hc h]; rfl⟩
      · exact .inl (by rw [drop_of_ne_one hc h])

theorem format_drop (w : World σ) (b : BufferId) : (w.drop b).format = w.format := by
  cases hc : w.cells[b]? with
  | none => rw [drop_of_none hc]
  | some c =>
      by_cases h : c.refs = 1
      · rw [drop_of_last hc h]
        rfl
      · rw [drop_of_ne_one hc h]

theorem follows_drop (w : World σ) (b : BufferId) : Follows w (w.drop b) := by
  refine ⟨fun b' c hc => ?_, ?_, format_drop w b⟩
  · rw [getElem?_drop]
    split_ifs
    · rw [hc]
      exact ⟨_, rfl, ⟨[], rfl⟩, rfl, rfl⟩
    · exact ⟨c, hc, .refl c⟩
  · rcases events_drop w b with h | ⟨c, -, h⟩
    · exact h ▸ List.suffix_refl _
    · exact h ▸ List.suffix_cons _ _

/-- Displays and announcements stay as they are. -/
structure Still (w w' : World σ) : Prop extends Follows w w' where
  displays : ∀ p b, w'.Displays p b ↔ w.Displays p b
  announced : ∀ p, w'.announced p = w.announced p

/-- Nothing new is displayed or announced. -/
structure Fades (w w' : World σ) : Prop extends Follows w w' where
  displays : ∀ p b, w'.Displays p b → w.Displays p b
  announced : ∀ p, w'.announced p = w.announced p

/-- One buffer is displayed that was not, and is announced. -/
structure Publishes (p : PoolId) (b : BufferId) (w w' : World σ) : Prop extends Follows w w' where
  before : ¬w.Displays p b
  displays : ∀ q c, w'.Displays q c ↔ w.Displays q c ∨ (q = p ∧ c = b)
  announced : ∀ q, w'.announced q = w.announced q + if q = p then 1 else 0

theorem Still.refl (w : World σ) : Still w w := ⟨.refl w, fun _ _ => Iff.rfl, fun _ => rfl⟩

theorem Still.trans {w w' w'' : World σ} (h : Still w w') (h' : Still w' w'') : Still w w'' :=
  ⟨h.toFollows.trans h'.toFollows, fun p b => (h'.displays p b).trans (h.displays p b),
    fun p => (h'.announced p).trans (h.announced p)⟩

theorem Still.fades {w w' : World σ} (h : Still w w') : Fades w w' :=
  ⟨h.toFollows, fun p b => (h.displays p b).1, h.announced⟩

theorem Fades.trans {w w' w'' : World σ} (h : Fades w w') (h' : Fades w' w'') : Fades w w'' :=
  ⟨h.toFollows.trans h'.toFollows, fun p b hb => h.displays p b (h'.displays p b hb),
    fun p => (h'.announced p).trans (h.announced p)⟩

theorem Still.publishes {p : PoolId} {b : BufferId} {w w' w'' : World σ} (h : Still w w')
    (h' : Publishes p b w' w'') : Publishes p b w w'' :=
  ⟨h.toFollows.trans h'.toFollows, (h.displays p b).not.1 h'.before,
    fun q c => (h'.displays q c).trans (or_congr_left (h.displays q c)),
    fun q => by rw [h'.announced, h.announced]⟩

theorem Publishes.still {p : PoolId} {b : BufferId} {w w' w'' : World σ} (h : Publishes p b w w')
    (h' : Still w' w'') : Publishes p b w w'' :=
  ⟨h.toFollows.trans h'.toFollows, h.before, fun q c => (h'.displays q c).trans (h.displays q c),
    fun q => (h'.announced q).trans (h.announced q)⟩

end World

/-- How an operation so far relates to the world in which it began. -/
inductive Manner where
  | steady
  | fading
  | publishing

namespace World

/-- The present world relates to an earlier one in the given manner. A publication may be still to
come. -/
def Since (w₀ : World σ) : Manner → World σ → Prop
  | .steady, w => Still w₀ w
  | .fading, w => Fades w₀ w
  | .publishing, w => Still w₀ w ∨ ∃ p b, Publishes p b w₀ w

theorem Since.still {w₀ w w' : World σ} {m : Manner} (h : w₀.Since m w) (hs : Still w w') :
    w₀.Since m w' := by
  cases m with
  | steady => exact Still.trans h hs
  | fading => exact Fades.trans h hs.fades
  | publishing =>
      rcases h with h | ⟨p, b, h⟩
      · exact .inl (h.trans hs)
      · exact .inr ⟨p, b, h.still hs⟩

theorem Since.of_steady {w₀ w : World σ} (h : w₀.Since .steady w) (m : Manner) : w₀.Since m w := by
  cases m with
  | steady => exact h
  | fading => exact Still.fades h
  | publishing => exact .inl h

theorem Since.follows {w₀ w : World σ} {m : Manner} (h : w₀.Since m w) : Follows w₀ w := by
  cases m with
  | steady => exact Still.toFollows h
  | fading => exact Fades.toFollows h
  | publishing =>
      rcases h with h | ⟨p, b, h⟩
      · exact h.toFollows
      · exact h.toFollows

theorem displays_congr {w w' : World σ} {p : PoolId} (h : w'.arena? p = w.arena? p)
    (b : BufferId) : w'.Displays p b ↔ w.Displays p b := by
  rw [Displays, h, Displays]

theorem Still.of_arenas {w w' : World σ} (hf : Follows w w') (ha : ∀ p, w'.arena? p = w.arena? p)
    (hp : ∀ p, w'.announced p = w.announced p) : Still w w' :=
  ⟨hf, fun p b => displays_congr (ha p) b, hp⟩

theorem announced_emit (w : World σ) (e : Event) (p : PoolId) :
    (w.emit e).announced p = w.announced p + if e.announces p then 1 else 0 := by
  rw [announced, emit, List.countP_cons]
  rfl

theorem Idle.still {w w' : World σ} (h : Idle w w') : Still w w' := by
  refine .of_arenas h.follows h.arena fun p => ?_
  obtain ⟨remarks, hsilent, he⟩ := h.events
  have hnone : remarks.countP (Event.announces p) = 0 := by
    rw [List.countP_eq_zero]
    intro e hm
    rw [Event.announces_of_isRemark (hsilent e hm)]
    exact Bool.false_ne_true
  rw [announced, he, List.countP_append, hnone, Nat.zero_add, announced]

theorem still_retain (w : World σ) (b : BufferId) : Still w (w.retain b) :=
  .of_arenas (follows_retain w b) (quiet_retain w b).arena fun _ => rfl

theorem still_drop (w : World σ) (b : BufferId) : Still w (w.drop b) := by
  refine .of_arenas (follows_drop w b) (quiet_drop w b).arena fun p => ?_
  unfold announced
  rcases events_drop w b with h | ⟨c, -, h⟩
  · rw [h]
  · rw [h]
    exact List.countP_cons_of_neg Bool.false_ne_true

/-- An arena was replaced by one with the same full lane. -/
theorem still_setArena {w : World σ} {p : PoolId} {pool : Pool} {arena : Arena BufferId}
    (hp : w.pool? p = some pool) (h : ∀ b, arena.Lists .full b ↔ pool.arena.Lists .full b) :
    Still w (w.setArena p arena) := by
  refine ⟨.of_cells rfl (List.suffix_refl _) rfl, fun q b => ?_, fun _ => rfl⟩
  unfold Displays
  rw [arena?_setArena arena hp]
  by_cases hq : q = p
  · simp only [hq, if_true, Option.some.injEq, exists_eq_left', arena?_of_pool? hp, h]
  · rw [if_neg hq]

theorem fades_setArena {w : World σ} {p : PoolId} {pool : Pool} {arena : Arena BufferId}
    (hp : w.pool? p = some pool) (h : ∀ b, arena.Lists .full b → pool.arena.Lists .full b) :
    Fades w (w.setArena p arena) := by
  refine ⟨.of_cells rfl (List.suffix_refl _) rfl, fun q b hd => ?_, fun _ => rfl⟩
  obtain ⟨a, ha, hb⟩ := hd
  rw [arena?_setArena arena hp] at ha
  by_cases hq : q = p
  · rw [if_pos hq, Option.some.injEq] at ha
    rw [hq]
    exact ⟨pool.arena, arena?_of_pool? hp, h b (ha ▸ hb)⟩
  · rw [if_neg hq] at ha
    exact ⟨a, ha, hb⟩

/-- A pool that joins the others displays nothing. -/
theorem still_push (w : World σ) (pool : Pool) (he : pool.arena = .empty) :
    Still w { w with pools := w.pools.push pool } := by
  refine ⟨.of_cells rfl (List.suffix_refl _) rfl, fun q b => ?_, fun _ => rfl⟩
  unfold Displays
  rw [arena?_push]
  by_cases hq : q = w.pools.size
  · have hnone : w.arena? q = none := by
      rw [arena?, pool?, Array.getElem?_eq_none_iff.2 (Nat.le_of_eq hq.symm)]
      rfl
    rw [if_pos hq, hnone, he]
    apply iff_of_false
    · rintro ⟨a, ha, hl⟩
      split_ifs at ha
      exact Arena.not_lists_empty _ _ (Option.some.inj ha ▸ hl)
    · rintro ⟨a, ha, -⟩
      cases ha
  · rw [if_neg hq]

theorem fades_retirePool (w : World σ) (p : PoolId) : Fades w (w.retirePool p) := by
  refine ⟨.of_cells rfl (List.suffix_refl _) rfl, fun q b hd => ?_, fun _ => rfl⟩
  obtain ⟨a, ha, hl⟩ := hd
  rw [arena?_retirePool] at ha
  split_ifs at ha
  exact ⟨a, ha, hl⟩

/-- A buffer was put into the full lane, and this was announced. -/
theorem publishes_setArena {w : World σ} {p : PoolId} {pool : Pool} {arena : Arena BufferId}
    {b : BufferId} (hp : w.pool? p = some pool) (hb : ¬pool.arena.Lists .full b)
    (h : ∀ c, arena.Lists .full c ↔ pool.arena.Lists .full c ∨ c = b) (b' : BufferId)
    (key : Arena.Key) (total : UInt64) :
    Publishes p b w ((w.setArena p arena).emit (.published p b' key total)) := by
  refine ⟨.of_cells rfl (List.suffix_cons _ _) rfl, ?_, fun q c => ?_, fun q => ?_⟩
  · rintro ⟨a, ha, hl⟩
    rw [arena?_of_pool? hp, Option.some.injEq] at ha
    exact hb (ha ▸ hl)
  · change (w.setArena p arena).Displays q c ↔ _
    unfold Displays
    rw [arena?_setArena arena hp]
    by_cases hq : q = p
    · simp only [hq, if_true, Option.some.injEq, exists_eq_left', arena?_of_pool? hp, h, true_and]
    · simp only [hq, if_false, false_and, or_false]
  · rw [announced_emit]
    congr 1
    simp only [Event.announces, beq_iff_eq, eq_comm (a := p)]

end World

end BufferPool
