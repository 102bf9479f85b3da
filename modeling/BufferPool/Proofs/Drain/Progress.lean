import BufferPool.Proofs.Drain.Order

/-!
# How producers proceed

Every critical section that a producer enters answers, and it leaves the plant in order with the
producer at the stage that follows. An operation that consists of several sections goes from stage to
stage in the same way, so it is put together from them.
-/

namespace BufferPool

open Arena (Catalog)
open PoolM

variable {σ α β : Type} {minimum : UInt64} {p : PoolId} {k t : Thread} {c c' : Catalog BufferId}
  {s : Plant σ minimum} {w' : World σ}

/-- A claim to a buffer that was changed in place. -/
theorem Claim.Holds.modify {cl : Claim} {w : World σ} (h : cl.Holds c w) (f : Buffer → Buffer)
    {owner : Option Thread} {blank flushed : Bool} {room : UInt64} {refs : Nat}
    (hrefs : refs ≤ cl.refs) (howner : (f (w.buffer cl.buffer)).owner = owner)
    (hblank : blank = true → (f (w.buffer cl.buffer)).Blank)
    (hflushed : flushed = true → (f (w.buffer cl.buffer)).top = (f (w.buffer cl.buffer)).pos)
    (hroom : room ≤ (f (w.buffer cl.buffer)).capacity) :
    Claim.Holds ⟨cl.buffer, cl.key, cl.lane, owner, blank, flushed, room, refs⟩ c
      (w.modifyBuffer cl.buffer f) := by
  have hbuffer := World.buffer_modifyBuffer_self f h.bound
  refine ⟨h.registered, h.unregistered, ?_, ?_, ?_, ?_, ?_, ?_⟩
  · rw [World.size_modifyBuffer]
    exact h.bound
  · rw [hbuffer]
    exact howner
  · rw [hbuffer]
    exact hblank
  · rw [hbuffer]
    exact hflushed
  · rw [hbuffer]
    exact hroom
  · rw [World.refs_modifyBuffer]
    exact Nat.le_trans hrefs h.refs

/-- A claim to a buffer that has got another place. -/
theorem Claim.Holds.relocate {cl : Claim} {w : World σ} (h : cl.Holds c w) {key : Arena.Key}
    {lane : Option Lane} (hp : c'.place key = some (cl.buffer, lane))
    (hsize : w.cells.size ≤ w'.cells.size) (hbuffer : w'.buffer cl.buffer = w.buffer cl.buffer)
    {refs : Nat} (hrefs : refs ≤ w'.refs cl.buffer) :
    Claim.Holds ⟨cl.buffer, some key, lane, cl.owner, cl.blank, cl.flushed, cl.room, refs⟩ c' w' := by
  refine ⟨fun key' hk => ?_, nofun, Nat.lt_of_lt_of_le h.bound hsize, ?_, ?_, ?_, ?_, hrefs⟩
  · obtain rfl := Option.some.inj hk
    exact hp
  · rw [hbuffer]
    exact h.owner
  · rw [hbuffer]
    exact h.blank
  · rw [hbuffer]
    exact h.flushed
  · rw [hbuffer]
    exact h.room

namespace Frame

variable {w : World σ} {touched : BufferId → Prop}

theorem of_buffers (hsize : w'.cells.size = w.cells.size) (hbuffer : ∀ b, w'.buffer b = w.buffer b)
    (hspares : Catalog.Spares touched c c') : Frame touched c w c' w' := by
  refine ⟨Nat.le_of_eq hsize.symm, fun b _ _ => ?_, hspares⟩
  rw [hbuffer]
  exact .refl _

theorem of_cells (hcells : w'.cells = w.cells) (hspares : Catalog.Spares touched c c') :
    Frame touched c w c' w' :=
  of_buffers (congrArg Array.size hcells) (World.buffer_of_cells hcells) hspares

theorem modifyBuffer (c : Catalog BufferId) (w : World σ) (b : BufferId) (f : Buffer → Buffer) :
    Frame (· = b) c w c (w.modifyBuffer b f) := by
  refine ⟨Nat.le_of_eq (World.size_modifyBuffer ..).symm, fun b' _ hb' => ?_, .refl _ c⟩
  rw [World.buffer_modifyBuffer_of_ne _ _ hb']
  exact .refl _

end Frame

namespace Plant

/-- A producer has got to another stage. -/
def proceed (s : Plant σ minimum) (t : Thread) (stage : Stage minimum) (w : World σ) :
    Plant σ minimum :=
  { s with world := w, producers := Function.update s.producers t stage }

/-- The operation answers, and then the plant is in order with the producer at the next stage. -/
def Proceeds (p : PoolId) (k t : Thread) (s : Plant σ minimum) (act : PoolM σ α)
    (next : α → Stage minimum) : Prop :=
  ∃ a w c, act s.world = .ok a w ∧ (s.proceed t (next a) w).Orderly p k c

theorem proceed_proceed (s : Plant σ minimum) (t : Thread) (stage stage' : Stage minimum)
    (w w' : World σ) : (s.proceed t stage w).proceed t stage' w' = s.proceed t stage' w' := by
  simp only [proceed, Function.update_idem]

theorem proceed_self {stage : Stage minimum} (hst : s.producers t = stage) :
    s.proceed t stage s.world = s := by
  simp only [proceed, ← hst, Function.update_eq_self]

theorem producers_proceed (s : Plant σ minimum) (t : Thread) (stage : Stage minimum)
    (w : World σ) : (s.proceed t stage w).producers t = stage :=
  Function.update_self ..

namespace Proceeds

theorem bind {act : PoolM σ α} {f : α → PoolM σ β} {next : α → Stage minimum}
    {next' : β → Stage minimum} (h : Proceeds p k t s act next)
    (hf : ∀ a w c, (s.proceed t (next a) w).Orderly p k c →
      Proceeds p k t (s.proceed t (next a) w) (f a) next') :
    Proceeds p k t s (act >>= f) next' := by
  obtain ⟨a, w, c, hr, hc⟩ := h
  obtain ⟨b, w', c', hr', hc'⟩ := hf a w c hc
  rw [proceed_proceed] at hc'
  exact ⟨b, w', c', (bind_of_ok f hr).trans hr', hc'⟩

/-- What comes first has been done when the rest answers. -/
theorem rest {act : PoolM σ α} {f : α → PoolM σ β} {next : α → Stage minimum} {b : β}
    (h : Proceeds p k t s act next) (hr : (act >>= f) s.world = .ok b w') :
    ∃ a w c, (s.proceed t (next a) w).Orderly p k c ∧ f a w = .ok b w' := by
  obtain ⟨a, w, c, ha, hc⟩ := h
  rw [bind_of_ok f ha] at hr
  exact ⟨a, w, c, hc, hr⟩

theorem of_ok {act : PoolM σ α} {a : α} {next : α → Stage minimum}
    (hr : act s.world = .ok a s.world) (h : (s.proceed t (next a) s.world).Orderly p k c) :
    Proceeds p k t s act next :=
  ⟨a, s.world, c, hr, h⟩

theorem owning {act : PoolM σ α} {next : α → Stage minimum} (h : Proceeds p k t s act next)
    (b : BufferId) : Proceeds p k t s (owning b act) next := by
  obtain ⟨a, w, c, hr, hc⟩ := h
  exact ⟨a, w, c, owning_of_ok hr, hc⟩

end Proceeds

end Plant

namespace Plant.Orderly

/-- The producer has nothing to do. -/
theorem stays (h : s.Orderly p k c) (a : α) {next : α → Stage minimum}
    (hst : s.producers t = next a) : Proceeds p k t s (pure a) next := by
  refine .of_ok (c := c) rfl ?_
  rw [proceed_self hst]
  exact h

theorem onSome (h : s.Orderly p k c) {obtained : Option Handle} {act : Handle → PoolM σ Unit}
    {next : Option Handle → Stage minimum} (hnone : obtained = none → s.producers t = next none)
    (hsome : ∀ g, obtained = some g → Proceeds p k t s (act g) fun _ => next (some g)) :
    Proceeds p k t s (Pool.onSome obtained act) next := by
  cases obtained with
  | none => exact h.stays none (hnone rfl)
  | some g =>
      apply ((hsome g rfl).owning g.buffer).bind
      intro _ w c' hc'
      exact hc'.stays (some g) (producers_proceed s t _ w)

/-- Most steps change neither the log nor the backlog. -/
theorem proceed (h : s.Orderly p k c) (ht : t ≠ k) {stage : Stage minimum}
    {touched : BufferId → Prop} (hf : Shift p k t s touched c c' w')
    (hclaim : ∀ cl, stage.claim? t = some cl → cl.Holds c' w') (hhands : Hands p s t stage w')
    (hbacklog : backlog c' w' = backlog c s.world) : (s.proceed t stage w').Orderly p k c' :=
  h.shift ht hf hclaim hhands h.sound (by rw [hbacklog]; exact h.balance)

theorem bound_full (h : s.Orderly p k c) (key : Arena.Key) (b : BufferId)
    (hp : c.place key = some (b, some .full)) : b < s.world.cells.size :=
  (h.stored key b _ hp).1

/-- What the consumer deals with is in the full lane. -/
theorem pass_ne_of_place (h : s.Orderly p k c) {key : Arena.Key} {b : BufferId}
    {lane : Option Lane} (hp : c.place key = some (b, lane)) (hlane : lane ≠ some .full) {cl : Claim}
    (hcl : s.pass.claim? k = some cl) : cl.buffer ≠ b := by
  intro heq
  have hplace := (h.pass cl hcl).place h.distinct (heq ▸ hp)
  exact hlane (hplace.2.trans (Pass.owner_of_claim? hcl).2.1)

/-- A step that concerns one buffer to which nobody else has a claim. -/
theorem shift_at (h : s.Orderly p k c) {b : BufferId} (hs : w'.Stocks p minimum c')
    (hd : c'.Distinct) (hheld : w'.held = s.world.held) (hf : Frame (· = b) c s.world c' w')
    (hrefs : ∀ b', b' ≠ b → s.world.refs b' ≤ w'.refs b')
    (hothers : ∀ t', t' ≠ t → ∀ cl, (s.producers t').claim? t' = some cl → cl.buffer ≠ b)
    (hpass : ∀ cl, s.pass.claim? k = some cl → cl.buffer ≠ b)
    (hfull : ∀ key, c.place key = some (b, some .full) → c'.place key = some (b, some .full))
    (hstored : ∀ key lane, c'.place key = some (b, lane) →
      b < w'.cells.size ∧ Stored minimum (w'.buffer b) lane) :
    Shift p k t s (· = b) c c' w' := by
  refine ⟨hs, hd, hheld, hf, fun t' ht' cl hcl => ?_, hpass, fun key b' hp => ?_,
    fun key b' lane hb hp => ?_⟩
  · have hne := hothers t' ht' cl hcl
    exact ⟨hne, Nat.le_trans (h.claims t' cl hcl).refs (hrefs _ hne)⟩
  · by_cases hb : b' = b
    · subst hb
      exact hfull key hp
    · exact (hf.spares key b' _ hb).2 hp
  · subst hb
    exact hstored key lane hp

/-- The producer has no buffer in the next stage, and nobody minds what it has done. -/
theorem proceed_aside (h : s.Orderly p k c) (ht : t ≠ k) {stage : Stage minimum}
    (hn : stage.buffer? = none) (hs : w'.Stocks p minimum c) (hheld : w'.held = s.world.held)
    (hsize : s.world.cells.size ≤ w'.cells.size)
    (halike : ∀ b, b < s.world.cells.size → (s.world.buffer b).Alike (w'.buffer b))
    (hrefs : ∀ t', t' ≠ t → ∀ cl, (s.producers t').claim? t' = some cl →
      cl.refs ≤ w'.refs cl.buffer) : (s.proceed t stage w').Orderly p k c := by
  have hf : Frame (fun _ => False) c s.world c w' :=
    ⟨hsize, fun b hb _ => halike b hb, .refl _ c⟩
  have hshift : Shift p k t s (fun _ => False) c c w' :=
    ⟨hs, h.distinct, hheld, hf, fun t' ht' cl hcl => ⟨id, hrefs t' ht' cl hcl⟩, fun _ _ => id,
      fun _ _ hp => hp, fun _ _ _ hb => hb.elim⟩
  apply h.proceed ht hshift
  · exact fun cl hcl => absurd hcl (Stage.claim?_ne_of_buffer? hn t cl)
  · exact hands_of_none hn
  · exact h.stocks.backlog_outside hf h.bound_full rfl fun _ _ _ => id

/-- The producer changes its mind. -/
theorem proceeds_to (h : s.Orderly p k c) (ht : t ≠ k) (a : α) (next : α → Stage minimum)
    (hn : (next a).buffer? = none) : Proceeds p k t s (pure a) next := by
  apply Proceeds.of_ok (c := c) rfl
  exact h.proceed_aside ht hn h.stocks rfl (Nat.le_refl _) (fun _ _ => .refl _)
    fun t' _ cl hcl => (h.claims t' cl hcl).refs

/-- Notes are taken at any stage without a buffer. -/
theorem note (h : s.Orderly p k c) (ht : t ≠ k) (n : Note) (stage : Stage minimum)
    (hn : stage.buffer? = none) : Proceeds p k t s (note p n) fun _ => stage := by
  refine ⟨(), _, c, rfl, ?_⟩
  exact h.proceed_aside ht hn (h.stocks.quiet (quiet_note p n s.world)) rfl (Nat.le_refl _)
    (fun _ _ => .refl _) fun t' _ cl hcl => (h.claims t' cl hcl).refs

/-- A producer that has released its buffer gives up the handle. -/
theorem drop (h : s.Orderly p k c) (ht : t ≠ k) {g : Handle} (hst : s.producers t = .parting g) :
    Proceeds p k t s (PoolM.drop g.buffer) fun _ => .idle := by
  have hq := World.quiet_drop s.world g.buffer
  refine ⟨(), s.world.drop g.buffer, c, rfl, ?_⟩
  apply h.proceed_aside ht rfl (h.stocks.quiet hq) hq.held hq.cells
  · intro b _
    rw [World.buffer_drop]
    exact .refl _
  · intro t' ht' cl hcl
    have hrefs := (h.claims t' cl hcl).refs
    rcases Stage.refs_of_claim? hcl with h0 | hl
    · rw [h0]
      exact Nat.zero_le _
    · have hne : cl.buffer ≠ g.buffer := by
        intro heq
        apply h.apart t' cl hcl hl t ht'.symm
        rw [hst, heq]
        rfl
      rwa [World.refs_drop_of_ne _ hne]

end Plant.Orderly

end BufferPool
