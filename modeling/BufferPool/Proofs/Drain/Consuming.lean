import BufferPool.Proofs.Drain.Progress

/-!
# Whatever the consumer does

What the consumer has captured stays in the full lane until the consumer itself gives it back, so every
captured handle still names its buffer when its turn comes. A buffer that the consumer has acquired is
its own until then: producers look for buffers in the free lane only.
-/

namespace BufferPool

open Arena (Catalog)
open PoolM

variable {σ α : Type} {minimum : UInt64} {p : PoolId} {k t : Thread} {c c' : Catalog BufferId}
  {s : Plant σ minimum} {w' : World σ} {h : Handle} {rest : List Handle}

namespace Plant

/-- The operation answers, and then the plant is in order with the consumer at the next point of its pass. -/
def Attends (p : PoolId) (k : Thread) (s : Plant σ minimum) (act : PoolM σ α)
    (next : α → Pass × List Mark) : Prop :=
  ∃ a w c, act s.world = .ok a w ∧
    (⟨w, s.producers, (next a).1, (next a).2 ++ s.log⟩ : Plant σ minimum).Orderly p k c

/-- What the consumer attends to is a step. -/
theorem Attends.consumed {act : PoolM σ α} {next : α → Pass × List Mark}
    (h : Attends p k s act next) : ∃ c, (s.consumed ((next <$> act) s.world)).Orderly p k c := by
  obtain ⟨a, w, c, hr, hc⟩ := h
  refine ⟨c, ?_⟩
  rw [map_eq_pure_bind, bind_of_ok _ hr]
  exact hc

namespace Orderly

/-- The consumer makes a step that touches buffers to which no producer has a claim. -/
theorem attend (ho : s.Orderly p k c) {pass : Pass} {log : List Mark} {touched : BufferId → Prop}
    (hs : w'.Stocks p minimum c') (hd : c'.Distinct) (hf : Frame touched c s.world c' w')
    (hothers : ∀ t cl, (s.producers t).claim? t = some cl →
      ¬touched cl.buffer ∧ cl.refs ≤ w'.refs cl.buffer)
    (hheld : ∀ handles ∈ w'.held, handles ∈ s.world.held ∨
      ∀ g ∈ handles, c.place g.key = some (g.buffer, some .full))
    (hstored : ∀ key b lane, touched b → c'.place key = some (b, lane) →
      b < w'.cells.size ∧ Stored minimum (w'.buffer b) lane)
    (hclaim : ∀ cl, pass.claim? k = some cl → cl.Holds c' w')
    (hcaptured : ∀ g ∈ pass.handles, g.pool = p ∧ c'.place g.key = some (g.buffer, some .full))
    (hnodup : pass.handles.Nodup) (hsound : ∀ m ∈ log, m.sound = true)
    (hbalance : bytesDrained log + backlog c' w' = bytesWritten log) :
    (⟨w', s.producers, pass, log⟩ : Plant σ minimum).Orderly p k c' := by
  refine ⟨hs, hd, fun key b lane hp => ?_, fun t cl hcl => ?_, fun t b hb => ?_, ho.home, ho.apart,
    fun t cl hcl hl handles hh g hg => ?_, fun handles hh g hg => ?_, ho.consumer, hclaim,
    hcaptured, hnodup, hsound, hbalance⟩
  · by_cases hb : touched b
    · exact hstored key b lane hb hp
    · obtain ⟨hlt, hst⟩ := ho.stored key b lane ((hf.spares key b lane hb).1 hp)
      exact ⟨Nat.lt_of_lt_of_le hlt hf.size, hst.alike (hf.alike b hlt hb)⟩
  · obtain ⟨hb, hrefs⟩ := hothers t cl hcl
    exact (ho.claims t cl hcl).frame hf hb hrefs
  · exact Nat.lt_of_lt_of_le (ho.known t b hb) hf.size
  · rcases hheld handles hh with hold | hlisted
    · exact ho.unheld t cl hcl hl handles hold g hg
    · exact (ho.claim_ne_of_listed (hlisted g hg) hcl hl).symm
  · rcases hheld handles hh with hold | hlisted
    · exact Nat.lt_of_lt_of_le (ho.held handles hold g hg) hf.size
    · exact Nat.lt_of_lt_of_le (ho.bound_full _ _ (hlisted g hg)) hf.size

/-- The consumer has acquired no buffer, and nobody minds what it has done. -/
theorem attend_aside (ho : s.Orderly p k c) {pass : Pass} (hs : w'.Stocks p minimum c)
    (hsize : s.world.cells.size ≤ w'.cells.size)
    (halike : ∀ b, (s.world.buffer b).Alike (w'.buffer b))
    (hrefs : ∀ t cl, (s.producers t).claim? t = some cl → cl.refs ≤ w'.refs cl.buffer)
    (hheld : ∀ handles ∈ w'.held, handles ∈ s.world.held ∨
      ∀ g ∈ handles, c.place g.key = some (g.buffer, some .full))
    (hclaim : pass.claim? k = none)
    (hcaptured : ∀ g ∈ pass.handles, g.pool = p ∧ c.place g.key = some (g.buffer, some .full))
    (hnodup : pass.handles.Nodup) :
    (⟨w', s.producers, pass, s.log⟩ : Plant σ minimum).Orderly p k c := by
  have hf : Frame (fun _ => False) c s.world c w' := ⟨hsize, fun b _ _ => halike b, .refl _ c⟩
  refine ho.attend hs ho.distinct hf (fun t cl hcl => ⟨id, hrefs t cl hcl⟩) hheld
    (fun _ _ _ hb => hb.elim) (fun cl hcl => nomatch hclaim.symm.trans hcl) hcaptured hnodup
    ho.sound ?_
  rw [ho.stocks.backlog_outside hf ho.bound_full rfl fun _ _ _ => id]
  exact ho.balance

theorem attend_capture (ho : s.Orderly p k c) (dir : Direction) :
    Attends p k s (Pool.capture p .full dir) fun handles => (.visiting handles, []) := by
  obtain ⟨handles, _, hr, rfl, hnodup, hmem⟩ := Pool.capture_ok ho.stocks .full dir
  have hq := World.quiet_foldl_retain s.world handles
  have hstocks : (s.world.hold handles).Stocks p minimum c := (ho.stocks.quiet hq).hold _
  have hrefs : ∀ b, s.world.refs b ≤ (s.world.hold handles).refs b :=
    World.refs_le_foldl_retain s.world handles
  refine ⟨handles, s.world.hold handles, c, hr, ?_⟩
  apply ho.attend_aside hstocks hq.cells
  · intro b
    have hbuffer : (s.world.hold handles).buffer b = s.world.buffer b :=
      World.buffer_foldl_retain s.world handles b
    rw [hbuffer]
    exact .refl _
  · exact fun t cl hcl => Nat.le_trans (ho.claims t cl hcl).refs (hrefs _)
  · intro gs hgs
    rcases List.mem_cons.1 hgs with rfl | hold
    · exact .inr fun g hg => ((hmem g).1 hg).2
    · exact .inl hold
  · rfl
  · exact fun h => (hmem h).1
  · exact hnodup

/-- Private buffers are not among those that anybody holds. -/
theorem attend_letGo (ho : s.Orderly p k c) :
    Attends p k s (modify (·.letGo) : PoolM σ PUnit) fun _ => (.resting, []) := by
  refine ⟨(), s.world.letGo, c, rfl, ?_⟩
  unfold World.letGo
  split
  · apply ho.attend_aside ho.stocks (Nat.le_refl _) fun _ => .refl _
    · exact fun t cl hcl => (ho.claims t cl hcl).refs
    · exact fun _ hh => .inl hh
    · rfl
    · exact nofun
    · exact .nil
  · next handles outer heq =>
    have hq := World.quiet_dropAll s.world handles
    apply ho.attend_aside ((ho.stocks.quiet hq).hold outer) hq.cells
    · intro b
      have hbuffer : World.buffer { s.world.dropAll handles with held := outer } b =
          s.world.buffer b := World.buffer_dropAll s.world handles b
      rw [hbuffer]
      exact .refl _
    · intro t cl hcl
      have hrefs := (ho.claims t cl hcl).refs
      rcases Stage.refs_of_claim? hcl with h0 | hl
      · rw [h0]
        exact Nat.zero_le _
      · have hmem : handles ∈ s.world.held := by
          rw [heq]
          exact List.mem_cons_self
        rw [← World.refs_dropAll_of_notMem s.world (ho.unheld t cl hcl hl handles hmem)] at hrefs
        exact hrefs
    · intro gs hgs
      rw [heq]
      exact .inl (List.mem_cons_of_mem _ hgs)
    · rfl
    · exact nofun
    · exact .nil

/-- Two captured handles are to two buffers. -/
theorem captured_ne (ho : s.Orderly p k c) {g : Handle} (hg : g ∈ s.pass.handles)
    (hh : h ∈ s.pass.handles) (hne : g ≠ h) : g.buffer ≠ h.buffer := by
  intro heq
  obtain ⟨hpool, hp⟩ := ho.captured g hg
  obtain ⟨hpool', hp'⟩ := ho.captured h hh
  apply hne
  have hkey := ho.distinct g.key h.key _ _ _ (heq ▸ hp) hp'
  cases g
  cases h
  rw [Handle.mk.injEq]
  exact ⟨hpool.trans hpool'.symm, hkey, heq⟩

/-- The consumer changes the buffer that it has at hand in place. -/
theorem attend_modify (ho : s.Orderly p k c) {pass : Pass} {log : List Mark} {cl : Claim}
    (hcl : s.pass.claim? k = some cl) (f : Buffer → Buffer)
    (hstored : Stored minimum (f (s.world.buffer cl.buffer)) (some .full))
    (hclaim : ∀ cl', pass.claim? k = some cl' →
      cl'.Holds c (s.world.modifyBuffer cl.buffer f))
    (hhandles : pass.handles = s.pass.handles) (hsound : ∀ m ∈ log, m.sound = true)
    (hbalance : bytesDrained log + backlog c s.world +
        (f (s.world.buffer cl.buffer)).unflushedSize.toNat =
      bytesWritten log + (s.world.buffer cl.buffer).unflushedSize.toNat) :
    (⟨s.world.modifyBuffer cl.buffer f, s.producers, pass, log⟩ :
      Plant σ minimum).Orderly p k c := by
  have hholds := ho.pass cl hcl
  obtain ⟨-, hlane, -, key, hkey⟩ := Pass.owner_of_claim? hcl
  have hp := hholds.registered key hkey
  rw [hlane] at hp
  have hq := World.quiet_modifyBuffer s.world cl.buffer f
  have hf := Frame.modifyBuffer c s.world cl.buffer f
  have hbuffer := World.buffer_modifyBuffer_self f hholds.bound
  have hchange := ho.stocks.backlog_change ho.distinct hf ho.bound_full hp
  rw [hbuffer] at hchange
  apply ho.attend (ho.stocks.quiet hq) ho.distinct hf
  · intro t cl' hcl'
    refine ⟨ho.claim_ne_pass hcl hcl', ?_⟩
    rw [World.refs_modifyBuffer]
    exact (ho.claims t cl' hcl').refs
  · exact fun handles hh => .inl (hq.held ▸ hh)
  · rintro key' b lane rfl hp'
    refine ⟨?_, ?_⟩
    · rw [World.size_modifyBuffer]
      exact hholds.bound
    · rw [hbuffer, (hholds.place ho.distinct hp').2, hlane]
      exact hstored
  · exact hclaim
  · rw [hhandles]
    exact ho.captured
  · rw [hhandles]
    exact ho.nodup
  · exact hsound
  · omega

/-- A captured buffer that nobody owned is the consumer's now. -/
theorem attend_won (ho : s.Orderly p k c) (hp : c.place h.key = some (h.buffer, some .full))
    (howner : (s.world.buffer h.buffer).owner = none)
    (hcaptured : ∀ g ∈ h :: rest, g.pool = p ∧ c.place g.key = some (g.buffer, some .full))
    (hnodup : (h :: rest).Nodup) {f : Buffer → Buffer}
    (hbuffer : f (s.world.buffer h.buffer) = (s.world.buffer h.buffer).countAttempt.claim k) :
    (⟨s.world.modifyBuffer h.buffer f, s.producers, .acquired h rest, s.log⟩ :
      Plant σ minimum).Orderly p k c := by
  obtain ⟨hlt, hst⟩ := ho.stored _ _ _ hp
  have hq := World.quiet_modifyBuffer s.world h.buffer f
  have hf := Frame.modifyBuffer c s.world h.buffer f
  have hlt' := Nat.lt_of_lt_of_le hlt hf.size
  have hnew : (s.world.modifyBuffer h.buffer f).buffer h.buffer =
      (s.world.buffer h.buffer).countAttempt.claim k := by
    rw [World.buffer_modifyBuffer_self _ hlt, hbuffer]
  have hchange := ho.stocks.backlog_change ho.distinct hf ho.bound_full hp
  rw [hnew] at hchange
  apply ho.attend (ho.stocks.quiet hq) ho.distinct hf
  · intro t cl hcl
    refine ⟨ho.claim_ne_of_unowned hp howner hcl, ?_⟩
    rw [World.refs_modifyBuffer]
    exact (ho.claims t cl hcl).refs
  · exact fun handles hh => .inl (hq.held ▸ hh)
  · rintro key _ lane rfl hp'
    obtain rfl := ho.distinct.lane_eq hp hp'
    rw [hnew]
    exact ⟨hlt', (hst.alike (Buffer.alike_countAttempt _)).claim⟩
  · intro cl hcl
    obtain rfl := Option.some.inj hcl
    refine ⟨fun key hk => ?_, nofun, hlt', ?_, nofun, nofun, Nat.zero_le _, Nat.zero_le _⟩
    · obtain rfl := Option.some.inj hk
      exact hp
    · rw [hnew]
      rfl
  · exact hcaptured
  · exact hnodup
  · exact ho.sound
  · have hsame : backlog c _ = backlog c s.world := Nat.add_right_cancel hchange
    rw [hsame]
    exact ho.balance

/-- A buffer that somebody owns is skipped. -/
theorem attend_tryAcquire (ho : s.Orderly p k c) (hpass : s.pass = .visiting (h :: rest)) :
    Attends p k s (tryAcquire h.buffer k) fun won =>
      (if won then .acquired h rest else .visiting rest, []) := by
  have hcaptured : ∀ g ∈ h :: rest, g.pool = p ∧ c.place g.key = some (g.buffer, some .full) := by
    intro g hg
    apply ho.captured
    rw [hpass]
    exact hg
  have hnodup : (h :: rest).Nodup := by
    have hnodup := ho.nodup
    rw [hpass] at hnodup
    exact hnodup
  obtain ⟨-, hp⟩ := hcaptured h List.mem_cons_self
  let b := s.world.buffer h.buffer
  refine ⟨_, _, c, tryAcquire_ok h.buffer k s.world, ?_⟩
  by_cases hnone : b.owner.isNone = true
  · have hwon : b.tryAcquire k = (true, b.countAttempt.claim k) := if_pos hnone
    rw [hwon]
    exact ho.attend_won hp (Option.isNone_iff_eq_none.1 hnone) hcaptured hnodup rfl
  · have hlost : b.tryAcquire k = (false, b.countAttempt) := if_neg hnone
    have hsearched := Pool.searched_tryAcquire (ho.stored _ _ _ hp).1 k
    rw [if_neg hnone, hlost] at hsearched
    rw [hlost]
    have hq := World.quiet_modifyBuffer s.world h.buffer fun _ => b.countAttempt
    apply ho.attend_aside (ho.stocks.quiet hq) hq.cells fun b => hsearched.others b nofun
    · exact fun t cl hcl => Nat.le_trans (ho.claims t cl hcl).refs (hsearched.refs _)
    · exact fun handles hh => .inl (hq.held ▸ hh)
    · rfl
    · exact fun g hg => hcaptured g (List.mem_cons_of_mem _ hg)
    · exact (List.nodup_cons.1 hnodup).2

theorem attend_flush (ho : s.Orderly p k c) (hpass : s.pass = .acquired h rest) :
    Attends p k s (flush h.buffer) fun count => (.flushed h rest, [.drained count.toNat]) := by
  have hcl : s.pass.claim? k =
      some ⟨h.buffer, some h.key, some .full, some k, false, false, 0, 0⟩ := by
    rw [hpass]
    rfl
  have hholds := ho.pass _ hcl
  have hst := (ho.stored _ _ _ (hholds.registered h.key rfl)).2
  let b := s.world.buffer h.buffer
  have hold : b.unflushedSize = b.pos - b.top := if_pos (hst.full rfl)
  have hnew : Buffer.unflushedSize { b with top := b.pos } = 0 := by
    rw [Buffer.unflushedSize, if_pos (UInt64.le_refl b.pos), UInt64.sub_self]
  refine ⟨b.pos - b.top, s.world.modifyBuffer h.buffer fun _ => { b with top := b.pos }, c, rfl, ?_⟩
  apply ho.attend_modify hcl fun _ => { b with top := b.pos }
  · exact stored_full hst.capacity (UInt64.le_refl b.pos)
  · intro cl hcl'
    obtain rfl := Option.some.inj hcl'
    exact hholds.modify _ (Nat.le_refl 0) hholds.owner (fun h => Bool.noConfusion h) (fun _ => rfl)
      (Nat.zero_le _)
  · rw [hpass]
    rfl
  · exact List.forall_mem_cons.2 ⟨rfl, ho.sound⟩
  · have hbalance := ho.balance
    have hzero : (0 : UInt64).toNat = 0 := rfl
    change _ = _ + b.unflushedSize.toNat
    rw [hnew, hold]
    simp only [bytesDrained, bytesWritten, List.map_cons, List.sum_cons, Mark.bytesDrained,
      Mark.bytesWritten, List.singleton_append] at hbalance ⊢
    omega

theorem attend_reset (ho : s.Orderly p k c) (hpass : s.pass = .flushed h rest) :
    Attends p k s (reset h.buffer k) fun _ => (.emptied h rest, []) := by
  have hcl : s.pass.claim? k =
      some ⟨h.buffer, some h.key, some .full, some k, false, true, 0, 0⟩ := by
    rw [hpass]
    rfl
  have hholds := ho.pass _ hcl
  have hst := (ho.stored _ _ _ (hholds.registered h.key rfl)).2
  have hflushed := hholds.flushed rfl
  have hblank : (s.world.buffer h.buffer).reset.Blank := ⟨rfl, rfl, rfl⟩
  have hsame : (s.world.buffer h.buffer).reset.unflushedSize =
      (s.world.buffer h.buffer).unflushedSize := by
    rw [hblank.unflushedSize, Buffer.unflushedSize, hflushed, UInt64.sub_self, ite_self]
  refine ⟨(), s.world.modifyBuffer h.buffer (·.reset), c, reset_ok hholds.owner, ?_⟩
  apply ho.attend_modify hcl (·.reset)
  · exact stored_full hst.capacity (UInt64.le_refl 0)
  · intro cl hcl'
    obtain rfl := Option.some.inj hcl'
    exact hholds.modify _ (Nat.le_refl 0) hholds.owner (fun _ => hblank) (fun _ => rfl)
      (Nat.zero_le _)
  · rw [hpass]
    rfl
  · exact ho.sound
  · change _ + (s.world.buffer h.buffer).reset.unflushedSize.toNat = _
    rw [hsame]
    exact congrArg (· + (s.world.buffer h.buffer).unflushedSize.toNat) ho.balance

theorem attend_release (ho : s.Orderly p k c) (hpass : s.pass = .emptied h rest) :
    Attends p k s (PoolM.release h.buffer) fun _ => (.released h rest, []) := by
  have hcl : s.pass.claim? k =
      some ⟨h.buffer, some h.key, some .full, some k, true, true, 0, 0⟩ := by
    rw [hpass]
    rfl
  have hholds := ho.pass _ hcl
  have hblank := hholds.blank rfl
  have hst := (ho.stored _ _ _ (hholds.registered h.key rfl)).2
  refine ⟨(), s.world.modifyBuffer h.buffer (·.release), c, rfl, ?_⟩
  apply ho.attend_modify hcl (·.release)
  · exact stored_full hst.capacity (hst.full rfl)
  · intro cl hcl'
    obtain rfl := Option.some.inj hcl'
    exact hholds.modify _ (Nat.le_refl 0) rfl
      (fun _ => ⟨hblank.top, hblank.pos, hblank.retired⟩) hholds.flushed (Nat.zero_le _)
  · rw [hpass]
    rfl
  · exact ho.sound
  · exact congrArg (· + (s.world.buffer h.buffer).unflushedSize.toNat) ho.balance

/-- A drained buffer leaves the full lane, for the free lane or for good. -/
theorem attend_giveBack (ho : s.Orderly p k c) (hpass : s.pass = .released h rest) :
    Attends p k s (do
      retain h.buffer
      Pool.giveBack p .full h) fun _ => (.visiting rest, []) := by
  have hcl : s.pass.claim? k = some ⟨h.buffer, some h.key, some .full, none, true, true, 0, 0⟩ := by
    rw [hpass]
    rfl
  have hhandles : s.pass.handles = h :: rest := by
    rw [hpass]
    rfl
  have hnodup := ho.nodup
  rw [hhandles, List.nodup_cons] at hnodup
  have hmem : ∀ g ∈ h :: rest, g ∈ s.pass.handles := fun g hg => hhandles ▸ hg
  obtain ⟨hhome, hp⟩ := ho.captured h (hmem h List.mem_cons_self)
  have hholds := ho.pass _ hcl
  have hst := (ho.stored _ _ _ hp).2
  let w₁ := s.world.retain h.buffer
  have hretain : (retain h.buffer : PoolM σ Unit) s.world = .ok () w₁ := rfl
  have hq₁ := World.quiet_retain s.world h.buffer
  have hbuffer₁ : ∀ b, w₁.buffer b = s.world.buffer b := World.buffer_retain s.world h.buffer
  have hblank : (w₁.buffer h.buffer).Blank := by
    rw [hbuffer₁]
    exact hholds.blank rfl
  have howner : (w₁.buffer h.buffer).owner = none := by
    rw [hbuffer₁]
    exact hholds.owner
  obtain ⟨w', c', hr, hs, hc', hforgoes⟩ :=
    Pool.giveBack_ok (ho.stocks.quiet hq₁) hhome hp hblank howner
  have hbuffer : ∀ b, w'.buffer b = s.world.buffer b :=
    fun b => (hforgoes.buffer b).trans (hbuffer₁ b)
  have hrefs : ∀ b, b ≠ h.buffer → w'.refs b = s.world.refs b :=
    fun b hb => (hforgoes.refs b hb).trans (World.refs_retain_of_ne s.world hb)
  have hsize : w'.cells.size = s.world.cells.size :=
    hforgoes.size.trans (World.size_retain s.world h.buffer)
  have hspares := hc'.spares hp
  have hf : Frame (· = h.buffer) c s.world c' w' := .of_buffers hsize hbuffer hspares
  refine ⟨(), w', c', (bind_of_ok _ hretain).trans hr, ?_⟩
  apply ho.attend hs (hc'.distinct ho.distinct hp) hf
  · intro t cl hcl'
    have hne := ho.claim_ne_pass hcl hcl'
    refine ⟨hne, ?_⟩
    rw [hrefs _ hne]
    exact (ho.claims t cl hcl').refs
  · intro handles hh
    rw [hforgoes.held, hq₁.held] at hh
    exact .inl hh
  · rintro key _ lane rfl hp'
    obtain rfl := hc'.lane_eq ho.distinct hp hp'
    rw [hsize, hbuffer]
    exact ⟨hholds.bound, hst.capacity, fun _ => hholds.blank rfl, nofun⟩
  · exact nofun
  · intro g hg
    have hne : g ≠ h := ne_of_mem_of_not_mem hg hnodup.1
    obtain ⟨hpool, hp'⟩ := ho.captured g (hmem g (List.mem_cons_of_mem _ hg))
    have hbuffer := ho.captured_ne (hmem g (List.mem_cons_of_mem _ hg))
      (hmem h List.mem_cons_self) hne
    exact ⟨hpool, (hspares _ _ _ hbuffer).2 hp'⟩
  · exact hnodup.2
  · exact ho.sound
  · have hleave := ho.stocks.backlog_leave ho.distinct hf ho.bound_full hp hc'.order_eq
    rw [(hholds.blank rfl).unflushedSize] at hleave
    have hzero : (0 : UInt64).toNat = 0 := rfl
    rw [hzero, Nat.zero_add] at hleave
    rw [hleave]
    exact ho.balance

/-- The consumer keeps a plant in order. -/
theorem consume (ho : s.Orderly p k c) {act : PoolM σ (Pass × List Mark)}
    (hact : Consumes p k s.pass act) : ∃ c', (s.consumed (act s.world)).Orderly p k c' := by
  generalize hpass : s.pass = pass at hact
  cases hact with
  | capture dir => exact (ho.attend_capture dir).consumed
  | tryAcquire h rest => exact (ho.attend_tryAcquire hpass).consumed
  | flush h rest => exact (ho.attend_flush hpass).consumed
  | reset h rest => exact (ho.attend_reset hpass).consumed
  | release h rest => exact (ho.attend_release hpass).consumed
  | giveBack h rest => exact (ho.attend_giveBack hpass).consumed
  | letGo => exact ho.attend_letGo.consumed

end Orderly

end Plant

end BufferPool
