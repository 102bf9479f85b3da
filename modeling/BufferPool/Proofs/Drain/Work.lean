import BufferPool.Proofs.Drain.Progress

/-!
# The work of producers on their buffers

What a producer does with a buffer to which it has a claim. A new buffer is registered, acquired and
marked while it is private, then it enters the full lane, and there the message is written into it.
Nobody else has a claim to the buffer, so it is enough to look at this one.
-/

namespace BufferPool

open Arena (Catalog)
open PoolM

variable {σ : Type} {minimum : UInt64} {p : PoolId} {k t : Thread} {c c' : Catalog BufferId}
  {s : Plant σ minimum} {w' : World σ} {m : Message minimum} {g : Handle}

namespace Buffer

variable {b : Buffer}

theorem ownedBy_of_owner (h : b.owner = some t) : b.ownedBy t = true := by
  rw [ownedBy, h, beq_self_eq_true]

theorem stage_of_owner (h : b.owner = some t) {bytes : List UInt8}
    (hfits : bytes.length ≤ b.freeSize.toNat) :
    b.stage t bytes = .ok { b with payload := b.payload.store b.pos.toNat bytes } := by
  rw [stage, if_pos (ownedBy_of_owner h), if_pos hfits]

theorem commit_of_owner (h : b.owner = some t) {count : UInt64} (hfits : count ≤ b.freeSize) :
    b.commit t count = .ok { b with pos := b.pos + count } := by
  rw [commit, if_pos (ownedBy_of_owner h), if_pos hfits]

theorem Blank.inOrder (hb : b.Blank) : b.InOrder :=
  ⟨hb.top ▸ UInt64.zero_le, hb.pos ▸ UInt64.zero_le⟩

/-- What fits is written into a blank buffer. -/
theorem write_of_blank (hb : b.Blank) (howner : b.owner = some t) {bytes : List UInt8}
    {size : UInt64} (hlength : bytes.length = size.toNat) (hroom : size ≤ b.capacity) :
    b.write t bytes = .ok { b with
      payload := b.payload.store b.pos.toNat bytes
      pos := b.pos + size } := by
  rw [← hb.freeSize] at hroom
  let staged : Buffer := { b with payload := b.payload.store b.pos.toNat bytes }
  have hstage : b.stage t bytes = .ok staged := stage_of_owner howner (hlength ▸ hroom)
  have hfree : size ≤ staged.freeSize := by
    rw [freeSize, capacity, Payload.capacity_store]
    exact hroom
  have hcount : UInt64.ofNat bytes.length = size := by
    rw [hlength, UInt64.ofNat_toNat]
  rw [write, hstage]
  change staged.commit t (UInt64.ofNat bytes.length) = _
  rw [hcount]
  exact commit_of_owner (b := staged) howner hfree

/-- What was written into a blank buffer is all that is not flushed. -/
theorem unflushedSize_of_blank (hb : b.Blank) (payload : Payload) (size : UInt64) :
    unflushedSize { b with payload := payload, pos := b.pos + size } = size := by
  have hle : (0 : UInt64) ≤ size := Nat.zero_le _
  simp only [unflushedSize, hb.top, hb.pos, UInt64.zero_add, UInt64.sub_zero, if_pos hle]

end Buffer

namespace Plant.Orderly

theorem shift_own (h : s.Orderly p k c) {cl : Claim}
    (hcl : (s.producers t).claim? t = some cl) (hs : w'.Stocks p minimum c') (hd : c'.Distinct)
    (hheld : w'.held = s.world.held) (hf : Frame (· = cl.buffer) c s.world c' w')
    (hrefs : ∀ b, b ≠ cl.buffer → s.world.refs b ≤ w'.refs b)
    (hfull : cl.lane = some .full → c' = c)
    (hstored : ∀ key lane, c'.place key = some (cl.buffer, lane) →
      Stored minimum (w'.buffer cl.buffer) lane) :
    Shift p k t s (· = cl.buffer) c c' w' := by
  have hholds := h.claims t cl hcl
  apply h.shift_at hs hd hheld hf hrefs
  · exact fun t' ht' cl' hcl' => h.claim_ne ht' hcl' hcl
  · exact fun cl' hcl' => (h.claim_ne_pass hcl' hcl).symm
  · intro key hp
    rw [hfull (hholds.place h.distinct hp).2.symm]
    exact hp
  · exact fun key lane hp => ⟨Nat.lt_of_lt_of_le hholds.bound hf.size, hstored key lane hp⟩

/-- The buffer is changed in place. -/
theorem shift_modify (h : s.Orderly p k c) {cl : Claim}
    (hcl : (s.producers t).claim? t = some cl) (f : Buffer → Buffer)
    (hstored : Stored minimum (f (s.world.buffer cl.buffer)) cl.lane) :
    Shift p k t s (· = cl.buffer) c c (s.world.modifyBuffer cl.buffer f) := by
  have hholds := h.claims t cl hcl
  have hq := World.quiet_modifyBuffer s.world cl.buffer f
  apply h.shift_own hcl (h.stocks.quiet hq) h.distinct hq.held (.modifyBuffer ..)
  · exact fun b _ => Nat.le_of_eq (World.refs_modifyBuffer ..).symm
  · exact fun _ => rfl
  · intro key lane hp
    rw [World.buffer_modifyBuffer_self f hholds.bound, (hholds.place h.distinct hp).2]
    exact hstored

/-- Outside of the full lane there is no backlog. -/
theorem backlog_own (h : s.Orderly p k c) {cl : Claim} (hcl : (s.producers t).claim? t = some cl)
    (hl : cl.lane ≠ some .full) (hf : Frame (· = cl.buffer) c s.world c' w')
    (horder : c'.order .full = c.order .full) : backlog c' w' = backlog c s.world := by
  apply h.stocks.backlog_outside hf h.bound_full horder
  intro key b hp heq
  subst heq
  exact hl ((h.claims t cl hcl).place h.distinct hp).2.symm

theorem enroll (h : s.Orderly p k c) (ht : t ≠ k) {b : BufferId}
    (hst : s.producers t = .made m b) :
    Proceeds p k t s (Pool.enroll p b) fun g => .enrolled m g := by
  have hcl : (s.producers t).claim? t = some ⟨b, none, none, none, true, true, m.room, 1⟩ := by
    rw [hst]
    rfl
  have hholds := h.claims t _ hcl
  have hunregistered : ∀ key lane, c.place key ≠ some (b, lane) := hholds.unregistered rfl
  obtain ⟨key, w', hr, hnone, hs, hheld, hcells⟩ := Pool.enroll_ok h.stocks b
  have hbuffer : ∀ b', w'.buffer b' = s.world.buffer b' :=
    fun b' => (World.buffer_of_cells hcells b').trans (World.buffer_retain s.world b b')
  have hrefs : ∀ b', w'.refs b' = (s.world.retain b).refs b' := World.refs_of_cells hcells
  have hsize : w'.cells.size = s.world.cells.size := by
    rw [hcells, World.size_retain]
  have hf : Frame (· = b) c s.world (c.add key b) w' :=
    .of_buffers hsize hbuffer (Catalog.spares_add hnone b)
  have hp : (c.add key b).place key = some (b, none) := Function.update_self ..
  have hd := h.distinct.add hunregistered key
  have hshift : Shift p k t s (· = b) c (c.add key b) w' := by
    apply h.shift_own hcl hs hd hheld hf
    · intro b' hb'
      rw [hrefs, World.refs_retain_of_ne _ hb']
    · exact nofun
    · intro key' lane hp'
      obtain rfl := hd.lane_eq hp hp'
      refine ⟨?_, nofun, nofun⟩
      rw [hbuffer]
      exact UInt64.le_trans m.minimum_le_room hholds.room
  refine ⟨_, w', c.add key b, hr, ?_⟩
  apply h.proceed ht hshift
  · intro cl hcl'
    obtain rfl := Option.some.inj hcl'
    apply hholds.relocate hp hf.size (hbuffer b)
    rw [hrefs, World.refs_retain_self hholds.bound]
    exact Nat.succ_le_succ hholds.refs
  · apply h.hands_of_same hf.size
    · rw [hst]
      rfl
    · intro g hg
      obtain rfl := Option.some.inj hg
      rfl
    · exact fun _ _ _ => ⟨_, hcl, rfl⟩
  · exact h.backlog_own hcl nofun hf rfl

/-- Something about a private buffer is changed that nobody else knows of. -/
theorem proceed_private (h : s.Orderly p k c) (ht : t ≠ k) {owner : Option Thread} {refs : Nat}
    (hcl : (s.producers t).claim? t =
      some ⟨g.buffer, some g.key, none, owner, true, true, m.room, refs⟩)
    (f : Buffer → Buffer) (hcapacity : (f (s.world.buffer g.buffer)).capacity =
      (s.world.buffer g.buffer).capacity) {stage : Stage minimum}
    (hclaim : ∀ cl, stage.claim? t = some cl → cl.Holds c (s.world.modifyBuffer g.buffer f))
    (hold : (s.producers t).handle? = some g) (hnew : stage.handle? = some g) :
    (s.proceed t stage (s.world.modifyBuffer g.buffer f)).Orderly p k c := by
  have hf := Frame.modifyBuffer c s.world g.buffer f
  have hst := (h.stored _ _ _ ((h.claims t _ hcl).registered g.key rfl)).2
  have hst' : Stored minimum (f (s.world.buffer g.buffer)) none :=
    ⟨hcapacity ▸ hst.capacity, nofun, nofun⟩
  apply h.proceed ht (h.shift_modify hcl f hst') hclaim
  · exact h.hands_of_handle hf.size hold hnew fun _ _ _ => ⟨_, hcl, rfl⟩
  · exact h.backlog_own hcl nofun hf rfl

theorem acquire (h : s.Orderly p k c) (ht : t ≠ k) (hst : s.producers t = .enrolled m g) :
    Proceeds p k t s (acquire g.buffer t) fun _ => .acquired m g := by
  have hcl : (s.producers t).claim? t =
      some ⟨g.buffer, some g.key, none, none, true, true, m.room, 2⟩ := by
    rw [hst]
    rfl
  have hholds := h.claims t _ hcl
  have hblank := hholds.blank rfl
  refine ⟨(), _, c, acquire_ok t hholds.owner, ?_⟩
  apply h.proceed_private ht hcl _ rfl
  · intro cl hcl'
    obtain rfl := Option.some.inj hcl'
    exact hholds.modify (·.claim t) (Nat.le_refl 2) rfl
      (fun _ => ⟨hblank.top, hblank.pos, hblank.retired⟩) hholds.flushed hholds.room
  · rw [hst]
    rfl
  · rfl

theorem mark (h : s.Orderly p k c) (ht : t ≠ k) (hst : s.producers t = .acquired m g) :
    Proceeds p k t s (do
      expect ((← getBuffer g.buffer).ownedBy t) .ownedByRequester
      markTransient g.buffer) fun _ => .marked m g := by
  have hcl : (s.producers t).claim? t =
      some ⟨g.buffer, some g.key, none, some t, true, true, m.room, 2⟩ := by
    rw [hst]
    rfl
  have hholds := h.claims t _ hcl
  have hblank := hholds.blank rfl
  have hget : (getBuffer g.buffer : PoolM σ Buffer) s.world =
      .ok (s.world.buffer g.buffer) s.world := rfl
  have howned := Buffer.ownedBy_of_owner hholds.owner
  have hr : (do
      expect ((← getBuffer g.buffer).ownedBy t) .ownedByRequester
      markTransient g.buffer : PoolM σ Unit) s.world =
        .ok () (s.world.modifyBuffer g.buffer fun b => { b with transient := true }) := by
    rw [bind_of_ok _ hget, howned, bind_of_ok _ (expect_true _ _)]
    rfl
  refine ⟨(), _, c, hr, ?_⟩
  apply h.proceed_private ht hcl _ rfl
  · intro cl hcl'
    obtain rfl := Option.some.inj hcl'
    exact hholds.modify _ (Nat.le_refl 2) hholds.owner
      (fun _ => ⟨hblank.top, hblank.pos, hblank.retired⟩) hholds.flushed hholds.room
  · rw [hst]
    rfl
  · rfl

/-- A blank buffer has come into the full lane, either from the free lane or from nowhere. -/
theorem proceed_enter (h : s.Orderly p k c) (ht : t ≠ k) {lane : Option Lane} {refs : Nat}
    (hcl : (s.producers t).claim? t =
      some ⟨g.buffer, some g.key, lane, some t, true, true, m.room, refs⟩)
    (hhandle : (s.producers t).handle? = some g)
    (hlane : lane ≠ some .full) (hs : w'.Stocks p minimum c') (hd : c'.Distinct)
    (hheld : w'.held = s.world.held) (hcells : w'.cells = s.world.cells)
    (hspares : Catalog.Spares (· = g.buffer) c c')
    (horder : c'.order .full = g.key :: c.order .full)
    (hp : c'.place g.key = some (g.buffer, some .full)) :
    (s.proceed t (.holding m g) w').Orderly p k c' := by
  have hholds := h.claims t _ hcl
  have hblank := hholds.blank rfl
  have hsame : ∀ b, w'.buffer b = s.world.buffer b := World.buffer_of_cells hcells
  have hf : Frame (· = g.buffer) c s.world c' w' := .of_cells hcells hspares
  have hst := (h.stored _ _ _ (hholds.registered g.key rfl)).2
  have hout : ∀ key, c.place key ≠ some (g.buffer, some .full) :=
    fun key hp' => hlane (hholds.place h.distinct hp').2.symm
  have hshift : Shift p k t s (· = g.buffer) c c' w' := by
    apply h.shift_own hcl hs hd hheld hf fun b _ => Nat.le_of_eq (World.refs_of_cells hcells b).symm
    · exact fun hl => absurd hl hlane
    · intro key lane' hp'
      obtain rfl := hd.lane_eq hp hp'
      rw [hsame]
      refine ⟨hst.capacity, nofun, fun _ => ?_⟩
      rw [hblank.top, hblank.pos]
      exact UInt64.le_refl 0
  apply h.proceed ht hshift
  · intro cl hcl'
    obtain rfl := Option.some.inj hcl'
    exact hholds.relocate hp hf.size (hsame g.buffer) (Nat.zero_le _)
  · apply h.hands_of_handle hf.size hhandle rfl
    intro cl hcl' hl
    obtain rfl := Option.some.inj hcl'
    exact nomatch hl
  · rw [← hsame] at hblank
    exact h.stocks.backlog_enter hf h.bound_full horder hp hblank hout

theorem insert (h : s.Orderly p k c) (ht : t ≠ k)
    (hst : s.producers t = .acquired m g ∨ s.producers t = .marked m g) :
    Proceeds p k t s (Pool.insert p .full g) fun _ => .holding m g := by
  have hcl : (s.producers t).claim? t =
      some ⟨g.buffer, some g.key, none, some t, true, true, m.room, 2⟩ := by
    rcases hst with hst | hst
    all_goals
      rw [hst]
      rfl
  have hhandle : (s.producers t).handle? = some g := by
    rcases hst with hst | hst
    all_goals
      rw [hst]
      rfl
  have hhome := h.home t g hhandle
  have hp : c.place g.key = some (g.buffer, none) := (h.claims t _ hcl).registered _ rfl
  obtain ⟨w', hr, hs, hheld, hcells⟩ := Pool.insert_ok h.stocks hhome .full hp
  refine ⟨(), w', c.enter .full g.key g.buffer, hr, ?_⟩
  apply h.proceed_enter ht hcl hhandle nofun hs (h.distinct.enter hp .full) hheld hcells
  · exact Catalog.spares_enter hp .full
  · exact Catalog.order_enter_self ..
  · exact Catalog.place_enter_self ..

theorem move (h : s.Orderly p k c) (ht : t ≠ k) (hst : s.producers t = .taken m g) :
    Proceeds p k t s (Pool.move p .free g) fun _ => .holding m g := by
  have hcl : (s.producers t).claim? t =
      some ⟨g.buffer, some g.key, some .free, some t, true, true, m.room, 0⟩ := by
    rw [hst]
    rfl
  have hhandle : (s.producers t).handle? = some g := by
    rw [hst]
    rfl
  have hhome := h.home t g hhandle
  have hp : c.place g.key = some (g.buffer, some .free) := (h.claims t _ hcl).registered _ rfl
  have hp₁ : (c.leave .free g.key g.buffer).place g.key = some (g.buffer, none) :=
    Catalog.place_leave_self ..
  obtain ⟨w', hr, hs, hheld, hcells⟩ := Pool.move_ok h.stocks hhome hp
  change w'.Stocks p minimum ((c.leave .free g.key g.buffer).enter .full g.key g.buffer) at hs
  refine ⟨(), w', (c.leave .free g.key g.buffer).enter .full g.key g.buffer, hr, ?_⟩
  apply h.proceed_enter ht hcl hhandle nofun hs
    ((h.distinct.leave hp .free).enter hp₁ .full) hheld hcells
  · exact (Catalog.spares_leave hp .free).trans (Catalog.spares_enter hp₁ .full)
  · have hne : Lane.full ≠ .free := nofun
    rw [Catalog.order_enter_self, Catalog.order_leave_of_ne hne]
  · exact Catalog.place_enter_self ..

theorem write (h : s.Orderly p k c) (ht : t ≠ k) (hst : s.producers t = .holding m g) :
    ∃ w', PoolM.write g.buffer t m.bytes s.world = .ok (.ok ()) w' ∧
      (⟨w', Function.update s.producers t (.written g), s.pass, .wrote m.bytes.length :: s.log⟩ :
        Plant σ minimum).Orderly p k c := by
  have hcl : (s.producers t).claim? t =
      some ⟨g.buffer, some g.key, some .full, some t, true, true, m.room, 0⟩ := by
    rw [hst]
    rfl
  have hhandle : (s.producers t).handle? = some g := by
    rw [hst]
    rfl
  have hholds := h.claims t _ hcl
  have hblank := hholds.blank rfl
  have hp : c.place g.key = some (g.buffer, some .full) := hholds.registered _ rfl
  have hstored := (h.stored _ _ _ hp).2
  let b := s.world.buffer g.buffer
  let b' : Buffer := { b with
    payload := b.payload.store b.pos.toNat m.bytes
    pos := b.pos + m.size }
  have hwrite : b.write t m.bytes = .ok b' :=
    Buffer.write_of_blank hblank hholds.owner m.length_eq
      (UInt64.le_trans m.size_le_room hholds.room)
  have hle : b'.top ≤ b'.pos := by
    change b.top ≤ b'.pos
    rw [hblank.top]
    exact Nat.zero_le _
  have hunflushed : b'.unflushedSize.toNat = m.bytes.length := by
    rw [Buffer.unflushedSize_of_blank hblank, m.length_eq]
  let w' := s.world.modifyBuffer g.buffer fun _ => b'
  have hbuffer : w'.buffer g.buffer = b' := World.buffer_modifyBuffer_self _ hholds.bound
  refine ⟨w', ?_, ?_⟩
  · exact write_of_ok hblank.inOrder hwrite
  · have hf := Frame.modifyBuffer c s.world g.buffer fun _ => b'
    have hcapacity : b'.capacity = b.capacity := Payload.capacity_store ..
    have hstored' : Stored minimum b' (some .full) :=
      ⟨hcapacity ▸ hstored.capacity, nofun, fun _ => hle⟩
    apply h.shift ht (h.shift_modify hcl _ hstored')
    · intro cl hcl'
      obtain rfl := Option.some.inj hcl'
      exact hholds.modify _ (Nat.le_refl 0) hholds.owner nofun nofun (Nat.zero_le _)
    · apply h.hands_of_handle hf.size hhandle rfl
      intro cl hcl' hl
      obtain rfl := Option.some.inj hcl'
      cases hl
    · exact List.forall_mem_cons.2 ⟨rfl, h.sound⟩
    · have hchange := h.stocks.backlog_change h.distinct hf h.bound_full hp
      have hbalance := h.balance
      rw [hblank.unflushedSize, hbuffer, hunflushed] at hchange
      simp only [bytesDrained, bytesWritten, List.map_cons, List.sum_cons, Mark.bytesDrained,
        Mark.bytesWritten] at hbalance ⊢
      have hzero : (0 : UInt64).toNat = 0 := rfl
      omega

theorem release (h : s.Orderly p k c) (ht : t ≠ k) (hst : s.producers t = .written g) :
    Proceeds p k t s (PoolM.release g.buffer) fun _ => .parting g := by
  have hcl : (s.producers t).claim? t =
      some ⟨g.buffer, some g.key, some .full, some t, false, false, 0, 0⟩ := by
    rw [hst]
    rfl
  have hhandle : (s.producers t).handle? = some g := by
    rw [hst]
    rfl
  have hholds := h.claims t _ hcl
  have hp : c.place g.key = some (g.buffer, some .full) := hholds.registered _ rfl
  have hf := Frame.modifyBuffer c s.world g.buffer (·.release)
  refine ⟨(), s.world.modifyBuffer g.buffer (·.release), c, rfl, ?_⟩
  have hstored := (h.stored _ _ _ hp).2
  apply h.proceed ht (h.shift_modify hcl (·.release) ⟨hstored.capacity, nofun, hstored.full⟩)
  · exact fun cl hcl' => absurd hcl' (Stage.claim?_parting g t cl)
  · exact h.hands_of_handle hf.size hhandle rfl
      fun cl hcl' => absurd hcl' (Stage.claim?_parting g t cl)
  · have hchange := h.stocks.backlog_change h.distinct hf h.bound_full hp
    rw [World.buffer_modifyBuffer_self _ hholds.bound] at hchange
    exact Nat.add_right_cancel hchange

end Plant.Orderly

end BufferPool
