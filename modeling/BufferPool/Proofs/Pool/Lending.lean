import BufferPool.Producer
import BufferPool.Pool.Content
import BufferPool.Proofs.Arena.Distinct
import BufferPool.Proofs.Pool.Lookup
import BufferPool.Proofs.Pool.Stock
import BufferPool.Proofs.SizeClass

/-!
# How buffers are lent and taken back

A pool lends a buffer by making a new one or by acquiring a free one for the borrower, and takes it
back when it was drained. What the instruments of a buffer count, its marks and the bytes of its
payload do not matter for that, so buffers are compared up to those.
-/

namespace BufferPool

open Arena (Catalog)
open PoolM

/-- Two buffers with the same cursors, owner, capacity and retirement. -/
structure Buffer.Alike (b b' : Buffer) : Prop where
  capacity : b'.capacity = b.capacity
  top : b'.top = b.top
  pos : b'.pos = b.pos
  owner : b'.owner = b.owner
  retired : b'.retired = b.retired

/-- Nothing is in the buffer, and it may be handed out. -/
structure Buffer.Blank (b : Buffer) : Prop where
  top : b.top = 0
  pos : b.pos = 0
  retired : b.retired = false

namespace Buffer

theorem Alike.refl (b : Buffer) : b.Alike b := ⟨rfl, rfl, rfl, rfl, rfl⟩

theorem Alike.trans {b b' b'' : Buffer} (h : b.Alike b') (h' : b'.Alike b'') : b.Alike b'' :=
  ⟨h'.capacity.trans h.capacity, h'.top.trans h.top, h'.pos.trans h.pos, h'.owner.trans h.owner,
    h'.retired.trans h.retired⟩

theorem Alike.blank {b b' : Buffer} (h : b.Alike b') (hb : b.Blank) : b'.Blank :=
  ⟨h.top.trans hb.top, h.pos.trans hb.pos, h.retired.trans hb.retired⟩

theorem Alike.unflushedSize {b b' : Buffer} (h : b.Alike b') :
    b'.unflushedSize = b.unflushedSize := by
  rw [Buffer.unflushedSize, Buffer.unflushedSize, h.top, h.pos]

theorem alike_countAttempt (b : Buffer) : b.Alike b.countAttempt := ⟨rfl, rfl, rfl, rfl, rfl⟩

theorem blank_fresh (format : Format) (capacity : UInt64) : (fresh format capacity).Blank :=
  ⟨rfl, rfl, rfl⟩

theorem Blank.unflushedSize {b : Buffer} (h : b.Blank) : b.unflushedSize = 0 := by
  rw [Buffer.unflushedSize, h.top, h.pos]
  rfl

theorem Blank.freeSize {b : Buffer} (h : b.Blank) : b.freeSize = b.capacity := by
  rw [Buffer.freeSize, h.pos, UInt64.sub_zero]

end Buffer

variable {σ : Type} {w : World σ} {p : PoolId} {minimum : UInt64} {c : Catalog BufferId}

namespace Pool

theorem make_ok (hs : w.Stocks p minimum c) {requested capacity : UInt64}
    (hclass : SizeClass.ofRequest? requested minimum = some capacity) :
    ∃ r w', make p requested w = .ok r w' ∧ World.Quiet w w' ∧
      (∀ b, b < w.cells.size → w'.cells[b]? = w.cells[b]?) ∧
      ∀ b ∈ r, b = w.cells.size ∧ b < w'.cells.size ∧
        w'.buffer b = .fresh w.format capacity ∧ w'.refs b = 1 := by
  obtain ⟨pool, wiring, hpool, rfl, -, -⟩ := hs.pool
  have hq := quiet_make p requested w
  rcases make_of_class hpool hclass with ⟨w', hm, hcells⟩ | ⟨tag, w', hm, hcells⟩
  · rw [leaves_of_ok hm] at hq
    exact ⟨none, w', hm, hq, hcells, nofun⟩
  · rw [leaves_of_ok hm] at hq
    refine ⟨some w.cells.size, w', hm, hq, fun b hb => ?_, fun b hb => ?_⟩
    · rw [hcells, Array.getElem?_push_lt hb, Array.getElem?_eq_getElem hb]
    · obtain rfl := Option.some.inj hb
      have hcell : w'.cells[w.cells.size]? = some ⟨.fresh w.format capacity, 1, p, tag⟩ := by
        rw [hcells, Array.getElem?_push_size]
      refine ⟨rfl, (Array.getElem?_eq_some_iff.1 hcell).choose, ?_, ?_⟩
      · rw [World.buffer, hcell]
        rfl
      · rw [World.refs, hcell]
        rfl

end Pool

namespace PoolM

theorem acquire_ok {b : BufferId} (t : Thread) (h : (w.buffer b).owner = none) :
    acquire b t w = .ok () (w.modifyBuffer b (·.claim t)) := by
  have hget : (getBuffer b : PoolM σ Buffer) w = .ok (w.buffer b) w := rfl
  unfold acquire
  rw [bind_of_ok _ hget, h]
  rfl

theorem tryAcquire_ok (b : BufferId) (t : Thread) (w : World σ) :
    tryAcquire b t w = .ok ((w.buffer b).tryAcquire t).1
      (w.modifyBuffer b fun _ => ((w.buffer b).tryAcquire t).2) :=
  rfl

theorem reset_ok {b : BufferId} {me : Thread} (h : (w.buffer b).owner = some me) :
    reset b me w = .ok () (w.modifyBuffer b (·.reset)) := by
  have hget : (getBuffer b : PoolM σ Buffer) w = .ok (w.buffer b) w := rfl
  have howned : (w.buffer b).ownedBy me = true := by
    rw [Buffer.ownedBy, h, beq_self_eq_true]
  unfold reset
  rw [bind_of_ok _ hget, if_pos howned]
  rfl

end PoolM

namespace Pool

/-- The entries can serve a request: those that nobody owns are not retired and large enough. -/
def Serves (size : UInt64) (b : Buffer) : Prop :=
  b.owner = none → b.retired = false ∧ size ≤ b.freeSize

/-- How a search among free buffers ends: without a buffer, or with one that nobody owned and that
is acquired now. All other buffers are as before. -/
structure Searched (w : World σ) (t : Thread) (found : Option BufferId) (w' : World σ) : Prop where
  held : w'.held = w.held
  size : w'.cells.size = w.cells.size
  refs : ∀ b, w.refs b ≤ w'.refs b
  others : ∀ b, found ≠ some b → (w.buffer b).Alike (w'.buffer b)
  found : ∀ b, found = some b → (w.buffer b).owner = none ∧
    ((w.buffer b).claim t).Alike (w'.buffer b)

theorem Serves.alike {size : UInt64} {b b' : Buffer} (h : Serves size b) (ha : b.Alike b') :
    Serves size b' := by
  intro howner
  rw [ha.owner] at howner
  rw [ha.retired, Buffer.freeSize, ha.capacity, ha.pos]
  exact h howner

/-- A search that finds nothing in what was looked at so far goes on as if it had just begun. -/
theorem Searched.after {w w₁ w₂ : World σ} {t : Thread} {found : Option BufferId}
    (h : Searched w t none w₁) (h' : Searched w₁ t found w₂) : Searched w t found w₂ := by
  have halike : ∀ b, (w.buffer b).Alike (w₁.buffer b) := fun b => h.others b nofun
  refine ⟨h'.held.trans h.held, h'.size.trans h.size, fun b => Nat.le_trans (h.refs b) (h'.refs b),
    fun b hb => (halike b).trans (h'.others b hb), fun b hb => ?_⟩
  obtain ⟨howner, hclaim⟩ := h'.found b hb
  have hclaimed : ((w.buffer b).claim t).Alike ((w₁.buffer b).claim t) :=
    ⟨(halike b).capacity, (halike b).top, (halike b).pos, rfl, (halike b).retired⟩
  exact ⟨(halike b).owner ▸ howner, hclaimed.trans hclaim⟩

/-- An attempt to acquire a buffer is a search in one place. -/
theorem searched_tryAcquire {b : BufferId} (hb : b < w.cells.size) (t : Thread) :
    Searched w t (if (w.buffer b).owner.isNone then some b else none)
      (w.modifyBuffer b fun _ => ((w.buffer b).tryAcquire t).2) := by
  refine ⟨rfl, World.size_modifyBuffer .., fun b' => Nat.le_of_eq (World.refs_modifyBuffer ..).symm,
    fun b' hb' => ?_,
    fun b' hb' => ?_⟩
  · by_cases hbb : b' = b
    · subst hbb
      rw [World.buffer_modifyBuffer_self _ hb, Buffer.tryAcquire]
      split_ifs at hb' ⊢ with hnone
      · exact absurd rfl hb'
      · exact Buffer.alike_countAttempt _
    · rw [World.buffer_modifyBuffer_of_ne _ _ hbb]
      exact .refl _
  · split_ifs at hb' with hnone
    obtain rfl := Option.some.inj hb'
    refine ⟨Option.isNone_iff_eq_none.1 hnone, ?_⟩
    rw [World.buffer_modifyBuffer_self _ hb, Buffer.tryAcquire, if_pos hnone]
    exact ⟨rfl, rfl, rfl, rfl, rfl⟩

theorem firstFit_ok {size : UInt64} (t : Thread) {entries : List (Arena.Key × BufferId)}
    (w : World σ) (hfit : ∀ e ∈ entries, e.2 < w.cells.size ∧ Serves size (w.buffer e.2)) :
    ∃ r w', firstFit size t entries w = .ok r w' ∧ (∀ e ∈ r, e ∈ entries) ∧
      Searched w t (r.map (·.2)) w' := by
  induction entries generalizing w with
  | nil =>
      exact ⟨none, w, rfl, nofun, rfl, rfl, fun _ => Nat.le_refl _, fun _ _ => .refl _, nofun⟩
  | cons entry rest ih =>
      obtain ⟨key, b⟩ := entry
      obtain ⟨hlt, hserves⟩ := hfit (key, b) List.mem_cons_self
      have hrest : ∀ e ∈ rest, e.2 < w.cells.size ∧ Serves size (w.buffer e.2) :=
        fun e he => hfit e (List.mem_cons_of_mem _ he)
      have hsearched := searched_tryAcquire hlt t
      have htry : w.modifyBuffer b (fun _ => ((w.buffer b).tryAcquire t).2) =
          w.work b [.tryAcquire t] := (World.work_singleton rfl).symm
      rw [htry] at hsearched
      rw [firstFit_cons]
      split_ifs with hretired hfree hfits
      · obtain ⟨r, w', hr, hmem, hs⟩ := ih w hrest
        exact ⟨r, w', hr, fun e he => List.mem_cons_of_mem _ (hmem e he), hs⟩
      · rw [if_pos hfree] at hsearched
        exact ⟨some (key, b), _, rfl, fun e he => Option.some.inj he ▸ List.mem_cons_self, hsearched⟩
      · exact absurd (hserves (Option.isNone_iff_eq_none.1 hfree)).2 hfits
      · rw [if_neg hfree] at hsearched
        have hrest₁ : ∀ e ∈ rest, e.2 < (w.work b [.tryAcquire t]).cells.size ∧
            Serves size ((w.work b [.tryAcquire t]).buffer e.2) := by
          intro e he
          obtain ⟨hlt', hserves'⟩ := hrest e he
          exact ⟨hsearched.size.symm ▸ hlt', hserves'.alike (hsearched.others e.2 nofun)⟩
        obtain ⟨r, w', hr, hmem, hs⟩ := ih _ hrest₁
        exact ⟨r, w', hr, fun e he => List.mem_cons_of_mem _ (hmem e he), hsearched.after hs⟩

/-- A search in the free lane, all of whose buffers can serve the request unless they are owned. -/
theorem find_ok (hs : w.Stocks p minimum c) {size : UInt64} (t : Thread)
    (hfit : ∀ key b, c.place key = some (b, some .free) →
      b < w.cells.size ∧ Serves size (w.buffer b)) :
    ∃ r w', find p size t w = .ok r w' ∧ w'.Stocks p minimum c ∧
      (∀ h ∈ r, h.pool = p ∧ c.place h.key = some (h.buffer, some .free)) ∧
      Searched w t (r.map (·.buffer)) w' := by
  obtain ⟨entries, hread, -, hmem⟩ := stocks_entries hs .free .forward
  have hfit' : ∀ e ∈ entries, e.2 < w.cells.size ∧ Serves size (w.buffer e.2) :=
    fun e he => hfit e.1 e.2 ((hmem e.1 e.2).1 he)
  obtain ⟨r, w₁, hr, hin, hsearched⟩ := firstFit_ok t w hfit'
  have hq := quiet_firstFit size t entries w
  rw [leaves_of_ok hr] at hq
  have hs₁ := hs.quiet hq
  cases r with
  | none =>
      refine ⟨none, w₁, ?_, hs₁, nofun, hsearched⟩
      unfold find
      rw [bind_of_ok _ hread, bind_of_ok _ hr]
      rfl
  | some entry =>
      obtain ⟨key, b⟩ := entry
      let w₂ := w₁.emit (.noted p (.found size))
      have hnote : note p (.found size) w₁ = .ok () w₂ := rfl
      have hq₂ : World.Quiet w₁ w₂ := quiet_note p (.found size) w₁
      have hq₃ := World.quiet_retain w₂ b
      have hretained : Searched w t (some b) (w₂.retain b) := by
        refine ⟨hq₃.held.trans hsearched.held, ?_, fun b' => ?_, fun b' hb' => ?_, fun b' hb' => ?_⟩
        · rw [World.size_retain]
          exact hsearched.size
        · exact Nat.le_trans (hsearched.refs b') (World.refs_le_retain w₂ b b')
        · rw [World.buffer_retain]
          exact hsearched.others b' hb'
        · rw [World.buffer_retain]
          exact hsearched.found b' hb'
      refine ⟨some ⟨p, key, b⟩, w₂.retain b, ?_, (hs₁.quiet hq₂).quiet hq₃, fun h hh => ?_,
        hretained⟩
      · unfold find
        rw [bind_of_ok _ hread, bind_of_ok _ hr]
        dsimp only
        rw [bind_of_ok _ hnote]
        rfl
      · rw [← Option.some.inj hh]
        exact ⟨rfl, (hmem key b).1 (hin _ rfl)⟩

/-- Only references to one buffer were given up. -/
structure Forgoes (w : World σ) (b : BufferId) (w' : World σ) : Prop where
  held : w'.held = w.held
  size : w'.cells.size = w.cells.size
  buffer : ∀ b', w'.buffer b' = w.buffer b'
  refs : ∀ b', b' ≠ b → w'.refs b' = w.refs b'

theorem Forgoes.of_cells {w' : World σ} {b : BufferId} (hheld : w'.held = w.held)
    (hcells : w'.cells = w.cells) : Forgoes w b w' :=
  ⟨hheld, by rw [hcells], World.buffer_of_cells hcells, fun b' _ => World.refs_of_cells hcells b'⟩

theorem Forgoes.trans {w₁ w₂ : World σ} {b : BufferId} (h : Forgoes w b w₁)
    (h' : Forgoes w₁ b w₂) : Forgoes w b w₂ :=
  ⟨h'.held.trans h.held, h'.size.trans h.size, fun b' => (h'.buffer b').trans (h.buffer b'),
    fun b' hb' => (h'.refs b' hb').trans (h.refs b' hb')⟩

theorem forgoes_drop (w : World σ) (b : BufferId) : Forgoes w b (w.drop b) :=
  ⟨(World.quiet_drop w b).held, World.size_drop w b, World.buffer_drop w b,
    fun _ hb' => World.refs_drop_of_ne w hb'⟩

/-- A detached buffer leaves the pool together with the handle. -/
theorem deallocate_forgoes (hs : w.Stocks p minimum c) {h : Handle} (hh : h.pool = p)
    (hp : c.place h.key = some (h.buffer, none)) :
    ∃ w', deallocate p h w = .ok () w' ∧ w'.Stocks p minimum (c.delete [h.key]) ∧
      Forgoes w h.buffer w' := by
  obtain ⟨w', hr, hs', hheld, hcells⟩ := deallocate_ok hs hh hp
  let w₁ := (w.drop h.buffer).drop h.buffer
  have hfirst := (forgoes_drop w h.buffer).trans (forgoes_drop (w.drop h.buffer) h.buffer)
  have hheld₁ : w'.held = w₁.held := hheld.trans hfirst.held.symm
  exact ⟨w', hr, hs', hfirst.trans (.of_cells hheld₁ hcells)⟩

theorem expectIdle_ok {b : BufferId} (hblank : (w.buffer b).Blank)
    (howner : (w.buffer b).owner = none) : expectIdle b w = .ok () w := by
  have hget : (getBuffer b : PoolM σ Buffer) w = .ok (w.buffer b) w := rfl
  have hempty : (w.buffer b).isEmpty = true := by
    rw [Buffer.isEmpty, hblank.pos]
    rfl
  have hunretired : (!(w.buffer b).retired) = true := by rw [hblank.retired, Bool.not_false]
  have hunowned : (w.buffer b).owner.isNone = true := by rw [howner, Option.isNone_none]
  unfold expectIdle
  rw [bind_of_ok _ hget, hempty, bind_of_ok _ (expect_true _ w), hunretired,
    bind_of_ok _ (expect_true _ w), hunowned]
  exact expect_true _ w

/-- The retention rule may be asked at any time. -/
theorem consult_ok (hs : w.Stocks p minimum c) :
    ∃ keep w', consult p w = .ok keep w' ∧ World.Quiet w w' ∧ w'.cells = w.cells := by
  obtain ⟨pool, -, hpool, -⟩ := hs.pool
  have hq := quiet_consult p w
  have hcensus : ∃ census, Pool.census p w = .ok census w := by
    unfold Pool.census
    rw [bind_of_ok _ (getPool_of_some hpool)]
    exact ⟨_, rfl⟩
  obtain ⟨census, hcensus⟩ := hcensus
  have hrun : ∃ keep w', consult p w = .ok keep w' ∧ w'.cells = w.cells := by
    unfold consult
    rw [bind_of_ok _ hcensus, bind_of_ok _ (getPool_of_some hpool)]
    exact ⟨_, _, rfl, rfl⟩
  obtain ⟨keep, w', hrun, hcells⟩ := hrun
  rw [leaves_of_ok hrun] at hq
  exact ⟨keep, w', hrun, hq, hcells⟩

theorem dispose_ok (hs : w.Stocks p minimum c) {h : Handle} (hh : h.pool = p)
    (hp : c.place h.key = some (h.buffer, none)) (hblank : (w.buffer h.buffer).Blank)
    (howner : (w.buffer h.buffer).owner = none) :
    ∃ w' c', dispose p h w = .ok () w' ∧ w'.Stocks p minimum c' ∧
      (c' = c.enter .free h.key h.buffer ∨ c' = c.delete [h.key]) ∧ Forgoes w h.buffer w' := by
  have hget : (getBuffer h.buffer : PoolM σ Buffer) w = .ok (w.buffer h.buffer) w := rfl
  unfold dispose
  rw [bind_of_ok _ hget]
  by_cases htransient : (w.buffer h.buffer).transient = true
  · rw [if_pos htransient]
    let w₁ := w.emit (.noted p .releasingTransient)
    have hnote : note p .releasingTransient w = .ok () w₁ := rfl
    have hq₁ : World.Quiet w w₁ := quiet_note p .releasingTransient w
    obtain ⟨w', hr, hs', hf⟩ := deallocate_forgoes (hs.quiet hq₁) hh hp
    refine ⟨w', _, ?_, hs', .inr rfl, (Forgoes.of_cells hq₁.held rfl).trans hf⟩
    rw [bind_of_ok _ hnote]
    exact hr
  · rw [if_neg htransient]
    obtain ⟨keep, w₁, hconsult, hq₁, hcells₁⟩ := consult_ok hs
    have hasked : owning h.buffer (do
        expectIdle h.buffer
        consult p) w = .ok keep w₁ :=
      owning_of_ok ((bind_of_ok _ (expectIdle_ok hblank howner)).trans hconsult)
    have hs₁ := hs.quiet hq₁
    have hf₁ : Forgoes w h.buffer w₁ := .of_cells hq₁.held hcells₁
    rw [bind_of_ok _ hasked]
    cases keep with
    | false =>
        obtain ⟨w', hr, hs', hf⟩ := deallocate_forgoes hs₁ hh hp
        exact ⟨w', _, hr, hs', .inr rfl, hf₁.trans hf⟩
    | true =>
        obtain ⟨arena, hon, hs₂⟩ := stocks_prepend hs₁ .free hp
        let w₂ := w₁.setArena p arena
        let w₃ := w₂.emit (.kept p h.key)
        have hkept : emit (.kept p h.key) w₂ = .ok () w₃ := rfl
        have hq₃ : World.Quiet w₂ w₃ := quiet_emit (.kept p h.key) w₂
        have hf₃ : Forgoes w₁ h.buffer w₃ := .of_cells rfl rfl
        refine ⟨w₃.drop h.buffer, _, ?_, (hs₂.quiet hq₃).quiet (World.quiet_drop w₃ h.buffer),
          .inl rfl, (hf₁.trans hf₃).trans (forgoes_drop w₃ h.buffer)⟩
        rw [if_pos rfl, bind_of_ok _ (owning_of_ok hon), bind_of_ok _ hkept]
        rfl

/-- A drained buffer that nobody owns is taken back. Either it is kept in the free lane or it leaves
the pool. -/
theorem giveBack_ok (hs : w.Stocks p minimum c) {h : Handle} (hh : h.pool = p)
    (hp : c.place h.key = some (h.buffer, some .full)) (hblank : (w.buffer h.buffer).Blank)
    (howner : (w.buffer h.buffer).owner = none) :
    ∃ w' c', giveBack p .full h w = .ok () w' ∧ w'.Stocks p minimum c' ∧
      c.Recycled c' h.key h.buffer ∧ Forgoes w h.buffer w' := by
  have hget : (getBuffer h.buffer : PoolM σ Buffer) w = .ok (w.buffer h.buffer) w := rfl
  have hchecked : owning h.buffer (do
      let unflushed := (← getBuffer h.buffer).unflushedSize
      expect (unflushed == 0) (.flushed unflushed)) w = .ok () w := by
    apply owning_of_ok
    rw [bind_of_ok _ hget, hblank.unflushedSize]
    exact expect_true _ w
  obtain ⟨w₁, hremove, hs₁, hheld₁, hcells₁⟩ := remove_ok hs hh hp
  have hf₁ : Forgoes w h.buffer w₁ := .of_cells hheld₁ hcells₁
  have hp₁ : (c.leave .full h.key h.buffer).place h.key = some (h.buffer, none) :=
    Function.update_self ..
  rw [← hf₁.buffer] at hblank howner
  obtain ⟨w₂, c', hdispose, hs₂, hc', hf₂⟩ := dispose_ok hs₁ hh hp₁ hblank howner
  refine ⟨w₂, c', ?_, hs₂, hc', hf₁.trans hf₂⟩
  unfold giveBack release
  rw [bind_of_ok _ hchecked, bind_of_ok _ (owning_of_ok hremove)]
  exact hdispose

end Pool

end BufferPool
