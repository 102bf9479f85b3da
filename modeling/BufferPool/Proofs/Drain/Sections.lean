import BufferPool.Proofs.Drain.Progress

/-!
# The critical sections of producers

What each section does to a plant in order. Some sections bring a buffer to a producer: those that
find a free one, make one or get rid of abandoned ones. All others concern the buffer to which the
producer has a claim already, and nobody else has a claim to that.
-/

namespace BufferPool

open Arena (Catalog)
open PoolM

variable {σ α : Type} {minimum : UInt64} {p : PoolId} {k t : Thread} {c c' : Catalog BufferId}
  {s : Plant σ minimum} {w' : World σ} {m : Message minimum}

namespace Plant.Orderly

/-- The free buffer that was found is the producer's now. -/
theorem taken (h : s.Orderly p k c) (ht : t ≠ k) (hm : m.size ≤ minimum) {g : Handle}
    (hhome : g.pool = p) (hp : c.place g.key = some (g.buffer, some .free))
    (hs : w'.Stocks p minimum c) (hsearched : Pool.Searched s.world t (some g.buffer) w') :
    (s.proceed t (.taken m g) w').Orderly p k c := by
  obtain ⟨howner, hclaimed⟩ := hsearched.found g.buffer rfl
  obtain ⟨hlt, hst⟩ := h.stored g.key g.buffer _ hp
  have hst' : Stored minimum (w'.buffer g.buffer) (some .free) := hst.claim.alike hclaimed
  have hblank := hst'.free rfl
  have hle := Nat.le_of_eq hsearched.size.symm
  have hlt' : g.buffer < w'.cells.size := Nat.lt_of_lt_of_le hlt hle
  have hf : Frame (· = g.buffer) c s.world c w' :=
    ⟨hle, fun b _ hb => hsearched.others b fun heq => hb (Option.some.inj heq).symm, .refl _ c⟩
  have hshift : Shift p k t s (· = g.buffer) c c w' := by
    apply h.shift_at hs h.distinct hsearched.held hf fun b _ => hsearched.refs b
    · exact fun t' _ cl hcl => h.claim_ne_of_unowned hp howner hcl
    · exact fun cl hcl => h.pass_ne_of_place hp nofun hcl
    · exact fun key hp' => hp'
    · intro key lane hp'
      obtain rfl := h.distinct.lane_eq hp hp'
      exact ⟨hlt', hst'⟩
  apply h.proceed ht hshift
  · intro cl hcl
    obtain rfl := Option.some.inj hcl
    refine ⟨fun key hk => ?_, nofun, hlt', hclaimed.owner, fun _ => hblank,
      fun _ => hblank.top.trans hblank.pos.symm, ?_, Nat.zero_le _⟩
    · obtain rfl := Option.some.inj hk
      exact hp
    · rw [Message.room_of_le hm]
      exact hst'.capacity
  · exact hands_of_listed hlt' hhome fun t' _ cl hcl hl => h.claim_ne_of_listed hp hcl hl
  · apply h.stocks.backlog_outside hf h.bound_full rfl
    rintro key b hp' rfl
    exact nomatch h.distinct.lane_eq hp hp'

/-- A search ends with a free buffer for the message or without one. -/
theorem find (h : s.Orderly p k c) (ht : t ≠ k) {size : UInt64} (hm : m.size ≤ minimum)
    (hsize : size ≤ minimum) (missing : Stage minimum) (hn : missing.buffer? = none) :
    Proceeds p k t s (Pool.find p size t) fun r => r.elim missing (.taken m) := by
  have hfit : ∀ key b, c.place key = some (b, some .free) →
      b < s.world.cells.size ∧ Pool.Serves size (s.world.buffer b) := by
    intro key b hp
    obtain ⟨hlt, hst⟩ := h.stored key b _ hp
    refine ⟨hlt, fun _ => ⟨(hst.free rfl).retired, ?_⟩⟩
    rw [(hst.free rfl).freeSize]
    exact UInt64.le_trans hsize hst.capacity
  obtain ⟨r, w', hr, hs, hmem, hsearched⟩ := Pool.find_ok h.stocks t hfit
  refine ⟨r, w', c, hr, ?_⟩
  cases r with
  | none =>
      have hle := Nat.le_of_eq hsearched.size.symm
      apply h.proceed_aside ht hn hs hsearched.held hle (fun b _ => hsearched.others b nofun)
      exact fun t' _ cl hcl => Nat.le_trans (h.claims t' cl hcl).refs (hsearched.refs _)
  | some g =>
      obtain ⟨hhome, hp⟩ := hmem g rfl
      exact h.taken ht hm hhome hp hs hsearched

/-- Nobody has come across a buffer that was made just now. -/
theorem made (h : s.Orderly p k c) (ht : t ≠ k) (hq : World.Quiet s.world w')
    (hcells : ∀ b, b < s.world.cells.size → w'.cells[b]? = s.world.cells[b]?)
    (hlt : s.world.cells.size < w'.cells.size) {capacity : UInt64}
    (hfresh : w'.buffer s.world.cells.size = .fresh s.world.format capacity)
    (hone : w'.refs s.world.cells.size = 1) (hroom : m.room ≤ capacity) :
    (s.proceed t (.made m s.world.cells.size) w').Orderly p k c := by
  have hf : Frame (fun b => ¬b < s.world.cells.size) c s.world c w' := by
    refine ⟨hq.cells, fun b hb _ => ?_, .refl _ c⟩
    rw [World.buffer_congr (hcells b hb)]
    exact .refl _
  have hshift : Shift p k t s (fun b => ¬b < s.world.cells.size) c c w' := by
    refine ⟨h.stocks.quiet hq, h.distinct, hq.held, hf, fun t' _ cl hcl => ?_, fun cl hcl => ?_,
      fun _ _ hp => hp, fun key b lane hb hp => absurd (h.stored key b lane hp).1 hb⟩
    · have hholds := h.claims t' cl hcl
      refine ⟨not_not_intro hholds.bound, ?_⟩
      rw [World.refs_congr (hcells _ hholds.bound)]
      exact hholds.refs
    · exact not_not_intro (h.pass cl hcl).bound
  apply h.proceed ht hshift
  · intro cl hcl
    obtain rfl := Option.some.inj hcl
    refine ⟨nofun, fun _ key lane hp => ?_, hlt, ?_, fun _ => ?_, fun _ => ?_, ?_, ?_⟩
    · exact Nat.lt_irrefl _ (h.stored key _ _ hp).1
    · rw [hfresh]
      rfl
    · rw [hfresh]
      exact Buffer.blank_fresh _ _
    · rw [hfresh]
      rfl
    · rw [hfresh]
      exact hroom
    · rw [hone]
  · refine ⟨fun b hb => ?_, nofun, fun cl hcl _ t' _ hb => ?_, fun cl hcl _ handles hh g hg => ?_,
      fun b hb t' _ cl hcl _ heq => ?_⟩
    · obtain rfl := Option.some.inj hb
      exact hlt
    · obtain rfl := Option.some.inj hcl
      exact Nat.lt_irrefl _ (h.known t' _ hb)
    · obtain rfl := Option.some.inj hcl
      exact Nat.ne_of_lt (h.held handles hh g hg)
    · obtain rfl := Option.some.inj hb
      exact Nat.ne_of_lt (h.claims t' cl hcl).bound heq
  · exact h.stocks.backlog_outside hf h.bound_full rfl
      fun key b hp => not_not_intro (h.bound_full key b hp)

/-- A producer gets a new buffer or none. -/
theorem make (h : s.Orderly p k c) (ht : t ≠ k) (missing : Stage minimum)
    (hn : missing.buffer? = none) :
    Proceeds p k t s (Pool.make p (SizeClass.atLeast m.size minimum)) fun r =>
      r.elim missing (.made m) := by
  obtain ⟨capacity, hclass⟩ := Option.isSome_iff_exists.1 m.hasClass
  obtain ⟨r, w', hr, hq, hcells, hmade⟩ := Pool.make_ok h.stocks hclass
  refine ⟨r, w', c, hr, ?_⟩
  cases r with
  | none =>
      apply h.proceed_aside ht hn (h.stocks.quiet hq) hq.held hq.cells
      · intro b hb
        rw [World.buffer_congr (hcells b hb)]
        exact .refl _
      · intro t' _ cl hcl
        rw [World.refs_congr (hcells _ (h.claims t' cl hcl).bound)]
        exact (h.claims t' cl hcl).refs
  | some b =>
      obtain ⟨rfl, hlt, hfresh, hone⟩ := hmade b rfl
      exact h.made ht hq hcells hlt hfresh hone (SizeClass.le_of_ofRequest? hclass).1

/-- No claim is to an abandoned buffer. -/
theorem notMem_valuesOf (h : s.Orderly p k c) {keys : List Arena.Key}
    (hkeys : c.Gathered (fun b => s.world.refs b == 1) keys) {cl : Claim}
    (hholds : cl.Holds c s.world) (hcl : cl.key = none ∨ cl.lane ≠ none ∨ 2 ≤ cl.refs) :
    cl.buffer ∉ c.valuesOf keys := by
  intro hmem
  obtain ⟨key, -, hp, hone⟩ := hkeys.place_of_mem hmem
  obtain ⟨hkey, hlane⟩ := hholds.place h.distinct hp
  rcases hcl with hn | hl | hrefs
  · rw [hkey] at hn
    exact nomatch hn
  · exact hl hlane.symm
  · have hle := Nat.le_trans hrefs hholds.refs
    rw [eq_of_beq hone] at hle
    exact absurd hle (by decide)

/-- Abandoned buffers are nobody's. -/
theorem reclaim (h : s.Orderly p k c) (ht : t ≠ k) (stage : Stage minimum)
    (hn : stage.buffer? = none) : Proceeds p k t s (Pool.reclaim p) fun _ => stage := by
  obtain ⟨keys, w', hr, hkeys, hs, hheld, hsize, hbuffer, hrefs⟩ := Pool.reclaim_ok h.stocks
  have hf : Frame (· ∈ c.valuesOf keys) c s.world (c.delete keys) w' :=
    .of_buffers hsize hbuffer (Catalog.spares_delete c keys)
  have hplace : ∀ key b lane, b ∈ c.valuesOf keys → c.place key = some (b, lane) → key ∈ keys := by
    intro key b lane hb hp
    obtain ⟨key', hk, hp', -⟩ := hkeys.place_of_mem hb
    rwa [h.distinct key key' _ _ _ hp hp']
  have hlisted : ∀ key b, c.place key = some (b, some .full) → key ∉ keys := by
    intro key b hp hk
    obtain ⟨b', hp', -⟩ := (hkeys.mem_iff key).1 hk
    rw [hp] at hp'
    exact nomatch (Prod.mk.inj (Option.some.inj hp')).2
  have hshift : Shift p k t s (· ∈ c.valuesOf keys) c (c.delete keys) w' := by
    refine ⟨hs, h.distinct.delete keys, hheld, hf, fun t' _ cl hcl => ?_, fun cl hcl => ?_,
      fun key b hp => ?_, fun key b lane hb hp => ?_⟩
    · have hholds := h.claims t' cl hcl
      have hout := h.notMem_valuesOf hkeys hholds (Stage.kept_of_claim? hcl)
      refine ⟨hout, ?_⟩
      rw [hrefs _ hout]
      exact hholds.refs
    · have hlane := (Pass.owner_of_claim? hcl).2.1
      apply h.notMem_valuesOf hkeys (h.pass cl hcl)
      rw [hlane]
      exact .inr (.inl nofun)
    · exact (if_neg (hlisted key b hp)).trans hp
    · simp only [Catalog.delete] at hp
      split_ifs at hp with hk
      exact absurd (hplace key b lane hb hp) hk
  refine ⟨(), w', c.delete keys, hr, ?_⟩
  apply h.proceed ht hshift
  · exact fun cl hcl => absurd hcl (Stage.claim?_ne_of_buffer? hn t cl)
  · exact hands_of_none hn
  · apply h.stocks.backlog_outside hf h.bound_full rfl
    exact fun key b hp hb => hlisted key b hp (hplace key b _ hb hp)

end Plant.Orderly

end BufferPool
