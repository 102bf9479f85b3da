import BufferPool.Proofs.Drain.Consuming
import BufferPool.Proofs.Drain.Setup

/-!
# Every byte is drained exactly once

Take a pool that was built with any configuration, any number of producers and one consumer, and let
them work in any order. Nothing goes wrong, however far they have got: no operation faults, in neither
profile, and no write is refused. What was written is what was drained and what is still unflushed in
the full lane.
-/

namespace BufferPool

open PoolM

variable {σ : Type} {minimum : UInt64} {p : PoolId} {k t : Thread} {s s' : Plant σ minimum}
  {w : World σ}

/-- How many bytes in the listed buffers are not flushed. -/
def unflushedIn (w : World σ) (entries : List (Arena.Key × BufferId)) : Nat :=
  (entries.map fun entry => (w.buffer entry.2).unflushedSize.toNat).sum

/-- The backlog is what the full lane shows. -/
theorem World.Stocks.backlog_eq {c : Arena.Catalog BufferId} (h : w.Stocks p minimum c) :
    ∃ pool entries, w.pool? p = some pool ∧ pool.arena.entries .full .forward = .ok entries ∧
      unflushedIn w entries = backlog c w := by
  obtain ⟨pool, wiring, hpool, -, hw, rfl⟩ := h.pool
  refine ⟨pool, _, hpool, (hw.lanes .full).entries_forward, ?_⟩
  rw [unflushedIn, backlog, Arena.catalog, List.map_map]
  congr 1
  apply List.map_congr_left
  intro entry he
  exact (load_of_place (Arena.place?_of_mem_entries (hw.lanes .full) he) w).symm

namespace Plant

theorem Orderly.step {c : Arena.Catalog BufferId} (h : s.Orderly p k c) (hs : Step p k s s') :
    ∃ c', s'.Orderly p k c' := by
  cases hs with
  | produce ht hact => exact h.produce ht hact
  | consume hact => exact h.consume hact

namespace Reachable

theorem orderly (hw : ∃ c, (Plant.start w : Plant σ minimum).Orderly p k c)
    (h : Reachable p k w s) : ∃ c, s.Orderly p k c := by
  induction h with
  | start => exact hw
  | step _ hs ih =>
      obtain ⟨c, hc⟩ := ih
      exact hc.step hs

/-- The bytes drained so far and those that are unflushed in the full lane are the bytes written so
far, and nothing has gone wrong. -/
theorem drains_exactly_once {config : Config} {profile : Profile} {format : Format}
    {maker : Supply} {client : σ} (hvalid : config.validate = .ok minimum)
    (hbuild : Pool.build config (.empty profile format maker client) = .ok (.ok p) w)
    (h : Reachable p k w s) :
    (∀ m ∈ s.log, m.sound = true) ∧
      ∃ pool entries, s.world.pool? p = some pool ∧
        pool.arena.entries .full .forward = .ok entries ∧
        bytesDrained s.log + unflushedIn s.world entries = bytesWritten s.log := by
  obtain ⟨c, hc⟩ := h.orderly (orderly_of_build hvalid hbuild k)
  obtain ⟨pool, entries, hpool, hentries, hsum⟩ := hc.stocks.backlog_eq
  refine ⟨hc.sound, pool, entries, hpool, hentries, ?_⟩
  rw [hsum]
  exact hc.balance

theorem produce {stage : Stage minimum} {act : PoolM σ (Stage minimum × List Mark)}
    (h : Reachable p k w s) (ht : t ≠ k) (hst : s.producers t = stage)
    (hact : Produces p t stage act) : Reachable p k w (s.produced t (act s.world)) := by
  subst hst
  exact h.step (.produce ht hact)

theorem consume {pass : Pass} {act : PoolM σ (Pass × List Mark)} (h : Reachable p k w s)
    (hpass : s.pass = pass) (hact : Consumes p k pass act) :
    Reachable p k w (s.consumed (act s.world)) := by
  subst hpass
  exact h.step (.consume hact)

/-- A producer writes three bytes, and the consumer skips the buffer once before it drains it. -/
theorem drains_exactly_once_three_bytes :
    ∃ (w : World Unit) (s : Plant Unit 4096),
      Pool.build .standard (.empty .checked .plain (.within none) ()) = .ok (.ok 0) w ∧
      Reachable 0 0 w s ∧ s.log = [.drained 3, .wrote 3] ∧ (∀ m ∈ s.log, m.sound = true) ∧
      ∃ pool entries, s.world.pool? 0 = some pool ∧
        pool.arena.entries .full .forward = .ok entries ∧
        bytesDrained s.log + unflushedIn s.world entries = bytesWritten s.log := by
  let w : World Unit := leaves (Pool.build .standard) (.empty .checked .plain (.within none) ())
  have hbuild : Pool.build .standard (.empty .checked .plain (.within none) ()) =
    .ok (.ok 0) w := rfl
  let m : Message 4096 := ⟨[1, 2, 3], 3, rfl, by decide +kernel⟩
  let g : Handle := ⟨0, ⟨0, 0⟩, 0⟩
  have h₀ : Reachable 0 0 w (Plant.start w : Plant Unit 4096) := .start
  have h₁ := h₀.produce (t := 1) (by decide) rfl (.begin m)
  have h₂ := h₁.produce (t := 1) (by decide) (by decide +kernel) (.obtainFull m)
  have h₃ := h₂.consume (by decide +kernel) (.capture .backward)
  have h₄ := h₃.consume (by decide +kernel) (.tryAcquire g [])
  have h₅ := h₄.consume (by decide +kernel) .letGo
  have h₆ := h₅.produce (t := 1) (by decide) (by decide +kernel) (.write m g)
  have h₇ := h₆.produce (t := 1) (by decide) (by decide +kernel) (.release g)
  have h₈ := h₇.consume (by decide +kernel) (.capture .forward)
  have h₉ := h₈.consume (by decide +kernel) (.tryAcquire g [])
  have h₁₀ := h₉.consume (by decide +kernel) (.flush g [])
  exact ⟨w, _, hbuild, h₁₀, by decide +kernel, drains_exactly_once rfl hbuild h₁₀⟩

end Reachable

end Plant

end BufferPool
