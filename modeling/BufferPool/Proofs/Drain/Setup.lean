import BufferPool.Pool.Setup
import BufferPool.Proofs.Drain.Producing

/-!
# A plant before anybody works

A pool is filled before anybody works with it. The steps are those of a producer that makes one buffer
after the other and leaves each in the free lane, so they keep the plant in order. A pool may also turn
out not to be filled, but then it is not built.
-/

namespace BufferPool

open Arena (Catalog)
open PoolM

variable {σ : Type} {minimum : UInt64} {p : PoolId} {k t : Thread} {c : Catalog BufferId}
  {s : Plant σ minimum} {w w' : World σ} {m : Message minimum} {g : Handle}

namespace Pool

theorem closing_eq_ok {α : Type} {act : PoolM σ α} {a : α} (h : closing p act w = .ok a w') :
    act w = .ok a w' := by
  unfold closing at h
  cases hr : act w with
  | ok b w₁ =>
      rw [hr] at h
      exact h
  | error fault w₁ =>
      rw [hr] at h
      dsimp only at h
      cases hc : close p w₁ with
      | ok _ w₂ =>
          rw [hc] at h
          exact nomatch h
      | error _ w₂ =>
          rw [hc] at h
          exact nomatch h

end Pool

namespace Plant.Orderly

/-- A new buffer is left in the free lane. -/
theorem shelve (h : s.Orderly p k c) (ht : t ≠ k) (hst : s.producers t = .enrolled m g) :
    Proceeds p k t s (Pool.insert p .free g) fun _ => .parting g := by
  have hcl : (s.producers t).claim? t =
      some ⟨g.buffer, some g.key, none, none, true, true, m.room, 2⟩ := by
    rw [hst]
    rfl
  have hhandle : (s.producers t).handle? = some g := by
    rw [hst]
    rfl
  have hhome := h.home t g hhandle
  have hholds := h.claims t _ hcl
  have hp : c.place g.key = some (g.buffer, none) := hholds.registered _ rfl
  obtain ⟨w', hr, hs, hheld, hcells⟩ := Pool.insert_ok h.stocks hhome .free hp
  have hd := h.distinct.enter hp .free
  have hf : Frame (· = g.buffer) c s.world (c.enter .free g.key g.buffer) w' :=
    .of_cells hcells (Catalog.spares_enter hp .free)
  have horder : (c.enter .free g.key g.buffer).order .full = c.order .full := by
    have hne : Lane.full ≠ .free := nofun
    exact Catalog.order_enter_of_ne hne c g.key g.buffer
  have hshift : Shift p k t s (· = g.buffer) c (c.enter .free g.key g.buffer) w' := by
    apply h.shift_own hcl hs hd hheld hf
    · exact fun b _ => Nat.le_of_eq (World.refs_of_cells hcells b).symm
    · exact nofun
    · intro key lane hp'
      obtain rfl := hd.lane_eq (Catalog.place_enter_self ..) hp'
      rw [World.buffer_of_cells hcells]
      exact ⟨(h.stored _ _ _ hp).2.capacity, fun _ => hholds.blank rfl, nofun⟩
  refine ⟨(), w', c.enter .free g.key g.buffer, hr, ?_⟩
  have hnone : ∀ cl, (Stage.parting g : Stage minimum).claim? t ≠ some cl :=
    Stage.claim?_parting g t
  apply h.proceed ht hshift
  · exact fun cl hcl' => absurd hcl' (hnone cl)
  · exact h.hands_of_handle hf.size hhandle rfl fun cl hcl' => absurd hcl' (hnone cl)
  · exact h.backlog_own hcl nofun hf horder

/-- No buffer is allocated for a request without a class. -/
theorem allocateWithin_none (h : s.Orderly p k c) (ht : t ≠ k)
    (hclass : SizeClass.ofRequest? minimum minimum = none) {r : Option Handle}
    (hr : Pool.allocateWithin p minimum s.world = .ok r w') : r = none := by
  unfold Pool.allocateWithin at hr
  obtain ⟨_, w₁, c₁, h₁, hr₁⟩ := (h.reclaim ht .idle rfl).rest hr
  obtain ⟨pool, -, hpool, hmin, -⟩ := h₁.stocks.pool
  obtain ⟨made, w₂, hmake, hrest⟩ := bind_eq_ok hr₁
  cases made with
  | none => exact (EStateM.Result.ok.inj hrest).1.symm
  | some b =>
      rw [← hmin] at hclass
      exact absurd (hmin ▸ hmake) (Pool.make_of_no_class hpool hclass b w₂)

/-- Filling a pool keeps it in order, if it succeeds. -/
theorem preallocate (h : s.Orderly p k c) (ht : t ≠ k) (allocated : Nat) {remaining : Nat}
    (hr : Pool.preallocate p allocated remaining s.world = .ok none w') :
    ∃ c', (s.proceed t .idle w').Orderly p k c' := by
  induction remaining generalizing s c allocated with
  | zero =>
      obtain ⟨-, rfl⟩ := EStateM.Result.ok.inj hr
      refine ⟨c, h.proceed_aside ht rfl h.stocks rfl (Nat.le_refl _) (fun _ _ => .refl _) ?_⟩
      exact fun t' _ cl hcl => (h.claims t' cl hcl).refs
  | succ remaining ih =>
      obtain ⟨pool, hpool, hmin⟩ := h.getPool
      unfold Pool.preallocate at hr
      rw [bind_of_ok _ hpool, hmin] at hr
      cases hclass : SizeClass.ofRequest? minimum minimum with
      | none =>
          obtain ⟨r, w₁, hallocate, hrest⟩ := bind_eq_ok hr
          obtain rfl := h.allocateWithin_none ht hclass hallocate
          obtain ⟨_, w₂, -, hret⟩ := bind_eq_ok hrest
          exact nomatch hret
      | some capacity =>
          have hself : SizeClass.atLeast minimum minimum = minimum :=
            SizeClass.atLeast_of_le (UInt64.le_refl minimum)
          -- Any message of the smallest class will do.
          let m : Message minimum := ⟨List.replicate minimum.toNat 0, minimum,
            List.length_replicate, by rw [hself, hclass]; rfl⟩
          have hallocate := h.allocateWithin ht (m := m)
          rw [hself] at hallocate
          obtain ⟨r, w₁, c₁, h₁, hr₁⟩ := hallocate.rest hr
          cases r with
          | none =>
              obtain ⟨_, w₂, -, hret⟩ := bind_eq_ok hr₁
              exact nomatch hret
          | some g =>
              have hshelve := (h₁.shelve ht (producers_proceed ..)).owning g.buffer
              obtain ⟨_, w₂, c₂, h₂, hr₂⟩ := hshelve.rest hr₁
              obtain ⟨_, w₃, c₃, h₃, hr₃⟩ := (h₂.drop ht (producers_proceed ..)).rest hr₂
              obtain ⟨c', hc'⟩ := ih h₃ (allocated + 1) hr₃
              simp only [proceed_proceed] at hc'
              exact ⟨c', hc'⟩

end Plant.Orderly

namespace Plant

/-- Nobody works with a pool that has no buffers. -/
theorem orderly_start {pool : Pool} (hp : w.pool? p = some pool) (hempty : pool.arena = .empty)
    (hheld : w.held = []) (k : Thread) :
    (start w : Plant σ pool.minimum).Orderly p k .empty := by
  have hstocks : w.Stocks p pool.minimum .empty := by
    refine ⟨World.minimum?_of_pool? hp, .empty, _, ?_, Arena.empty_wired, Arena.catalog_empty⟩
    rw [World.arena?_of_pool? hp, hempty]
  have hnone : ∀ handles, handles ∉ w.held := by
    intro handles hh
    rw [hheld] at hh
    exact nomatch hh
  have hidle : ∀ t cl, (Stage.idle : Stage pool.minimum).claim? t ≠ some cl :=
    Stage.claim?_ne_of_buffer? rfl
  have hresting : ∀ cl, Pass.resting.claim? k ≠ some cl :=
    fun cl hcl => Option.some_ne_none cl hcl.symm
  exact ⟨hstocks, Catalog.distinct_empty, nofun, fun t cl hcl => absurd hcl (hidle t cl), nofun,
    nofun, fun t cl hcl => absurd hcl (hidle t cl), fun t cl hcl => absurd hcl (hidle t cl),
    fun handles hh => absurd hh (hnone handles), rfl, fun cl hcl => absurd hcl (hresting cl), nofun,
    .nil, nofun, rfl⟩

theorem proceed_start (w w' : World σ) (t : Thread) :
    (start w : Plant σ minimum).proceed t .idle w' = start w' := by
  have hidle : Function.update (fun _ : Thread => (Stage.idle : Stage minimum)) t .idle =
      fun _ => .idle := Function.update_eq_self ..
  change (⟨w', Function.update (fun _ => .idle) t .idle, .resting, []⟩ : Plant σ minimum) = _
  rw [hidle]
  rfl

/-- Whatever was built is in order. -/
theorem orderly_of_build {config : Config} {profile : Profile} {format : Format} {maker : Supply}
    {client : σ} (hvalid : config.validate = .ok minimum)
    (hbuild : Pool.build config (.empty profile format maker client) = .ok (.ok p) w)
    (k : Thread) : ∃ c, (start w : Plant σ minimum).Orderly p k c := by
  let w₀ : World σ := .empty profile format maker client
  let pool : Pool := ⟨config, minimum, config.heap, .empty, 0, 0, true⟩
  let w₁ : World σ := { w₀ with pools := w₀.pools.push pool }
  have hget : (MonadState.get : PoolM σ (World σ)) w₀ = .ok w₀ w₀ := rfl
  have hadd : Pool.add config minimum true w₀ = .ok () w₁ := rfl
  have hpool : w₁.pool? 0 = some pool := rfl
  have h₁ := orderly_start hpool rfl rfl k
  unfold Pool.build at hbuild
  rw [bind_of_ok _ hget] at hbuild
  simp only [hvalid] at hbuild
  rw [bind_of_ok _ hadd] at hbuild
  obtain ⟨r, w₂, hclosing, hrest⟩ := bind_eq_ok hbuild
  cases r with
  | some allocated =>
      obtain ⟨_, w₃, -, hret⟩ := bind_eq_ok hrest
      exact nomatch hret
  | none =>
      have ht : k + 1 ≠ k := Nat.succ_ne_self k
      obtain ⟨c₂, h₂⟩ := h₁.preallocate ht 0 (Pool.closing_eq_ok hclosing)
      have hready := h₂.note ht (.ready minimum config.limit config.cacheCount) .idle rfl
      obtain ⟨_, w₃, c₃, h₃, hret⟩ := hready.rest hrest
      obtain ⟨hp, rfl⟩ := EStateM.Result.ok.inj hret
      obtain rfl := Except.ok.inj hp
      rw [proceed_start, proceed_start] at h₃
      exact ⟨c₃, h₃⟩

end Plant

end BufferPool
