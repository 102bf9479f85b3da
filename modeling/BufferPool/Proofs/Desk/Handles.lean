import Mathlib.Algebra.Notation.Pi.Defs
import BufferPool.Proofs.Desk.SceneSteps

/-!
# Handles and the buffers they name

A handle may outlive the registration of its buffer, and the slot of its key may by then belong to
another buffer. As long as no slot has been vacated as often as a generation can count, the two are
never taken for each other: a key that is registered names the buffer of its handle, and a key whose
buffer has left is refused for good.
-/

namespace BufferPool

open PoolM

/-- All handles there are: those of the client and those that traversals hold. -/
def World.handles (w : World Desk) : List Handle := w.client.roots ++ w.held.flatten

/-- The operation faults, and all pools stay as they are. -/
def Refused {σ α : Type} (act : PoolM σ α) (w : World σ) : Prop :=
  ∃ fault w', act w = .error fault w' ∧ w'.pools = w.pools

/-- The key of a handle is not registered, and every operation on the handle is refused. -/
structure Expired (p : PoolId) (h : Handle) (w : World Desk) : Prop where
  unregistered : ∀ a, w.arena? p = some a → a.contains h.key = false
  inLane : ∀ lane, Pool.inLane p lane h w = .ok false w
  place : ∀ placing : Desk.Placing, Refused (placing.perform p h) w
  give : ∀ giving : Desk.Giving, Refused (giving.perform p h) w

section Refused

variable {σ α β : Type} {w w' : World σ}

theorem refused_bind {act : PoolM σ α} {next : α → PoolM σ β} (h : Refused act w) :
    Refused (act >>= next) w := by
  obtain ⟨fault, w', hr, hpools⟩ := h
  exact ⟨fault, w', bind_of_error next hr, hpools⟩

theorem refused_bind_of_ok {act : PoolM σ α} {next : α → PoolM σ β} {a : α}
    (ha : act w = .ok a w) (h : Refused (next a) w) : Refused (act >>= next) w := by
  obtain ⟨fault, w', hr, hpools⟩ := h
  exact ⟨fault, w', (bind_of_ok next ha).trans hr, hpools⟩

theorem refused_owning {act : PoolM σ α} (b : BufferId) (h : Refused act w) :
    Refused (owning b act) w := by
  obtain ⟨fault, w', hr, hpools⟩ := h
  exact ⟨fault, w'.drop b, onFault_of_error hr, (World.pools_drop w' b).trans hpools⟩

variable {p : PoolId} {pool : Pool} {h : Handle}

theorem refused_onArena {f : Arena BufferId → Except Arena.Fault (α × Arena BufferId)}
    (hp : w.pool? p = some pool) (fault : Arena.Fault) (hf : f pool.arena = .error fault) :
    Refused (onArena p f) w :=
  ⟨_, w, onArena_of_error hp hf, rfl⟩

namespace Pool

theorem refused_deallocate (hp : w.pool? p = some pool) (hh : h.pool = p)
    (hk : pool.arena.node? h.key = none) : Refused (deallocate p h) w := by
  apply refused_bind
  apply refused_owning
  apply refused_bind_of_ok (checkOwner_of_eq hh)
  apply refused_onArena hp (.stale h.key)
  simp only [Arena.unregister, hk]

theorem refused_remove (hp : w.pool? p = some pool) (hh : h.pool = p)
    (hk : pool.arena.node? h.key = none) (lane : Lane) : Refused (remove p lane h) w := by
  apply refused_bind_of_ok (checkOwner_of_eq hh)
  apply refused_onArena hp (.stale h.key)
  simp only [Arena.remove, hk]
  rfl

theorem refused_insert (hp : w.pool? p = some pool) (hh : h.pool = p)
    (hk : pool.arena.node? h.key = none) (lane : Lane) : Refused (insert p lane h) w := by
  apply refused_bind_of_ok (checkOwner_of_eq hh)
  apply refused_bind
  apply refused_onArena hp (.stale h.key)
  simp only [Arena.prepend, hk]
  rfl

theorem refused_release (hp : w.pool? p = some pool) (hh : h.pool = p)
    (hk : pool.arena.node? h.key = none) (lane : Lane) : Refused (release p lane h) w :=
  refused_bind (refused_owning _ (refused_remove hp hh hk lane))

/-- Asking whether everything was flushed changes nothing, whatever the answer. -/
theorem refused_giveBack (hp : w.pool? p = some pool) (hh : h.pool = p)
    (hk : pool.arena.node? h.key = none) (lane : Lane) : Refused (giveBack p lane h) w := by
  let unflushed := (w.buffer h.buffer).unflushedSize
  have hget : (getBuffer h.buffer : PoolM σ Buffer) w = .ok (w.buffer h.buffer) w := rfl
  rcases expect_cases (unflushed == 0) (.flushed unflushed) w with hmet | hfault
  · exact refused_bind_of_ok (onFault_of_ok ((bind_of_ok _ hget).trans hmet))
      (refused_release hp hh hk lane)
  · apply refused_bind
    apply refused_owning
    exact ⟨_, w, (bind_of_ok _ hget).trans hfault, rfl⟩

end Pool

end Refused

/-- A handle whose key names nothing is refused everywhere. -/
theorem expired_of_node? {p : PoolId} {pool : Pool} {h : Handle} {w : World Desk}
    (hp : w.pool? p = some pool) (hh : h.pool = p) (hk : pool.arena.node? h.key = none) :
    Expired p h w := by
  refine ⟨fun a ha => ?_, fun lane => ?_, fun placing => ?_, fun giving => ?_⟩
  · rw [World.arena?_of_pool? hp, Option.some.injEq] at ha
    rw [← ha, Arena.contains, hk]
    rfl
  · unfold Pool.inLane
    rw [bind_of_ok _ (Pool.checkOwner_of_eq hh), bind_of_ok _ (getPool_of_some hp)]
    unfold Arena.inLane
    rw [hk]
    rfl
  · cases placing with
    | insert lane => exact Pool.refused_insert hp hh hk lane
    | remove lane => exact Pool.refused_remove hp hh hk lane
    | move source => exact refused_bind (Pool.refused_remove hp hh hk source)
  · cases giving with
    | deallocate => exact Pool.refused_deallocate hp hh hk
    | release lane => exact Pool.refused_release hp hh hk lane
    | giveBack lane => exact Pool.refused_giveBack hp hh hk lane

namespace Desk

/-- The scene in which nothing has been set up. -/
def Scene.empty (profile : Profile) (format : Format) (maker : Supply) : Scene :=
  ⟨.empty profile format maker .empty, []⟩

theorem counted_empty (profile : Profile) (format : Format) (maker : Supply) :
    Counted .blank (fun _ _ => 0) (.empty profile format maker) :=
  ⟨⟨fits_empty profile format maker, fun _ => ⟨nofun, nofun⟩, List.nodup_nil⟩,
    fun _ _ _ _ => Nat.le_refl _⟩

/-- The handles of the desk are known, and so are those that traversals hold. -/
theorem Counted.known {c : Chronicle} {n : Vacations} {s : Scene} (h : Counted c n s)
    {g : Handle} (hg : g ∈ s.world.handles) : c.Known g := by
  rcases List.mem_append.1 hg with hg | hg
  · exact h.fits.roots g hg
  · obtain ⟨handles, hin, hg⟩ := List.mem_flatten.1 hg
    exact h.fits.held handles hin g hg

variable {c : Chronicle} {n : Vacations} {s : Scene} {p : PoolId} {pool : Pool}

theorem Counted.get?_of_contains (h : Counted c n s) (hp : s.world.pool? p = some pool)
    {g : Handle} (hn : n.Countable p g.key.index) (hg : c.Known g) (hgp : g.pool = p)
    (hc : pool.arena.contains g.key = true) : pool.arena.get? g.key = some g.buffer := by
  subst hgp
  obtain ⟨e, hgen, hb⟩ := hg
  have harena := World.arena?_of_pool? hp
  have hrec := (h.fits.arena g.pool pool.arena harena).2
  have hage : (c.ledger g.pool).age g.key.index < 2 ^ 64 :=
    Nat.lt_of_le_of_lt (h.age g.pool pool.arena harena _) hn
  have hkey : g.key = ⟨g.key.index, UInt64.ofNat e⟩ := by rw [← hgen]
  rw [Arena.get?_eq_place?]
  cases hpl : pool.arena.place? g.key with
  | none =>
      rw [Arena.contains, Arena.node?_eq_none_of_place? hpl] at hc
      exact nomatch hc
  | some place =>
      obtain ⟨value, lane⟩ := place
      rw [hkey] at hpl
      rw [(hrec.place?_of_era hb hage hpl).2]
      rfl

theorem Counted.key_eq_iff (h : Counted c n s) (hp : s.world.pool? p = some pool)
    (hn : ∀ i, n.Countable p i) {g g' : Handle} (hg : c.Known g) (hg' : c.Known g')
    (hgp : g.pool = p) (hgp' : g'.pool = p) : g.key = g'.key ↔ g.buffer = g'.buffer := by
  obtain ⟨e, hgen, hb⟩ := hg
  obtain ⟨e', hgen', hb'⟩ := hg'
  rw [hgp] at hb
  rw [hgp'] at hb'
  constructor
  · intro hkey
    have hage : (c.ledger p).age g.key.index < 2 ^ 64 :=
      Nat.lt_of_le_of_lt (h.age p pool.arena (World.arena?_of_pool? hp) _) (hn _)
    rw [← hkey] at hb' hgen'
    have hle := (c.ledger p).tenant_le _ _ _ hb
    have hle' := (c.ledger p).tenant_le _ _ _ hb'
    have he : e = e' :=
      Arena.ofNat_era_inj (by omega) (by omega) (hgen.symm.trans hgen')
    rw [he] at hb
    exact Option.some.inj (hb.symm.trans hb')
  · intro hbuffer
    rw [← hbuffer] at hb'
    obtain ⟨-, hi, he⟩ := c.unique p _ _ p _ _ _ hb hb'
    have hkey : g.key = ⟨g.key.index, UInt64.ofNat e⟩ := by rw [← hgen]
    have hkey' : g'.key = ⟨g'.key.index, UInt64.ofNat e'⟩ := by rw [← hgen']
    rw [hkey, hkey', hi, he]

/-- A buffer that has left belongs to an era that is over. -/
theorem Counted.era_lt_age (h : Counted c n s) (hp : s.world.pool? p = some pool) {g : Handle}
    (hgone : g.buffer ∉ pool.arena.values) {e : Nat}
    (hb : (c.ledger p).tenant g.key.index e = some g.buffer) :
    e < (c.ledger p).age g.key.index := by
  have hle := (c.ledger p).tenant_le _ _ _ hb
  apply Nat.lt_of_le_of_ne hle
  intro he
  rw [he] at hb
  have hrec := (h.fits.arena p pool.arena (World.arena?_of_pool? hp)).2
  obtain ⟨lane, hpl⟩ := hrec.tenant_present hb
  obtain ⟨node, hn, hv, -⟩ := Arena.place?_eq_some_iff.1 hpl
  exact hgone (List.mem_map.2 ⟨_, Arena.mem_occupants.2 hn, hv⟩)

/-- Every handle names its own buffer or nothing, and names nothing for good once its buffer has
left. Equal keys are keys of the same buffer. The vacations of every slot must be countable, a bound
that no execution reaches. -/
theorem handles_coherent {profile : Profile} {format : Format} {maker : Supply} {n : Vacations}
    {s : Scene} (hrun : Run (.empty profile format maker) n s) {p : PoolId} {pool : Pool}
    (hp : s.world.pool? p = some pool) (hn : ∀ i, n.Countable p i) :
    (∀ h ∈ s.world.handles, h.pool = p → pool.arena.contains h.key = true →
      pool.arena.get? h.key = some h.buffer) ∧
    (∀ h ∈ s.world.handles, ∀ g ∈ s.world.handles, h.pool = p → g.pool = p →
      (h.key = g.key ↔ h.buffer = g.buffer)) ∧
    ∀ h ∈ s.world.handles, h.pool = p → h.buffer ∉ pool.arena.values →
      ∀ n' s', Run s n' s' → (s'.world.pool? p).isSome → (∀ i, (n + n').Countable p i) →
        Expired p h s'.world := by
  obtain ⟨c, -, hc⟩ := (counted_empty profile format maker).run hrun
  simp only [Nat.zero_add] at hc
  refine ⟨fun h hh hhp => hc.get?_of_contains hp (hn _) (hc.known hh) hhp,
    fun h hh g hg hhp hgp => hc.key_eq_iff hp hn (hc.known hh) (hc.known hg) hhp hgp, ?_⟩
  intro h hh hhp hgone n' s' hrun' hlive hn'
  obtain ⟨pool', hp'⟩ := Option.isSome_iff_exists.1 hlive
  obtain ⟨c', hcont, hc'⟩ := hc.run hrun'
  apply expired_of_node? hp' hhp
  obtain ⟨e, hgen, hb⟩ := hc.known hh
  rw [hhp] at hb
  have hlt := hc.era_lt_age hp hgone hb
  have harena := World.arena?_of_pool? hp'
  have hage : (c'.ledger p).age h.key.index < 2 ^ 64 :=
    Nat.lt_of_le_of_lt (hc'.age p pool'.arena harena _) (hn' _)
  have hkey : h.key = ⟨h.key.index, UInt64.ofNat e⟩ := by rw [← hgen]
  apply Arena.node?_eq_none_of_place?
  cases hpl : pool'.arena.place? h.key with
  | none => rfl
  | some place =>
      obtain ⟨value, lane⟩ := place
      rw [hkey] at hpl
      have hera := ((hc'.fits.arena p pool'.arena harena).2.place?_of_era
        (hcont.tenant _ _ _ _ hb) hage hpl).1
      have hmono := hcont.age p h.key.index
      omega

/-- A buffer is allocated and deallocated while a second handle is kept, and then its slot is
reused. -/
theorem kept_handle_expires :
    let w := performAll 0 0 [.build .standard false, .obtain .allocate 100 none (some "a"),
      .give (.named "a") true .deallocate] (.empty .checked .plain (.within none) .empty)
    let w' := performAll 0 0 [.obtain .allocate 100 none (some "b")] w
    (⟨0, ⟨0, 0⟩, 0⟩ ∈ w.handles ∧ (w'.arena? 0).bind (·.get? ⟨0, 1⟩) = some 1) ∧
      Expired 0 ⟨0, ⟨0, 0⟩, 0⟩ w' := by
  intro w w'
  have hstart : Run (.empty .checked .plain (.within none)) (fun _ _ => 0)
      ⟨.empty .checked .plain (.within none) .empty, []⟩ := .refl
  have hstart' : Run ⟨w, []⟩ (fun _ _ => 0) ⟨w, []⟩ := .refl
  obtain ⟨n, hrun, hn⟩ := hstart.performAll 0 0 [.build .standard false,
    .obtain .allocate 100 none (some "a"), .give (.named "a") true .deallocate]
  obtain ⟨n', hrun', hn'⟩ := hstart'.performAll 0 0 [.obtain .allocate 100 none (some "b")]
  have hhandle : (⟨0, ⟨0, 0⟩, 0⟩ : Handle) ∈ w.handles := by decide +kernel
  have hvalues : (w.pool? 0).map (·.arena.values) = some [] := by decide +kernel
  obtain ⟨pool, hp, hnone⟩ := Option.map_eq_some_iff.1 hvalues
  have hgone : 0 ∉ pool.arena.values := by
    rw [hnone]
    exact List.not_mem_nil
  have hcoherent := handles_coherent hrun hp fun i => Nat.lt_of_le_of_lt (hn 0 i) (by decide : 3 < 2 ^ 64)
  refine ⟨⟨hhandle, by decide +kernel⟩, ?_⟩
  apply hcoherent.2.2 _ hhandle rfl hgone n' _ hrun' (by decide +kernel)
  intro i
  have hle : n 0 i + n' 0 i ≤ 3 + 1 := Nat.add_le_add (hn 0 i) (hn' 0 i)
  exact Nat.lt_of_le_of_lt hle (by decide : 3 + 1 < 2 ^ 64)

end Desk

end BufferPool
