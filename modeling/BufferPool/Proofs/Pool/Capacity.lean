import BufferPool.Proofs.Config
import BufferPool.Proofs.Pool.LicensedCells

/-!
# Capacities

Heaps are asked for sizes of classes only. Such a size is the smallest capacity of a pool doubled some
times, and still a signed word. The largest signed word has no layout, because rounding it up to the
alignment of payloads leaves the signed words. But the smallest capacity was checked to be a multiple of
the page size when the pool was set up, and doubling keeps that. So there is room for the rounding, and a
heap is never asked for a size without a layout.
-/

namespace BufferPool

namespace Heap

variable {size : UInt64}

/-- Rounded up to the alignment of payloads, the size is still a signed word. -/
def HasLayout (size : UInt64) : Prop := (size.toNat + 15) / 16 * 16 ≤ 2 ^ 63 - 1

theorem hasLayout_iff : HasLayout size ↔ size ≤ layoutLimit := by
  have hlimit : layoutLimit.toNat = 2 ^ 63 - 16 := rfl
  rw [HasLayout, UInt64.le_iff_toNat_le, hlimit]
  omega

/-- A request that has a layout is refused only if there is not enough memory. -/
theorem systemServes_of_hasLayout (h : HasLayout size) (hsize : size ≠ 0) :
    systemServes size = decide (size < memoryLimit) := by
  rw [systemServes, bne_iff_ne.2 hsize, decide_eq_true (hasLayout_iff.1 h), Bool.true_and,
    Bool.true_and]

end Heap

/-- A capacity that a pool may give to a buffer. -/
structure SizeClass.Apt (pageSize minimum capacity : UInt64) : Prop where
  doubled : ∃ k, capacity.toNat = minimum.toNat * 2 ^ k
  bounded : capacity ≤ maximum
  nonzero : capacity ≠ 0
  whole : capacity % pageSize = 0
  /-- Payloads are aligned to 16 bytes, and so are pages. -/
  layout : pageSize % 16 = 0 → Heap.HasLayout capacity

/-- A class of a smallest capacity that was checked is apt. -/
theorem SizeClass.apt_of_ofRequest? {c : Config} {requested minimum capacity : UInt64}
    (hvalid : c.validate = .ok minimum) (h : ofRequest? requested minimum = some capacity) :
    Apt c.pageSize minimum capacity := by
  obtain ⟨⟨k, hk⟩, hle⟩ := eq_mul_of_ofRequest? h
  obtain ⟨hne, haligned⟩ := Config.validate_eq_ok hvalid
  have hpage : c.pageSize.toNat ∣ minimum.toNat :=
    Nat.dvd_of_mod_eq_zero (congrArg UInt64.toNat haligned)
  have hmultiple : c.pageSize.toNat ∣ capacity.toNat := hk ▸ Nat.dvd_trans hpage (Nat.dvd_mul_right ..)
  have hbounded : capacity.toNat ≤ 2 ^ 63 - 1 := hle
  have hpos : 0 < capacity.toNat := by
    have hminimum : 0 < minimum.toNat := Nat.pos_of_ne_zero fun h0 => hne (UInt64.toNat_inj.1 h0)
    rw [hk]
    exact Nat.mul_pos hminimum (Nat.two_pow_pos k)
  refine ⟨⟨k, hk⟩, hle, ?_, UInt64.toNat_inj.1 (Nat.mod_eq_zero_of_dvd hmultiple), fun hwide => ?_⟩
  · rintro rfl
    exact absurd hpos (Nat.lt_irrefl 0)
  · have hsixteen : 16 ∣ c.pageSize.toNat :=
      Nat.dvd_of_mod_eq_zero (congrArg UInt64.toNat hwide)
    have haligned' : 16 ∣ capacity.toNat := Nat.dvd_trans hsixteen hmultiple
    rw [Heap.HasLayout]
    omega

namespace Buffer

/-- The buffer has a capacity that is apt, and its total size is the sum of its parts. -/
structure Measured (format : Format) (pageSize minimum : UInt64) (b : Buffer) : Prop where
  capacity : SizeClass.Apt pageSize minimum b.capacity
  header : b.header = format.headerSize
  total : b.totalSize.toNat = b.header.toNat + b.capacity.toNat

variable {format : Format} {pageSize minimum : UInt64} {b b' : Buffer}

/-- There is room in a word for a header and an apt capacity. -/
theorem measured_of_apt (h : SizeClass.Apt pageSize minimum b.capacity)
    (hheader : b.header = format.headerSize) : b.Measured format pageSize minimum := by
  have hbounded : b.capacity.toNat ≤ 2 ^ 63 - 1 := h.bounded
  have hsmall : b.header.toNat ≤ 88 := by
    rw [hheader]
    cases format <;> decide
  refine ⟨h, hheader, ?_⟩
  rw [totalSize, UInt64.toNat_add]
  exact Nat.mod_eq_of_lt (by omega)

theorem Measured.congr (h : b.Measured format pageSize minimum)
    (hsame : b'.header = b.header ∧ b'.capacity = b.capacity) :
    b'.Measured format pageSize minimum :=
  measured_of_apt (hsame.2 ▸ h.capacity) (hsame.1.trans h.header)

end Buffer

namespace World

variable {σ : Type} {L : Licence} {w w' : World σ} {p : PoolId} {size : UInt64}

/-- Only pools that pass the checks are open. -/
def Checked (w : World σ) : Prop :=
  ∀ p pool, w.pool? p = some pool → pool.config.validate = .ok pool.minimum

theorem LicensedStep.checked (h : LicensedStep L w w') (hw : w.Checked) : w'.Checked := by
  intro p pool hp
  have hset : ∀ {q : PoolId} {arena : Arena BufferId}, (w.setArena q arena).pool? p = some pool →
      pool.config.validate = .ok pool.minimum := by
    intro q arena hp
    rw [pool?_setArena] at hp
    split_ifs at hp
    · obtain ⟨before, hbefore, rfl⟩ := Option.map_eq_some_iff.1 hp
      exact hw p before hbefore
    · exact hw p pool hp
  cases h with
  | minor h =>
      obtain ⟨before, hbefore, hshape⟩ := pool?_of_shape (h.pools p).symm hp
      have hconfig : before.config = pool.config := congrArg (·.1) hshape
      have hminimum : before.minimum = pool.minimum := congrArg (·.2.1) hshape
      rw [← hconfig, ← hminimum]
      exact hw p before hbefore
  | work _ | grant _ _ | refuse _ _ => exact hw p pool hp
  | update _ _ => exact hset hp
  | insert _ _ _ => exact hset hp
  | @found added _ _ hvalid =>
      obtain ⟨hin, hlive⟩ := pool?_eq_some_iff.1 hp
      have hpush : (w.pools.push added)[p]? = some pool := hin
      rw [Array.getElem?_push] at hpush
      split_ifs at hpush
      · obtain rfl := Option.some.inj hpush
        exact hvalid hlive
      · exact hw p pool (pool?_eq_some_iff.2 ⟨hpush, hlive⟩)
  | close q =>
      rw [pool?_retirePool] at hp
      split_ifs at hp
      exact hw p pool hp

/-- What a licensed step tells of a heap is about the size of a request, or about that of a buffer. -/
theorem LicensedStep.told (h : LicensedStep L w w') : ∃ told : List Event, w'.events = told ++ w.events ∧
    ∀ e ∈ told, ∀ p size, e.payload? = some (p, size) → Sized L w p size ∨
      ∃ (b : BufferId) (c : Cell), w.cells[b]? = some c ∧ c.home = p ∧ c.buffer.capacity = size := by
  cases h with
  | minor h =>
      obtain ⟨told, htold, he⟩ := h.events
      refine ⟨told, he, fun e hm p size hsize => .inr ?_⟩
      have htells := htold e hm
      cases e with
      | freed home b tag size' =>
          obtain ⟨buffer, hb, hcapacity⟩ := htells
          obtain ⟨c, hc, hshape⟩ := Option.map_eq_some_iff.1 hb
          obtain ⟨rfl, rfl⟩ := Prod.mk.inj (Option.some.inj hsize)
          exact ⟨b, c, hc, congrArg (·.2.1) hshape, (congrArg (·.1.capacity) hshape).trans hcapacity⟩
      | _ => exact absurd (hsize.symm.trans htells) (Option.some_ne_none _)
  | @grant p size tag hsized =>
      refine ⟨[.granted p w.cells.size tag size], rfl, fun e hm q size' hsize => .inl ?_⟩
      obtain rfl := List.mem_singleton.1 hm
      obtain ⟨rfl, rfl⟩ := Prod.mk.inj (Option.some.inj hsize)
      exact hsized
  | @refuse p size e he hsized =>
      refine ⟨[e], rfl, fun e' hm q size' hsize => .inl ?_⟩
      obtain rfl := List.mem_singleton.1 hm
      rcases he with rfl | rfl
      all_goals
        obtain ⟨rfl, rfl⟩ := Prod.mk.inj (Option.some.inj hsize)
        exact hsized
  | work _ | update _ _ | insert _ _ _ | found _ _ _ | close _ => exact ⟨[], rfl, nofun⟩

theorem LicensedStep.format (h : LicensedStep L w w') : w'.format = w.format := by
  cases h with
  | minor h => exact h.format
  | work _ | grant _ _ | refuse _ _ | update _ _ | insert _ _ _ | found _ _ _ | close _ => rfl

theorem LicensedSteps.format (h : LicensedSteps L w w') : w'.format = w.format := by
  induction h with
  | refl => rfl
  | tail _ hlicensed ih => exact hlicensed.format.trans ih

/-- Every buffer has an apt capacity, and no heap was ever asked for anything else. -/
structure Measured (w : World σ) : Prop where
  checked : w.Checked
  cells : ∀ (b : BufferId) c, w.cells[b]? = some c → ∃ config minimum,
    w.config? c.home = some config ∧ config.validate = .ok minimum ∧
      c.buffer.Measured w.format config.pageSize minimum
  events : ∀ e ∈ w.events, ∀ p size, e.payload? = some (p, size) →
    ∃ config minimum, w.config? p = some config ∧ SizeClass.Apt config.pageSize minimum size

theorem Checked.apt_of_sized (h : w.Checked) (hsized : Sized L w p size) :
    ∃ config minimum, w.config? p = some config ∧ config.validate = .ok minimum ∧
      SizeClass.Apt config.pageSize minimum size := by
  obtain ⟨pool, requested, hp, -, hclass⟩ := hsized
  have hvalid := h p pool hp
  exact ⟨pool.config, pool.minimum, config?_of_pool? hp, hvalid,
    SizeClass.apt_of_ofRequest? hvalid hclass⟩

theorem LicensedStep.measured (h : LicensedStep L w w') (hw : w.Measured) : w'.Measured := by
  refine ⟨h.checked hw.checked, fun b c' hc' => ?_, ?_⟩
  · rw [h.format]
    cases hbefore : w.cells[b]? with
    | some c =>
        obtain ⟨c'', hc'', hdescends⟩ := h.descends hbefore
        obtain rfl := Option.some.inj (hc''.symm.trans hc')
        obtain ⟨config, minimum, hconfig, hvalid, hmeasured⟩ := hw.cells b c hbefore
        exact ⟨config, minimum, h.config? (hdescends.home ▸ hconfig), hvalid,
          hmeasured.congr hdescends.weight⟩
    | none =>
        obtain ⟨p, size, tag, rfl, hsized⟩ := h.born hc' hbefore
        obtain ⟨config, minimum, hconfig, hvalid, hapt⟩ := hw.checked.apt_of_sized hsized
        exact ⟨config, minimum, h.config? hconfig, hvalid, Buffer.measured_of_apt hapt rfl⟩
  · obtain ⟨told, he, htold⟩ := h.told
    intro e hm p size hsize
    rw [he, List.mem_append] at hm
    rcases hm with hm | hm
    · rcases htold e hm p size hsize with hsized | ⟨b, c, hc, rfl, rfl⟩
      · obtain ⟨config, minimum, hconfig, -, hapt⟩ := hw.checked.apt_of_sized hsized
        exact ⟨config, minimum, h.config? hconfig, hapt⟩
      · obtain ⟨config, minimum, hconfig, -, hmeasured⟩ := hw.cells b c hc
        exact ⟨config, minimum, h.config? hconfig, hmeasured.capacity⟩
    · obtain ⟨config, minimum, hconfig, hapt⟩ := hw.events e hm p size hsize
      exact ⟨config, minimum, h.config? hconfig, hapt⟩

theorem LicensedSteps.measured (h : LicensedSteps L w w') (hw : w.Measured) : w'.Measured := by
  induction h with
  | refl => exact hw
  | tail _ hlicensed ih => exact hlicensed.measured ih

theorem measured_empty (profile : Profile) (format : Format) (maker : Supply) (client : σ) :
    (World.empty profile format maker client).Measured :=
  ⟨fun p pool hp => by simp [World.empty, pool?] at hp,
    fun b c hc => by simp [World.empty] at hc, nofun⟩

end World

end BufferPool
