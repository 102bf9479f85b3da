import Mathlib.Algebra.Ring.Nat
import BufferPool.Proofs.Arena.Runs

/-!
# The past of an arena

A ledger keeps what the slots of an arena do not: how often each slot has been vacated, and who has
lived in it since which vacation. The number of vacations is the age of the slot, and a tenant that
moved in at some age has that age as its era. The generation of a slot is its age as a word.

So a key is an era seen through a word. As long as no slot has been vacated as often as a word can
count, different eras have different keys, and a key whose era is over names nothing any more.
-/

namespace BufferPool.Arena

variable {α : Type}

structure Ledger (α : Type) where
  /-- How often a slot has been vacated. -/
  age : Nat → Nat
  /-- Who moved into a slot in which era. -/
  tenant : Nat → Nat → Option α
  tenant_le : ∀ i e v, tenant i e = some v → e ≤ age i

namespace Ledger

def blank : Ledger α := ⟨fun _ => 0, fun _ _ => none, nofun⟩

/-- The ledger in which some slots have been vacated once more. -/
def vacate (l : Ledger α) (slots : List Nat) : Ledger α where
  age i := if i ∈ slots then l.age i + 1 else l.age i
  tenant := l.tenant
  tenant_le i e v h := by
    have := l.tenant_le i e v h
    split_ifs <;> omega

/-- The ledger in which a value has moved into a slot. -/
def settle (l : Ledger α) (slot : Nat) (value : α) : Ledger α where
  age := l.age
  tenant i e := if i = slot ∧ e = l.age slot then some value else l.tenant i e
  tenant_le i e v h := by
    split_ifs at h with hi
    · obtain ⟨rfl, rfl⟩ := hi
      exact Nat.le_refl _
    · exact l.tenant_le i e v h

/-- Occupied slots have been vacated, each at most once, and nobody has moved in. -/
structure Vacates (l l' : Ledger α) : Prop where
  tenant : l'.tenant = l.tenant
  age : ∀ i, l'.age i = l.age i ∨ l'.age i = l.age i + 1 ∧ (l.tenant i (l.age i)).isSome

/-- Values have moved in, and no slot has been vacated. -/
structure Settles (l l' : Ledger α) : Prop where
  tenant : ∀ i e v, l.tenant i e = some v → l'.tenant i e = some v
  age : l'.age = l.age

theorem Vacates.refl (l : Ledger α) : l.Vacates l := ⟨rfl, fun _ => .inl rfl⟩

theorem Settles.refl (l : Ledger α) : l.Settles l := ⟨fun _ _ _ h => h, rfl⟩

/-- A slot that was vacated has no tenant who could leave. -/
theorem Vacates.trans {l l' l'' : Ledger α} (h : l.Vacates l') (h' : l'.Vacates l'') :
    l.Vacates l'' := by
  refine ⟨h'.tenant.trans h.tenant, fun i => ?_⟩
  have hmid := h.age i
  have hend := h'.age i
  rw [h.tenant] at hend
  rcases hmid with hmid | ⟨hmid, hocc⟩
  · rw [hmid] at hend
    exact hend
  · rcases hend with hend | ⟨-, hend⟩
    · exact .inr ⟨hend.trans hmid, hocc⟩
    · rw [hmid] at hend
      obtain ⟨v, hv⟩ := Option.isSome_iff_exists.1 hend
      have := l.tenant_le i _ v hv
      omega

theorem Settles.trans {l l' l'' : Ledger α} (h : l.Settles l') (h' : l'.Settles l'') :
    l.Settles l'' :=
  ⟨fun i e v hv => h'.tenant i e v (h.tenant i e v hv), h'.age.trans h.age⟩

theorem vacates_vacate {l : Ledger α} {slots : List Nat}
    (h : ∀ i ∈ slots, (l.tenant i (l.age i)).isSome) : l.Vacates (l.vacate slots) := by
  refine ⟨rfl, fun i => ?_⟩
  by_cases hi : i ∈ slots
  · exact .inr ⟨if_pos hi, h i hi⟩
  · exact .inl (if_neg hi)

theorem settles_settle {l : Ledger α} {slot : Nat} {value : α}
    (h : l.tenant slot (l.age slot) = none) : l.Settles (l.settle slot value) := by
  refine ⟨fun i e v hv => ?_, rfl⟩
  change (if i = slot ∧ e = l.age slot then some value else l.tenant i e) = some v
  rw [if_neg, hv]
  intro hi
  rw [hi.1, hi.2, h] at hv
  exact nomatch hv

end Ledger

/-- The arena is what the ledger says it is now. -/
structure Recorded (l : Ledger α) (a : Arena α) : Prop where
  absent : ∀ i, a.slots.size ≤ i → l.age i = 0 ∧ ∀ e, l.tenant i e = none
  generation : ∀ i g, a.generationAt? i = some g → g = UInt64.ofNat (l.age i)
  tenant : ∀ i, i < a.slots.size → l.tenant i (l.age i) = (a.tenantAt? i).map (·.2.1)

theorem isSome_generationAt? {a : Arena α} {i : Nat} :
    (a.generationAt? i).isSome ↔ i < a.slots.size := by
  rw [generationAt?, Option.isSome_map, Option.isSome_iff_exists]
  constructor
  · intro h
    obtain ⟨slot, hs⟩ := h
    exact (Array.getElem?_eq_some_iff.1 hs).choose
  · intro h
    exact ⟨_, Array.getElem?_eq_getElem h⟩

theorem recorded_empty : Recorded (.blank : Ledger α) empty :=
  ⟨fun _ _ => ⟨rfl, fun _ => rfl⟩, fun i g h => by simp [generationAt?, empty] at h,
    fun i h => absurd h (Nat.not_lt_zero i)⟩

/-- A key that names something names the tenant of the present era. -/
theorem Recorded.place? {l : Ledger α} {a : Arena α} (h : Recorded l a) {key : Key} {value : α}
    {lane : Option Lane} (hp : a.place? key = some (value, lane)) :
    l.tenant key.index (l.age key.index) = some value ∧
      key.generation = UInt64.ofNat (l.age key.index) := by
  obtain ⟨node, hn, -⟩ := place?_eq_some_iff.1 hp
  have hlt := lt_size_of_nodeAt? (nodeAt?_of_node? hn)
  have hs := node?_eq_some_iff.1 hn
  constructor
  · rw [h.tenant _ hlt, tenantAt?_eq_some_iff.2 ⟨rfl, hp⟩]
    rfl
  · exact h.generation key.index key.generation (by rw [generationAt?, hs]; rfl)

/-- The tenant of the present era is named by the present key. -/
theorem Recorded.tenant_present {l : Ledger α} {a : Arena α} (h : Recorded l a) {i : Nat} {value : α}
    (ht : l.tenant i (l.age i) = some value) :
    ∃ lane, a.place? ⟨i, UInt64.ofNat (l.age i)⟩ = some (value, lane) := by
  have hlt : i < a.slots.size := by
    by_contra hge
    rw [(h.absent i (Nat.le_of_not_lt hge)).2] at ht
    exact nomatch ht
  rw [h.tenant i hlt, Option.map_eq_some_iff] at ht
  obtain ⟨⟨key, v, lane⟩, hk, rfl⟩ := ht
  obtain ⟨rfl, hp⟩ := tenantAt?_eq_some_iff.1 hk
  have hkey : key = ⟨key.index, UInt64.ofNat (l.age key.index)⟩ := by
    rw [← (h.place? hp).2]
  exact ⟨lane, hkey ▸ hp⟩

/-- Two eras of a slot that was not vacated too often have different generations. -/
theorem ofNat_era_inj {e e' : Nat} (he : e < 2 ^ 64) (he' : e' < 2 ^ 64)
    (h : UInt64.ofNat e = UInt64.ofNat e') : e = e' := by
  have hn := congrArg UInt64.toNat h
  rw [UInt64.toNat_ofNat', UInt64.toNat_ofNat', Nat.mod_eq_of_lt he, Nat.mod_eq_of_lt he'] at hn
  exact hn

/-- A key that was issued in some era names its own value or nothing, and nothing after the era. -/
theorem Recorded.place?_of_era {l : Ledger α} {a : Arena α} (h : Recorded l a) {i e : Nat} {v : α}
    (hv : l.tenant i e = some v) (hage : l.age i < 2 ^ 64) {value : α} {lane : Option Lane}
    (hp : a.place? ⟨i, UInt64.ofNat e⟩ = some (value, lane)) : e = l.age i ∧ value = v := by
  obtain ⟨ht, hg⟩ := h.place? hp
  have hle := l.tenant_le i e v hv
  have he : e = l.age i := ofNat_era_inj (by omega) hage hg
  rw [he] at hv
  exact ⟨he, Option.some.inj (ht.symm.trans hv)⟩

theorem Relinked.recorded {f : Nat → Node α → Node α} {a a' : Arena α} {index : Nat}
    {lane : Option Lane} {l : Ledger α} (hr : Relinked f a a') (hm : Moves f index lane)
    (h : Recorded l a) : Recorded l a' := by
  refine ⟨fun i hi => h.absent i (hr.size ▸ hi), fun i g hg => ?_, fun i hi => ?_⟩
  · rw [hr.generationAt?] at hg
    exact h.generation i g hg
  · rw [hr.size] at hi
    rw [h.tenant i hi, hr.tenantAt? hm, Option.map_map]
    rfl

theorem Cleared.recorded {a a' : Arena α} {keys : List Key} {l : Ledger α} (hc : a.Cleared keys a')
    (h : Recorded l a) :
    Recorded (l.vacate (keys.map (·.index))) a' ∧ l.Vacates (l.vacate (keys.map (·.index))) := by
  have hocc : ∀ i ∈ keys.map (·.index), (l.tenant i (l.age i)).isSome ∧ i < a.slots.size := by
    intro i hi
    obtain ⟨key, hk, rfl⟩ := List.mem_map.1 hi
    obtain ⟨⟨value, lane⟩, hp⟩ := hc.live key hk
    obtain ⟨node, hn, -⟩ := place?_eq_some_iff.1 hp
    rw [(h.place? hp).1]
    exact ⟨rfl, lt_size_of_nodeAt? (nodeAt?_of_node? hn)⟩
  refine ⟨⟨fun i hi => ?_, fun i g hg => ?_, fun i hi => ?_⟩,
    Ledger.vacates_vacate fun i hi => (hocc i hi).1⟩
  · rw [hc.size] at hi
    have hnot : i ∉ keys.map (·.index) := fun hmem => absurd (hocc i hmem).2 (Nat.not_lt.2 hi)
    simp only [Ledger.vacate, if_neg hnot]
    exact h.absent i hi
  · rw [hc.generationAt?, Option.map_eq_some_iff] at hg
    obtain ⟨g₀, hg₀, rfl⟩ := hg
    rw [h.generation i g₀ hg₀]
    simp only [Ledger.vacate]
    split_ifs
    · rw [UInt64.ofNat_add]
      rfl
    · rfl
  · rw [hc.size] at hi
    rw [hc.tenantAt?]
    simp only [Ledger.vacate]
    split_ifs with hmem
    · cases ht : l.tenant i (l.age i + 1) with
      | none => rfl
      | some v =>
          have := l.tenant_le i _ v ht
          omega
    · exact h.tenant i hi

theorem Registered.recorded {a a' : Arena α} {value : α} {key : Key} {l : Ledger α}
    (hr : a.Registered value key a') (hsize : a'.slots.size = max a.slots.size (key.index + 1))
    (hkey : key.index ≤ a.slots.size) (h : Recorded l a) :
    Recorded (l.settle key.index value) a' ∧ l.Settles (l.settle key.index value) ∧
      key.generation = UInt64.ofNat (l.age key.index) := by
  have hgen : key.generation = UInt64.ofNat (l.age key.index) := by
    rw [hr.generation]
    cases hg : a.generationAt? key.index with
    | none =>
        have hge : a.slots.size ≤ key.index := by
          rw [← Nat.not_lt, ← isSome_generationAt?, hg]
          exact Bool.false_ne_true
        rw [(h.absent _ hge).1]
        rfl
    | some g => exact h.generation _ g hg
  have htenant : l.tenant key.index (l.age key.index) = none := by
    by_cases hlt : key.index < a.slots.size
    · rw [h.tenant _ hlt]
      cases ht : a.tenantAt? key.index with
      | none => rfl
      | some t =>
          obtain ⟨k, v, lane⟩ := t
          obtain ⟨hki, hp⟩ := tenantAt?_eq_some_iff.1 ht
          obtain ⟨node, hn, -⟩ := place?_eq_some_iff.1 hp
          have hat := nodeAt?_of_node? hn
          rw [hki, hr.vacant] at hat
          exact nomatch hat
    · exact (h.absent _ (Nat.le_of_not_lt hlt)).2 _
  have hother : ∀ i, i ≠ key.index → a'.slots[i]? = a.slots[i]? := fun i hi => by
    rw [hr.slots, if_neg hi]
  refine ⟨⟨fun i hi => ?_, fun i g hg => ?_, fun i hi => ?_⟩, Ledger.settles_settle htenant, hgen⟩
  · have hne : i ≠ key.index := by omega
    obtain ⟨hage, hnone⟩ := h.absent i (by omega)
    refine ⟨hage, fun e => ?_⟩
    simp only [Ledger.settle, hne, false_and, if_false]
    exact hnone e
  · by_cases hi : i = key.index
    · subst hi
      rw [generationAt?, hr.slots, if_pos rfl] at hg
      rw [← Option.some.inj hg]
      exact hgen
    · rw [generationAt?, hother i hi] at hg
      exact h.generation i g hg
  · by_cases hi' : i = key.index
    · subst hi'
      have hnew := hr.place? key
      rw [if_pos rfl] at hnew
      rw [tenantAt?_eq_some_iff.2 ⟨rfl, hnew⟩]
      simp only [Ledger.settle, and_self, if_true, Option.map_some]
    · have ht : a'.tenantAt? i = a.tenantAt? i := by
        rw [tenantAt?, tenantAt?, occupantAt?, occupantAt?, hother i hi']
      rw [ht, ← h.tenant i (by omega)]
      simp only [Ledger.settle, hi', false_and, if_false]

end BufferPool.Arena
