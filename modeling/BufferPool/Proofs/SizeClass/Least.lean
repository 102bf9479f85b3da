import Mathlib.Order.Bounds.Basic
import BufferPool.Proofs.SizeClass

/-!
# The least class

The classes of a smallest class `minimum` are the numbers `minimum * 2 ^ k`. This module compares
the search among words with them: the search ends by itself, and what it finds is the least class,
in exact arithmetic, that covers the request and does not exceed the maximum.
-/

namespace BufferPool.SizeClass

/-- The search from `size` on, with no bound on the number of doublings: `size` already covers the
request, or it is doubled and the search goes on, or its double is not a word. -/
inductive Seeks (requested : UInt64) : UInt64 → Option UInt64 → Prop
  | covered {size : UInt64} : requested ≤ size → Seeks requested size (some size)
  | doubled {size : UInt64} {found : Option UInt64} :
      size < requested → size ≤ maximum → Seeks requested (size * 2) found →
        Seeks requested size found
  | spent {size : UInt64} : size < requested → maximum < size → Seeks requested size none

/-- The number `n` is a class of `minimum` that may serve the request. -/
def Serves (requested minimum : UInt64) (n : Nat) : Prop :=
  (∃ k, n = minimum.toNat * 2 ^ k) ∧ requested.toNat ≤ n ∧ n ≤ maximum.toNat

/-- The search that counts its steps ends as the one that does not, when the steps suffice to leave
the word. -/
theorem seeks_cover {requested size : UInt64} {steps : Nat}
    (h : 2 ^ 64 ≤ size.toNat * 2 ^ steps) : Seeks requested size (cover requested steps size) := by
  induction steps generalizing size with
  | zero =>
      have hword := size.toNat_lt
      omega
  | succ steps ih =>
      unfold cover
      split_ifs with hcovered hroom
      · exact .covered hcovered
      · refine .doubled (UInt64.not_le.1 hcovered) hroom (ih ?_)
        rw [toNat_double hroom, Nat.mul_assoc, ← Nat.pow_succ']
        exact h
      · exact .spent (UInt64.not_le.1 hcovered) (UInt64.not_le.1 hroom)

/-- From a word that is not zero, 65 steps suffice. -/
theorem seeks_cover_sixtyFive (requested : UInt64) {minimum : UInt64} (h : minimum ≠ 0) :
    Seeks requested minimum (cover requested 65 minimum) := by
  have hpos : minimum.toNat ≠ 0 := fun hzero => h (UInt64.toNat_inj.1 hzero)
  exact seeks_cover (by omega)

/-- What a search finds is the least of the doublings that cover the request. -/
theorem Seeks.le_mul {requested size capacity : UInt64} {k : Nat}
    (h : Seeks requested size (some capacity)) (hcovers : requested.toNat ≤ size.toNat * 2 ^ k) :
    capacity.toNat ≤ size.toNat * 2 ^ k := by
  generalize hfound : some capacity = found at h
  induction h generalizing k with
  | covered =>
      rw [Option.some.inj hfound]
      exact Nat.le_mul_of_pos_right _ (Nat.two_pow_pos k)
  | @doubled size found hless hroom _ ih =>
      have hshort : size.toNat < requested.toNat := hless
      cases k with
      | zero => omega
      | succ k =>
          rw [Nat.pow_succ', ← Nat.mul_assoc, ← toNat_double hroom] at hcovers ⊢
          exact ih hcovers hfound
  | spent => exact nomatch hfound

/-- A search without a result leaves only doublings beyond the maximum. -/
theorem Seeks.maximum_lt_mul {requested size : UInt64} {k : Nat} (h : Seeks requested size none)
    (hcovers : requested.toNat ≤ size.toNat * 2 ^ k) : maximum.toNat < size.toNat * 2 ^ k := by
  generalize hfound : (none : Option UInt64) = found at h
  induction h generalizing k with
  | covered => exact nomatch hfound
  | @doubled size found hless hroom _ ih =>
      have hshort : size.toNat < requested.toNat := hless
      cases k with
      | zero => omega
      | succ k =>
          rw [Nat.pow_succ', ← Nat.mul_assoc, ← toNat_double hroom] at hcovers ⊢
          exact ih hcovers hfound
  | spent _ hroom => exact Nat.lt_of_lt_of_le hroom (Nat.le_mul_of_pos_right _ (Nat.two_pow_pos k))

/-- A class that is found serves the request. -/
theorem serves_of_ofRequest? {requested minimum capacity : UInt64}
    (h : ofRequest? requested minimum = some capacity) :
    Serves requested minimum capacity.toNat :=
  ⟨(eq_mul_of_ofRequest? h).1, (le_of_ofRequest? h).1, (eq_mul_of_ofRequest? h).2⟩

/-- Whatever serves the request, the search finds a class that is not larger. -/
theorem ofRequest?_le_of_serves {requested minimum : UInt64} (hmin : minimum ≠ 0) {n : Nat}
    (h : Serves requested minimum n) :
    ∃ capacity, ofRequest? requested minimum = some capacity ∧ capacity.toNat ≤ n := by
  obtain ⟨⟨k, rfl⟩, hcovers, hroom⟩ := h
  have hsigned : requested ≤ maximum := Nat.le_trans hcovers hroom
  have hseeks := seeks_cover_sixtyFive requested hmin
  unfold ofRequest?
  rw [if_pos hsigned]
  cases hcover : cover requested 65 minimum with
  | none =>
      rw [hcover] at hseeks
      have hbeyond := hseeks.maximum_lt_mul hcovers
      omega
  | some capacity =>
      rw [hcover] at hseeks
      have hle := hseeks.le_mul hcovers
      have hfits : capacity ≤ maximum := Nat.le_trans hle hroom
      exact ⟨capacity, by simp [hfits], hle⟩

/-- The class of a request is the least that serves it. -/
theorem ofRequest?_eq_some_iff {requested minimum capacity : UInt64} (hmin : minimum ≠ 0) :
    ofRequest? requested minimum = some capacity ↔
      IsLeast {n | Serves requested minimum n} capacity.toNat := by
  constructor
  · intro h
    refine ⟨serves_of_ofRequest? h, fun n hn => ?_⟩
    obtain ⟨other, hother, hle⟩ := ofRequest?_le_of_serves hmin hn
    rw [Option.some.inj (h.symm.trans hother)]
    exact hle
  · intro h
    obtain ⟨other, hother, hle⟩ := ofRequest?_le_of_serves hmin h.1
    have hge := h.2 (serves_of_ofRequest? hother)
    rw [hother, UInt64.toNat_inj.1 (Nat.le_antisymm hle hge)]

/-- There is no class for a request that nothing serves, and only for such a request. -/
theorem ofRequest?_eq_none_iff {requested minimum : UInt64} (hmin : minimum ≠ 0) :
    ofRequest? requested minimum = none ↔ ∀ n, ¬Serves requested minimum n := by
  constructor
  · intro h n hn
    obtain ⟨_, hsome, _⟩ := ofRequest?_le_of_serves hmin hn
    exact nomatch h.symm.trans hsome
  · intro h
    cases hsome : ofRequest? requested minimum with
    | none => rfl
    | some capacity => exact (h _ (serves_of_ofRequest? hsome)).elim

/-- A class is its own class. -/
theorem ofRequest?_idem {requested minimum capacity : UInt64} (hmin : minimum ≠ 0)
    (h : ofRequest? requested minimum = some capacity) :
    ofRequest? capacity minimum = some capacity := by
  obtain ⟨hmul, _, hroom⟩ := serves_of_ofRequest? h
  rw [ofRequest?_eq_some_iff hmin]
  exact ⟨⟨hmul, Nat.le_refl _, hroom⟩, fun _ hn => hn.2.1⟩

/-- A smaller request has a class whenever a larger one has, and not a larger class. -/
theorem ofRequest?_mono {requested larger minimum capacity : UInt64} (hmin : minimum ≠ 0)
    (hle : requested ≤ larger) (h : ofRequest? larger minimum = some capacity) :
    ∃ lesser, ofRequest? requested minimum = some lesser ∧ lesser ≤ capacity := by
  obtain ⟨hmul, hcovers, hroom⟩ := serves_of_ofRequest? h
  exact ofRequest?_le_of_serves hmin ⟨hmul, Nat.le_trans hle hcovers, hroom⟩

/-- For every request and every smallest class but zero the search ends, and it answers with the
least class, counted exactly, between the request and the maximum, or with none when there is no
class between them. So a class is its own class, smaller requests have classes that are not larger,
where no class at all counts as the largest answer, and raising the request to the smallest class
first makes no difference. -/
theorem ofRequest?_least {minimum : UInt64} (hmin : minimum ≠ 0) (requested : UInt64) :
    (∃ found, Seeks requested minimum found ∧
      ofRequest? requested minimum =
        if requested ≤ maximum then found.filter (· ≤ maximum) else none) ∧
    (∀ capacity, ofRequest? requested minimum = some capacity ↔
      IsLeast {n | Serves requested minimum n} capacity.toNat) ∧
    (ofRequest? requested minimum = none ↔ ∀ n, ¬Serves requested minimum n) ∧
    (∀ capacity, ofRequest? requested minimum = some capacity →
      ofRequest? capacity minimum = some capacity) ∧
    (∀ larger capacity, requested ≤ larger → ofRequest? larger minimum = some capacity →
      ∃ lesser, ofRequest? requested minimum = some lesser ∧ lesser ≤ capacity) ∧
    ofRequest? (atLeast requested minimum) minimum = ofRequest? requested minimum :=
  ⟨⟨_, seeks_cover_sixtyFive requested hmin, rfl⟩, fun _ => ofRequest?_eq_some_iff hmin,
    ofRequest?_eq_none_iff hmin, fun _ => ofRequest?_idem hmin, fun _ _ => ofRequest?_mono hmin,
    ofRequest?_atLeast requested minimum⟩

/-- A smallest class that is no power of two: 12288 doubles to 24576, which serves 20480, and no
doubling of it serves the largest signed size. -/
theorem ofRequest?_least_of_three_pages :
    IsLeast {n | Serves 20480 12288 n} 24576 ∧ ∀ n, ¬Serves maximum 12288 n :=
  ⟨((ofRequest?_least (by decide : (12288 : UInt64) ≠ 0) 20480).2.1 24576).1 (by decide +kernel),
    (ofRequest?_least (by decide : (12288 : UInt64) ≠ 0) maximum).2.2.1.1 (by decide +kernel)⟩

end BufferPool.SizeClass
