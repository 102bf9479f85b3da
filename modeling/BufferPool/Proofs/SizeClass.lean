import Mathlib.Algebra.Ring.Nat
import Mathlib.Tactic.SplitIfs
import BufferPool.SizeClass

/-!
# Which sizes a class covers

A class is at least as large as the smallest one and covers every request that it serves.
-/

namespace BufferPool.SizeClass

theorem toNat_maximum : maximum.toNat = 2 ^ 63 - 1 := rfl

/-- A doubling that is made does not leave the word. -/
theorem toNat_double {size : UInt64} (h : size ≤ maximum) : (size * 2).toNat = size.toNat * 2 := by
  have hmax : size.toNat ≤ maximum.toNat := h
  rw [toNat_maximum] at hmax
  rw [UInt64.toNat_mul]
  change size.toNat * 2 % 2 ^ 64 = _
  omega

theorem le_double {size : UInt64} (h : size ≤ maximum) : size ≤ size * 2 := by
  rw [UInt64.le_iff_toNat_le, toNat_double h]
  omega

theorem cover_le {requested size capacity : UInt64} {steps : Nat}
    (h : cover requested steps size = some capacity) : requested ≤ capacity ∧ size ≤ capacity := by
  induction steps generalizing size with
  | zero => exact nomatch h
  | succ steps ih =>
      unfold cover at h
      split_ifs at h with hcovered hroom
      · rw [← Option.some.inj h]
        exact ⟨hcovered, UInt64.le_refl size⟩
      · obtain ⟨hrequested, hdouble⟩ := ih h
        exact ⟨hrequested, UInt64.le_trans (le_double hroom) hdouble⟩

/-- A class is the smallest one, doubled so many times. -/
theorem cover_eq_mul {requested size capacity : UInt64} {steps : Nat}
    (h : cover requested steps size = some capacity) :
    ∃ k, capacity.toNat = size.toNat * 2 ^ k := by
  induction steps generalizing size with
  | zero => exact nomatch h
  | succ steps ih =>
      unfold cover at h
      split_ifs at h with hcovered hroom
      · exact ⟨0, by rw [← Option.some.inj h, Nat.pow_zero, Nat.mul_one]⟩
      · obtain ⟨k, hk⟩ := ih h
        exact ⟨k + 1, by rw [hk, toNat_double hroom, Nat.mul_assoc, ← Nat.pow_succ']⟩

/-- A class covers the request and the smallest class. -/
theorem le_of_ofRequest? {requested minimum capacity : UInt64}
    (h : ofRequest? requested minimum = some capacity) :
    requested ≤ capacity ∧ minimum ≤ capacity := by
  unfold ofRequest? at h
  split_ifs at h
  exact cover_le (Option.filter_eq_some_iff.1 h).1

/-- A class is a doubling of the smallest one that is still a signed word. -/
theorem eq_mul_of_ofRequest? {requested minimum capacity : UInt64}
    (h : ofRequest? requested minimum = some capacity) :
    (∃ k, capacity.toNat = minimum.toNat * 2 ^ k) ∧ capacity ≤ maximum := by
  unfold ofRequest? at h
  split_ifs at h
  obtain ⟨hcover, hle⟩ := Option.filter_eq_some_iff.1 h
  exact ⟨cover_eq_mul hcover, of_decide_eq_true hle⟩

theorem le_atLeast (requested minimum : UInt64) : requested ≤ atLeast requested minimum := by
  unfold atLeast
  split_ifs with h
  · exact h
  · exact UInt64.le_refl requested

theorem minimum_le_atLeast (requested minimum : UInt64) :
    minimum ≤ atLeast requested minimum := by
  unfold atLeast
  split_ifs with h
  · exact UInt64.le_refl minimum
  · exact UInt64.le_of_lt (UInt64.not_le.1 h)

theorem atLeast_of_le {requested minimum : UInt64} (h : requested ≤ minimum) :
    atLeast requested minimum = minimum :=
  if_pos h

/-- Raising a request twice is raising it once. -/
theorem atLeast_atLeast (requested minimum : UInt64) :
    atLeast (atLeast requested minimum) minimum = atLeast requested minimum := by
  unfold atLeast
  by_cases h : requested ≤ minimum
  · rw [if_pos h, if_pos (UInt64.le_refl minimum)]
  · rw [if_neg h, if_neg h]

/-- Raising a request to the smallest class does not change its class. -/
theorem ofRequest?_atLeast (requested minimum : UInt64) :
    ofRequest? (atLeast requested minimum) minimum = ofRequest? requested minimum := by
  have hcover : ∀ r, r ≤ minimum → cover r 65 minimum = some minimum := fun r hr => by
    unfold cover
    exact if_pos hr
  unfold atLeast
  split_ifs with h
  · unfold ofRequest?
    rw [hcover requested h, hcover minimum (UInt64.le_refl minimum)]
    by_cases hroom : minimum ≤ maximum
    · rw [if_pos hroom, if_pos (UInt64.le_trans h hroom)]
    · have hnone : (some minimum).filter (· ≤ maximum) = none := by simp [Option.filter, hroom]
      rw [if_neg hroom, hnone, ite_self]
  · rfl

/-- A request for the smallest class is one for the smallest class. -/
theorem ofRequest?_self {minimum : UInt64} (hle : minimum ≤ maximum) :
    ofRequest? minimum minimum = some minimum := by
  have hcover : cover minimum 65 minimum = some minimum := if_pos (UInt64.le_refl minimum)
  rw [ofRequest?, if_pos hle, hcover, Option.filter_some, decide_eq_true hle]
  rfl

end BufferPool.SizeClass
