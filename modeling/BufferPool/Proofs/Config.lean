import Mathlib.Tactic.SplitIfs
import BufferPool.Config

/-!
# Acceptable sizes

A configuration is accepted if its smallest capacity is not zero, and that and its limit are multiples of
the page size. Whatever the page size is, the sizes are looked at in this order, and the first one that is
not acceptable is named. A page size of zero accepts nothing, because the smallest capacity would have to
be zero, too.
-/

namespace BufferPool.Config

variable {c : Config} {minimum : UInt64}

theorem requirePageAligned_of_ne_zero {pageSize : UInt64} (h : pageSize ≠ 0) (parameter : String)
    (value : UInt64) : requirePageAligned pageSize parameter value =
      if value % pageSize = 0 then .ok () else .error (.notPageAligned parameter value pageSize) := by
  simp only [requirePageAligned, ne_eq, h, not_false_eq_true, true_and]

/-- The sizes are looked at in this order. -/
theorem validate_eq (c : Config) : c.validate =
    if c.minimum.getD c.pageSize = 0 then .error .zeroMinimum
    else if c.minimum.getD c.pageSize % c.pageSize = 0 then
      if c.limit % c.pageSize = 0 then .ok (c.minimum.getD c.pageSize)
      else .error (.notPageAligned "limit_size" c.limit c.pageSize)
    else .error (.notPageAligned "min_elem_size" (c.minimum.getD c.pageSize) c.pageSize) := by
  unfold validate
  dsimp only
  by_cases hpage : c.pageSize = 0
  · rw [hpage, UInt64.mod_zero, UInt64.mod_zero]
    split_ifs <;> rfl
  · rw [requirePageAligned_of_ne_zero hpage, requirePageAligned_of_ne_zero hpage]
    split_ifs <;> rfl

/-- What an accepted configuration has passed. -/
theorem validate_eq_ok (h : c.validate = .ok minimum) :
    minimum ≠ 0 ∧ minimum % c.pageSize = 0 := by
  rw [validate_eq] at h
  split_ifs at h with hzero haligned hlimit
  obtain rfl := Except.ok.inj h
  exact ⟨hzero, haligned⟩

end BufferPool.Config
