import BufferPool.Proofs.World.Quiet

/-!
# Buffers and references

What the operations on single cells do to the buffers and to the numbers of references. Counting
references never touches a buffer, and changing a buffer never touches a count.
-/

namespace BufferPool

variable {σ : Type}

namespace World

theorem buffer_congr {w w' : World σ} {b : BufferId} (h : w'.cells[b]? = w.cells[b]?) :
    w'.buffer b = w.buffer b := by
  rw [buffer, h, buffer]

theorem refs_congr {w w' : World σ} {b : BufferId} (h : w'.cells[b]? = w.cells[b]?) :
    w'.refs b = w.refs b := by
  rw [refs, h, refs]

theorem buffer_of_cells {w w' : World σ} (h : w'.cells = w.cells) (b : BufferId) :
    w'.buffer b = w.buffer b :=
  buffer_congr (congrArg (·[b]?) h)

theorem refs_of_cells {w w' : World σ} (h : w'.cells = w.cells) (b : BufferId) :
    w'.refs b = w.refs b :=
  refs_congr (congrArg (·[b]?) h)

@[simp] theorem buffer_retain (w : World σ) (b b' : BufferId) :
    (w.retain b).buffer b' = w.buffer b' := by
  have hmap : (w.retain b).cells[b']?.map (·.buffer) = w.cells[b']?.map (·.buffer) := by
    rw [getElem?_retain]
    exact map_ite_map (by intro; rfl) _
  rw [buffer, hmap, buffer]

@[simp] theorem buffer_drop (w : World σ) (b b' : BufferId) : (w.drop b).buffer b' = w.buffer b' := by
  have hmap : (w.drop b).cells[b']?.map (·.buffer) = w.cells[b']?.map (·.buffer) := by
    rw [getElem?_drop]
    exact map_ite_map (by intro; rfl) _
  rw [buffer, hmap, buffer]

/-- A buffer that somebody owns is there. -/
theorem lt_size_of_owner {w : World σ} {b : BufferId} {t : Thread}
    (h : (w.buffer b).owner = some t) : b < w.cells.size := by
  apply Nat.lt_of_not_le
  intro hb
  rw [buffer, Array.getElem?_eq_none hb] at h
  exact nomatch h

theorem refs_retain_of_ne (w : World σ) {b b' : BufferId} (h : b' ≠ b) :
    (w.retain b).refs b' = w.refs b' := by
  rw [refs, getElem?_retain, if_neg h, refs]

theorem refs_retain_self {w : World σ} {b : BufferId} (h : b < w.cells.size) :
    (w.retain b).refs b = w.refs b + 1 := by
  rw [refs, getElem?_retain, if_pos rfl, refs, Array.getElem?_eq_getElem h]
  rfl

theorem refs_le_retain (w : World σ) (b b' : BufferId) : w.refs b' ≤ (w.retain b).refs b' := by
  rw [refs, refs, getElem?_retain]
  split_ifs
  · cases w.cells[b']? with
    | none => exact Nat.le_refl _
    | some c => exact Nat.le_succ _
  · exact Nat.le_refl _

theorem refs_drop_of_ne (w : World σ) {b b' : BufferId} (h : b' ≠ b) :
    (w.drop b).refs b' = w.refs b' := by
  rw [refs, getElem?_drop, if_neg h, refs]

theorem buffer_modifyBuffer_of_ne (w : World σ) {b b' : BufferId} (f : Buffer → Buffer)
    (h : b' ≠ b) : (w.modifyBuffer b f).buffer b' = w.buffer b' := by
  rw [buffer, getElem?_modifyBuffer, if_neg h, buffer]

theorem buffer_modifyBuffer_self {w : World σ} {b : BufferId} (f : Buffer → Buffer)
    (h : b < w.cells.size) : (w.modifyBuffer b f).buffer b = f (w.buffer b) := by
  rw [buffer, getElem?_modifyBuffer, if_pos rfl, buffer, Array.getElem?_eq_getElem h]
  rfl

@[simp] theorem refs_modifyBuffer (w : World σ) (b b' : BufferId) (f : Buffer → Buffer) :
    (w.modifyBuffer b f).refs b' = w.refs b' := by
  have hmap : (w.modifyBuffer b f).cells[b']?.map (·.refs) = w.cells[b']?.map (·.refs) := by
    rw [getElem?_modifyBuffer]
    exact map_ite_map (by intro; rfl) _
  rw [refs, hmap, refs]

@[simp] theorem size_retain (w : World σ) (b : BufferId) :
    (w.retain b).cells.size = w.cells.size := by
  simp [retain]

@[simp] theorem size_modifyBuffer (w : World σ) (b : BufferId) (f : Buffer → Buffer) :
    (w.modifyBuffer b f).cells.size = w.cells.size := by
  simp [modifyBuffer]

@[simp] theorem size_drop (w : World σ) (b : BufferId) : (w.drop b).cells.size = w.cells.size := by
  unfold drop
  cases w.cells[b]? with
  | none => rfl
  | some c =>
      dsimp only
      split_ifs <;> simp [emit]

theorem buffer_foldl_retain (w : World σ) (handles : List Handle) (b : BufferId) :
    (handles.foldl (fun w h => w.retain h.buffer) w).buffer b = w.buffer b := by
  induction handles generalizing w with
  | nil => rfl
  | cons h rest ih =>
      rw [List.foldl_cons, ih, buffer_retain]

theorem refs_le_foldl_retain (w : World σ) (handles : List Handle) (b : BufferId) :
    w.refs b ≤ (handles.foldl (fun w h => w.retain h.buffer) w).refs b := by
  induction handles generalizing w with
  | nil => exact Nat.le_refl _
  | cons h rest ih =>
      rw [List.foldl_cons]
      exact Nat.le_trans (refs_le_retain w h.buffer b) (ih _)

theorem buffer_dropAll (w : World σ) (handles : List Handle) (b : BufferId) :
    (w.dropAll handles).buffer b = w.buffer b := by
  induction handles generalizing w with
  | nil => rfl
  | cons h rest ih =>
      change ((w.drop h.buffer).dropAll rest).buffer b = _
      rw [ih, buffer_drop]

theorem refs_dropAll_of_notMem (w : World σ) {handles : List Handle} {b : BufferId}
    (h : ∀ g ∈ handles, g.buffer ≠ b) : (w.dropAll handles).refs b = w.refs b := by
  induction handles generalizing w with
  | nil => rfl
  | cons g rest ih =>
      change ((w.drop g.buffer).dropAll rest).refs b = _
      rw [ih _ fun g' hg' => h g' (List.mem_cons_of_mem _ hg'),
        refs_drop_of_ne _ (h g List.mem_cons_self).symm]

end World

end BufferPool
