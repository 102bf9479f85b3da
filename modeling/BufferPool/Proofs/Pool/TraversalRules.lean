import BufferPool.Proofs.World.Triple

/-!
# Rules for traversals

A traversal is a loop over what it has captured. What the visitor needs may depend on what is still to
be visited; what is captured is let go of in the end, also behind a fault.
-/

namespace BufferPool.Pool

open PoolM World

variable {σ α : Type} {p : PoolId} {I E : World σ → Prop} {Q : α → World σ → Prop}
  {visit : α → Handle → PoolM σ (Bool × α)}

/-- The loop rule: an invariant of the handles that are left, of what the visitor carries along and of
the world. -/
theorem triple_visitAll {P : List Handle → α → World σ → Prop}
    (hv : ∀ a h rest, Triple (P (h :: rest) a) (visit a h)
      (fun r w => P rest r.2 w ∧ (r.1 = false → Q r.2 w)) E)
    (hnil : ∀ a w, P [] a w → Q a w) (handles : List Handle) (a : α) :
    Triple (P handles a) (visitAll visit a handles) (fun r => Q r.2) E := by
  induction handles generalizing a with
  | nil => exact .pure (hnil a)
  | cons h rest ih =>
      apply (hv a h rest).bind
      rintro ⟨more, a'⟩
      dsimp only
      split_ifs with hmore
      · exact (ih a').pre fun w hw => hw.1
      · exact .pure fun w hw => hw.2 (Bool.eq_false_of_not_eq_true hmore)

theorem triple_expect (met : Bool) (expectation : Expectation) :
    Triple I (expect met expectation) (fun _ => I) I := by
  intro w hw
  rcases expect_cases met expectation w with h | h
  · rw [h]
    exact hw
  · rw [h]
    exact hw

theorem triple_count (lane : Lane) :
    Triple I (count p lane)
      (fun n w => I w ∧ ∃ pool, w.pool? p = some pool ∧ pool.arena.count lane = n) I := by
  intro w hw
  cases hp : w.pool? p with
  | none =>
      rw [count, bind_of_error _ (getPool_of_none hp)]
      exact hw
  | some pool =>
      rw [count, bind_of_ok _ (getPool_of_some hp)]
      exact ⟨hw, pool, hp, rfl⟩

/-- The lane that a route leads over. -/
def Route.target : Route → Lane
  | full => .full
  | free => .free
  | lane l => l

section Traversal

variable {P : List Handle → List Handle → α → World σ → Prop} {F : List Handle → World σ → Prop}
  {start : α}

/-- `P` is told all the handles that were captured, and those that are left. -/
theorem triple_traverse {lane : Lane} {dir : Direction}
    (hcapture : Triple I (capture p lane dir)
      (fun handles w => P handles handles start
        (w.emit (.noted p (.traversing lane dir handles.length)))) E)
    (hv : ∀ handles a h rest, Triple (P handles (h :: rest) a) (visit a h)
      (fun r w => P handles rest r.2 w ∧ (r.1 = false → Q r.2 w.letGo)) (F handles))
    (hnil : ∀ handles a w, P handles [] a w → Q a w.letGo)
    (hfault : ∀ handles w, F handles w → E w.letGo) :
    Triple I (traverse p lane dir visit start) (fun r => Q r.2) E := by
  apply hcapture.bind
  intro handles
  refine Triple.ensuring (Q := fun r w => Q r.2 w.letGo) ?_ (fun _ _ hw => hw) (hfault handles)
  refine Triple.bind (Q := fun _ => P handles handles start) (fun w hw => hw) fun _ => ?_
  exact triple_visitAll (Q := fun a w => Q a w.letGo) (hv handles) (hnil handles) handles start

/-- A walk over the full lane ends at once if the lane is empty. -/
theorem triple_travel {route : Route} {dir : Direction} (hI : ∀ w, I w → E w)
    (hempty : ∀ w pool, I w → w.pool? p = some pool → pool.arena.count route.target = 0 → Q start w)
    (hcapture : Triple I (capture p route.target dir)
      (fun handles w => P handles handles start
        (w.emit (.noted p (.traversing route.target dir handles.length)))) E)
    (hv : ∀ handles a h rest, Triple (P handles (h :: rest) a) (visit a h)
      (fun r w => P handles rest r.2 w ∧ (r.1 = false → Q r.2 w.letGo)) (F handles))
    (hnil : ∀ handles a w, P handles [] a w → Q a w.letGo)
    (hfault : ∀ handles w, F handles w → E w.letGo) :
    Triple I (travel p route dir visit start) (fun r => Q r.2) E := by
  have hwalk : Triple I (traverse p route.target dir visit start) (fun r => Q r.2) E :=
    triple_traverse hcapture hv hnil hfault
  cases route with
  | full =>
      refine Triple.bind ((triple_count .full).fault hI) fun n => ?_
      split_ifs with hn
      · refine .pure fun w hw => ?_
        obtain ⟨pool, hp, hcount⟩ := hw.2
        exact hempty w pool hw.1 hp (hcount.trans hn)
      · exact Triple.bind (hwalk.pre fun _ hw => hw.1) fun _ => .pure fun _ hw => hw
  | free =>
      refine Triple.bind ((triple_count .free).fault hI) fun n => ?_
      refine Triple.bind ((triple_expect _ _).weaken (fun _ hw => hw.1) (fun _ _ hw => hw) hI)
        fun _ => ?_
      exact Triple.bind hwalk fun _ => .pure fun _ hw => hw
  | lane lane => exact Triple.bind hwalk fun _ => .pure fun _ hw => hw

end Traversal

end BufferPool.Pool
