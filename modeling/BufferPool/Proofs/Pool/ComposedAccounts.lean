import Mathlib.Tactic.Abel
import BufferPool.Pool.Setup
import BufferPool.Sweep
import BufferPool.Proofs.Pool.Accounts
import BufferPool.Proofs.Pool.TraversalRules

/-!
# The books of larger operations

Pools are set up and closed, producers obtain buffers, and traversals go round over what they have
captured. What a traversal holds is entered in the books until it lets go of it. A visitor may do what
it likes as long as it keeps the books, and a sweep does.
-/

namespace BufferPool

open PoolM World

variable {σ α : Type}

namespace Books

/-- Several more references in hand. -/
def holdAll (k : Books σ) (handles : List Handle) : Books σ :=
  { k with hand := ↑(handles.map (·.buffer)) + k.hand }

/-- A traversal holds some more handles. -/
def enclose (k : Books σ) (handles : List Handle) : Books σ := { k with held := handles :: k.held }

@[simp] theorem holdAll_nil (k : Books σ) : k.holdAll [] = k := by
  rw [holdAll, List.map_nil, Multiset.coe_nil, Multiset.zero_add]

theorem holdAll_cons (k : Books σ) (h : Handle) (rest : List Handle) :
    k.holdAll (h :: rest) = (k.holdAll rest).hold h.buffer := by
  rw [holdAll, List.map_cons, ← Multiset.cons_coe, Multiset.cons_add]
  rfl

theorem holdAll_hold (k : Books σ) (h : Handle) (rest : List Handle) :
    (k.hold h.buffer).holdAll rest = k.holdAll (h :: rest) := by
  rw [holdAll_cons, holdAll, hold, Multiset.add_cons]
  rfl

end Books

namespace World

/-- Dropping does not look at what the client has or operations hold. -/
theorem drop_with (w : World σ) (client : σ) (held : List (List Handle)) (b : BufferId) :
    ({ w with client := client, held := held } : World σ).drop b =
      { w.drop b with client := client, held := held } := by
  unfold drop
  dsimp only
  cases w.cells[b]? with
  | none => rfl
  | some c =>
      dsimp only
      split_ifs <;> rfl

theorem dropAll_with (w : World σ) (client : σ) (held : List (List Handle))
    (handles : List Handle) :
    ({ w with client := client, held := held } : World σ).dropAll handles =
      { w.dropAll handles with client := client, held := held } := by
  induction handles generalizing w with
  | nil => rfl
  | cons h rest ih =>
      change (({ w with client := client, held := held } : World σ).drop h.buffer).dropAll rest = _
      rw [drop_with]
      exact ih (w.drop h.buffer)

variable [Client σ] {w₀ w : World σ} {m : Manner} {k : Books σ}

theorem grips_eq (w : World σ) :
    w.grips = ↑((Client.roots w.client).map (·.buffer)) + ↑(w.held.flatten.map (·.buffer)) := by
  rw [grips, List.map_append, Multiset.coe_add]

/-- What an operation holds is referred to. -/
theorem At.refs_ne_zero_of_held (h : At w₀ m k w) {handle : Handle}
    (hin : handle ∈ k.held.flatten) : w.refs handle.buffer ≠ 0 := by
  apply h.agrees.mem_references_iff.1
  apply mem_references_of_grips
  rw [grips_eq, h.agrees.held]
  exact Multiset.mem_add.2 (.inr (List.mem_map_of_mem hin))

theorem At.retainAll (handles : List Handle) (h : At w₀ m k w)
    (halive : ∀ handle ∈ handles, w.refs handle.buffer ≠ 0) :
    At w₀ m (k.holdAll handles) (handles.foldl (fun w h => w.retain h.buffer) w) := by
  induction handles generalizing k w with
  | nil => exact k.holdAll_nil.symm ▸ h
  | cons handle rest ih =>
      have hone : At w₀ m (k.hold handle.buffer) (w.retain handle.buffer) :=
        h.still (still_retain w handle.buffer)
          (h.agrees.retain (h.agrees.mem_references_iff.2 (halive handle List.mem_cons_self)))
      rw [← Books.holdAll_hold]
      refine ih hone fun other ho => ?_
      have hpos := Nat.pos_of_ne_zero (halive other (List.mem_cons_of_mem _ ho))
      exact Nat.ne_of_gt (Nat.lt_of_lt_of_le hpos (refs_le_retain w handle.buffer other.buffer))

theorem At.dropAll (handles : List Handle) (h : At w₀ m (k.holdAll handles) w) :
    At w₀ m k (w.dropAll handles) := by
  induction handles generalizing w with
  | nil => exact k.holdAll_nil ▸ h
  | cons handle rest ih =>
      rw [Books.holdAll_cons] at h
      exact ih (h.still (still_drop w handle.buffer) h.agrees.drop)

/-- References pass between handles and the hand. -/
theorem At.regrip {k' : Books σ} {client : σ} {held : List (List Handle)} (h : At w₀ m k w)
    (hclient : k'.client = client) (hheld : k'.held = held) (hafloat : k'.afloat = k.afloat)
    (hsum : ({ w with client := client, held := held } : World σ).grips + k'.hand =
      w.grips + k.hand) : At w₀ m k' { w with client := client, held := held } :=
  h.still (.of_arenas (.of_cells rfl (List.suffix_refl _) rfl) (fun _ => rfl) fun _ => rfl)
    (h.agrees.regrip hclient hheld hafloat hsum)

theorem At.enclose {handles : List Handle} (h : At w₀ m k w)
    (halive : ∀ handle ∈ handles, w.refs handle.buffer ≠ 0) :
    At w₀ m (k.enclose handles) (w.hold handles) := by
  have hall := h.retainAll handles halive
  have hq := quiet_foldl_retain w handles
  refine hall.regrip (hq.client.trans h.agrees.client).symm ?_ rfl ?_
  · exact congrArg (handles :: ·) h.agrees.held.symm
  rw [grips_eq, grips_eq, hq.held]
  simp only [List.flatten_cons, List.map_append, ← Multiset.coe_add, Books.enclose, Books.holdAll]
  abel

/-- What was held is let go of, wherever it stands. -/
theorem At.letGo {inner outer : List (List Handle)} {handles : List Handle}
    (h : At w₀ m k w) (hheld : w.held = inner ++ handles :: outer) :
    At w₀ m { k with held := inner ++ outer }
      { w.dropAll handles with held := inner ++ outer } := by
  have hgrip : At w₀ m (({ k with held := inner ++ outer } : Books σ).holdAll handles)
      { w with client := w.client, held := inner ++ outer } := by
    refine h.regrip h.agrees.client.symm rfl rfl ?_
    rw [grips_eq, grips_eq, hheld]
    simp only [List.flatten_append, List.flatten_cons, List.map_append, ← Multiset.coe_add,
      Books.holdAll]
    abel
  have hdrop := hgrip.dropAll
  rw [dropAll_with, ← (quiet_dropAll w handles).client] at hdrop
  exact hdrop

end World

variable [Client σ] {w₀ : World σ} {m : Manner} {k : Books σ} {p : PoolId}

namespace Pool

/-- What is done to a buffer that was obtained keeps its reference in hand, and drops it if it
faults. -/
theorem at_onSome {r : Option Handle} {act : Handle → PoolM σ Unit}
    (h : ∀ handle, Triple (At w₀ .steady (k.hold handle.buffer)) (act handle)
      (fun _ => At w₀ m (k.hold handle.buffer)) (At w₀ m (k.hold handle.buffer))) :
    Triple (Yields w₀ .steady k r) (onSome r act) (Yields w₀ m k) (At w₀ m k) := by
  cases r with
  | none => exact .pure fun _ hw => hw
  | some handle => exact (at_owning (h handle)).bind fun _ => .pure fun _ hw => hw

/-- Nothing is entered in the books for a buffer that was obtained already. -/
theorem at_onSome_idle {r : Option Handle} {act : Handle → PoolM σ Unit}
    (h : ∀ handle, PoolM.Idle (act handle)) :
    Triple (Yields w₀ .steady k r) (onSome r act) (Yields w₀ .steady k) (At w₀ .steady k) :=
  at_onSome fun handle => at_idle (h handle)

variable (size : UInt64) (t : Thread)

theorem at_provide :
    Triple (At w₀ .steady k) (provide p size) (Yields w₀ .steady k) (At w₀ .steady k) :=
  at_idle_bind (idle_getPool p) fun _ => at_allocate _

theorem at_provideAcquired :
    Triple (At w₀ .steady k) (provideAcquired p size t) (Yields w₀ .steady k) (At w₀ .steady k) :=
  (at_provide size).bind fun _ => at_onSome_idle fun h => idle_acquire h.buffer t

theorem at_provideTransient :
    Triple (At w₀ .steady k) (provideTransient p size t) (Yields w₀ .steady k) (At w₀ .steady k) :=
  (at_provideAcquired size t).bind fun _ => at_onSome_idle fun h =>
    (idle_getBuffer _).bind fun _ => (idle_expect _ _).bind fun _ => idle_markTransient h.buffer

theorem at_provideLease :
    Triple (At w₀ .steady k) (provideLease p size t) (Yields w₀ .steady k) (At w₀ .steady k) :=
  (at_provideTransient size t).bind fun _ => at_onSome_idle fun h => idle_markLease h.buffer

theorem at_provideFull :
    Triple (At w₀ .steady k) (provideFull p size t) (Yields w₀ .publishing k)
      (At w₀ .publishing k) :=
  (at_idle (idle_getPool p)).early.bind fun _ => (at_allocateWithin _).early.bind fun _ =>
    at_onSome fun h => (at_idle_bind (idle_acquire h.buffer t) fun _ => at_insert_full h).early

theorem at_provideTransientFull :
    Triple (At w₀ .steady k) (provideTransientFull p size t) (Yields w₀ .publishing k)
      (At w₀ .publishing k) :=
  (at_provideTransient size t).early.bind fun _ => at_onSome fun h => (at_insert_full h).early

theorem at_provideLeaseTo (lane : Lane) :
    Triple (At w₀ .steady k) (provideLeaseTo p lane size t) (Yields w₀ .publishing k)
      (At w₀ .publishing k) :=
  (at_provideLease size t).early.bind fun _ => at_onSome fun h =>
    (at_insert lane h).early.bind fun _ =>
      at_idle ((idle_getBuffer h.buffer).bind fun _ => idle_expect _ _)

theorem at_takeWithin (retries remaining : Nat) :
    Triple (At w₀ .steady k) (takeWithin p size retries t remaining) (Yields w₀ .steady k)
      (At w₀ .steady k) := by
  induction remaining with
  | zero => exact .pure fun _ hw => hw
  | succ n ih =>
      apply (at_find size t).bind
      intro r
      cases r with
      | none => exact (at_note _).bind fun _ => ih
      | some h => exact .pure fun _ hw => hw

theorem at_takeRetrying (retries : Nat) :
    Triple (At w₀ .steady k) (takeRetrying p size retries t) (Yields w₀ .steady k)
      (At w₀ .steady k) :=
  at_idle_bind (idle_getPool p) fun _ => at_idle_bind (idle_expect _ _) fun _ =>
    at_takeWithin size t retries retries

theorem at_takeDetached :
    Triple (At w₀ .steady k) (takeDetached p size t) (Yields w₀ .steady k) (At w₀ .steady k) :=
  (at_find size t).bind fun _ => at_onSome fun h => at_take_out (.inl rfl) h

theorem at_takeToFull :
    Triple (At w₀ .steady k) (takeToFull p size t) (Yields w₀ .publishing k)
      (At w₀ .publishing k) :=
  (at_idle (idle_getPool p)).early.bind fun _ => (at_idle (idle_expect _ _)).early.bind fun _ =>
    (at_find size t).early.bind fun _ => at_onSome fun h =>
      ((at_take_out (.inl rfl) h).bind fun _ => at_insert_full h).early

/-- Nothing has happened yet when a free buffer was looked for in vain. -/
theorem at_obtainFull :
    Triple (At w₀ .steady k) (obtainFull p size t) (Yields w₀ .publishing k)
      (At w₀ .publishing k) := by
  apply (at_idle (idle_getPool p)).early.bind
  intro pool
  dsimp only
  split_ifs
  · apply (at_takeToFull _ t).bind
    intro r
    cases r with
    | none => exact at_provideFull _ t
    | some h => exact .pure fun _ hw => hw
  · exact at_provideFull _ t

theorem at_takeLeaseRetrying (retries : Nat) :
    Triple (At w₀ .steady k) (takeLeaseRetrying p size retries t) (Yields w₀ .steady k)
      (At w₀ .steady k) :=
  (at_takeRetrying size t retries).bind fun _ => at_onSome_idle idle_makeLease

theorem at_obtainLease :
    Triple (At w₀ .steady k) (obtainLease p size t) (Yields w₀ .publishing k)
      (At w₀ .publishing k) := by
  apply (at_find size t).early.bind
  intro r
  cases r with
  | none => exact at_provideLeaseTo size t .full
  | some h =>
      have hlease : ∀ h : Handle, PoolM.Idle (σ := σ) (do
          makeLease h
          expect ((← getBuffer h.buffer).ownedBy t) .ownedByRequester) :=
        fun h => (idle_makeLease h).bind fun _ => (idle_getBuffer h.buffer).bind fun _ =>
          idle_expect _ _
      exact ((at_onSome_idle hlease).post fun _ _ hw => hw.of_steady _).early

/-- Giving back from the full lane ends the display of the buffer. -/
theorem at_giveBack {lane : Lane} (hm : lane = .free ∨ m = .fading) (h : Handle) :
    Triple (At w₀ m (k.hold h.buffer)) (giveBack p lane h) (fun _ => At w₀ m k) (At w₀ m k) :=
  (at_owning (at_idle ((idle_getBuffer h.buffer).bind fun _ => idle_expect _ _))).bind fun _ =>
    at_release hm h

theorem at_preallocate (allocated remaining : Nat) :
    Triple (At w₀ .steady k) (preallocate p allocated remaining) (fun _ => At w₀ .steady k)
      (At w₀ .steady k) := by
  induction remaining generalizing allocated with
  | zero => exact .pure fun _ hw => hw
  | succ n ih =>
      apply at_idle_bind (idle_getPool p)
      intro pool
      apply (at_allocateWithin pool.minimum).bind
      intro r
      cases r with
      | none => exact (at_note _).bind fun _ => .pure fun _ hw => hw
      | some h =>
          exact (at_owning (at_insert_free h)).bind fun _ => at_drop.bind fun _ => ih (allocated + 1)

/-- Closing empties the pool first. Nothing of the pool may be afloat, or it could not be retired
any more. -/
theorem at_close (hafloat : ∀ e ∈ k.afloat, e.1 ≠ p) :
    Triple (At w₀ .fading k) (close p) (fun _ => At w₀ .fading k) (At w₀ .fading k) := by
  apply at_idle_bind (idle_getPool p)
  intro pool
  apply at_drain.bind
  intro buffers
  apply ((at_note (.closing buffers.length pool.arena.detached)).keeping (quiet_note p _) _).bind
  intro _
  apply ((at_retireAll buffers).keeping (quiet_retireAll p buffers) _).bind
  intro _
  apply Triple.modify
  rintro w ⟨hw, harena⟩
  have hnone : w.registered p = 0 := by
    rw [registered_of_arena? harena, Arena.values_empty]
    rfl
  exact ⟨hw.agrees.retirePool hnone hafloat, Fades.trans hw.since (fades_retirePool w p)⟩

theorem at_closing {act : PoolM σ α} {P : World σ → Prop} {Q : α → World σ → Prop}
    (h : Triple P act Q (At w₀ .fading k)) (hafloat : ∀ e ∈ k.afloat, e.1 ≠ p) :
    Triple P (closing p act) Q (At w₀ .fading k) := by
  intro w hw
  have hr := h w hw
  unfold closing
  cases hact : act w with
  | ok a w₁ =>
      rw [hact] at hr
      exact hr
  | error fault w₁ =>
      rw [hact] at hr
      have hclose := at_close hafloat w₁ hr
      dsimp only
      cases hc : close p w₁ with
      | ok _ w₂ =>
          rw [hc] at hclose
          exact hclose
      | error _ w₂ =>
          rw [hc] at hclose
          exact hclose

theorem at_add (c : Config) (minimum : UInt64) (live : Bool) {E : World σ → Prop} :
    Triple (At w₀ .steady k) (add c minimum live) (fun _ => At w₀ .steady k) E :=
  .modify fun w hw => hw.still (still_push w _ rfl) (hw.agrees.push _ rfl rfl)

theorem at_build (c : Config) :
    Triple (At w₀ .steady k) (build c) (fun _ => At w₀ .fading k) (At w₀ .fading k) := by
  apply Triple.get_bind
  intro w hw
  -- The number of the new pool is taken by no pool that has a buffer afloat.
  have hafloat : ∀ e ∈ k.afloat, e.1 ≠ w.pools.size := by
    rintro ⟨q, b⟩ he rfl
    have hopen := (hw.agrees.afloat _ b he).2
    rw [arena?_of_le (Nat.le_refl _)] at hopen
    exact nomatch hopen
  refine Triple.pre (P := At w₀ .steady k) ?_ fun w' he => he ▸ hw
  cases c.validate with
  | error e => exact (at_add c 0 false).bind fun _ => .pure fun _ hw => hw.of_steady _
  | ok minimum =>
      apply (at_add c minimum true).bind
      intro _
      apply (at_closing (at_preallocate 0 c.cacheCount).early hafloat).bind
      intro r
      cases r with
      | none => exact (at_note _).bind fun _ => .pure fun _ hw => hw.of_steady _
      | some allocated =>
          refine Triple.bind ((at_close hafloat).pre fun _ hw => hw.of_steady _) fun _ => ?_
          exact .pure fun _ hw => hw

/-- What is captured is held. -/
theorem at_capture (lane : Lane) (dir : Direction) :
    Triple (At w₀ m k) (capture p lane dir) (fun handles => At w₀ m (k.enclose handles))
      (At w₀ m k) := by
  apply (at_entries lane dir).bind
  intro entries
  refine Triple.bind (.modify fun w hw => hw.1.enclose ?_) fun _ => .pure fun _ hw => hw
  intro h hh
  obtain ⟨⟨key, b⟩, he, rfl⟩ := List.mem_map.1 hh
  exact hw.2 (key, b) he

/-- A visitor that keeps the books may be sent round. -/
theorem at_travel {visit : α → Handle → PoolM σ (Bool × α)}
    (hv : ∀ handles, ∀ a, ∀ h ∈ handles, Triple (At w₀ m (k.enclose handles)) (visit a h)
      (fun _ => At w₀ m (k.enclose handles)) (At w₀ m (k.enclose handles)))
    (route : Route) (dir : Direction) (start : α) :
    Triple (At w₀ m k) (travel p route dir visit start) (fun _ => At w₀ m k) (At w₀ m k) := by
  have hgo : ∀ handles w, At w₀ m (k.enclose handles) w → At w₀ m k w.letGo := by
    intro handles w hw
    have hheld : w.held = [] ++ handles :: k.held := hw.agrees.held
    have hlet := hw.letGo hheld
    unfold World.letGo
    rw [hheld]
    exact hlet
  refine triple_travel (Q := fun _ => At w₀ m k)
    (P := fun handles rest _ w => At w₀ m (k.enclose handles) w ∧ ∀ h ∈ rest, h ∈ handles)
    (F := fun handles => At w₀ m (k.enclose handles)) (fun _ hw => hw) (fun _ _ hw _ _ => hw)
    ((at_capture route.target dir).post fun handles w hw =>
      ⟨hw.idle (World.idle_emit w rfl), fun _ hh => hh⟩)
    (fun handles a h rest w hw => ?_) (fun handles _ w hw => hgo handles w hw.1) hgo
  have hvisit := hv handles a h (hw.2 h List.mem_cons_self) w hw.1
  cases hr : visit a h w with
  | error fault w' =>
      rw [hr] at hvisit
      exact hvisit
  | ok r w' =>
      rw [hr] at hvisit
      exact ⟨⟨hvisit, fun g hg => hw.2 g (List.mem_cons_of_mem _ hg)⟩, fun _ => hgo handles w' hvisit⟩

end Pool

namespace Sweep

/-- A visit to a buffer that some operation holds. -/
theorem at_visit (me : Thread) (s : Sweep) {h : Handle} (hh : h ∈ k.held.flatten) :
    Triple (At w₀ .fading k) (s.visit me h) (fun _ => At w₀ .fading k) (At w₀ .fading k) := by
  apply Triple.of_getBuffer
  intro buffer
  split_ifs
  · refine Triple.bind (at_retain.pre fun w hw => ⟨hw, hw.refs_ne_zero_of_held hh⟩) fun _ => ?_
    exact (Pool.at_giveBack (.inr rfl) h).bind fun _ => .pure fun _ hw => hw
  · apply at_idle_bind (idle_hold s me h.buffer)
    intro held
    split_ifs
    · exact at_idle_bind (idle_recycle me h.buffer) fun _ => .pure fun _ hw => hw
    · exact .pure fun _ hw => hw

theorem at_pass (me : Thread) (route : Pool.Route) (dir : Direction) (s : Sweep) :
    Triple (At w₀ .fading k) (s.pass me route dir) (fun _ => At w₀ .fading k)
      (At w₀ .fading k) := by
  refine (Pool.at_travel (fun handles a h hh => at_visit me a ?_) route dir s).map _ fun _ _ hw => hw
  exact List.mem_append_left _ hh

theorem at_passes (me : Thread) (route : Pool.Route) (dir : Direction) (n : Nat) (s : Sweep) :
    Triple (At w₀ .fading k) (passes me route dir n s) (fun _ => At w₀ .fading k)
      (At w₀ .fading k) := by
  induction n generalizing s with
  | zero => exact .pure fun _ hw => hw
  | succ n ih =>
      apply (at_pass me route dir s).bind
      intro s'
      exact (ih s').bind fun _ => .pure fun _ hw => hw

end Sweep

end BufferPool
