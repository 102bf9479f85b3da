import Mathlib.Logic.Relation
import BufferPool.Proofs.Desk.CallAccounts
import BufferPool.Proofs.Desk.Handles

/-!
# Steps of several threads

A run of several threads on their pools, told in its smallest parts: calls, visits, and the pieces of
traversals and allocations between which other threads get their turn. Every part that may fault may
do so. Whoever has made a buffer is still to register it, and registers it with the pool it was made
for; that pool is not closed meanwhile. A visit is entered when none is present.

After every part the books of the scene are in order: the references are those of arenas, handles and
buffers that are made.
-/

namespace BufferPool.Desk

open PoolM World

/-- A step of a thread that keeps to what threads may do. -/
inductive ThreadStep : Scene → Scene → Prop where
  | call {w : World Desk} {made : List BufferId} (me : Thread) (p : PoolId) (call : Call)
      (hclose : call = .close → ∀ b ∈ made, w.home? b ≠ some p) :
      ThreadStep ⟨w, made⟩ ⟨(call.perform me p).leaves w, made⟩
  | capture (w : World Desk) (made : List BufferId) (p : PoolId) (lane : Lane) (dir : Direction) :
      ThreadStep ⟨w, made⟩ ⟨(Pool.capture (σ := Desk) p lane dir).leaves w, made⟩
  /-- Something of the desk is held for a while. -/
  | hold {w : World Desk} {made : List BufferId} {operand : Operand} {handle : Handle}
      (hf : w.client.find? operand = some handle) : ThreadStep ⟨w, made⟩ ⟨w.hold [handle], made⟩
  /-- Traversals may end in any order. -/
  | letGo {w : World Desk} {made : List BufferId} {inner outer : List (List Handle)}
      {handles : List Handle} (hheld : w.held = inner ++ handles :: outer) :
      ThreadStep ⟨w, made⟩ ⟨{ w.dropAll handles with held := inner ++ outer }, made⟩
  /-- A sweep visits something that was captured. -/
  | sweep {w : World Desk} {made : List BufferId} {handles : List Handle} {handle : Handle}
      (me : Thread) (s : Sweep) (hheld : handles ∈ w.held) (hin : handle ∈ handles) :
      ThreadStep ⟨w, made⟩ ⟨(s.visit me handle).leaves w, made⟩
  | enterVisit {w : World Desk} {made : List BufferId} {handles : List Handle} {handle : Handle}
      (hfree : w.client.present = none) (hheld : handles ∈ w.held) (hin : handle ∈ handles) :
      ThreadStep ⟨w, made⟩ ⟨(enterVisit handle).leaves w, made⟩
  | leaveVisit (w : World Desk) (made : List BufferId) : ThreadStep ⟨w, made⟩ ⟨leaveVisit w, made⟩
  | suspend (w : World Desk) (made : List BufferId) : ThreadStep ⟨w, made⟩ ⟨suspend.leaves w, made⟩
  | resume {w : World Desk} {made : List BufferId} (hfree : w.client.present = none) :
      ThreadStep ⟨w, made⟩ ⟨resume.leaves w, made⟩
  | leaveSuspended (w : World Desk) (made : List BufferId) :
      ThreadStep ⟨w, made⟩ ⟨leaveSuspended w, made⟩
  /-- Something is remarked on a pool. -/
  | note (w : World Desk) (made : List BufferId) (p : PoolId) (n : Note) :
      ThreadStep ⟨w, made⟩ ⟨w.emit (.noted p n), made⟩
  /-- The desk keeps other replies. -/
  | trace (w : World Desk) (made : List BufferId) (replies : List Reply) :
      ThreadStep ⟨w, made⟩ ⟨{ w with client := { w.client with trace := replies } }, made⟩
  | reclaim (w : World Desk) (made : List BufferId) (p : PoolId) :
      ThreadStep ⟨w, made⟩ ⟨(Pool.reclaim (σ := Desk) p).leaves w, made⟩
  | make {w w' : World Desk} {made : List BufferId} {p : PoolId} {requested : UInt64}
      {b : BufferId} (hmake : Pool.make p requested w = .ok (some b) w') :
      ThreadStep ⟨w, made⟩ ⟨w', b :: made⟩
  /-- No buffer could be made. -/
  | makeNone {w : World Desk} {made : List BufferId} {p : PoolId} {requested : UInt64}
      (hnone : ∀ b w', Pool.make p requested w ≠ .ok (some b) w') :
      ThreadStep ⟨w, made⟩ ⟨(Pool.make p requested).leaves w, made⟩
  | enroll {w : World Desk} {made : List BufferId} {p : PoolId} {b : BufferId} (name : String)
      (hmade : b ∈ made) (hhome : w.home? b = some p) :
      ThreadStep ⟨w, made⟩ ⟨PoolM.leaves (Pool.enroll p b >>= store name) w, made.erase b⟩

/-- One scene comes after another. -/
abbrev Scene.Reaches : Scene → Scene → Prop := Relation.ReflTransGen ThreadStep

/-- The books agree with the world. Nothing is in hand, and what is afloat was made. -/
structure Orderly (made : List BufferId) (k : Books Desk) (w : World Desk) : Prop where
  sorted : k.client.Sorted
  hand : k.hand = 0
  adrift : k.adrift = ↑made
  agrees : Agrees k w

/-- The books are in order at a scene. -/
def Scene.Kept (s : Scene) : Prop := ∃ k, Orderly s.made k s.world

/-- The books are in order after a step, which was made in one of the manners. -/
def OrderlySince (w₀ : World Desk) (made : List BufferId) (w : World Desk) : Prop :=
  ∃ m k, Orderly made k w ∧ w₀.Since m w

variable {w₀ w w' : World Desk} {made : List BufferId} {m : Manner} {k k' : Books Desk}

/-- The handles under names, the present visit and the suspended ones. -/
theorem coe_roots (d : Desk) : (↑(d.roots.map (·.buffer)) : Multiset BufferId) =
    ↑(d.handles.map (·.2.buffer)) + ↑(d.present.toList.map (·.handle.buffer)) +
      ↑(d.suspended.map (·.handle.buffer)) := by
  simp only [roots, List.map_append, List.map_map, ← Multiset.coe_add, add_assoc]
  rfl

namespace Orderly

theorem of_at (h : Orderly made k w₀) (hw : At w₀ m k' w) (hs : k'.client.Sorted)
    (hhand : k'.hand = k.hand) (hafloat : k'.afloat = k.afloat) : OrderlySince w₀ made w := by
  refine ⟨m, k', ⟨hs, hhand.trans h.hand, ?_, hw.agrees⟩, hw.since⟩
  rw [Books.adrift, hafloat]
  exact h.adrift

/-- Only the client has changed in the books. -/
theorem of_desk {d : Desk} (h : Orderly made k w₀) (hw : At w₀ m { k with client := d } w)
    (hs : d.Sorted) : OrderlySince w₀ made w :=
  h.of_at hw hs rfl rfl

theorem at_refl (h : Orderly made k w) : At w .steady k w := .refl h.agrees

theorem sorted_desk (h : Orderly made k w) : w.client.Sorted := by
  have hclient : w.client = k.client := h.agrees.client
  rw [hclient]
  exact h.sorted

theorem home_of_mem (h : Orderly made k w) {b : BufferId} (hb : b ∈ made) {p : PoolId}
    (hp : w.home? b = some p) : (p, b) ∈ k.afloat := by
  have hadrift : b ∈ k.adrift := h.adrift ▸ hb
  obtain ⟨⟨q, b'⟩, hin, rfl⟩ := Multiset.mem_map.1 hadrift
  have hq := (h.agrees.afloat q b' hin).1
  rw [hp, Option.some.injEq] at hq
  exact hq ▸ hin

theorem ended (h : Orderly made k w) (me : Thread) {p : PoolId} {call : Call}
    (hclose : call = .close → ∀ b ∈ made, w.home? b ≠ some p) :
    Ended w k ((call.perform me p).leaves w) := by
  have hafloat : call = .close → ∀ e ∈ k.afloat, e.1 ≠ p := by
    rintro hcall ⟨q, b⟩ he rfl
    have hb : b ∈ k.adrift := Multiset.mem_map_of_mem Prod.snd he
    rw [h.adrift] at hb
    exact hclose hcall b hb (h.agrees.afloat q b he).1
  exact (at_call me call h.sorted hafloat).leaves h.at_refl

theorem call (h : Orderly made k w) (me : Thread) {p : PoolId} {call : Call}
    (hclose : call = .close → ∀ b ∈ made, w.home? b ≠ some p) :
    OrderlySince w made ((call.perform me p).leaves w) := by
  obtain ⟨m, d, hd, hw⟩ := h.ended me hclose
  exact h.of_desk hw hd.sorted

theorem capture (h : Orderly made k w) (p : PoolId) (lane : Lane) (dir : Direction) :
    OrderlySince w made ((Pool.capture (σ := Desk) p lane dir).leaves w) := by
  have hcapture : Triple (At w .steady k) (Pool.capture (σ := Desk) p lane dir)
      (fun _ => OrderlySince w made) (OrderlySince w made) :=
    (Pool.at_capture lane dir).weaken (fun _ hw => hw) (fun _ _ hw => h.of_at hw h.sorted rfl rfl)
      fun _ hw => h.of_at hw h.sorted rfl rfl
  exact hcapture.leaves h.at_refl

theorem hold (h : Orderly made k w) {operand : Operand} {handle : Handle}
    (hf : w.client.find? operand = some handle) : OrderlySince w made (w.hold [handle]) := by
  have hclient : w.client = k.client := h.agrees.client
  rw [hclient] at hf
  refine h.of_at (h.at_refl.enclose fun g hg => ?_) h.sorted rfl rfl
  rw [List.mem_singleton.1 hg]
  exact refs_ne_zero_of_find? h.at_refl hf

theorem letGo (h : Orderly made k w) {inner outer : List (List Handle)} {handles : List Handle}
    (hheld : w.held = inner ++ handles :: outer) :
    OrderlySince w made { w.dropAll handles with held := inner ++ outer } :=
  h.of_at (h.at_refl.letGo hheld) h.sorted rfl rfl

theorem mem_held (h : Orderly made k w) {handles : List Handle} {handle : Handle}
    (hheld : handles ∈ w.held) (hin : handle ∈ handles) : handle ∈ k.held.flatten :=
  List.mem_flatten.2 ⟨handles, h.agrees.held ▸ hheld, hin⟩

theorem sweep (h : Orderly made k w) (me : Thread) (s : Sweep) {handle : Handle}
    (hin : handle ∈ k.held.flatten) : OrderlySince w made ((s.visit me handle).leaves w) := by
  have hw := (Sweep.at_visit me s hin).leaves (h.at_refl.of_steady .fading)
  exact h.of_at hw h.sorted rfl rfl

theorem enterVisit (h : Orderly made k w) {handle : Handle} (hfree : w.client.present = none)
    (hin : handle ∈ k.held.flatten) : OrderlySince w made ((Desk.enterVisit handle).leaves w) := by
  have hclient : w.client = k.client := h.agrees.client
  have hhold : At w .steady (k.hold handle.buffer) (w.retain handle.buffer) :=
    h.at_refl.still (still_retain w handle.buffer)
      (h.agrees.retain (h.agrees.mem_references_iff.2 (h.at_refl.refs_ne_zero_of_held hin)))
  let d : Desk := { w.client with present := some ⟨handle, false⟩ }
  have hsum : ↑(d.roots.map (·.buffer)) + k.hand =
      ↑(k.client.roots.map (·.buffer)) + (k.hold handle.buffer).hand := by
    rw [coe_roots, coe_roots, ← hclient, hfree]
    change _ + {handle.buffer} + _ + k.hand = _ + 0 + _ + ({handle.buffer} + k.hand)
    abel
  have hat := at_withDesk hhold hsum
  exact h.of_desk hat h.sorted_desk

theorem leaveVisit (h : Orderly made k w) : OrderlySince w made (Desk.leaveVisit w) := by
  have hclient : w.client = k.client := h.agrees.client
  unfold Desk.leaveVisit
  cases hvisit : w.client.present with
  | none => exact h.of_at h.at_refl h.sorted rfl rfl
  | some visit =>
      let d : Desk := { w.client with present := none }
      have hsum : ↑(d.roots.map (·.buffer)) + (visit.handle.buffer ::ₘ k.hand) =
          ↑(k.client.roots.map (·.buffer)) + k.hand := by
        rw [coe_roots, coe_roots, ← hclient, hvisit]
        change _ + 0 + _ + ({visit.handle.buffer} + k.hand) = _ + {visit.handle.buffer} + _ + k.hand
        abel
      have hgrip := at_withDesk h.at_refl hsum
      have hdrop := hgrip.still (still_drop _ visit.handle.buffer)
        (Agrees.drop (k := { k with client := d }) hgrip.agrees)
      exact h.of_desk hdrop h.sorted_desk

theorem suspend (h : Orderly made k w) : OrderlySince w made (Desk.suspend.leaves w) := by
  have hclient : w.client = k.client := h.agrees.client
  let d : Desk :=
    { w.client with present := none, suspended := w.client.present.toList ++ w.client.suspended }
  have hsum : ↑(d.roots.map (·.buffer)) + k.hand = ↑(k.client.roots.map (·.buffer)) + k.hand := by
    rw [← hclient]
    rfl
  exact h.of_desk (at_withDesk h.at_refl hsum) h.sorted_desk

theorem resume (h : Orderly made k w) (hfree : w.client.present = none) :
    OrderlySince w made (Desk.resume.leaves w) := by
  have hclient : w.client = k.client := h.agrees.client
  let d : Desk :=
    { w.client with present := w.client.suspended.head?, suspended := w.client.suspended.tail }
  have hsum : ↑(d.roots.map (·.buffer)) + k.hand = ↑(k.client.roots.map (·.buffer)) + k.hand := by
    rw [← hclient, roots, roots, hfree]
    cases hnext : w.client.suspended <;> simp only [d, hnext] <;> rfl
  exact h.of_desk (at_withDesk h.at_refl hsum) h.sorted_desk

theorem leaveSuspended (h : Orderly made k w) : OrderlySince w made (Desk.leaveSuspended w) := by
  have hclient : w.client = k.client := h.agrees.client
  let d : Desk := { w.client with suspended := [] }
  let handles := w.client.suspended.map Visit.handle
  have hsum : ↑(d.roots.map (·.buffer)) + (↑(handles.map (·.buffer)) + k.hand) =
      ↑(k.client.roots.map (·.buffer)) + k.hand := by
    rw [coe_roots, coe_roots, ← hclient, List.map_map]
    change _ + _ + 0 + (↑(w.client.suspended.map (·.handle.buffer)) + k.hand) = _
    abel
  have hgrip := at_withDesk h.at_refl hsum
  exact h.of_desk (hgrip.dropAll (k := { k with client := d }) handles) h.sorted_desk

theorem note (h : Orderly made k w) (p : PoolId) (n : Note) :
    OrderlySince w made (w.emit (.noted p n)) :=
  h.of_at (h.at_refl.idle (idle_emit w rfl)) h.sorted rfl rfl

theorem trace (h : Orderly made k w) (replies : List Reply) :
    OrderlySince w made { w with client := { w.client with trace := replies } } := by
  have hclient : w.client = k.client := h.agrees.client
  let d : Desk := { w.client with trace := replies }
  have hsum : ↑(d.roots.map (·.buffer)) + k.hand = ↑(k.client.roots.map (·.buffer)) + k.hand := by
    rw [← hclient]
    rfl
  exact h.of_desk (at_withDesk h.at_refl hsum) h.sorted_desk

theorem reclaim (h : Orderly made k w) (p : PoolId) :
    OrderlySince w made ((Pool.reclaim (σ := Desk) p).leaves w) :=
  h.of_at (Pool.at_reclaimAll.leaves h.at_refl) h.sorted rfl rfl

theorem make (h : Orderly made k w) {p : PoolId} {requested : UInt64} {b : BufferId}
    (hmake : Pool.make p requested w = .ok (some b) w') : OrderlySince w (b :: made) w' := by
  have hw := Pool.at_make (p := p) requested w h.at_refl
  rw [hmake] at hw
  refine ⟨.steady, k.launch p b, ⟨h.sorted, h.hand, ?_, hw.agrees⟩, hw.since⟩
  rw [Books.adrift_launch, h.adrift, Multiset.cons_coe]

theorem makeNone (h : Orderly made k w) {p : PoolId} {requested : UInt64}
    (hnone : ∀ b w', Pool.make p requested w ≠ .ok (some b) w') :
    OrderlySince w made ((Pool.make p requested).leaves w) := by
  have hw := Pool.at_make (p := p) requested w h.at_refl
  cases hmake : Pool.make p requested w with
  | error fault w' =>
      rw [hmake] at hw
      rw [leaves_of_error hmake]
      exact h.of_at hw h.sorted rfl rfl
  | ok made w' =>
      rw [hmake] at hw
      rw [leaves_of_ok hmake]
      cases made with
      | none => exact h.of_at hw h.sorted rfl rfl
      | some b => exact absurd hmake (hnone b w')

theorem enroll (h : Orderly made k w) {p : PoolId} {b : BufferId} (name : String)
    (hmade : b ∈ made) (hhome : w.home? b = some p) :
    OrderlySince w (made.erase b) (PoolM.leaves (Pool.enroll p b >>= store name) w) := by
  have hin := h.home_of_mem hmade hhome
  obtain ⟨rest, hrest⟩ := Multiset.exists_cons_of_mem hin
  let k' : Books Desk := { k with afloat := rest }
  have hk : k'.launch p b = k := by
    change ({ k with afloat := (p, b) ::ₘ rest } : Books Desk) = k
    rw [← hrest]
  have hadrift : k'.adrift = ↑(made.erase b) := by
    have hcons : b ::ₘ k'.adrift = ↑made := by rw [← h.adrift, ← hk, Books.adrift_launch]
    rw [← Multiset.coe_erase, ← hcons, Multiset.erase_cons_head]
  have hstart : At w .steady (k'.launch p b) w := hk ▸ h.at_refl
  have henroll : Triple (At w .steady (k'.launch p b)) (Pool.enroll p b >>= store name)
      (fun _ => Settled w .steady k') (Settled w .steady k') :=
    (Pool.at_enroll.fault fun _ hw => .of_at h.sorted hw).bind fun handle =>
      at_store (k := k') h.sorted name handle
  obtain ⟨d, hd, hw⟩ := henroll.leaves hstart
  exact ⟨.steady, { k' with client := d }, ⟨hd.sorted, h.hand, hadrift, hw.agrees⟩, hw.since⟩

end Orderly

/-- What every step does, whoever takes it. -/
theorem ThreadStep.orderlySince {s s' : Scene} (hs : s.Kept) (ha : ThreadStep s s') :
    OrderlySince s.world s'.made s'.world := by
  obtain ⟨k, h⟩ := hs
  cases ha with
  | call me p call hclose => exact h.call me hclose
  | capture _ _ p lane dir => exact h.capture p lane dir
  | hold hf => exact h.hold hf
  | letGo hheld => exact h.letGo hheld
  | sweep me s hheld hin => exact h.sweep me s (h.mem_held hheld hin)
  | enterVisit hfree hheld hin => exact h.enterVisit hfree (h.mem_held hheld hin)
  | leaveVisit => exact h.leaveVisit
  | suspend => exact h.suspend
  | resume hfree => exact h.resume hfree
  | leaveSuspended => exact h.leaveSuspended
  | note _ _ p n => exact h.note p n
  | trace _ _ replies => exact h.trace replies
  | reclaim _ _ p => exact h.reclaim p
  | make hmake => exact h.make hmake
  | makeNone hnone => exact h.makeNone hnone
  | enroll name hmade hhome => exact h.enroll name hmade hhome

theorem ThreadStep.kept {s s' : Scene} (hs : s.Kept) (ha : ThreadStep s s') : s'.Kept := by
  obtain ⟨-, k, hk, -⟩ := ha.orderlySince hs
  exact ⟨k, hk⟩

theorem ThreadStep.since {s s' : Scene} (hs : s.Kept) (ha : ThreadStep s s') :
    ∃ m, s.world.Since m s'.world := by
  obtain ⟨m, -, -, hsince⟩ := ha.orderlySince hs
  exact ⟨m, hsince⟩

theorem Scene.Reaches.kept {s s' : Scene} (hs : s.Kept) (hr : s.Reaches s') : s'.Kept := by
  induction hr with
  | refl => exact hs
  | tail _ ha ih => exact ha.kept ih

theorem Scene.Reaches.follows {s s' : Scene} (hs : s.Kept) (hr : s.Reaches s') :
    s.world.Follows s'.world := by
  induction hr with
  | refl => exact .refl _
  | tail hr ha ih =>
      obtain ⟨m, hsince⟩ := ha.since (Scene.Reaches.kept hs hr)
      exact ih.trans hsince.follows

/-- Calls that one thread makes while no buffer is made. -/
theorem reaches_performAll (me : Thread) (p : PoolId) (calls : List Call) (w : World Desk) :
    Scene.Reaches ⟨w, []⟩ ⟨performAll me p calls w, []⟩ := by
  induction calls generalizing w with
  | nil => exact .refl
  | cons call rest ih => exact .head (.call me p call fun _ => nofun) (ih _)

/-- The books of the scene in which nothing has been set up. -/
theorem kept_empty (profile : Profile) (format : Format) (maker : Supply) :
    (Scene.empty profile format maker).Kept := by
  let w := (Scene.empty profile format maker).world
  have hcells : ∀ (b : BufferId) c, w.cells[b]? ≠ some c := by
    intro b c
    simp [w, Scene.empty, World.empty]
  have harena : ∀ p, w.arena? p = none := fun p => arena?_of_le (Nat.zero_le p)
  have hallocated : ∀ p, w.allocated? p = none := by
    intro p
    simp [w, Scene.empty, World.empty, allocated?, pool?]
  have hpresent : Present ⟨.empty, [], 0, 0⟩ w := by
    refine ⟨rfl, rfl, fun p a ha => ?_, fun _ => rfl, Multiset.nodup_zero, fun p b hb => ?_,
      fun p b hb => absurd hb (Multiset.notMem_zero _)⟩
    · rw [harena] at ha
      cases ha
    · rw [registered_of_none (harena p)] at hb
      exact absurd hb (Multiset.notMem_zero b)
  have hpast : Past 0 w := by
    refine ⟨fun b c hc => absurd hc (hcells b c), fun _ _ => rfl,
      fun b c hc => absurd hc (hcells b c), fun b c hc => absurd hc (hcells b c),
      fun p total hp => ?_⟩
    rw [hallocated] at hp
    cases hp
  exact ⟨⟨.empty, [], 0, 0⟩, List.Pairwise.nil, rfl, rfl, hpresent, hpast⟩

end BufferPool.Desk
