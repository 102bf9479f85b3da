import BufferPool.Proofs.Desk.WarrantedCalls
import BufferPool.Proofs.Desk.Payloads

/-!
# Labels of thread steps

Every step of a thread consists of warranted steps. What it does to the content of buffers is done by
calls and by the visits of sweeps; all other steps leave every buffer as it is. A label says which call
was made, or which visit, and on which thread.
-/

namespace BufferPool

open PoolM World
open Buffer (Act Lent)

/-- Whatever is registered somewhere is a buffer of the pool. -/
theorem World.mem_registered_of_place? {σ : Type} {w : World σ} {p : PoolId} {key : Arena.Key}
    {b : BufferId} {lane : Option Lane} (h : w.place? p key = some (b, lane)) :
    b ∈ w.registered p := by
  unfold World.place? at h
  cases ha : w.arena? p with
  | none =>
      rw [ha] at h
      exact nomatch h
  | some a =>
      rw [ha] at h
      rw [registered_of_arena? ha]
      exact Arena.mem_values_of_place? h

/-- Nothing may be done to buffers. -/
def Warrant.still : Warrant :=
  ⟨fun _ => True, fun _ => Eq, fun _ => True, fun _ _ => rfl, fun h h' => h'.symm ▸ h⟩

namespace Desk

open Warrant

variable {W : Warrant} {w w' : World Desk} {s s' : Scene}

/-- The world of the scene is open, and what threads are still to register may be registered. -/
structure Scene.Open (W : Warrant) (s : Scene) : Prop where
  world : W.Open s.world
  made : ∀ b ∈ s.made, W.enters b ∧ b < s.world.cells.size

/-- One scene comes from another by warranted steps. -/
structure Scene.Led (W : Warrant) (s s' : Scene) : Prop extends Scene.Open W s' where
  steps : WarrantedSteps W s.world s'.world

/-- Nothing was made in between. -/
theorem Scene.Open.led (ho : s.Open W) (hl : W.Led s.world s'.world)
    (hmade : ∀ b ∈ s'.made, b ∈ s.made) : Scene.Led W s s' := by
  refine ⟨⟨hl.toOpen, fun b hb => ?_⟩, hl.steps⟩
  obtain ⟨henters, hthere⟩ := ho.made b (hmade b hb)
  exact ⟨henters, Nat.lt_of_lt_of_le hthere hl.steps.size⟩

theorem Orderly.lt_size_of_mem {k : Books Desk} (h : Orderly s.made k s.world) {b : BufferId}
    (hb : b ∈ s.references) : b < s.world.cells.size := by
  rw [← h.references] at hb
  obtain ⟨c, hc, -⟩ := h.agrees.exists_of_mem hb
  exact (Array.getElem?_eq_some_iff.1 hc).choose

/-- What is registered is there. -/
theorem Orderly.lt_size_of_place? {k : Books Desk} (h : Orderly s.made k s.world) {p : PoolId}
    {key : Arena.Key} {b : BufferId} {lane : Option Lane}
    (hplace : s.world.place? p key = some (b, lane)) : b < s.world.cells.size :=
  h.lt_size_of_mem (Scene.mem_references_of_counted
    (Multiset.mem_add.2 (.inl (World.mem_registered_of_place? hplace))))

/-- The arenas of a scene are sound, and the buffers in them are there. -/
theorem Scene.Kept.ready (hs : s.Kept) (hc : W.Covers s.world) : W.Ready s.world := by
  obtain ⟨k, hk⟩ := hs
  exact ⟨hk.agrees.sound, fun _ _ _ _ hplace => hk.lt_size_of_place? hplace, hc⟩

/-- If everything may be registered, every scene is open. -/
theorem Scene.Kept.open (hs : s.Kept) (hW : ∀ b, W.enters b) : s.Open W := by
  refine ⟨⟨hs.ready ⟨fun b _ => hW b, fun _ _ b _ _ => hW b⟩, fun g _ => ⟨hW _, fun b _ _ => hW b⟩⟩,
    fun b hb => ⟨hW b, ?_⟩⟩
  obtain ⟨k, hk⟩ := hs
  exact hk.lt_size_of_mem (Multiset.mem_add.2 (.inl (Multiset.mem_add.2 (.inr hb))))

/-- Fine handles may be held. -/
theorem led_hold (ho : W.Open w) {handles : List Handle} (hf : ∀ g ∈ handles, W.Fine g w) :
    W.Led w (w.hold handles) := by
  refine ho.led.steps_then (.single (.harmless (harmless_hold w handles))) fun g hg => ?_
  change g ∈ Desk.roots (w.hold handles).client ++ (handles :: w.held).flatten at hg
  rw [show (w.hold handles).client = w.client from (calm_foldl_retain w handles).client,
    List.flatten_cons] at hg
  rcases List.mem_append.1 hg with hroot | hheld
  · exact .inl (List.mem_append_left _ hroot)
  · rcases List.mem_append.1 hheld with hnew | hold
    · exact .inr (hf g hnew)
    · exact .inl (List.mem_append_right _ hold)

theorem led_capture (ho : W.Open w) (p : PoolId) (lane : Lane) (dir : Direction) :
    W.Led w ((Pool.capture (σ := Desk) p lane dir).leaves w) := by
  have hentries := warranted_entries (p := p) (stable_true (W := W)) lane dir w ho.toReady trivial
  rw [Pool.capture]
  cases hr : (readArena p (·.entries lane dir) : DeskM _) w with
  | error fault w' =>
      rw [leaves, bind_of_error _ hr]
      rw [leaves_of_error hr] at hentries
      exact ho.led.serves hentries.1
  | ok entries w' =>
      obtain ⟨rfl, -⟩ := place?_of_readArena ho.sound hr
      obtain ⟨-, hhas⟩ := hentries.2 entries w' hr
      rw [leaves, bind_of_ok _ hr]
      refine led_hold ho fun g hg => ?_
      obtain ⟨e, he, rfl⟩ := List.mem_map.1 hg
      exact (hhas e he).fine

theorem led_letGo (ho : W.Open w) {inner outer : List (List Handle)} {handles : List Handle}
    (hheld : w.held = inner ++ handles :: outer) :
    W.Led w { w.dropAll handles with held := inner ++ outer } := by
  have hcalm := calm_dropAll w handles
  refine ho.led.steps_then (.single (.harmless ⟨hcalm.arena, hcalm.size, hcalm.buffer,
    hcalm.events⟩)) fun g hg => .inl ?_
  change g ∈ Desk.roots _ ++ (inner ++ outer).flatten at hg
  rw [hcalm.client] at hg
  rcases List.mem_append.1 hg with hroot | hkept
  · exact List.mem_append_left _ hroot
  · apply List.mem_append_right
    rw [hheld, List.flatten_append, List.flatten_cons]
    rw [List.flatten_append] at hkept
    rcases List.mem_append.1 hkept with hinner | houter
    · exact List.mem_append_left _ hinner
    · exact List.mem_append_right _ (List.mem_append_right _ houter)

theorem led_enterVisit (ho : W.Open w) {handles : List Handle} {handle : Handle}
    (hheld : handles ∈ w.held) (hin : handle ∈ handles) :
    W.Led w ((enterVisit handle).leaves w) := by
  have hretained : W.Led w (w.retain handle.buffer) := ho.led.calm (calm_retain w handle.buffer)
  refine hretained.withDesk fun g hg => ?_
  rcases mem_roots.1 hg with hname | hpresent | hsuspended
  · exact .inl (mem_roots.2 (.inl hname))
  · rw [List.mem_singleton.1 hpresent]
    exact .inr (hretained.toOpen.held hheld hin)
  · exact .inl (mem_roots.2 (.inr (.inr hsuspended)))

theorem led_leaveVisit (ho : W.Open w) : W.Led w (leaveVisit w) := by
  unfold leaveVisit
  cases w.client.present with
  | none => exact ho.led
  | some visit =>
      refine (ho.led.withDesk (d := { w.client with present := none }) fun g hg => .inl ?_).calm
        (calm_drop _ visit.handle.buffer)
      rcases mem_roots.1 hg with hname | hnone | hsuspended
      · exact mem_roots.2 (.inl hname)
      · exact nomatch hnone
      · exact mem_roots.2 (.inr (.inr hsuspended))

theorem led_suspend (ho : W.Open w) : W.Led w (suspend.leaves w) := by
  refine ho.led.withDesk fun g hg => .inl ?_
  rcases mem_roots.1 hg with hname | hnone | hsuspended
  · exact mem_roots.2 (.inl hname)
  · exact nomatch hnone
  · rw [List.map_append, List.mem_append] at hsuspended
    exact mem_roots.2 (.inr hsuspended)

theorem led_resume (ho : W.Open w) : W.Led w (resume.leaves w) := by
  refine ho.led.withDesk fun g hg => .inl ?_
  rcases mem_roots.1 hg with hname | hpresent | hsuspended
  · exact mem_roots.2 (.inl hname)
  · obtain ⟨visit, hv, rfl⟩ := List.mem_map.1 hpresent
    have hhead := List.mem_of_mem_head? (Option.mem_toList.1 hv)
    exact mem_roots.2 (.inr (.inr (List.mem_map_of_mem hhead)))
  · obtain ⟨visit, hv, rfl⟩ := List.mem_map.1 hsuspended
    exact mem_roots.2 (.inr (.inr (List.mem_map_of_mem (List.mem_of_mem_tail hv))))

theorem led_leaveSuspended (ho : W.Open w) : W.Led w (leaveSuspended w) := by
  refine (ho.led.withDesk (d := { w.client with suspended := [] }) fun g hg => .inl ?_).calm
    (calm_dropAll _ _)
  rcases mem_roots.1 hg with hname | hpresent | hnone
  · exact mem_roots.2 (.inl hname)
  · exact mem_roots.2 (.inr (.inl hpresent))
  · exact nomatch hnone

theorem led_enroll {p : PoolId} {b : BufferId} (hG : ∀ b, W.grants b) (ho : W.Open w)
    (hb : W.enters b ∧ b < w.cells.size) (name : String) :
    W.Led w (PoolM.leaves (Pool.enroll p b >>= store name) w) := by
  have henroll := Pool.warranted_enroll (W := W) (p := p) (b := b) (stable_true (σ := Desk))
  refine Triple.leaves (henroll.led.bind fun handle => ?_) ⟨ho.led, trivial, hb.1, hb.2, hG b⟩
  exact (led_store name handle).pre fun _ hw => ⟨hw.1, hw.2.2.toHas.fine⟩

/-- A step of a thread is a call, or a visit of a sweep, or consists of warranted steps under any warrant. -/
theorem ThreadStep.cases (ha : ThreadStep s s') :
    (∃ me p, ∃ call : Call, s'.world = (call.perform me p).leaves s.world ∧ s'.made = s.made) ∨
    (∃ me, ∃ sweep : Sweep, ∃ handles ∈ s.world.held, ∃ handle ∈ handles,
      s'.world = (sweep.visit me handle).leaves s.world ∧ s'.made = s.made) ∨
    ∀ W : Warrant, (∀ b, W.grants b) → s.Open W → Scene.Led W s s' := by
  cases ha with
  | call me p call _ => exact .inl ⟨me, p, call, rfl, rfl⟩
  | sweep me sweep hheld hin => exact .inr (.inl ⟨me, sweep, _, hheld, _, hin, rfl, rfl⟩)
  | capture _ _ p lane dir =>
      exact .inr (.inr fun W _ ho => ho.led (led_capture ho.world p lane dir) fun _ hb => hb)
  | @hold w _ operand handle hf =>
      refine .inr (.inr fun W _ ho => ho.led (led_hold ho.world fun g hg => ?_) fun _ hb => hb)
      rw [List.mem_singleton.1 hg]
      exact ho.world.roots (find?_mem_roots hf)
  | letGo hheld =>
      exact .inr (.inr fun W _ ho => ho.led (led_letGo ho.world hheld) fun _ hb => hb)
  | enterVisit _ hheld hin =>
      exact .inr (.inr fun W _ ho => ho.led (led_enterVisit ho.world hheld hin) fun _ hb => hb)
  | leaveVisit =>
      exact .inr (.inr fun W _ ho => ho.led (led_leaveVisit ho.world) fun _ hb => hb)
  | suspend => exact .inr (.inr fun W _ ho => ho.led (led_suspend ho.world) fun _ hb => hb)
  | resume _ => exact .inr (.inr fun W _ ho => ho.led (led_resume ho.world) fun _ hb => hb)
  | leaveSuspended =>
      exact .inr (.inr fun W _ ho => ho.led (led_leaveSuspended ho.world) fun _ hb => hb)
  | note w _ p n =>
      exact .inr (.inr fun W _ ho => ho.led (ho.world.led.calm (World.calm_emit w rfl))
        fun _ hb => hb)
  | trace w _ replies =>
      exact .inr (.inr fun W _ ho =>
        ho.led (ho.world.led.withDesk (d := { w.client with trace := replies }) fun _ => .inl)
          fun _ hb => hb)
  | reclaim w _ p =>
      exact .inr (.inr fun W _ ho => ho.led
        ((Pool.warranted_reclaim (σ := Desk) stable_true).led_leaves.leaves ho.world.led)
        fun _ hb => hb)
  | @make w w' made p requested b hmake =>
      refine .inr (.inr fun W _ ho => ?_)
      have hcalm := Pool.calm_make (σ := Desk) p requested w
      rw [leaves_of_ok hmake] at hcalm
      have hl := ho.world.led.calm hcalm
      obtain ⟨hb, hsize⟩ := Pool.make_eq_ok hmake
      refine ⟨⟨hl.toOpen, fun b' hb' => ?_⟩, hl.steps⟩
      rcases List.mem_cons.1 hb' with rfl | hold
      · refine ⟨ho.world.covers.fresh _ (Nat.le_of_eq hb.symm), ?_⟩
        rw [hsize, hb]
        exact Nat.lt_succ_self _
      · obtain ⟨henters, hthere⟩ := ho.made b' hold
        exact ⟨henters, Nat.lt_of_lt_of_le hthere hl.steps.size⟩
  | @makeNone w made p requested _ =>
      exact .inr (.inr fun W _ ho => ho.led (ho.world.led.calm (Pool.calm_make p requested w))
        fun _ hb => hb)
  | enroll name hmade _ =>
      exact .inr (.inr fun W hG ho => ho.led (led_enroll hG ho.world (ho.made _ hmade) name)
        fun _ hb => List.mem_of_mem_erase hb)

/-- A visit of a sweep. -/
theorem led_visit {me : Thread} (hW : W.Lends (some me)) (ho : W.Open w) (sweep : Sweep)
    {handle : Handle} (hf : W.Fine handle w) : W.Led w ((sweep.visit me handle).leaves w) := by
  have hvisit := Sweep.warranted_visit (h := handle) hW (stable_fine (σ := Desk)) sweep
    fun hp w hf => hp ▸ hf.names
  exact (hvisit.led.post fun _ _ hw => hw.1).leaves ⟨ho.led, hf⟩

/-- If contents are not restricted, every step of a thread consists of warranted steps. -/
theorem ThreadStep.led (hA : ∀ b x y, W.alters b x y) (hG : ∀ b, W.grants b) (ho : s.Open W)
    (ha : ThreadStep s s') : Scene.Led W s s' := by
  rcases ha.cases with ⟨me, p, call, hcall, hmade⟩ | ⟨me, sweep, handles, hheld, handle, hin, hvisit,
    hmade⟩ | hrest
  · refine ho.led ?_ fun b hb => hmade ▸ hb
    rw [hcall]
    exact led_call (fun b x y _ => hA b x y) hG ho.world
      ⟨fun b _ _ => hA b _ _, fun _ _ _ _ _ _ b x y _ => hA b x y⟩
  · refine ho.led ?_ fun b hb => hmade ▸ hb
    rw [hvisit]
    exact led_visit (fun b x y _ => hA b x y) ho.world sweep (ho.world.held hheld hin)
  · exact hrest W hG ho

theorem Scene.Reaches.led (hA : ∀ b x y, W.alters b x y) (hG : ∀ b, W.grants b) (ho : s.Open W)
    (hr : s.Reaches s') : Scene.Led W s s' := by
  induction hr with
  | refl => exact ⟨ho, .refl⟩
  | tail _ ha ih =>
      have hnext := ha.led hA hG ih.toOpen
      exact ⟨hnext.toOpen, ih.steps.trans hnext.steps⟩

/-- What happens in a step of a thread, as far as it concerns the content of buffers. -/
inductive StepLabel where
  | call (me : Thread) (p : PoolId) (call : Call)
  /-- A sweep visits a buffer. -/
  | visit (me : Thread) (sweep : Sweep) (handle : Handle)
  /-- Anything else. -/
  | rest

/-- What a step with the label makes of the world. -/
def StepLabel.Effect : StepLabel → World Desk → World Desk → Prop
  | .call me p c, w, w' => w' = (c.perform me p).leaves w
  | .visit me sweep handle, w, w' => w' = (sweep.visit me handle).leaves w
  | .rest, w, w' => ∀ b < w.cells.size, w'.buffer b = w.buffer b

/-- A step with the label leads from one scene to the next. -/
structure StepLabel.Leads (d : StepLabel) (s s' : Scene) : Prop where
  step : ThreadStep s s'
  effect : d.Effect s.world s'.world

/-- Every step of a thread has a label. -/
theorem ThreadStep.exists_label (hs : s.Kept) (ha : ThreadStep s s') : ∃ d : StepLabel, d.Leads s s' := by
  rcases ha.cases with ⟨me, p, call, hcall, -⟩ | ⟨me, sweep, -, -, handle, -, hvisit, -⟩ | hrest
  · exact ⟨.call me p call, ha, hcall⟩
  · exact ⟨.visit me sweep handle, ha, hvisit⟩
  · have hled := hrest .still (fun _ => trivial) (hs.open fun _ => trivial)
    exact ⟨.rest, ha, fun b hb => (hled.steps.alters hb).symm⟩

end Desk

end BufferPool
