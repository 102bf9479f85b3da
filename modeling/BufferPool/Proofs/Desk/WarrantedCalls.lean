import BufferPool.Proofs.Desk.ThreadSteps
import BufferPool.Proofs.Pool.WarrantedRequests

/-!
# How calls and thread steps consist of warranted steps

A desk hands its handles to operations of pools. As long as all of them stand for nothing but what a
warrant lets into lanes, every call consists of warranted steps, and so does every step of a thread. The
handles that are returned are of that kind again.

Calls on single buffers are different from all other calls, because there the acts are chosen by the
caller. The warrant has to allow them.
-/

namespace BufferPool

open PoolM World
open Buffer (Act)

variable {σ α β : Type}

namespace Warrant

variable {W : Warrant} {w₀ w w' : World Desk} {h : Handle}

/-- The handle stands for a buffer that may be registered and listed, and so does whatever its key
names. -/
structure Fine (W : Warrant) (h : Handle) (w : World σ) : Prop where
  enters : W.enters h.buffer
  names : W.Names h.pool h.key w

theorem Has.fine {w : World σ} {p : PoolId} (hh : W.Has p h w) : W.Fine h w :=
  ⟨hh.enters, hh.pool ▸ hh.names⟩

theorem Fine.steps {w w' : World σ} (hf : W.Fine h w) (hs : w.Sound) (hd : WarrantedSteps W w w') :
    W.Fine h w' :=
  ⟨hf.enters, hf.names.steps hs hd⟩

theorem stable_fine : W.Stable (σ := σ) (W.Fine h) := fun _ _ hr hs hf => hf.steps hr.sound hs.steps

/-- The handles of the desk and of traversals are fine. -/
structure Open (W : Warrant) (w : World Desk) : Prop extends W.Ready w where
  fine : ∀ g ∈ w.handles, W.Fine g w

/-- An open world comes from another one by warranted steps. -/
structure Led (W : Warrant) (w₀ w : World Desk) : Prop extends W.Open w where
  steps : WarrantedSteps W w₀ w

theorem Open.led (ho : W.Open w) : W.Led w w := ⟨ho, .refl⟩

theorem Open.roots (ho : W.Open w) {g : Handle} (hg : g ∈ w.client.roots) : W.Fine g w :=
  ho.fine g (List.mem_append_left _ hg)

theorem Open.held (ho : W.Open w) {handles : List Handle} {g : Handle} (hheld : handles ∈ w.held)
    (hin : g ∈ handles) : W.Fine g w :=
  ho.fine g (List.mem_append_right _ (List.mem_flatten.2 ⟨handles, hheld, hin⟩))

/-- The handles may change, as long as they are fine. -/
theorem Led.steps_then (hl : W.Led w₀ w) (hd : WarrantedSteps W w w')
    (hg : ∀ g ∈ w'.handles, g ∈ w.handles ∨ W.Fine g w) : W.Led w₀ w' := by
  refine ⟨⟨hl.toReady.steps hd, fun g hin => ?_⟩, hl.steps.trans hd⟩
  rcases hg g hin with hold | hnew
  · exact (hl.fine g hold).steps hl.sound hd
  · exact hnew.steps hl.sound hd

theorem Led.serves (hl : W.Led w₀ w) (hs : W.Serves w w') : W.Led w₀ w' := by
  refine hl.steps_then hs.steps fun g hg => .inl ?_
  rwa [World.handles, hs.client, hs.held] at hg

theorem Led.calm (hl : W.Led w₀ w) (hc : World.Calm w w') : W.Led w₀ w' := hl.serves (.of_calm hc)

theorem harmless_client (w : World Desk) (d : Desk) : Harmless w { w with client := d } :=
  ⟨fun _ => rfl, Nat.le_refl _, fun _ _ => rfl, [], nofun, rfl⟩

theorem Led.withDesk (hl : W.Led w₀ w) {d : Desk}
    (hd : ∀ g ∈ d.roots, g ∈ w.client.roots ∨ W.Fine g w) : W.Led w₀ { w with client := d } := by
  refine hl.steps_then (.single (.harmless (harmless_client w d))) fun g hg => ?_
  rcases List.mem_append.1 hg with hroot | hheld
  · exact (hd g hroot).imp_left (List.mem_append_left _)
  · exact .inl (List.mem_append_right _ hheld)

end Warrant

namespace PoolM

variable {W : Warrant} {w₀ : World Desk}

/-- What an operation makes of open worlds. -/
theorem Warranted.led {P : World Desk → Prop} {act : DeskM α} {Q : α → World Desk → Prop}
    (h : Warranted W P act Q) :
    Triple (fun w => W.Led w₀ w ∧ P w) act (fun a w => W.Led w₀ w ∧ Q a w) (W.Led w₀) := by
  rintro w ⟨hl, hP⟩
  obtain ⟨hs, hQ⟩ := h w hl.toReady hP
  cases hr : act w with
  | ok a w' =>
      rw [leaves_of_ok hr] at hs
      exact ⟨hl.serves hs, hQ a w' hr⟩
  | error fault w' =>
      rw [leaves_of_error hr] at hs
      exact hl.serves hs

theorem Warranted.led_leaves {act : DeskM α} {Q : α → World Desk → Prop}
    (h : Warranted W (fun _ => True) act Q) : Triple (W.Led w₀) act (fun _ => W.Led w₀) (W.Led w₀) :=
  h.led.weaken (fun _ hl => ⟨hl, trivial⟩) (fun _ _ hl => hl.1) fun _ hl => hl

theorem led_calm {act : DeskM α} (h : Calm act) : Triple (W.Led w₀) act (fun _ => W.Led w₀)
    (W.Led w₀) :=
  .of_leaves fun w hl => hl.calm (h w)

end PoolM

namespace Desk

open Warrant

variable {W : Warrant} {w₀ w : World Desk} {p : PoolId} {h : Handle}

theorem led_store (name : String) (h : Handle) :
    Triple (fun w => W.Led w₀ w ∧ W.Fine h w) (store name h) (fun _ => W.Led w₀) (W.Led w₀) := by
  apply Triple.get_bind
  rintro w ⟨hl, hf⟩
  refine Triple.bind (Q := fun _ => W.Led w₀) (.modify ?_) fun _ => ?_
  · rintro _ rfl
    refine hl.withDesk fun g hg => ?_
    rcases List.mem_append.1 hg with hput | hvisit
    · rcases mem_put hput with rfl | hold
      · exact .inr hf
      · exact .inl (List.mem_append_left _ hold)
    · exact .inl (List.mem_append_right _ hvisit)
  · cases w.client.handles.lookup name with
    | none => exact .pure fun _ hl => hl
    | some old => exact led_calm (calm_drop old.buffer)

theorem led_keep (into : Option String) (r : Option Handle) :
    Triple (fun w => W.Led w₀ w ∧ ∀ g, r = some g → W.Fine g w) (keep into r) (fun _ => W.Led w₀)
      (W.Led w₀) := by
  cases r with
  | none => exact .pure fun _ hw => hw.1
  | some handle =>
      refine Triple.get_bind fun w hw => ?_
      cases into with
      | none =>
          refine Triple.pre (P := W.Led w₀) ?_ fun _ he => he ▸ hw.1
          exact (led_calm (calm_drop handle.buffer)).bind fun _ => .pure fun _ hl => hl
      | some name =>
          refine Triple.bind (Triple.pre (led_store name handle) fun _ he => ?_) fun _ =>
            .pure fun _ hl => hl
          exact he ▸ ⟨hw.1, hw.2 handle rfl⟩

theorem led_handOver (operand : Operand) (kept : Bool) (h : Handle) :
    Triple (fun w => W.Led w₀ w ∧ W.Fine h w) (handOver operand kept h)
      (fun _ w => W.Led w₀ w ∧ W.Fine h w) (W.Led w₀) := by
  unfold handOver
  split
  · refine .modify fun w hw => ⟨hw.1.withDesk fun g hg => .inl ?_, ⟨hw.2.enters, hw.2.names⟩⟩
    rcases List.mem_append.1 hg with hput | hvisit
    · exact List.mem_append_left _ (mem_remove hput)
    · exact List.mem_append_right _ hvisit
  · exact (warranted_calm stable_fine (calm_retain h.buffer)).led

theorem led_withHandle {operand : Operand} {act : Handle → DeskM Reply}
    (h : ∀ handle, Triple (fun w => W.Led w₀ w ∧ W.Fine handle w) (act handle) (fun _ => W.Led w₀)
      (W.Led w₀)) : Triple (W.Led w₀) (withHandle operand act) (fun _ => W.Led w₀) (W.Led w₀) := by
  refine Triple.get_bind fun w hl => ?_
  cases hf : w.client.find? operand with
  | none => exact .pure fun _ he => he ▸ hl
  | some handle => exact (h handle).pre fun _ he => he ▸ ⟨hl, hl.roots (find?_mem_roots hf)⟩

theorem led_withPool {act : Pool → DeskM Reply}
    (h : ∀ pool, Triple (W.Led w₀) (act pool) (fun _ => W.Led w₀) (W.Led w₀)) :
    Triple (W.Led w₀) (withPool p act) (fun _ => W.Led w₀) (W.Led w₀) := by
  refine Triple.get_bind fun w hl => ?_
  cases w.pool? p with
  | none => exact .pure fun _ he => he ▸ hl
  | some pool => exact (h pool).pre fun _ he => he ▸ hl

theorem led_done {act : DeskM Unit} {P : World Desk → Prop}
    (h : Triple P act (fun _ => W.Led w₀) (W.Led w₀)) :
    Triple P (done act) (fun _ => W.Led w₀) (W.Led w₀) :=
  h.map _ fun _ _ hl => hl

/-- Whether the request acquires what it returns. -/
def Request.acquires : Request → Bool
  | .allocate | .allocateWithin | .provide => false
  | _ => true

section Requests

variable {P : World Desk → Prop} {size : UInt64} {t : Thread}

/-- What every request returns may be handed out. -/
theorem warranted_request (hL : W.Lends none) (hP : W.Stable P) (hG : W.Grants P) (request : Request) :
    Warranted W P (request.perform p size t) fun r w =>
      P w ∧ ∀ h, r = some h → W.Provided p h w ∧ (request.acquires = true → W.Obtained p t h w) := by
  have hprovided : ∀ {act : DeskM (Option Handle)}, request.acquires = false →
      Warranted W P act (fun r w => P w ∧ ∀ h, r = some h → W.Provided p h w) →
      Warranted W P act fun r w => P w ∧ ∀ h, r = some h → W.Provided p h w ∧
        (request.acquires = true → W.Obtained p t h w) :=
    fun hno hact => hact.post fun r w hw => ⟨hw.1, fun h hr => ⟨hw.2 h hr, fun hyes =>
      Bool.noConfusion (hno.symm.trans hyes)⟩⟩
  have hobtained : ∀ {act : DeskM (Option Handle)},
      Warranted W P act (fun r w => P w ∧ ∀ h, r = some h → W.Obtained p t h w) →
      Warranted W P act fun r w => P w ∧ ∀ h, r = some h → W.Provided p h w ∧
        (request.acquires = true → W.Obtained p t h w) :=
    fun hact => hact.post fun r w hw => ⟨hw.1, fun h hr => ⟨(hw.2 h hr).toProvided, fun _ =>
      hw.2 h hr⟩⟩
  cases request with
  | allocate => exact hprovided rfl (Pool.warranted_allocate hP hG size)
  | allocateWithin => exact hprovided rfl (Pool.warranted_allocateWithin hP hG size)
  | provide => exact hprovided rfl (Pool.warranted_provide hP hG)
  | find => exact hobtained (Pool.warranted_find hL hP hG)
  | provideAcquired => exact hobtained (Pool.warranted_provideAcquired hL hP hG)
  | provideTransient => exact hobtained (Pool.warranted_provideTransient hL hP hG)
  | provideLease => exact hobtained (Pool.warranted_provideLease hL hP hG)
  | provideFull => exact hobtained (Pool.warranted_provideFull hL hP hG)
  | provideTransientFull => exact hobtained (Pool.warranted_provideTransientFull hL hP hG)
  | provideLeaseTo lane => exact hobtained (Pool.warranted_provideLeaseTo hL hP hG lane)
  | take => exact hobtained (Pool.warranted_find hL hP hG)
  | takeRetrying retries => exact hobtained (Pool.warranted_takeRetrying hL hP hG retries)
  | takeDetached => exact hobtained (Pool.warranted_takeDetached hL hP hG)
  | takeToFull => exact hobtained (Pool.warranted_takeToFull hL hP hG)
  | obtainFull => exact hobtained (Pool.warranted_obtainFull hL hP hG)
  | takeLeaseRetrying retries => exact hobtained (Pool.warranted_takeLeaseRetrying hL hP hG retries)
  | obtainLease => exact hobtained (Pool.warranted_obtainLease hL hP hG)

theorem warranted_give (hP : W.Stable P) (giving : Giving)
    (hn : h.pool = p → ∀ w, P w → W.Names p h.key w) :
    Warranted W P (giving.perform p h) fun _ => P := by
  cases giving with
  | deallocate => exact Pool.warranted_deallocate hP h
  | release lane => exact Pool.warranted_release hP lane hn
  | giveBack lane => exact Pool.warranted_giveBack hP lane hn

theorem warranted_place (hP : W.Stable P) (placing : Placing)
    (hn : h.pool = p → ∀ w, P w → W.Names p h.key w) :
    Warranted W P (placing.perform p h) fun _ => P := by
  cases placing with
  | insert lane => exact Pool.warranted_insert hP lane hn
  | remove lane => exact Pool.warranted_remove hP lane h
  | move source => exact Pool.warranted_move hP source hn

theorem warranted_pickNth (hP : W.Stable P) (lane : Lane) (dir : Direction) (n : Nat) :
    Warranted W P (pickNth p lane dir n) fun r w => P w ∧ ∀ h, r = some h → W.Has p h w := by
  apply (warranted_entries hP lane dir).bind
  intro entries
  cases he : entries[n]? with
  | none => exact .pure fun _ hw => ⟨hw.1, nofun⟩
  | some entry =>
      obtain ⟨key, b⟩ := entry
      have hstable : W.Stable (σ := Desk) fun w => P w ∧ W.Has p ⟨p, key, b⟩ w :=
        hP.and stable_has
      refine ((warranted_calm hstable (calm_retain b)).pre fun w hw => ⟨hw.1, ?_⟩).bind fun _ =>
        .pure fun _ hw => ⟨hw.1, fun _ hr => Option.some.inj hr ▸ hw.2⟩
      exact hw.2 (key, b) (List.mem_of_getElem? he)

end Requests

/-- The buffer that a call works on, and what it does to it, if it is a call on single buffers. -/
def Call.work? (me : Thread) (w : World Desk) : Call → Option (BufferId × List Act)
  | .onBuffer operand call => do
    let handle ← w.client.find? operand
    return (handle.buffer, call.acts me w.profile (w.buffer handle.buffer))
  | .carryOver old new used requested => do
    let source ← w.client.find? old
    let target ← w.client.find? new
    return (target.buffer,
      if source.buffer = target.buffer ∨ (w.buffer source.buffer).Astray w.profile ∨
        (w.buffer target.buffer).Astray w.profile then []
      else [.carryOver (w.buffer source.buffer) me used requested])
  | _ => none

theorem leaves_withHandle (operand : Operand) (act : Handle → DeskM Reply) (w : World Desk) :
    (withHandle operand act).leaves w =
      (w.client.find? operand).elim w fun handle => (act handle).leaves w := by
  rw [withHandle, leaves, get_bind]
  cases w.client.find? operand <;> rfl

theorem leaves_withPool (p : PoolId) (act : Pool → DeskM Reply) (w : World Desk) :
    (withPool p act).leaves w = (w.pool? p).elim w fun pool => (act pool).leaves w := by
  rw [withPool, leaves, get_bind]
  cases w.pool? p <;> rfl

/-- A call on a buffer does acts to it, or nothing at all. -/
theorem leaves_onBuffer_call (me : Thread) (operand : Operand) (call : BufferCall) (w : World Desk) :
    ((Call.onBuffer operand call).perform me p).leaves w =
      ((Call.onBuffer operand call).work? me w).elim w fun work => w.work work.1 work.2 := by
  rw [Call.perform, leaves_withHandle, Call.work?]
  cases w.client.find? operand with
  | none => rfl
  | some handle => exact leaves_onBuffer me handle call w

theorem leaves_carryOver_call (me : Thread) (old new : Operand) (used requested : UInt64)
    (w : World Desk) :
    ((Call.carryOver old new used requested).perform me p).leaves w =
      ((Call.carryOver old new used requested).work? me w).elim w
        fun work => w.work work.1 work.2 := by
  rw [Call.perform, leaves_withHandle, Call.work?]
  cases hold : w.client.find? old with
  | none => rfl
  | some source =>
      dsimp only [Option.elim_some]
      rw [leaves_withHandle]
      cases w.client.find? new with
      | none => rfl
      | some target =>
          exact (leaves_map _ _ w).trans
            (leaves_carryOver source.buffer target.buffer me used requested w)

/-- The warrant allows what the call does to a buffer, and a sweep may clean up for its thread. -/
structure Call.Within (W : Warrant) (me : Thread) (w : World Desk) (call : Call) : Prop where
  work : ∀ b acts, call.work? me w = some (b, acts) →
    W.alters b (w.buffer b) ((w.buffer b).perform acts)
  sweep : ∀ lane route dir maker passes, call = .sweep lane route dir maker passes →
    W.Lends (some me)

theorem led_work {call : Call} {me : Thread} (hl : W.Led w₀ w) (hc : call.Within W me w) :
    W.Led w₀ ((call.work? me w).elim w fun work => w.work work.1 work.2) := by
  cases hwork : call.work? me w with
  | none => exact hl
  | some work => exact hl.serves (.of_step (.work (hc.work _ _ hwork)) rfl rfl)

theorem calm_maker (w : World Desk) (maker : Supply) : World.Calm w { w with maker := maker } :=
  World.calm_cells rfl (Nat.le_refl _) (fun _ _ => rfl) ⟨[], nofun, rfl⟩ rfl rfl

/-- Whatever is called, on any thread and for any pool, consists of warranted steps. -/
theorem led_call {me : Thread} {call : Call} (hL : W.Lends none) (hG : ∀ b, W.grants b)
    (hw : W.Open w) (hc : call.Within W me w) : W.Led w ((call.perform me p).leaves w) := by
  have hl : W.Led w w := hw.led
  have hpure : ∀ reply : Reply, Triple (W.Led w) (pure reply) (fun _ => W.Led w) (W.Led w) :=
    fun _ => .pure fun _ hl => hl
  have hgrants : ∀ {P : World Desk → Prop}, W.Grants P := fun _ b _ _ => hG b
  have hfine : ∀ handle : Handle, handle.pool = p → ∀ w : World Desk, W.Fine handle w →
      W.Names p handle.key w := fun handle hp w hf => hp ▸ hf.names
  cases call with
  | clone operand into =>
      refine (led_withHandle fun handle => ?_ : Triple _ _ (fun _ => W.Led w) _).leaves hl
      exact (warranted_calm stable_fine (calm_retain handle.buffer)).led.bind fun _ =>
        led_done (led_store into handle)
  | discard operand =>
      cases operand with
      | visited => exact hl
      | named name =>
          refine Triple.leaves (P := W.Led w) (Triple.get_bind fun w' hl' => ?_) hl
          cases hf : w'.client.find? (.named name) with
          | none => exact (hpure _).pre fun _ he => he ▸ hl'
          | some handle =>
              refine Triple.bind ((led_handOver (.named name) false handle).pre ?_) fun _ => ?_
              · exact fun _ he => he ▸ ⟨hl', hl'.roots (find?_mem_roots hf)⟩
              · exact Triple.bind ((led_calm (calm_drop handle.buffer)).pre fun _ hl => hl.1)
                  fun _ => hpure _
  | same left right =>
      refine (led_withHandle fun _ => ?_ : Triple _ _ (fun _ => W.Led w) _).leaves hl
      exact (led_withHandle fun _ => .pure fun _ hl => hl.1).pre fun _ hl => hl.1
  | onBuffer operand call =>
      rw [leaves_onBuffer_call]
      exact led_work hl hc
  | carryOver old new used requested =>
      rw [leaves_carryOver_call]
      exact led_work hl hc
  | allowBuffers allowance => exact hl.calm (calm_maker w _)
  | stop =>
      refine hl.withDesk fun g hg => .inl ?_
      rcases List.mem_append.1 hg with hroot | hvisit
      · exact List.mem_append_left _ hroot
      · apply List.mem_append_right
        cases hpresent : w.client.present <;> simpa [hpresent] using hvisit
  | build config debug =>
      have hbuild := Pool.warranted_build (W := W) (σ := Desk) stable_true hgrants config
      refine (hbuild.led_leaves.bind fun r => ?_ : Triple (W.Led w) _ (fun _ => W.Led w) _).leaves hl
      cases r <;> exact hpure _
  | close =>
      refine Triple.leaves (P := W.Led w) (Triple.get_bind fun w' hl' => ?_) hl
      refine Triple.pre (P := W.Led w) ?_ fun _ he => he ▸ hl'
      split_ifs
      · exact (Pool.warranted_close stable_true).led_leaves.bind fun _ => hpure _
      · exact hpure _
  | allowRequests allowance =>
      refine (led_withPool fun _ => ?_ : Triple _ _ (fun _ => W.Led w) _).leaves hl
      exact (led_calm (calm_modifyPool p _ (by intro; rfl) (by intro; rfl))).bind fun _ => hpure _
  | obtain request size t into =>
      refine (led_withPool fun _ => ?_ : Triple _ _ (fun _ => W.Led w) _).leaves hl
      have hrequest : Warranted W (fun _ => True) (request.perform p size (t.getD me)) _ :=
        warranted_request hL stable_true hgrants request
      refine Triple.bind (hrequest.led.pre fun _ hl => ⟨hl, trivial⟩) fun r => ?_
      exact (led_keep into r).pre fun _ hr => ⟨hr.1, fun g hg => (hr.2.2 g hg).1.toHas.fine⟩
  | pick lane dir n into =>
      refine (led_withPool fun _ => ?_ : Triple _ _ (fun _ => W.Led w) _).leaves hl
      have hpick := warranted_pickNth (W := W) (p := p) stable_true lane dir n
      refine Triple.bind (hpick.led.pre fun _ hl => ⟨hl, trivial⟩) fun r => ?_
      exact (led_keep into r).pre fun _ hr => ⟨hr.1, fun g hg => (hr.2.2 g hg).fine⟩
  | give operand kept giving =>
      refine (led_withPool fun _ => led_withHandle fun handle => ?_ :
        Triple _ _ (fun _ => W.Led w) _).leaves hl
      apply (led_handOver operand kept handle).bind
      intro _
      exact led_done ((warranted_give stable_fine giving (hfine handle)).led.post fun _ _ hl => hl.1)
  | place operand placing =>
      refine (led_withPool fun _ => led_withHandle fun handle => ?_ :
        Triple _ _ (fun _ => W.Led w) _).leaves hl
      exact led_done ((warranted_place stable_fine placing (hfine handle)).led.post fun _ _ hl => hl.1)
  | inLane operand lane =>
      refine (led_withPool fun _ => led_withHandle fun handle => ?_ :
        Triple _ _ (fun _ => W.Led w) _).leaves hl
      exact Triple.map ((led_calm (Pool.calm_inLane p lane handle)).pre fun _ hl => hl.1) _
        fun _ _ hl => hl
  | counts | debugSection | query | debugPool =>
      exact (led_withPool fun _ => hpure _ : Triple _ _ (fun _ => W.Led w) _).leaves hl
  | list lane dir =>
      exact (led_withPool fun _ => (led_calm .get).bind fun _ => hpure _ :
        Triple _ _ (fun _ => W.Led w) _).leaves hl
  | sweep lane route dir maker passes =>
      refine (led_withPool fun _ => ?_ : Triple _ _ (fun _ => W.Led w) _).leaves hl
      have hlends := hc.sweep lane route dir maker passes rfl
      exact (Sweep.warranted_passes hlends stable_true route dir passes _).led_leaves.map _
        fun _ _ hl => hl

end Desk

end BufferPool
