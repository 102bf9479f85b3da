import BufferPool.Desk.Perform
import BufferPool.Proofs.World.Lifetime

/-!
# What each call does to the past

A desk only ever holds handles that some operation returned or that it held before under another
name. So the chronicle goes on knowing all of them, whatever is called and whichever way the call
ends.
-/

namespace BufferPool

open PoolM

instance : Client Desk := ⟨Desk.roots⟩

theorem Fits.withDesk {c : Chronicle} {w : World Desk} {d : Desk} (h : Fits c w)
    (hd : ∀ g ∈ d.roots, c.Known g) : Fits c { w with client := d } :=
  ⟨h.unbuilt, h.arena, h.closed, h.cells, h.reserved, h.held, hd⟩

namespace Desk

theorem mem_put {name : String} {h g : Handle} {handles : List (String × Handle)}
    (hg : g ∈ (put name h handles).map (·.2)) : g = h ∨ g ∈ handles.map (·.2) := by
  induction handles with
  | nil => exact .inl (List.mem_singleton.1 hg)
  | cons entry rest ih =>
      obtain ⟨other, k⟩ := entry
      unfold put at hg
      split_ifs at hg
      · exact List.mem_cons.1 hg
      · exact (List.mem_cons.1 hg).imp_right (List.mem_cons_of_mem _)
      · rcases List.mem_cons.1 hg with hk | hrest
        · exact .inr (hk ▸ List.mem_cons_self)
        · exact (ih hrest).imp_right (List.mem_cons_of_mem _)

theorem mem_remove {name : String} {g : Handle} {handles : List (String × Handle)}
    (hg : g ∈ (remove name handles).map (·.2)) : g ∈ handles.map (·.2) := by
  obtain ⟨entry, hin, rfl⟩ := List.mem_map.1 hg
  exact List.mem_map_of_mem (List.mem_of_mem_filter hin)

theorem find?_mem_roots {d : Desk} {operand : Operand} {h : Handle}
    (hf : d.find? operand = some h) : h ∈ d.roots := by
  cases operand with
  | named name =>
      obtain ⟨before, after, hl, -⟩ := List.lookup_eq_some_iff.1 hf
      have hin : (name, h) ∈ d.handles := hl ▸ List.mem_append_right _ List.mem_cons_self
      exact List.mem_append_left _ (List.mem_map_of_mem hin)
  | visited =>
      apply List.mem_append_right
      obtain ⟨visit, hv, rfl⟩ := Option.map_eq_some_iff.1 hf
      apply List.mem_map_of_mem
      rw [hv]
      exact List.mem_cons_self

/-- The desk goes on with handles that are known. -/
theorem evolves_modifyDesk {P : Chronicle → World Desk → Prop} {f : Desk → Desk}
    (h : ∀ c (w : World Desk), P c w → (∀ g ∈ w.client.roots, c.Known g) →
      ∀ g ∈ (f w.client).roots, c.Known g) :
    Evolves P Eq (modifyDesk f) Anything := by
  intro c w hfit hP
  have hrun : modifyDesk f w = .ok () { w with client := f w.client } := rfl
  refine ⟨c, rfl, ?_, fun _ _ _ => trivial⟩
  rw [leaves_of_ok hrun]
  exact hfit.withDesk (h c w hP hfit.roots)

theorem evolves_store (name : String) (handle : Handle) :
    Evolves (Gives handle) Eq (store name handle) Anything := by
  apply Evolves.get_bind
  intro w
  have hput : Evolves (fun c w' => Gives handle c w' ∧ w' = w) Eq
      (modifyDesk fun d => { d with handles := put name handle d.handles }) Anything := by
    apply evolves_modifyDesk
    intro c w' hgives hroots g hg
    rcases List.mem_append.1 hg with hg | hg
    · rcases mem_put hg with rfl | hg
      · exact hgives.1
      · exact hroots g (List.mem_append_left _ hg)
    · exact hroots g (List.mem_append_right _ hg)
  apply hput.bind_eq
  intro _
  cases w.client.handles.lookup name with
  | none => exact .quiet (.pure _)
  | some old => exact .quiet (PoolM.quiet_drop _)

theorem evolves_keep (into : Option String) (r : Option Handle) :
    Evolves (GivesSome r) Eq (keep into r) Anything := by
  cases r with
  | none => exact .quiet (.pure _)
  | some handle =>
      have hgives : ∀ (c : Chronicle) (w : World Desk), GivesSome (some handle) c w →
          Gives handle c w := fun _ _ h => h handle rfl
      apply Evolves.get_bind
      intro w
      cases into with
      | none => exact .quiet ((PoolM.quiet_drop _).bind fun _ => .pure _)
      | some name =>
          apply ((evolves_store name handle).weaken (fun c w h => hgives c w h.1) id
            fun _ _ _ h => h).bind_eq
          intro _
          exact .quiet (.pure _)

theorem evolves_handOver (operand : Operand) (kept : Bool) (handle : Handle) :
    Evolves Always Eq (handOver operand kept handle) Anything := by
  unfold handOver
  split
  · apply evolves_modifyDesk
    intro c w _ hroots g hg
    rcases List.mem_append.1 hg with hg | hg
    · exact hroots g (List.mem_append_left _ (mem_remove hg))
    · exact hroots g (List.mem_append_right _ hg)
  · exact .quiet (PoolM.quiet_retain _)

theorem evolves_withHandle {F : Chronicle → Chronicle → Prop} {operand : Operand}
    {act : Handle → DeskM Reply} (hF : ∀ c, F c c)
    (h : ∀ handle, Evolves (Gives handle) F (act handle) Anything) :
    Evolves Always F (withHandle operand act) Anything := by
  apply Evolves.get_bind
  intro w c w' hfit hw
  obtain rfl := hw.2
  cases hf : w'.client.find? operand with
  | none => exact ⟨c, hF c, hfit, fun _ _ _ => trivial⟩
  | some handle => exact h handle c w' hfit (hfit.roots handle (find?_mem_roots hf))

theorem evolves_withPool {F : Chronicle → Chronicle → Prop} {p : PoolId} {act : Pool → DeskM Reply}
    (hF : ∀ c, F c c) (h : ∀ pool, Evolves Always F (act pool) Anything) :
    Evolves Always F (withPool p act) Anything := by
  apply Evolves.get_bind
  intro w
  cases w.pool? p with
  | none => exact fun c w' hfit _ => ⟨c, hF c, hfit, fun _ _ _ => trivial⟩
  | some pool => exact (h pool).always

theorem evolves_pickNth (p : PoolId) (lane : Lane) (dir : Direction) (n : Nat) :
    Evolves Always Eq (pickNth p lane dir n) GivesSome := by
  apply (Pool.evolves_entries p lane dir).bind_eq
  intro entries
  cases he : entries[n]? with
  | none => exact Pool.evolves_none fun _ => rfl
  | some entry =>
      obtain ⟨key, b⟩ := entry
      have hretain : Evolves (σ := Desk) (Gives ⟨p, key, b⟩) Eq (retain b)
          fun _ => Gives ⟨p, key, b⟩ := .quiet_gives (PoolM.quiet_retain b)
      apply (hretain.bind_eq fun _ => ?_).weaken
        (fun c w h => h (key, b) (List.mem_of_getElem? he)) id fun _ _ _ h => h
      apply Evolves.pure
      intro c w hk h hh
      rw [← Option.some.inj hh]
      exact hk

theorem quiet_done {act : DeskM Unit} (h : Quiet act) : Quiet (done act) := h.map _

theorem evolves_done {P : Chronicle → World Desk → Prop} {F : Chronicle → Chronicle → Prop}
    {act : DeskM Unit} (h : Evolves P F act Anything) : Evolves P F (done act) Anything :=
  h.bind_eq fun _ => .quiet (.pure _)

theorem evolves_onBuffer (me : Thread) (handle : Handle) (call : BufferCall) :
    Evolves Always Eq (call.perform me handle) Anything := by
  cases call with
  | info => exact .quiet (Quiet.get.bind fun _ => (quiet_expect _ _).bind fun _ => .pure _)
  | debug => exact .quiet (Quiet.get.bind fun _ => .pure _)
  | acquire t =>
      apply (Evolves.quiet (quiet_getBuffer _)).bind_eq
      intro buffer
      split_ifs
      · exact .quiet (.pure _)
      · exact .quiet (quiet_done (quiet_acquire _ _))
  | tryAcquire t => exact .quiet ((quiet_tryAcquire _ _).map _)
  | release => exact .quiet (quiet_done (PoolM.quiet_release _))
  | write bytes => exact .quiet ((quiet_write _ _ _).map _)
  | stage bytes => exact .quiet ((quiet_stage _ _ _).map _)
  | commit count => exact .quiet ((quiet_commit _ _ _).map _)
  | read => exact .quiet ((quiet_read _ _).bind fun _ => .pure _)
  | flush => exact .quiet ((quiet_flush _).bind fun _ => .pure _)
  | reset => exact .quiet (quiet_done (quiet_reset _ _))
  | setRetired retired => exact .quiet (quiet_done (quiet_modifyBuffer _ _))
  | markTransient => exact .quiet (quiet_done (quiet_markTransient _))
  | markLease => exact .quiet (quiet_done (quiet_markLease _))
  | displace distance =>
      exact .quiet ((quiet_modifyBuffer _ _).bind fun _ => (quiet_getBuffer _).bind fun _ => .pure _)

theorem evolves_request (p : PoolId) (size : UInt64) (t : Thread) (request : Request) :
    Evolves Always Chronicle.Updates (request.perform p size t) GivesSome := by
  cases request with
  | allocate => exact Pool.evolves_allocate p size
  | allocateWithin => exact Pool.evolves_allocateWithin p size
  | find => exact (Pool.evolves_find p size t).vacates.updates
  | provide => exact Pool.evolves_provide p size
  | provideAcquired => exact Pool.evolves_provideAcquired p size t
  | provideTransient => exact Pool.evolves_provideTransient p size t
  | provideLease => exact Pool.evolves_provideLease p size t
  | provideFull => exact Pool.evolves_provideFull p size t
  | provideTransientFull => exact Pool.evolves_provideTransientFull p size t
  | provideLeaseTo lane => exact Pool.evolves_provideLeaseTo p lane size t
  | take => exact (Pool.evolves_find p size t).vacates.updates
  | takeRetrying retries => exact (Pool.evolves_takeRetrying p size retries t).vacates.updates
  | takeDetached => exact (Pool.evolves_takeDetached p size t).vacates.updates
  | takeToFull => exact (Pool.evolves_takeToFull p size t).vacates.updates
  | obtainFull => exact Pool.evolves_obtainFull p size t
  | takeLeaseRetrying retries =>
      exact (Pool.evolves_takeLeaseRetrying p size retries t).vacates.updates
  | obtainLease => exact Pool.evolves_obtainLease p size t

theorem evolves_give (p : PoolId) (handle : Handle) (giving : Giving) :
    Evolves Always Chronicle.Vacates (giving.perform p handle) Anything := by
  cases giving with
  | deallocate => exact Pool.evolves_deallocate p handle
  | release lane => exact Pool.evolves_release p lane handle
  | giveBack lane => exact Pool.evolves_giveBack p lane handle

theorem evolves_place (p : PoolId) (handle : Handle) (placing : Placing) :
    Evolves Always Eq (placing.perform p handle) Anything := by
  cases placing with
  | insert lane => exact Pool.evolves_insert p lane handle
  | remove lane => exact Pool.evolves_take_out p lane handle
  | move source => exact Pool.evolves_move p source handle

/-- Whatever is called, on any thread and for any pool, the past goes on. -/
theorem evolves_call (me : Thread) (p : PoolId) (call : Call) :
    Evolves Always Chronicle.Updates (call.perform me p) Anything := by
  have hquiet : ∀ {act : DeskM Reply}, Quiet act → Evolves Always Chronicle.Updates act Anything :=
    fun h => (Evolves.quiet h).vacates.updates
  cases call with
  | clone operand into =>
      refine (evolves_withHandle (fun _ => rfl) fun handle => ?_).vacates.updates
      apply (Evolves.quiet_gives (PoolM.quiet_retain handle.buffer)).bind_eq
      intro _
      exact evolves_done (evolves_store into handle)
  | discard operand =>
      cases operand with
      | visited => exact hquiet (.pure _)
      | named name =>
          refine (Evolves.get_bind fun w => ?_).vacates.updates
          cases w.client.find? (.named name) with
          | none => exact .quiet (.pure _)
          | some handle =>
              apply (evolves_handOver (.named name) false handle).always.bind_eq
              intro _
              exact .quiet ((PoolM.quiet_drop _).bind fun _ => .pure _)
  | same left right =>
      refine (evolves_withHandle (fun _ => rfl) fun _ => ?_).vacates.updates
      exact (evolves_withHandle (fun _ => rfl) fun _ => .quiet (.pure _)).always
  | onBuffer operand call =>
      exact (evolves_withHandle (fun _ => rfl) fun handle =>
        (evolves_onBuffer me handle call).always).vacates.updates
  | carryOver old new used requested =>
      refine (evolves_withHandle (fun _ => rfl) fun _ => ?_).vacates.updates
      exact (evolves_withHandle (fun _ => rfl) fun _ =>
        .quiet (quiet_done (quiet_carryOver _ _ _ _ _))).always
  | allowBuffers allowance =>
      apply hquiet
      apply Quiet.bind _ fun _ => .pure _
      exact .modify fun _ => .of_pools rfl (Nat.le_refl _) rfl rfl rfl rfl
  | stop =>
      refine (Evolves.bind_eq (evolves_modifyDesk fun c w _ hroots g hg => ?_)
        fun _ => .quiet (.pure _)).vacates.updates
      apply hroots
      rcases List.mem_append.1 hg with hg | hg
      · exact List.mem_append_left _ hg
      · apply List.mem_append_right
        cases hpresent : w.client.present <;> simpa [hpresent] using hg
  | build config debug =>
      refine ((Pool.evolves_build config).bind_eq fun r => ?_).settles
      cases r with
      | ok p => exact .quiet (.pure _)
      | error e => exact .quiet (.pure _)
  | close =>
      apply Evolves.settles
      apply Evolves.get_bind
      intro w
      split_ifs
      · exact (Pool.evolves_close p).always.bind_eq fun _ => .quiet (.pure _)
      · exact (Evolves.quiet (.pure _)).settling
  | allowRequests allowance =>
      refine (evolves_withPool (fun _ => rfl) fun _ => ?_).vacates.updates
      exact .quiet ((quiet_modifyPool p _ (by intro; rfl) (by intro; rfl) (by intro; rfl)).bind
        fun _ => .pure _)
  | obtain request size t into =>
      apply evolves_withPool .refl
      intro _
      exact (evolves_request p size (t.getD me) request).bind_eq fun r => evolves_keep into r
  | pick lane dir n into =>
      refine (evolves_withPool (fun _ => rfl) fun _ => ?_).vacates.updates
      exact (evolves_pickNth p lane dir n).bind_eq fun r => evolves_keep into r
  | give operand kept giving =>
      refine (evolves_withPool .refl fun _ => evolves_withHandle .refl fun handle => ?_).updates
      apply (evolves_handOver operand kept handle).always.vacates.bind
      intro _
      exact evolves_done (evolves_give p handle giving).always
  | place operand placing =>
      refine (evolves_withPool (fun _ => rfl) fun _ => ?_).vacates.updates
      exact evolves_withHandle (fun _ => rfl) fun handle =>
        evolves_done (evolves_place p handle placing).always
  | inLane operand lane =>
      refine (evolves_withPool (fun _ => rfl) fun _ => ?_).vacates.updates
      exact evolves_withHandle (fun _ => rfl) fun handle =>
        .quiet ((Pool.quiet_inLane p lane handle).map _)
  | counts => exact (evolves_withPool (fun _ => rfl) fun _ => .quiet (.pure _)).vacates.updates
  | list lane dir =>
      exact (evolves_withPool (fun _ => rfl) fun _ =>
        .quiet (Quiet.get.bind fun _ => .pure _)).vacates.updates
  | debugSection => exact (evolves_withPool (fun _ => rfl) fun _ => .quiet (.pure _)).vacates.updates
  | query => exact (evolves_withPool (fun _ => rfl) fun _ => .quiet (.pure _)).vacates.updates
  | debugPool => exact (evolves_withPool (fun _ => rfl) fun _ => .quiet (.pure _)).vacates.updates
  | sweep lane route dir maker passes =>
      refine (evolves_withPool .refl fun _ => ?_).updates
      exact (Sweep.evolves_passes me route dir passes _).bind_eq fun _ => .quiet (.pure _)

end Desk

end BufferPool
