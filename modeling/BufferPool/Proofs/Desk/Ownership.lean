import BufferPool.Proofs.Desk.Cursors
import BufferPool.Proofs.Desk.Journal

/-!
# Owners along a run

Whoever has acquired a buffer has it until it is released by a call, or emptied by a sweep on the
owner's own thread. Meanwhile nobody else is given it: no attempt to acquire it succeeds, no request
returns it, and what only the owner may do is denied to everybody else. No operation of a pool releases
what it has not acquired itself.

So, if threads release only what they own, no two of them have one buffer at the same time, each from
when it was acquired for it to when it gives it up.
-/

namespace BufferPool

open PoolM World
open Buffer (Act Lent)

namespace Buffer

/-- An owner loses the buffer by a release only. -/
theorem Act.owner_apply {b : Buffer} {a : Act} {t : Thread} (h : b.owner = some t)
    (ha : a ≠ .release) : (a.apply b).owner = some t := by
  cases a with
  | acquire u => rw [apply, if_neg (by simp [h]), h]
  | tryAcquire u =>
      rw [apply, Buffer.tryAcquire, if_neg (by simp [h])]
      exact h
  | release => exact absurd rfl ha
  | stage me bytes =>
      simp only [apply]
      cases hs : b.stage me bytes with
      | error e => exact h
      | ok staged =>
          obtain ⟨-, rfl⟩ := stage_eq_ok hs
          exact h
  | commit me count =>
      simp only [apply]
      cases hc : b.commit me count with
      | error e => exact h
      | ok committed =>
          obtain ⟨-, rfl⟩ := commit_eq_ok hc
          exact h
  | write me bytes =>
      simp only [apply]
      cases hw : b.write me bytes with
      | error e => exact h
      | ok written =>
          obtain ⟨-, rfl⟩ := write_eq_ok hw
          exact h
  | reset me =>
      simp only [apply]
      split_ifs <;> exact h
  | carryOver source me used requested =>
      simp only [apply]
      cases hs : source.carryOver b false me used requested with
      | error e => exact h
      | ok received =>
          obtain ⟨bytes, rfl⟩ := carryOver_eq_ok hs
          exact h
  | flush | markTransient | markLease | setRetired | displace => exact h

theorem owner_perform {b : Buffer} {acts : List Act} {t : Thread} (h : b.owner = some t)
    (ha : ∀ a ∈ acts, a ≠ .release) : (b.perform acts).owner = some t := by
  induction acts generalizing b with
  | nil => exact h
  | cons a rest ih =>
      exact ih (a.owner_apply h (ha a List.mem_cons_self))
        fun a' ha' => ha a' (List.mem_cons_of_mem _ ha')

end Buffer

namespace Desk

variable {d : StepLabel} {s s' start : Scene} {b : BufferId} {t : Thread} {log : List Entry}

/-- Only the call to release a buffer releases it. -/
theorem BufferCall.ne_release_of_mem {call : BufferCall} {me : Thread} {profile : Profile}
    {x : Buffer} (hcall : call ≠ .release) : ∀ a ∈ call.acts me profile x, a ≠ .release := by
  rintro _ ha rfl
  cases call with
  | release => exact hcall rfl
  | write | stage | markLease =>
      rw [acts] at ha
      split_ifs at ha
      · exact nomatch ha
      · exact nomatch List.mem_singleton.1 ha
  | info | debug | read => exact nomatch ha
  | _ => exact nomatch List.mem_singleton.1 ha

namespace StepLabel

/-- The thread on which the buffer is released by a call. -/
def releaser? (b : BufferId) (w : World Desk) (d : StepLabel) : Option Thread :=
  match d.call? b w with
  | some (me, .release) => some me
  | _ => none

/-- Whether the owner may lose the buffer: somebody releases it, or the owner sweeps. -/
def Yields (b : BufferId) (t : Thread) (w : World Desk) (d : StepLabel) : Prop :=
  (d.releaser? b w).isSome = true ∨ d.sweeper = some t

instance (b : BufferId) (t : Thread) (w : World Desk) (d : StepLabel) : Decidable (d.Yields b t w) :=
  inferInstanceAs (Decidable (_ ∨ _))

theorem Leads.owner (hs : s.Kept) (h : d.Leads s s') (ho : (s.world.buffer b).owner = some t)
    (hy : ¬d.Yields b t s.world) : (s'.world.buffer b).owner = some t := by
  cases h.touches hs (lt_size_of_owner ho) with
  | @call me call hcall heq =>
      rw [heq]
      refine Buffer.owner_perform ho (BufferCall.ne_release_of_mem ?_)
      rintro rfl
      exact hy (.inl (by rw [releaser?, hcall]; rfl))
  | carry _ _ heq =>
      rw [heq]
      exact Act.owner_apply ho nofun
  | lent _ hcleans hlent =>
      exact hlent.owner t ho fun hcleaner => hy (.inr (hcleans t hcleaner).sweeper)

end StepLabel

/-- As long as nothing is done by which the owner may lose the buffer, the owner has it. -/
theorem Scene.Logs.owner (hs : start.Kept) (h : start.Logs log s)
    (ho : (start.world.buffer b).owner = some t)
    (hlog : ∀ e ∈ log, ¬e.label.Yields b t e.before.world) :
    (s.world.buffer b).owner = some t := by
  induction h with
  | refl => exact ho
  | @step log s s' d h hd ih =>
      have howner := ih fun e he => hlog e (List.mem_append_left _ he)
      exact hd.owner (Scene.Reaches.kept hs h.reaches) howner
        (hlog ⟨s, d, s'⟩ (List.mem_append_right _ List.mem_cons_self))

/-- What an owned buffer is kept from. -/
structure Scene.Reserved (s : Scene) (b : BufferId) (t : Thread) : Prop where
  /-- Nobody acquires it, not even the owner. -/
  acquire : ∀ me handle u, handle.buffer = b →
    (BufferCall.acquire u).perform me handle s.world = .ok (.refused .wouldSpin) s.world
  tryAcquire : ∀ u, PoolM.tryAcquire b u s.world = .ok false (s.world.modifyBuffer b (·.countAttempt))
  /-- Nobody is given it. -/
  request : ∀ (request : Request) p size u h w',
    request.perform p size u s.world = .ok (some h) w' → h.buffer ≠ b
  /-- Nobody else does anything to its content. -/
  denied : ∀ me handle call answer, me ≠ t → handle.buffer = b →
    BufferCall.denial? call = some answer → call.perform me handle s.world = denied answer s.world
  carryOver : ∀ old me used requested, me ≠ t →
    ∃ fault, PoolM.carryOver old b me used requested s.world = .error (.transfer fault) s.world

/-- No request returns a buffer that somebody owns. -/
theorem Scene.Kept.request_ne (hs : s.Kept) (ho : (s.world.buffer b).owner = some t)
    {request : Request} {p : PoolId} {size : UInt64} {u : Thread} {h : Handle} {w' : World Desk}
    (hrun : request.perform p size u s.world = .ok (some h) w') : h.buffer ≠ b := by
  let W : Warrant := .lending none (· ≠ b)
  have hready : W.Ready s.world := (hs.open fun _ => trivial).world.toReady
  have hgrants : W.Grants (σ := Desk) fun w => (w.buffer b).owner = some t := by
    rintro w b' ho' hfree rfl
    exact nomatch hfree.symm.trans ho'
  have hlends := Warrant.lends_lending none (· ≠ b)
  have hstable := Warrant.stable_owner (σ := Desk) (Warrant.firm_lending (· ≠ b)) b t
  obtain ⟨-, hprovided⟩ :=
    (warranted_request hlends hstable hgrants request s.world hready ho).2 (some h) w' hrun
  exact (hprovided h rfl).1.grants

theorem Scene.Kept.reserved (hs : s.Kept) (ho : (s.world.buffer b).owner = some t) :
    s.Reserved b t := by
  refine ⟨?_, fun u => ?_, fun _ _ _ _ _ _ hrun => hs.request_ne ho hrun, ?_,
    fun old me used requested hme => carryOver_of_other (hs.not_astray old) ?_⟩
  · rintro me handle u rfl
    rw [BufferCall.perform, getBuffer_bind, if_pos (by simp [ho])]
    rfl
  · have hlost : (s.world.buffer b).tryAcquire u = (false, (s.world.buffer b).countAttempt) :=
      if_neg (by simp [ho])
    rw [PoolM.tryAcquire, getBuffer_bind, hlost]
    exact congrArg (EStateM.Result.ok false) (modifyBuffer_congr rfl)
  · rintro me handle call answer hme rfl hdenial
    refine perform_of_denial hdenial fun hmine => hme ?_
    exact Option.some.inj (hmine.symm.trans ho)
  · exact fun hmine => hme (Option.some.inj (hmine.symm.trans ho))

/-- The buffer is acquired for the thread, and nobody had it before. -/
inductive StepLabel.Acquires (b : BufferId) (t : Thread) (w : World Desk) : StepLabel → Prop where
  | acquire {d : StepLabel} {me : Thread} {u : Option Thread}
      (hcall : d.call? b w = some (me, .acquire u)) (hfree : (w.buffer b).owner = none)
      (ht : t = u.getD me) : Acquires b t w d
  | tryAcquire {d : StepLabel} {me : Thread} {u : Option Thread}
      (hcall : d.call? b w = some (me, .tryAcquire u)) (hfree : (w.buffer b).owner = none)
      (ht : t = u.getD me) : Acquires b t w d
  /-- A request that acquires has returned the buffer. -/
  | obtain {me : Thread} {p : PoolId} {request : Request} {size : UInt64} {u : Option Thread}
      {into : Option String} {h : Handle} {w' : World Desk} (hlive : (w.pool? p).isSome = true)
      (hacquires : request.acquires = true)
      (hrun : request.perform p size (u.getD me) w = .ok (some h) w') (hb : h.buffer = b)
      (ht : t = u.getD me) : Acquires b t w (.call me p (.obtain request size u into))

/-- A call is made on a buffer through an operand. -/
theorem StepLabel.mem_of_call? {w : World Desk} {made : Thread × BufferCall}
    (h : d.call? b w = some made) :
    ∃ operand, (w.client.find? operand).map (·.buffer) = some b := by
  unfold StepLabel.call? at h
  split at h
  · split_ifs at h with hon
    exact ⟨_, hon⟩
  · exact nomatch h

/-- The buffer of a handle on the desk is there. -/
theorem StepLabel.lt_size_of_call? (hs : s.Kept) {me : Thread} {call : BufferCall}
    (h : d.call? b s.world = some (me, call)) : b < s.world.cells.size := by
  obtain ⟨k, hk⟩ := hs
  obtain ⟨operand, hon⟩ := mem_of_call? h
  obtain ⟨handle, hf, rfl⟩ := Option.map_eq_some_iff.1 hon
  refine hk.lt_size_of_mem (Multiset.mem_add.2 (.inr ?_))
  have hroot : handle ∈ s.world.handles := List.mem_append_left _ (find?_mem_roots hf)
  exact Multiset.mem_coe.2 (List.mem_map_of_mem hroot)

theorem spares_modifyDesk (f : Desk → Desk) : Spares (modifyDesk f) := .modify fun _ _ => rfl

theorem spares_store (name : String) (handle : Handle) : Spares (store name handle) := by
  apply Spares.get.bind
  intro w
  apply (spares_modifyDesk _).bind
  intro _
  cases w.client.handles.lookup name with
  | none => exact .pure _
  | some old => exact spares_drop old.buffer

/-- Keeping a handle leaves all buffers as they are. -/
theorem spares_keep (into : Option String) (r : Option Handle) : Spares (keep into r) := by
  cases r with
  | none => exact .pure _
  | some handle =>
      apply Spares.get.bind
      intro w
      cases into with
      | none => exact (spares_drop handle.buffer).bind fun _ => .pure _
      | some name => exact (spares_store name handle).bind fun _ => .pure _

/-- What a request that acquires returns belongs to the thread that it was made for. -/
theorem Scene.Kept.request_owner (hs : s.Kept) {request : Request} (ha : request.acquires = true)
    {p : PoolId} {size : UInt64} {u : Thread} {h : Handle} {w' : World Desk}
    (hrun : request.perform p size u s.world = .ok (some h) w') :
    (w'.buffer h.buffer).owner = some u := by
  let W : Warrant := .lending none fun _ => True
  have hready : W.Ready s.world := (hs.open fun _ => trivial).world.toReady
  have hlends := Warrant.lends_lending none fun _ => True
  obtain ⟨-, hprovided⟩ := (warranted_request hlends (Warrant.stable_true (W := W))
    (fun _ _ _ _ => trivial) request s.world hready trivial).2 (some h) w' hrun
  exact ((hprovided h rfl).2 ha).owner (Warrant.firm_lending _)

theorem StepLabel.Leads.acquires (hs : s.Kept) (h : d.Leads s s') (ha : d.Acquires b t s.world) :
    (s'.world.buffer b).owner = some t := by
  have htouches : ∀ {me : Thread} {call : BufferCall}, d.call? b s.world = some (me, call) →
      s'.world.buffer b =
        (s.world.buffer b).perform (call.acts me s.world.profile (s.world.buffer b)) := by
    intro me call hcall
    cases h.touches hs (lt_size_of_call? hs hcall) with
    | call hcall' heq =>
        obtain ⟨rfl, rfl⟩ := Prod.mk.inj (Option.some.inj (hcall'.symm.trans hcall))
        exact heq
    | carry hnone _ _ => exact nomatch hnone.symm.trans hcall
    | lent hnone _ => exact nomatch hnone.symm.trans hcall
  cases ha with
  | @acquire _ me u hcall hfree ht =>
      rw [htouches hcall, ht]
      change ((Act.acquire (u.getD me)).apply (s.world.buffer b)).owner = _
      rw [Act.apply, if_pos (by simp [hfree])]
      rfl
  | @tryAcquire _ me u hcall hfree ht =>
      rw [htouches hcall, ht]
      change ((Act.tryAcquire (u.getD me)).apply (s.world.buffer b)).owner = _
      rw [Act.apply, Buffer.tryAcquire, if_pos (by simp [hfree])]
      rfl
  | @obtain me p request size u into g w' hlive hacquires hrun hb ht =>
      obtain ⟨pool, hp⟩ := Option.isSome_iff_exists.1 hlive
      have heffect : s'.world =
          ((Call.obtain request size u into).perform me p).leaves s.world := h.effect
      have hcall : ((Call.obtain request size u into).perform me p).leaves s.world =
          (keep into (some g)).leaves w' := by
        rw [Call.perform, withPool, leaves, get_bind, hp]
        dsimp only
        rw [bind_of_ok _ hrun, leaves]
      rw [heffect, hcall, (spares_keep into (some g)).buffer_leaves, ← hb, ht]
      exact hs.request_owner hacquires hrun

/-- Whether the thread gives the buffer up: it releases the buffer, or it sweeps. -/
def StepLabel.GivesUp (b : BufferId) (t : Thread) (w : World Desk) (d : StepLabel) : Prop :=
  d.releaser? b w = some t ∨ d.sweeper = some t

/-- After what the journal tells, the thread has the buffer: it was acquired for the thread, which has
not given it up since, whatever others did. -/
inductive Has (b : BufferId) (t : Thread) : List Entry → Prop where
  | acquired {log : List Entry} {e : Entry} (h : e.label.Acquires b t e.before.world) :
      Has b t (log ++ [e])
  | kept {log : List Entry} {e : Entry} (h : Has b t log)
      (hgives : ¬e.label.GivesUp b t e.before.world) : Has b t (log ++ [e])

/-- Along the journal, only owners release the buffer. -/
def Fair (b : BufferId) (log : List Entry) : Prop :=
  ∀ e ∈ log, ∀ me ∈ e.label.releaser? b e.before.world,
    (e.before.world.buffer b).owner = some me

instance (b : BufferId) (log : List Entry) : Decidable (Fair b log) :=
  inferInstanceAs (Decidable (∀ e ∈ log, ∀ me ∈ e.label.releaser? b e.before.world, _))

theorem Has.cases {e : Entry} (h : Has b t (log ++ [e])) :
    e.label.Acquires b t e.before.world ∨ Has b t log ∧ ¬e.label.GivesUp b t e.before.world := by
  generalize hlog : log ++ [e] = whole at h
  cases h with
  | acquired ha =>
      obtain ⟨rfl, he⟩ := List.append_inj' hlog rfl
      exact .inl ((List.cons.inj he).1 ▸ ha)
  | kept h hgives =>
      obtain ⟨rfl, he⟩ := List.append_inj' hlog rfl
      exact .inr ⟨h, (List.cons.inj he).1 ▸ hgives⟩

theorem Has.nonempty (h : Has b t log) : log ≠ [] := by
  cases h <;> exact List.append_ne_nil_of_right_ne_nil _ (List.cons_ne_nil _ _)

theorem has_of_call {me : Thread} {p : PoolId} {call : Call} {w : World Desk}
    (h : (StepLabel.call me p call).Acquires b t w) (log : List Entry) :
    Has b t (log ++ journal me p [call] w) :=
  .acquired h

/-- Who has a buffer owns it, if only owners release it. -/
theorem Scene.Logs.owner_of_has (hs : start.Kept) (h : start.Logs log s) (hfair : Fair b log)
    (hhas : Has b t log) : (s.world.buffer b).owner = some t := by
  induction h with
  | refl => exact absurd rfl hhas.nonempty
  | @step log s s' d h hd ih =>
      have hkept : s.Kept := Scene.Reaches.kept hs h.reaches
      rcases hhas.cases with hacquires | ⟨hbefore, hgives⟩
      · exact hd.acquires hkept hacquires
      · have howner := ih (fun e he => hfair e (List.mem_append_left _ he)) hbefore
        refine hd.owner hkept howner ?_
        rintro (hreleased | hsweeper)
        · -- Whoever releases the buffer owns it, so it is this thread.
          obtain ⟨me, hme⟩ := Option.isSome_iff_exists.1 hreleased
          have hmine := hfair ⟨s, d, s'⟩ (List.mem_append_right _ List.mem_cons_self) me hme
          obtain rfl : me = t := Option.some.inj (hmine.symm.trans howner)
          exact hgives (.inl hme)
        · exact hgives (.inr hsweeper)

/-- What is acquired for a thread belongs to it until it is released or the thread sweeps, and is kept
from everybody else meanwhile. If only owners release a buffer, then no two threads ever have it at the
same time. -/
theorem handed_out_exclusively {profile : Profile} {format : Format} {maker : Supply} {s : Scene}
    (hs : (Scene.empty profile format maker).Reaches s) :
    (∀ d s', StepLabel.Leads d s s' → ∀ b t, d.Acquires b t s.world →
      (s'.world.buffer b).owner = some t) ∧
    (∀ b t, (s.world.buffer b).owner = some t → ∀ log s', s.Logs log s' →
      (∀ e ∈ log, ¬e.label.Yields b t e.before.world) →
        (s'.world.buffer b).owner = some t ∧ s'.Reserved b t) ∧
    ∀ log s', s.Logs log s' → ∀ b, Fair b log →
      ∀ t u, Has b t log → Has b u log → t = u := by
  have hkept : s.Kept := Scene.Reaches.kept (kept_empty profile format maker) hs
  refine ⟨fun d s' h b t ha => h.acquires hkept ha, fun b t ho log s' hlog hyields => ?_,
    fun log s' hlog b hfair t u ht hu => ?_⟩
  · have howner := hlog.owner hkept ho hyields
    exact ⟨howner, (Scene.Reaches.kept hkept hlog.reaches).reserved howner⟩
  · have howner := hlog.owner_of_has hkept hfair ht
    exact Option.some.inj (howner.symm.trans (hlog.owner_of_has hkept hfair hu))

/-- Thread 0 publishes its buffer. Thread 1 neither acquires nor empties it until thread 0 has released
it, and then has it in turn. -/
theorem published_buffer_kept :
    let w := performAll 0 0 [.build .standard false] (.empty .checked .plain (.within none) .empty)
    let obtained := journal 0 0 [.obtain .provideFull 100 none (some "a")] w
    let w₁ := performAll 0 0 [.obtain .provideFull 100 none (some "a")] w
    let attempts : List Call := [.onBuffer (.named "a") (.tryAcquire none),
      .obtain .take 100 none none, .sweep .full .full .forward none 1]
    let w₂ := performAll 1 0 attempts w₁
    let returned : List Call := [.onBuffer (.named "a") .release]
    let w₃ := performAll 0 0 returned w₂
    let acquired := journal 1 0 [.onBuffer (.named "a") (.tryAcquire none)] w₃
    let log := obtained ++ journal 1 0 attempts w₁ ++ journal 0 0 returned w₂ ++ acquired
    (w₁.buffer 0).owner = some 0 ∧
      ((w₂.buffer 0).owner = some 0 ∧ Scene.Reserved ⟨w₂, []⟩ 0 0) ∧
      Fair 0 log ∧ Has 0 1 log ∧ ∀ u, Has 0 u log → u = 1 := by
  intro w obtained w₁ attempts w₂ returned w₃ acquired log
  have hrun : (Scene.empty .checked .plain (.within none)).Reaches ⟨w, []⟩ :=
    reaches_performAll 0 0 _ _
  have hobtained : Scene.Logs ⟨w, []⟩ obtained ⟨w₁, []⟩ := logs_journal 0 0 _ w
  have hattempts : Scene.Logs ⟨w₁, []⟩ (journal 1 0 attempts w₁) ⟨w₂, []⟩ := logs_journal 1 0 _ w₁
  have hreturned : Scene.Logs ⟨w₂, []⟩ (journal 0 0 returned w₂) ⟨w₃, []⟩ := logs_journal 0 0 _ w₂
  have hacquired : Scene.Logs ⟨w₃, []⟩ acquired _ := logs_journal 1 0 _ w₃
  have hlog := ((hobtained.trans hattempts).trans hreturned).trans hacquired
  obtain ⟨hacquires, -, -⟩ := handed_out_exclusively hrun
  obtain ⟨-, hkeeps, -⟩ := handed_out_exclusively (hrun.trans hobtained.reaches)
  obtain ⟨-, -, hexclusive⟩ := handed_out_exclusively hrun
  -- What thread 0 is given is the first buffer.
  have hgiven : (Request.provideFull.perform 0 100 0).run' w = some (some ⟨0, ⟨0, 0⟩, 0⟩) := by
    decide +kernel
  obtain ⟨w', hw'⟩ := exists_of_run' hgiven
  have hfirst : StepLabel.Acquires 0 0 w (.call 0 0 (.obtain .provideFull 100 none (some "a"))) :=
    .obtain (by decide +kernel) rfl hw' rfl rfl
  have hothers : ∀ e ∈ journal 1 0 attempts w₁, ¬e.label.Yields 0 0 e.before.world := by
    decide +kernel
  have hleads := leads_call 0 0 (.obtain .provideFull 100 none (some "a")) w
  have howner := hacquires _ _ hleads 0 0 hfirst
  have hreserved := hkeeps 0 0 howner _ _ hattempts hothers
  dsimp only at howner hreserved
  have hfair : Fair 0 log := by decide +kernel
  have hfree : (w₃.buffer 0).owner = none := by decide +kernel
  have hfound : (w₃.client.find? (.named "a")).map (·.buffer) = some 0 := by decide +kernel
  have hon := StepLabel.call?_onBuffer 1 0 (.tryAcquire none) hfound
  have hnext : Has 0 1 log := has_of_call (.tryAcquire hon hfree rfl) _
  exact ⟨howner, hreserved, hfair, hnext,
    fun u hu => (hexclusive log _ hlog 0 hfair 1 u hnext hu).symm⟩

end Desk

end BufferPool
