import BufferPool.Proofs.Desk.Actions
import BufferPool.Proofs.Pool.Failing

/-!
# What failed releases leave behind

A release that fails leaves all pools as they are, with one exception: a buffer that is not one-shot and
not fit to be kept has left its lane when that is noticed, and is then detached. Its content is still
there for as long as somebody else refers to it, but no traversal leads to it any more, and when nobody
does, the next allocation frees it.
-/

namespace BufferPool.Desk

open PoolM World

variable {p : PoolId} {h : Handle} {w : World Desk}

/-- The lane from which a buffer is released. -/
def Giving.lane? : Giving → Option Lane
  | .deallocate => none
  | .release lane | .giveBack lane => some lane

/-- How a release ends, whichever it is. -/
theorem give_cases (hs : w.Sound) {giving : Giving} {lane : Lane} (hlane : giving.lane? = some lane)
    (p : PoolId) (h : Handle) :
    (∃ w', giving.perform p h w = .ok () w') ∨
      (∃ fault, w.Hinders p lane h fault ∧
        giving.perform p h w = .error fault (w.drop h.buffer)) ∨
      ∃ e w', Unfit p lane h w e w' ∧ giving.perform p h w = .error (.unexpected e) w' := by
  cases giving with
  | deallocate => exact nomatch hlane
  | release lane' =>
      obtain rfl := Option.some.inj hlane
      exact Pool.release_cases hs p lane' h
  | giveBack lane' =>
      obtain rfl := Option.some.inj hlane
      exact Pool.giveBack_ends hs p lane' h

/-- A failed release at any scene has one of the known reasons, and all pools and the contents of all
buffers stay as they are, unless the reason is that the buffer is not fit to be kept. For that reason a
release fails in the checked profile only, and then the buffer alone is taken out of its lane and left
detached. -/
theorem failed_release_outcome {profile : Profile} {format : Format} {maker : Supply} {s : Scene}
    (hs : (Scene.empty profile format maker).Reaches s) {p : PoolId} {h : Handle} {giving : Giving}
    {lane : Lane} (hlane : giving.lane? = some lane) {fault : Fault} {w' : World Desk}
    (hfail : giving.perform p h s.world = .error fault w') :
    (s.world.Hinders p lane h fault ∧ w'.pools = s.world.pools ∧
      ∀ b, w'.buffer b = s.world.buffer b) ∨
    ∃ e, fault = .unexpected e ∧ Unfit p lane h s.world e w' := by
  obtain ⟨k, hk⟩ := Scene.Reaches.kept (kept_empty profile format maker) hs
  rcases give_cases hk.agrees.sound hlane p h with ⟨w₁, hr⟩ | ⟨reason, hreason, hr⟩ |
    ⟨e, w₁, hunfit, hr⟩
  · exact nomatch hr.symm.trans hfail
  · obtain ⟨rfl, rfl⟩ := EStateM.Result.error.inj (hr.symm.trans hfail)
    exact .inl ⟨hreason, pools_drop s.world h.buffer, s.world.buffer_drop h.buffer⟩
  · obtain ⟨rfl, rfl⟩ := EStateM.Result.error.inj (hr.symm.trans hfail)
    exact .inr ⟨e, rfl, hunfit⟩

/-- A retired buffer is not fit to be kept: it is taken out of the full lane and nothing else happens. -/
theorem retired_buffer_unlinked :
    let w := performAll 0 0 [.build .standard false, .obtain .provideFull 100 none (some "a"),
      .onBuffer (.named "a") (.setRetired true)] (.empty .checked .plain (.within none) .empty)
    let h : Handle := ⟨0, ⟨0, 0⟩, 0⟩
    w.client.find? (.named "a") = some h ∧
      ∃ w', Pool.giveBack 0 .full h w = .error (.unexpected .notRetiredWhenKept) w' ∧
        Unfit 0 .full h w .notRetiredWhenKept w' := by
  intro w h
  have hrun : (Scene.empty .checked .plain (.within none)).Reaches ⟨w, []⟩ :=
    reaches_performAll 0 0 _ _
  have hnone : ((Giving.giveBack .full).perform 0 h).run' w = none := by decide +kernel
  have hplace : w.place? 0 ⟨0, 0⟩ ≠
      (((Giving.giveBack .full).perform 0 h).leaves w).place? 0 ⟨0, 0⟩ := by decide +kernel
  have hretired : (w.buffer 0).unfit? = some .notRetiredWhenKept := by decide +kernel
  refine ⟨by decide +kernel, ?_⟩
  cases hr : (Giving.giveBack .full).perform 0 h w with
  | ok _ w' => exact nomatch (run'_of_ok hr).symm.trans hnone
  | error fault w' =>
      rw [leaves_of_error hr] at hplace
      have hlane : (Giving.giveBack .full).lane? = some .full := rfl
      rcases failed_release_outcome hrun hlane hr with ⟨-, hpools, -⟩ | ⟨e, rfl, hunfit⟩
      · exact absurd (by simp [place?, arena?, pool?, hpools]) hplace
      · obtain rfl : .notRetiredWhenKept = e := Option.some.inj (hretired.symm.trans hunfit.unfit)
        exact ⟨w', hr, hunfit⟩

/-- A buffer in the full lane holds two bytes that nobody has flushed, and is released. The release
fails, the buffer is in no lane any more, and the next allocation frees it with the two bytes. -/
theorem unflushed_buffer_lost :
    let w := performAll 0 0 [.build .standard false, .obtain .provideFull 100 none (some "a"),
      .onBuffer (.named "a") (.write [104, 105])] (.empty .checked .plain (.within none) .empty)
    let failed := conclude ((Call.give (.named "a") false (.release .full)).perform 0 0) w
    let later := performAll 0 0 [.obtain .allocate 100 none none] failed.2
    (w.place? 0 ⟨0, 0⟩ = some (0, some .full) ∧ (w.arena? 0).map (·.count .full) = some 1) ∧
    failed.1 = .refused (.fault (.unexpected .emptyWhenKept)) ∧
    (failed.2.place? 0 ⟨0, 0⟩ = some (0, none) ∧
      (failed.2.arena? 0).map (·.count .full) = some 0) ∧
    (failed.2.buffer 0).unflushed = [104, 105] ∧ failed.2.refs 0 = 1 ∧ later.refs 0 = 0 := by
  decide +kernel

end BufferPool.Desk
