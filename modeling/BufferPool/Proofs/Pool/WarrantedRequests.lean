import BufferPool.Sweep
import BufferPool.Proofs.Pool.WarrantedOperations
import BufferPool.Proofs.Pool.Lookup

/-!
# How requests, set-ups and sweeps consist of warranted steps

A request returns a buffer that nobody owned, and unless it says otherwise it has acquired the buffer
for the thread that asked. A lookup that finds a buffer too small leaves it as it was. A sweep cleans
up for the thread that runs it, and for nobody else.
-/

namespace BufferPool

open Buffer (Act)

variable {σ α β : Type}

namespace Pool

open PoolM World Warrant

variable {W : Warrant} {P : World σ → Prop} {p : PoolId} {b : BufferId} {t : Thread}
  {size : UInt64}

/-- The buffer that is found had no owner, and has one now. -/
theorem warranted_firstFit (hL : W.Lends none) (hP : W.Stable P) (hG : W.Grants P)
    (entries : List (Arena.Key × BufferId)) :
    Warranted W (fun w => P w ∧ ∀ e ∈ entries, W.Has p ⟨p, e.1, e.2⟩ w) (firstFit size t entries)
      fun r w => P w ∧ ∀ e, r = some e → W.Obtained p t ⟨p, e.1, e.2⟩ w := by
  induction entries with
  | nil => exact .pure fun _ h => ⟨h.1, nofun⟩
  | cons entry rest ih =>
      obtain ⟨key, b⟩ := entry
      have hstable : W.Stable fun w => P w ∧ ∀ e ∈ rest, W.Has p ⟨p, e.1, e.2⟩ w :=
        hP.and (stable_forall fun _ => stable_has)
      rintro w hr ⟨hw, hhas⟩
      have hrest : P w ∧ ∀ e ∈ rest, W.Has p ⟨p, e.1, e.2⟩ w :=
        ⟨hw, fun e he => hhas e (List.mem_cons_of_mem _ he)⟩
      have hgo : ∀ acts, W.alters b (w.buffer b) ((w.buffer b).perform acts) →
          W.Serves w ((firstFit size t rest).leaves (w.work b acts)) ∧
            ∀ r w', firstFit size t rest (w.work b acts) = .ok r w' →
              P w' ∧ ∀ e, r = some e → W.Obtained p t ⟨p, e.1, e.2⟩ w' := by
        intro acts ha
        have hs : W.Serves w (w.work b acts) := .of_step (.work ha) rfl rfl
        obtain ⟨hs', hQ⟩ := ih _ (hr.serves hs) (hstable w _ hr hs hrest)
        exact ⟨hs.trans hs', hQ⟩
      have htry : W.alters b (w.buffer b) ((w.buffer b).perform [.tryAcquire t]) :=
        hL b _ _ (Buffer.lent_tryAcquire _ t)
      rw [leaves, firstFit_cons]
      split_ifs with hretired hfree hfits
      · exact ih w hr hrest
      · have hs : W.Serves w (w.work b [.tryAcquire t]) := .of_step (.work htry) rfl rfl
        have hb := hhas _ List.mem_cons_self
        refine ⟨hs, fun r w' hrun => ?_⟩
        obtain ⟨rfl, rfl⟩ := EStateM.Result.ok.inj hrun
        refine ⟨hP w _ hr hs hw, fun e he => ?_⟩
        obtain rfl := Option.some.inj he
        have hnone : (w.buffer b).owner = none := Option.isNone_iff_eq_none.1 hfree
        refine ⟨⟨stable_has w _ hr hs hb, hG w b hw hnone⟩, fun _ => ?_⟩
        change ((w.work b [.tryAcquire t]).buffer b).owner = some t
        rw [World.work, buffer_modifyBuffer_self _ hb.there]
        simp only [Buffer.perform, List.foldl_cons, List.foldl_nil, Act.apply, Buffer.tryAcquire,
          hfree, if_true]
        rfl
      · exact hgo _ (hL b _ _ (Buffer.lent_glance (Option.isNone_iff_eq_none.1 hfree) t))
      · exact hgo _ htry

theorem warranted_find (hL : W.Lends none) (hP : W.Stable P) (hG : W.Grants P) :
    Warranted W P (find p size t) fun r w => P w ∧ ∀ h, r = some h → W.Obtained p t h w := by
  apply (warranted_entries hP .free .forward).bind
  intro entries
  apply (warranted_firstFit hL hP hG entries).bind
  rintro (_ | ⟨key, b⟩)
  · exact .pure fun _ h => ⟨h.1, nofun⟩
  · have hstable : W.Stable fun w => P w ∧ W.Obtained p t ⟨p, key, b⟩ w := hP.and stable_obtained
    exact ((warranted_calm hstable (calm_note p _)).pre fun _ h => ⟨h.1, h.2 _ rfl⟩).bind fun _ =>
      (warranted_calm hstable (calm_retain b)).bind fun _ =>
        .pure fun _ h => ⟨h.1, fun _ he => Option.some.inj he ▸ h.2⟩

theorem warranted_onSome {S R : Handle → World σ → Prop} {act : Handle → PoolM σ Unit}
    (r : Option Handle) (h : ∀ g, Warranted W (fun w => P w ∧ S g w) (act g) fun _ w => P w ∧ R g w) :
    Warranted W (fun w => P w ∧ ∀ g, r = some g → S g w) (onSome r act)
      fun r w => P w ∧ ∀ g, r = some g → R g w := by
  cases r with
  | none => exact .pure fun _ h => ⟨h.1, nofun⟩
  | some g =>
      apply ((h g).owning.pre fun _ hw => ⟨hw.1, hw.2 g rfl⟩).bind
      intro _
      exact .pure fun _ hw => ⟨hw.1, fun _ he => Option.some.inj he ▸ hw.2⟩

/-- What is done to a buffer that was obtained leaves it obtained. -/
theorem warranted_onSome_obtained {act : Handle → PoolM σ Unit} (hP : W.Stable P) (r : Option Handle)
    (h : ∀ g, W.Stable (fun w => P w ∧ W.Obtained p t g w) →
      Warranted W (fun w => P w ∧ W.Obtained p t g w) (act g) fun _ w => P w ∧ W.Obtained p t g w) :
    Warranted W (fun w => P w ∧ ∀ g, r = some g → W.Obtained p t g w) (onSome r act)
      fun r w => P w ∧ ∀ g, r = some g → W.Obtained p t g w :=
  warranted_onSome r fun g => h g (hP.and stable_obtained)

theorem warranted_insert_obtained {g : Handle} (lane : Lane)
    (hS : W.Stable fun w => P w ∧ W.Obtained p t g w) :
    Warranted W (fun w => P w ∧ W.Obtained p t g w) (insert p lane g)
      fun _ w => P w ∧ W.Obtained p t g w :=
  warranted_insert hS lane fun _ _ h => h.2.names

theorem warranted_acquire_provided (hL : W.Lends none) (hP : W.Stable P) (g : Handle) :
    Warranted W (fun w => P w ∧ W.Provided p g w) (acquire g.buffer t)
      fun _ w => P w ∧ W.Obtained p t g w :=
  ((warranted_acquire hL (hP.and stable_provided) t).pre fun _ h => ⟨h, h.2.there⟩).post
    fun _ _ h => ⟨h.1.1, h.1.2, fun _ => h.2⟩

section Requests

variable (hL : W.Lends none) (hP : W.Stable P) (hG : W.Grants P)

include hP hG

theorem warranted_provide : Warranted W P (provide p size) fun r w =>
    P w ∧ ∀ h, r = some h → W.Provided p h w :=
  (warranted_calm hP (calm_getPool p)).bind fun _ => warranted_allocate hP hG _

include hL

theorem warranted_provideAcquired : Warranted W P (provideAcquired p size t) fun r w =>
    P w ∧ ∀ h, r = some h → W.Obtained p t h w :=
  (warranted_provide hP hG).bind fun r => warranted_onSome r fun g => warranted_acquire_provided hL hP g

theorem warranted_provideTransient : Warranted W P (provideTransient p size t) fun r w =>
    P w ∧ ∀ h, r = some h → W.Obtained p t h w :=
  (warranted_provideAcquired hL hP hG).bind fun r => warranted_onSome_obtained hP r fun _ hS =>
    (warranted_calm hS (calm_getBuffer _)).bind fun _ => (warranted_expect _ _).bind fun _ =>
      warranted_markTransient hL hS

theorem warranted_provideLease : Warranted W P (provideLease p size t) fun r w =>
    P w ∧ ∀ h, r = some h → W.Obtained p t h w :=
  (warranted_provideTransient hL hP hG).bind fun r => warranted_onSome_obtained hP r fun _ hS =>
    warranted_markLease hL hS

theorem warranted_provideFull : Warranted W P (provideFull p size t) fun r w =>
    P w ∧ ∀ h, r = some h → W.Obtained p t h w :=
  (warranted_calm hP (calm_getPool p)).bind fun _ => (warranted_allocateWithin hP hG _).bind fun r =>
    warranted_onSome r fun g => (warranted_acquire_provided hL hP g).bind fun _ =>
      warranted_insert_obtained .full (hP.and stable_obtained)

theorem warranted_provideTransientFull : Warranted W P (provideTransientFull p size t) fun r w =>
    P w ∧ ∀ h, r = some h → W.Obtained p t h w :=
  (warranted_provideTransient hL hP hG).bind fun r => warranted_onSome_obtained hP r fun _ hS =>
    warranted_insert_obtained .full hS

theorem warranted_provideLeaseTo (lane : Lane) : Warranted W P (provideLeaseTo p lane size t) fun r w =>
    P w ∧ ∀ h, r = some h → W.Obtained p t h w :=
  (warranted_provideLease hL hP hG).bind fun r => warranted_onSome_obtained hP r fun _ hS =>
    (warranted_insert_obtained lane hS).bind fun _ => (warranted_calm hS (calm_getBuffer _)).bind fun _ =>
      warranted_expect _ _

theorem warranted_takeWithin (retries remaining : Nat) :
    Warranted W P (takeWithin p size retries t remaining) fun r w =>
      P w ∧ ∀ h, r = some h → W.Obtained p t h w := by
  induction remaining with
  | zero => exact .pure fun _ h => ⟨h, nofun⟩
  | succ remaining ih =>
      apply (warranted_find hL hP hG).bind
      rintro (_ | h)
      · exact ((warranted_calm hP (calm_note p _)).pre fun _ h => h.1).bind fun _ => ih
      · exact .pure fun _ hw => hw

theorem warranted_takeRetrying (retries : Nat) : Warranted W P (takeRetrying p size retries t) fun r w =>
    P w ∧ ∀ h, r = some h → W.Obtained p t h w :=
  (warranted_calm hP (calm_getPool p)).bind fun _ => (warranted_expect _ _).bind fun _ =>
    warranted_takeWithin hL hP hG retries retries

theorem warranted_takeDetached : Warranted W P (takeDetached p size t) fun r w =>
    P w ∧ ∀ h, r = some h → W.Obtained p t h w :=
  (warranted_find hL hP hG).bind fun r => warranted_onSome_obtained hP r fun g hS =>
    warranted_remove hS .free g

theorem warranted_takeToFull : Warranted W P (takeToFull p size t) fun r w =>
    P w ∧ ∀ h, r = some h → W.Obtained p t h w :=
  (warranted_calm hP (calm_getPool p)).bind fun _ => (warranted_expect _ _).bind fun _ =>
    (warranted_find hL hP hG).bind fun r => warranted_onSome_obtained hP r fun _ hS =>
      warranted_move hS .free fun _ _ h => h.2.names

theorem warranted_obtainFull : Warranted W P (obtainFull p size t) fun r w =>
    P w ∧ ∀ h, r = some h → W.Obtained p t h w := by
  apply (warranted_calm hP (calm_getPool p)).bind
  intro pool
  dsimp only
  split_ifs
  · apply (warranted_takeToFull hL hP hG).bind
    rintro (_ | h)
    · exact (warranted_provideFull hL hP hG).pre fun _ h => h.1
    · exact .pure fun _ hw => hw
  · exact warranted_provideFull hL hP hG

theorem warranted_takeLeaseRetrying (retries : Nat) :
    Warranted W P (takeLeaseRetrying p size retries t) fun r w =>
      P w ∧ ∀ h, r = some h → W.Obtained p t h w :=
  (warranted_takeRetrying hL hP hG retries).bind fun r => warranted_onSome_obtained hP r fun _ hS =>
    (warranted_markTransient hL hS).bind fun _ => warranted_markLease hL hS

theorem warranted_obtainLease : Warranted W P (obtainLease p size t) fun r w =>
    P w ∧ ∀ h, r = some h → W.Obtained p t h w := by
  apply (warranted_find hL hP hG).bind
  rintro (_ | h)
  · exact (warranted_provideLeaseTo hL hP hG .full).pre fun _ h => h.1
  · exact warranted_onSome_obtained hP (some h) fun _ hS =>
      ((warranted_markTransient hL hS).bind fun _ => warranted_markLease hL hS).bind fun _ =>
        (warranted_calm hS (calm_getBuffer _)).bind fun _ => warranted_expect _ _

end Requests

theorem warranted_preallocate (hP : W.Stable P) (hG : W.Grants P) (allocated remaining : Nat) :
    Warranted W P (preallocate p allocated remaining) fun _ => P := by
  induction remaining generalizing allocated with
  | zero => exact .pure fun _ h => h
  | succ remaining ih =>
      refine (warranted_calm hP (calm_getPool p)).bind fun _ => ?_
      apply (warranted_allocateWithin hP hG _).bind
      rintro (_ | h)
      · exact ((warranted_calm hP (calm_note p _)).pre fun _ h => h.1).bind fun _ => .pure fun _ h => h
      · have hS : W.Stable fun w => P w ∧ W.Provided p h w := hP.and stable_provided
        have hinsert : Warranted W (fun w => P w ∧ W.Provided p h w)
            (owning h.buffer (insert (σ := σ) p .free h)) fun _ w => P w ∧ W.Provided p h w :=
          (warranted_insert hS .free fun _ _ hw => hw.2.names).owning
        exact (hinsert.pre fun _ hw => ⟨hw.1, hw.2 h rfl⟩).bind fun _ =>
          (warranted_calm hS (calm_drop h.buffer)).bind fun _ => (ih _).pre fun _ hw => hw.1

theorem warranted_close (hP : W.Stable P) : Warranted W P (close p) fun _ => P :=
  (warranted_calm hP (calm_getPool p)).bind fun _ => (warranted_drain hP).bind fun buffers =>
    (warranted_calm hP (calm_note p _)).bind fun _ => (warranted_calm hP (calm_retireAll p buffers)).bind
      fun _ => .of_serves hP fun w _ _ => .of_step (.close w p) rfl rfl

theorem warranted_closing {act : PoolM σ α} (hP : W.Stable P) (h : Warranted W P act fun _ => P) :
    Warranted W P (closing p act) fun _ => P := by
  refine .of_serves hP fun w hr hw => ?_
  obtain ⟨hs, -⟩ := h w hr hw
  unfold leaves closing
  cases hrun : act w with
  | ok a w' =>
      rw [leaves_of_ok hrun] at hs
      exact hs
  | error fault w' =>
      rw [leaves_of_error hrun] at hs
      obtain ⟨hclose, -⟩ := warranted_close (p := p) hP w' (hr.serves hs) (hP w w' hr hs hw)
      dsimp only
      cases hrun' : close p w' with
      | ok _ w'' =>
          rw [leaves_of_ok hrun'] at hclose
          exact hs.trans hclose
      | error _ w'' =>
          rw [leaves_of_error hrun'] at hclose
          exact hs.trans hclose

theorem warranted_add (hP : W.Stable P) (c : Config) (minimum : UInt64) (live : Bool) :
    Warranted W P (add c minimum live) fun _ => P :=
  .of_serves hP fun w _ _ => .of_step (.found w rfl) rfl rfl

theorem warranted_build (hP : W.Stable P) (hG : W.Grants P) (c : Config) :
    Warranted W P (build c) fun _ => P := by
  refine Warranted.get_bind fun w hw => ?_
  refine Warranted.pre (P := P) ?_ fun _ he => he ▸ hw
  dsimp only
  cases c.validate with
  | error e => exact (warranted_add hP c 0 false).bind fun _ => .pure fun _ h => h
  | ok minimum =>
      apply (warranted_add hP c minimum true).bind
      intro _
      apply (warranted_closing hP (warranted_preallocate hP hG 0 c.cacheCount)).bind
      rintro (_ | allocated)
      · exact (warranted_calm hP (calm_note _ _)).bind fun _ => .pure fun _ h => h
      · exact (warranted_close hP).bind fun _ => .pure fun _ h => h

theorem warranted_visitAll {visit : α → Handle → PoolM σ (Bool × α)}
    (hv : ∀ a h, Warranted W (W.Has p h) (visit a h) fun _ _ => True) (a : α) (handles : List Handle) :
    Warranted W (fun w => ∀ h ∈ handles, W.Has p h w) (visitAll visit a handles) fun _ _ => True := by
  induction handles generalizing a with
  | nil => exact .pure fun _ _ => trivial
  | cons h rest ih =>
      have hrest : W.Stable (σ := σ) fun w => ∀ g ∈ rest, W.Has p g w :=
        stable_forall fun _ => stable_has
      apply (((hv a h).keeping hrest).pre fun w hw =>
        ⟨hw h List.mem_cons_self, fun g hg => hw g (List.mem_cons_of_mem _ hg)⟩).bind
      rintro ⟨more, a'⟩
      cases more with
      | false => exact .pure fun _ _ => trivial
      | true => exact (ih a').pre fun _ hw => hw.2

/-- What is captured is held until all visits are over. -/
theorem serves_hold {w w' : World σ} {handles : List Handle}
    (h : W.Serves (w.hold handles) w') : W.Serves w w'.letGo := by
  have hhold := harmless_hold w handles
  have hclient : (w.hold handles).client = w.client := (calm_foldl_retain w handles).client
  have hheld : w'.held = handles :: w.held := h.held
  have hdrop := calm_dropAll w' handles
  rw [letGo, hheld]
  refine ⟨(Relation.ReflTransGen.single (.harmless hhold)).trans (h.steps.tail (.harmless ?_)), ?_,
    rfl⟩
  · exact ⟨hdrop.arena, hdrop.size, hdrop.buffer, hdrop.events⟩
  · exact hdrop.client.trans (h.client.trans hclient)

theorem warranted_traverse {visit : α → Handle → PoolM σ (Bool × α)} (hP : W.Stable P)
    (hv : ∀ a h, Warranted W (W.Has p h) (visit a h) fun _ _ => True) (lane : Lane) (dir : Direction)
    (start : α) : Warranted W P (traverse p lane dir visit start) fun _ => P := by
  refine .of_serves hP fun w hr _ => ?_
  have hentries := warranted_entries (p := p) (stable_true (W := W)) lane dir w hr trivial
  unfold traverse capture
  rw [bind_assoc]
  cases hread : (readArena p (·.entries lane dir)) w with
  | error fault w' =>
      rw [leaves_of_error hread] at hentries
      rw [leaves, bind_of_error _ hread]
      exact hentries.1
  | ok entries w' =>
      obtain ⟨rfl, -⟩ := place?_of_readArena hr.sound hread
      obtain ⟨-, hhas⟩ := hentries.2 entries w' hread
      rw [leaves, bind_of_ok _ hread]
      let handles : List Handle := entries.map fun e => ⟨p, e.1, e.2⟩
      let act : PoolM σ (Bool × α) := do
        note p (.traversing lane dir handles.length)
        visitAll visit start handles
      have hhold := harmless_hold w' handles
      have hready : W.Ready (w'.hold handles) := hr.steps (.single (.harmless hhold))
      have hheld : ∀ h ∈ handles, W.Has p h (w'.hold handles) := by
        intro h hh
        obtain ⟨⟨key, b⟩, he, rfl⟩ := List.mem_map.1 hh
        have hb := hhas (key, b) he
        refine ⟨rfl, hb.enters, Nat.lt_of_lt_of_le hb.there hhold.size, fun b' lane' hk => ?_⟩
        exact hb.names b' lane' ((place?_congr (hhold.arena p) key).symm.trans hk)
      have hall : W.Stable (σ := σ) fun w => ∀ h ∈ handles, W.Has p h w :=
        stable_forall fun _ => stable_has
      have hact : Warranted W (fun w => ∀ h ∈ handles, W.Has p h w) act fun _ _ => True :=
        (warranted_calm hall (calm_note p _)).bind fun _ => warranted_visitAll hv start handles
      obtain ⟨hs, -⟩ := hact _ hready hheld
      have hleaves : (ensuring (·.letGo) act).leaves (w'.hold handles) =
          (act.leaves (w'.hold handles)).letGo := by
        unfold leaves ensuring
        cases act (w'.hold handles) <;> rfl
      have hserves := serves_hold hs
      rw [← hleaves] at hserves
      exact hserves

theorem warranted_travel {visit : α → Handle → PoolM σ (Bool × α)} (hP : W.Stable P)
    (hv : ∀ a h, Warranted W (W.Has p h) (visit a h) fun _ _ => True) (route : Route) (dir : Direction)
    (start : α) : Warranted W P (travel p route dir visit start) fun _ => P := by
  cases route with
  | full =>
      apply (warranted_calm hP (calm_count p .full)).bind
      intro n
      split_ifs
      · exact .pure fun _ h => h
      · exact (warranted_traverse hP hv .full dir start).bind fun _ => .pure fun _ h => h
  | free =>
      exact (warranted_calm hP (calm_count p .free)).bind fun _ => (warranted_expect _ _).bind fun _ =>
        (warranted_traverse hP hv .free dir start).bind fun _ => .pure fun _ h => h
  | lane lane => exact (warranted_traverse hP hv lane dir start).bind fun _ => .pure fun _ h => h

end Pool

namespace Sweep

open PoolM World Warrant

variable {W : Warrant} {P : World σ → Prop} {me : Thread} {b : BufferId}

theorem warranted_hold (hL : W.Lends none) (hP : W.Stable P) (s : Sweep) :
    Warranted W P (s.hold me b) fun _ => P := by
  apply (warranted_calm hP (calm_getBuffer b)).bind
  intro buffer
  split_ifs
  · exact .pure fun _ h => h
  · exact warranted_tryAcquire hL hP s.maker

/-- Only its owner empties a buffer, and gives it up then. -/
theorem warranted_recycle (hL : W.Lends (some me)) (hP : W.Stable P) :
    Warranted W P (recycle me b) fun _ => P := by
  have hreset : Warranted W P (reset b me) fun _ w => P w ∧ (w.buffer b).owner = some me := by
    have hwork : Warranted W P (reset (σ := σ) b me) fun _ => P :=
      .of_work hP fun w _ => ⟨_, leaves_reset b me w, hL b _ _ (Buffer.lent_reset _ me)⟩
    intro w hr hw
    obtain ⟨hs, hQ⟩ := hwork w hr hw
    refine ⟨hs, fun a w' hrun => ⟨hQ a w' hrun, ?_⟩⟩
    rw [reset, getBuffer_bind] at hrun
    split_ifs at hrun with hmine
    · have howner : (w.buffer b).owner = some me := beq_iff_eq.1 hmine
      obtain ⟨-, rfl⟩ := EStateM.Result.ok.inj hrun
      rw [buffer_modifyBuffer_self _ (lt_size_of_owner howner)]
      exact howner
    · exact (error_ne_ok hrun).elim
  have hrelease : Warranted W (fun w => P w ∧ (w.buffer b).owner = some me) (PoolM.release (σ := σ) b)
      fun _ => P := by
    intro w hr hw
    have hlent : Buffer.Lent (some me) (w.buffer b) ((w.buffer b).perform [.release]) :=
      Buffer.lent_release fun t ht => hw.2.symm.trans ht
    have hs : W.Serves w (w.work b [.release]) := .of_step (.work (hL b _ _ hlent)) rfl rfl
    refine ⟨hs, fun a w' hrun => ?_⟩
    obtain ⟨-, rfl⟩ := EStateM.Result.ok.inj hrun
    exact hP w _ hr hs hw.1
  refine hreset.bind fun _ => .of_getBuffer fun buffer => ?_
  refine (warranted_expect _ _).bind fun _ => .of_getBuffer fun buffer' => ?_
  exact (warranted_expect _ _).bind fun _ => hrelease.pre fun w hw => hw.1.1

theorem warranted_visit (hL : W.Lends (some me)) (hP : W.Stable P) (s : Sweep) {h : Handle}
    (hn : h.pool = s.pool → ∀ w, P w → W.Names s.pool h.key w) :
    Warranted W P (s.visit me h) fun _ => P := by
  apply (warranted_calm hP (calm_getBuffer h.buffer)).bind
  intro buffer
  split_ifs
  · exact (warranted_calm hP (calm_retain h.buffer)).bind fun _ =>
      (Pool.warranted_giveBack hP s.lane hn).bind fun _ => .pure fun _ hw => hw
  · apply (warranted_hold hL.of_some hP s).bind
    intro held
    split_ifs
    · exact (warranted_recycle hL hP).bind fun _ => .pure fun _ hw => hw
    · exact .pure fun _ hw => hw

theorem warranted_pass (hL : W.Lends (some me)) (hP : W.Stable P) (route : Pool.Route)
    (dir : Direction) (s : Sweep) : Warranted W P (s.pass me route dir) fun _ => P := by
  have hvisit : ∀ (a : Sweep) (h : Handle),
      Warranted W (W.Has (σ := σ) s.pool h) (a.visit me h) fun _ _ => True := by
    intro a h
    refine (warranted_visit hL stable_has a fun hpool w hw => ?_).post fun _ _ _ => trivial
    have heq : a.pool = s.pool := hpool.symm.trans hw.pool
    exact heq ▸ hw.names
  exact (Pool.warranted_travel hP hvisit route dir s).bind fun _ => .pure fun _ h => h

theorem warranted_passes (hL : W.Lends (some me)) (hP : W.Stable P) (route : Pool.Route)
    (dir : Direction) (n : Nat) (s : Sweep) : Warranted W P (passes me route dir n s) fun _ => P := by
  induction n generalizing s with
  | zero => exact .pure fun _ h => h
  | succ n ih =>
      exact (warranted_pass hL hP route dir s).bind fun s' => (ih s').bind fun _ => .pure fun _ h => h

end Sweep

end BufferPool
