import BufferPool.Proofs.Buffer.Marks
import BufferPool.Proofs.Desk.Accounting
import BufferPool.Proofs.Desk.Deciding
import BufferPool.Proofs.Desk.Obtaining
import BufferPool.Proofs.Desk.Ownership
import BufferPool.Proofs.Desk.LicensedActions
import BufferPool.Proofs.Pool.Departing

/-!
# Leases

At every scene, a thread that asks for a lease has one at once, or there is no memory for one. A free
buffer that suits becomes a lease where it is. It keeps what is in it, and remains a lease whatever is
done to it. So when it is given back, its lane loses it and it is gone for good, whatever the rule of
the pool is.
-/

namespace BufferPool.Desk

open PoolM World

variable {s s' : Scene} {w' : World Desk} {p : PoolId} {pool : Pool} {capacity size : UInt64}
  {t : Thread} {found : Option Handle} {h : Handle} {b : BufferId} {lane : Lane}

/-- The desk keeps what was obtained, and the buffers are as the request has left them. -/
theorem buffer_obtain_call {w : World Desk} {request : Request} (hp : w.pool? p = some pool)
    (hr : request.perform p size t w = .ok found w') (me : Thread) (into : Option String)
    (b : BufferId) :
    (((Call.obtain request size (some t) into).perform me p).leaves w).buffer b = w'.buffer b := by
  have hcall : (Call.obtain request size (some t) into).perform me p w = keep into found w' := by
    rw [Call.perform, withPool_of_some hp]
    exact bind_of_ok _ hr
  rw [leaves, hcall]
  exact (spares_keep into found).buffer_leaves w' b

/-- Giving a one-shot buffer back by a call. -/
theorem departs_give {w : World Desk} (ht : w.Tidy p pool) {operand : Operand}
    (hf : w.client.find? operand = some h) (hh : h.pool = p)
    (hp : w.place? p h.key = some (h.buffer, some lane)) (hone : (w.buffer h.buffer).transient = true)
    (hflushed : w.profile = .checked → (w.buffer h.buffer).unflushedSize = 0) (me : Thread)
    (kept : Bool) :
    ∃ w', (Call.give operand kept (.giveBack lane)).perform me p w = .ok .nothing w' ∧
      Departs p lane h w w' := by
  let w₁ := (handOver operand kept h).leaves w
  obtain ⟨hpools, hprofile, hrecord⟩ := handOver_rest operand kept h w
  have harena : w₁.arena? p = w.arena? p := by rw [arena?, pool?, hpools, arena?, pool?]
  have hbuffer : ∀ b, w₁.buffer b = w.buffer b := (spares_handOver operand kept h).buffer_leaves w
  obtain ⟨c, hs⟩ := ht.stocks
  have hs₁ : w₁.Stocks p pool.minimum c :=
    ⟨by rw [minimum?, pool?, hpools]; exact hs.minimum, harena.symm ▸ hs.catalog⟩
  obtain ⟨w', -, hr, hdeparts, -⟩ := Pool.giveBack_departs hs₁ hh ((hs.place? h.key).symm.trans hp)
    (by rw [hbuffer]; exact hone) fun hc => by rw [hbuffer]; exact hflushed (hprofile.symm.trans hc)
  have hgive : (Giving.giveBack lane).perform p h w₁ = .ok () w' := hr
  exact ⟨w', give_call_eq_ok ht.present hf hgive me, hdeparts.after harena hbuffer hrecord⟩

/-- Once a registered buffer has been retired it is not registered ever again. -/
theorem Scene.Reaches.not_registered (hs : s.Kept) (hr : s.Reaches s') {total : UInt64} {q : PoolId}
    (hb : b ∈ s.world.registered p) (htold : .deallocated q b total ∈ s'.world.events) :
    ∀ q, b ∉ s'.world.registered q := by
  rcases Scene.Reaches.registered_or_departed hs hr hb with ⟨-, -, hentered⟩ | ⟨hgone, -⟩
  · have hnotice : .deallocated q b total ∈ s'.world.notices b :=
      List.mem_filter.2 ⟨htold, beq_self_eq_true b⟩
    rw [hentered, List.mem_singleton] at hnotice
    exact nomatch hnotice
  · exact hgone

/-- A lease remains one. When it is given back from the lane that it is in, flushed, nothing else leaves
its place, and it is never in a pool again. -/
structure LentOnce (p : PoolId) (h : Handle) (s : Scene) : Prop where
  transient : (s.world.buffer h.buffer).transient = true
  lease : (s.world.buffer h.buffer).lease = true
  departs : ∀ lane, s.world.place? p h.key = some (h.buffer, some lane) →
    (s.world.profile = .checked → (s.world.buffer h.buffer).unflushedSize = 0) →
    ∀ me operand kept, s.world.client.find? operand = some h →
      ∃ w', (Call.give operand kept (.giveBack lane)).perform me p s.world = .ok .nothing w' ∧
        Departs p lane h s.world w' ∧
        ∀ s', Scene.Reaches ⟨w', s.made⟩ s' →
          ∀ q key place, s'.world.place? q key ≠ some (h.buffer, place)

theorem lentOnce_of_marks (hs : s.Kept) (hh : h.pool = p)
    (htransient : (s.world.buffer h.buffer).transient = true)
    (hlease : (s.world.buffer h.buffer).lease = true) : LentOnce p h s := by
  refine ⟨htransient, hlease, fun lane hplace hflushed me operand kept hf => ?_⟩
  obtain ⟨k, hk⟩ := hs
  have hp : ∃ pool, s.world.pool? p = some pool := by
    obtain ⟨arena, ha, -⟩ := Option.bind_eq_some_iff.1 hplace
    obtain ⟨pool, hp, -⟩ := Option.map_eq_some_iff.1 ha
    exact ⟨pool, hp⟩
  obtain ⟨pool, hp⟩ := hp
  obtain ⟨w', hgive, hdeparts⟩ := departs_give (hk.tidy hp) hf hh hplace htransient hflushed me kept
  refine ⟨w', hgive, hdeparts, fun s' hr q key place hin => ?_⟩
  have hcall : s.Reaches ⟨w', s.made⟩ := by
    have hstep : ThreadStep s ⟨((Call.give operand kept (.giveBack lane)).perform me p).leaves s.world,
        s.made⟩ := .call me p _ nofun
    rw [leaves_of_ok hgive] at hstep
    exact .single hstep
  have htold : .deallocated p h.buffer (s.world.buffer h.buffer).totalSize ∈ w'.events := by
    have hrecord : _ ∈ w'.record := hdeparts.record ▸ List.mem_cons_self
    exact (List.mem_filter.1 hrecord).1
  have hlater := (Scene.Reaches.follows (Scene.Reaches.kept ⟨k, hk⟩ hcall) hr).events
  exact Scene.Reaches.not_registered ⟨k, hk⟩ (hcall.trans hr) (mem_registered_of_place? hplace)
    (hlater.subset htold) q (mem_registered_of_place? hin)

/-- What a thread has obtained as a lease is one in every later scene. -/
theorem lentOnce_of_obtained (hs : s.Kept) (hp : s.world.pool? p = some pool)
    (hr : Pool.obtainLease p size t s.world = .ok (some h) w') (hh : h.pool = p)
    (howner : (w'.buffer h.buffer).owner = some t) (htransient : (w'.buffer h.buffer).transient = true)
    (hlease : (w'.buffer h.buffer).lease = true) (me : Thread) (into : Option String)
    (hlater : Scene.Reaches ⟨((Call.obtain .obtainLease size (some t) into).perform me p).leaves s.world,
      s.made⟩ s') : LentOnce p h s' := by
  have hcall : s.Reaches ⟨((Call.obtain .obtainLease size (some t) into).perform me p).leaves s.world,
      s.made⟩ := .single (.call me p _ nofun)
  have hkept := Scene.Reaches.kept hs hcall
  have hkept' := Scene.Reaches.kept hkept hlater
  have hrequest : Request.obtainLease.perform p size t s.world = .ok (some h) w' := hr
  have hbuffer := buffer_obtain_call hp hrequest me into h.buffer
  have hsize := lt_size_of_owner (hbuffer.symm ▸ howner)
  obtain ⟨c', hc', hreworked⟩ :=
    (Scene.Reaches.follows hkept hlater).cells h.buffer _ (Array.getElem?_eq_getElem hsize)
  obtain ⟨acts, hacts⟩ := hreworked.buffer
  have hsince : s'.world.buffer h.buffer = (w'.buffer h.buffer).perform acts := by
    rw [buffer_of_getElem? hc', hacts, ← hbuffer, buffer_of_getElem? (Array.getElem?_eq_getElem hsize)]
  refine lentOnce_of_marks hkept' hh ?_ ?_
  · rw [hsince]
    exact Buffer.transient_perform htransient acts
  · rw [hsince]
    exact Buffer.lease_perform hlease acts

/-- A request for a lease at any scene of a run that has a class ends with the first free buffer that
suits, made a lease where it is, or with a new one at the head of the full lane, or there is no memory.
Only what is abandoned may leave the pool. What is obtained belongs to the thread and has room for the
request, and no content is touched. From then on it is a lease, and when it is given back it is gone for
good. -/
theorem lease_obtained {profile : Profile} {format : Format} {maker : Supply}
    (hs : (Scene.empty profile format maker).Reaches s) (hp : s.world.pool? p = some pool)
    (hclass : SizeClass.ofRequest? size pool.minimum = some capacity) (t : Thread) :
    ∃ gone found w', Pool.obtainLease p size t s.world = .ok found w' ∧
      s.world.LeaseObtained p size capacity t gone found w' ∧
      (∀ key b, (key, b) ∈ gone → s.world.Abandoned p key b) ∧
      (∀ b < s.world.cells.size, (s.world.buffer b).SameContent (w'.buffer b)) ∧
      ∀ h, found = some h →
        (h.pool = p ∧ (w'.buffer h.buffer).owner = some t ∧ (w'.buffer h.buffer).transient = true ∧
          (w'.buffer h.buffer).lease = true ∧ size ≤ (w'.buffer h.buffer).freeSize) ∧
        ∀ me into s',
          Scene.Reaches ⟨((Call.obtain .obtainLease size (some t) into).perform me p).leaves s.world,
            s.made⟩ s' → LentOnce p h s' := by
  have hkept : s.Kept := Scene.Reaches.kept (kept_empty profile format maker) hs
  have hbooks := hkept
  obtain ⟨k, hk⟩ := hbooks
  obtain ⟨gone, found, w', hr, ho⟩ := Pool.obtainLease_obtains (hk.tidy hp) hclass t
  refine ⟨gone, found, w', hr, ho, fun key b hgone => hk.abandoned_iff.2 (ho.abandoned hgone),
    fun b hb => ho.sameContent hb, ?_⟩
  rintro h rfl
  obtain ⟨hh, howner, htransient, hlease, hroom⟩ := ho.in_hand hclass
  exact ⟨⟨hh, howner, htransient, hlease, hroom⟩, fun me into s' hlater =>
    lentOnce_of_obtained hkept hp hr hh howner htransient hlease me into hlater⟩

/-- The only free buffer is leased and released, and it is in the free lane then. The rule of its pool
would keep any buffer, but when the lease is given back it is gone. -/
theorem free_lease_not_kept :
    let w := performAll 0 0 [.build { Config.standard with cacheCount := 1, retention := .always } false]
      (.empty .checked .plain (.within none) .empty)
    let w₁ := performAll 0 0 [.obtain .obtainLease 100 (some 0) (some "a")] w
    let w₂ := performAll 0 0 [.onBuffer (.named "a") .release] w₁
    let h : Handle := ⟨0, ⟨0, 0⟩, 0⟩
    (∃ gone w', w.LeaseObtained 0 100 4096 0 gone (some h) w') ∧
      w₂.row 0 .free = [(⟨0, 0⟩, 0)] ∧ LentOnce 0 h ⟨w₂, []⟩ ∧
      ∃ w₃, (Call.give (.named "a") false (.giveBack .free)).perform 0 0 w₂ = .ok .nothing w₃ ∧
        Departs 0 .free h w₂ w₃ := by
  intro w w₁ w₂ h
  have hrun : (Scene.empty .checked .plain (.within none)).Reaches ⟨w, []⟩ :=
    reaches_performAll 0 0 _ _
  have hlater : Scene.Reaches ⟨w₁, []⟩ ⟨w₂, []⟩ := reaches_performAll 0 0 _ _
  have hw₁ : w₁ = ((Call.obtain .obtainLease 100 (some 0) (some "a")).perform 0 0).leaves w := rfl
  have hminimum : w.minimum? 0 = some 4096 := by decide +kernel
  have hfound : (Pool.obtainLease 0 100 0).run' w = some (some h) := by decide +kernel
  have hrow : w₂.row 0 .free = [(⟨0, 0⟩, 0)] ∧ w₂.place? 0 ⟨0, 0⟩ = some (0, some .free) ∧
      (w₂.buffer 0).unflushedSize = 0 ∧ w₂.client.find? (.named "a") = some h := by decide +kernel
  clear_value w₂ w₁ w
  obtain ⟨pool, hp, hpool⟩ := Option.map_eq_some_iff.1 hminimum
  have hclass : SizeClass.ofRequest? 100 pool.minimum = some 4096 := by
    rw [hpool]
    decide +kernel
  obtain ⟨gone, found, w', hr, ho, -, -, hlent⟩ := lease_obtained hrun hp hclass 0
  obtain rfl : found = some h := Option.some.inj ((run'_of_ok hr).symm.trans hfound)
  have honce : LentOnce 0 h ⟨w₂, []⟩ := (hlent h rfl).2 0 (some "a") ⟨w₂, []⟩ (hw₁ ▸ hlater)
  obtain ⟨hfree, hplace, hflushed, hf⟩ := hrow
  obtain ⟨w₃, hgive, hdeparts, -⟩ :=
    honce.departs .free hplace (fun _ => hflushed) 0 (.named "a") false hf
  exact ⟨⟨gone, w', ho⟩, hfree, honce, w₃, hgive, hdeparts⟩

end BufferPool.Desk
