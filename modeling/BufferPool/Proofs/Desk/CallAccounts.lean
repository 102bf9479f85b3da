import BufferPool.Proofs.Desk.CallChronicle
import BufferPool.Proofs.Pool.ComposedAccounts

/-!
# The books of calls

A desk keeps its handles in the order of their names, no two under one name. So storing a handle
displaces at most one other, which is then dropped, and handing one over takes exactly one from the
desk. With this every call keeps the books, whichever way it ends, except that a pool is not to be
closed while a buffer of its is afloat.
-/

namespace BufferPool

open PoolM World

namespace Desk

/-- The names are in their order, each at most once. -/
def Sorted (d : Desk) : Prop := (d.handles.map (·.1)).Pairwise (· < ·)

section Names

variable {name : String} {h : Handle} {handles : List (String × Handle)}

theorem lookup_eq_none_of_lt (hlt : ∀ other ∈ handles.map (·.1), name < other) :
    handles.lookup name = none := by
  induction handles with
  | nil => rfl
  | cons entry rest ih =>
      obtain ⟨other, g⟩ := entry
      have hne : name ≠ other := by
        rintro rfl
        exact String.lt_irrefl _ (hlt name List.mem_cons_self)
      rw [List.lookup_cons, beq_eq_false_iff_ne.2 hne]
      exact ih fun other ho => hlt other (List.mem_cons_of_mem _ ho)

theorem remove_eq_self_of_lt (hlt : ∀ other ∈ handles.map (·.1), name < other) :
    remove name handles = handles := by
  apply List.filter_eq_self.2
  intro e he
  have hless := hlt e.1 (List.mem_map_of_mem he)
  refine bne_iff_ne.2 fun hsame => String.lt_irrefl name ?_
  rwa [hsame] at hless

/-- A handle that is put under a name takes the place of the one that is there. -/
theorem put_perm (name : String) (h : Handle) (hs : (handles.map (·.1)).Pairwise (· < ·)) :
    ((put name h handles).map (·.2) ++ (handles.lookup name).toList).Perm
      (h :: handles.map (·.2)) := by
  induction handles with
  | nil => exact .refl _
  | cons entry rest ih =>
      obtain ⟨other, g⟩ := entry
      obtain ⟨hfirst, hrest⟩ := List.pairwise_cons.1 hs
      unfold put
      split_ifs with hlt heq
      · have hnone : ((other, g) :: rest).lookup name = none := by
          apply lookup_eq_none_of_lt
          intro o ho
          rcases List.mem_cons.1 ho with rfl | ho
          · exact hlt
          · exact String.lt_trans hlt (hfirst o ho)
        rw [hnone, Option.toList_none, List.append_nil]
        exact .refl _
      · rw [List.lookup_cons, heq, beq_self_eq_true]
        exact (List.perm_append_comm : (rest.map (·.2) ++ [g]).Perm ([g] ++ rest.map (·.2))).cons h
      · rw [List.lookup_cons, beq_eq_false_iff_ne.2 heq]
        exact ((ih hrest).cons g).trans (.swap h g _)

theorem mem_names_put {other : String} (ho : other ∈ (put name h handles).map (·.1)) :
    other = name ∨ other ∈ handles.map (·.1) := by
  induction handles with
  | nil => exact .inl (List.mem_singleton.1 ho)
  | cons entry rest ih =>
      obtain ⟨first, g⟩ := entry
      unfold put at ho
      split_ifs at ho
      · exact List.mem_cons.1 ho
      · exact (List.mem_cons.1 ho).imp_right (List.mem_cons_of_mem _)
      · rcases List.mem_cons.1 ho with rfl | ho
        · exact .inr List.mem_cons_self
        · exact (ih ho).imp_right (List.mem_cons_of_mem _)

theorem pairwise_put (name : String) (h : Handle) (hs : (handles.map (·.1)).Pairwise (· < ·)) :
    ((put name h handles).map (·.1)).Pairwise (· < ·) := by
  induction handles with
  | nil => exact List.pairwise_singleton _ _
  | cons entry rest ih =>
      obtain ⟨other, g⟩ := entry
      obtain ⟨hfirst, hrest⟩ := List.pairwise_cons.1 hs
      unfold put
      split_ifs with hlt heq
      · refine List.pairwise_cons.2 ⟨fun o ho => ?_, hs⟩
        rcases List.mem_cons.1 ho with rfl | ho
        · exact hlt
        · exact String.lt_trans hlt (hfirst o ho)
      · subst heq
        exact hs
      · refine List.pairwise_cons.2 ⟨fun o ho => ?_, ih hrest⟩
        rcases mem_names_put ho with rfl | ho
        · by_contra hge
          exact heq (String.le_antisymm (String.not_lt.1 hge) (String.not_lt.1 hlt))
        · exact hfirst o ho

/-- Removing a name takes exactly the handle that is found under it. -/
theorem remove_perm (name : String) (hs : (handles.map (·.1)).Pairwise (· < ·)) :
    ((remove name handles).map (·.2) ++ (handles.lookup name).toList).Perm
      (handles.map (·.2)) := by
  induction handles with
  | nil => exact .refl _
  | cons entry rest ih =>
      obtain ⟨other, g⟩ := entry
      obtain ⟨hfirst, hrest⟩ := List.pairwise_cons.1 hs
      unfold remove
      rw [List.filter_cons, List.lookup_cons]
      by_cases heq : other = name
      · subst heq
        have hnone : remove other rest = rest := remove_eq_self_of_lt hfirst
        rw [bne_self_eq_false, beq_self_eq_true]
        change ((remove other rest).map (·.2) ++ [g]).Perm _
        rw [hnone]
        exact List.perm_append_comm
      · rw [bne_iff_ne.2 heq, beq_eq_false_iff_ne.2 (Ne.symm heq)]
        exact (ih hrest).cons g

end Names

theorem Sorted.put {d : Desk} (hs : d.Sorted) (name : String) (h : Handle) :
    ({ d with handles := Desk.put name h d.handles } : Desk).Sorted :=
  pairwise_put name h hs

theorem Sorted.remove {d : Desk} (hs : d.Sorted) (name : String) :
    ({ d with handles := Desk.remove name d.handles } : Desk).Sorted :=
  hs.sublist (List.filter_sublist.map _)

variable {w₀ w : World Desk} {m : Manner} {k : Books Desk} {p : PoolId}

/-- The desk passes references to or from the hand. -/
theorem at_withDesk {d : Desk} {hand : Multiset BufferId} (h : At w₀ m k w)
    (hsum : ↑(d.roots.map (·.buffer)) + hand = ↑(k.client.roots.map (·.buffer)) + k.hand) :
    At w₀ m { k with client := d, hand := hand } { w with client := d } := by
  refine h.regrip rfl h.agrees.held.symm rfl ?_
  rw [grips_eq, grips_eq, h.agrees.client, add_right_comm]
  change ↑(d.roots.map (·.buffer)) + hand + _ = ↑(k.client.roots.map (·.buffer)) + _ + _
  rw [hsum, add_right_comm]

/-- The desk has other handles under its names: those given to it came from the hand, and those
taken from it are in hand now. -/
theorem at_withHandles {f : List (String × Handle) → List (String × Handle)}
    {given taken : List Handle} (h : At w₀ m (k.holdAll given) w)
    (hperm : ((f k.client.handles).map (·.2) ++ taken).Perm
      (given ++ k.client.handles.map (·.2))) :
    At w₀ m (({ k with
        client := { k.client with handles := f k.client.handles } } : Books Desk).holdAll taken)
      { w with client := { w.client with handles := f w.client.handles } } := by
  have hbuffers := Multiset.coe_eq_coe.2 (hperm.map (·.buffer))
  have hclient : w.client = k.client := h.agrees.client
  have hsum : ↑(({ k.client with handles := f k.client.handles } : Desk).roots.map (·.buffer)) +
      (↑(taken.map (·.buffer)) + k.hand) =
        ↑(k.client.roots.map (·.buffer)) + (k.holdAll given).hand := by
    simp only [List.map_append, ← Multiset.coe_add, roots, Books.holdAll] at hbuffers ⊢
    rw [add_add_add_comm, hbuffers]
    abel
  have hat := at_withDesk h hsum
  rw [hclient]
  exact hat

/-- What a call makes of a desk: it is in order, and the visits go on, though the present one may have
been told to be the last. -/
structure Successor (d d' : Desk) : Prop where
  sorted : d'.Sorted
  present : d'.present.map (·.handle) = d.present.map (·.handle)
  suspended : d'.suspended = d.suspended

/-- The books agree, and the desk is in order. -/
def Settled (w₀ : World Desk) (m : Manner) (k : Books Desk) (w : World Desk) : Prop :=
  ∃ d : Desk, k.client.Successor d ∧ At w₀ m { k with client := d } w

theorem Settled.of_at (hs : k.client.Sorted) (h : At w₀ m k w) : Settled w₀ m k w :=
  ⟨k.client, ⟨hs, rfl, rfl⟩, h⟩

theorem at_store {E : World Desk → Prop} (hs : k.client.Sorted) (name : String) (handle : Handle) :
    Triple (At w₀ m (k.hold handle.buffer)) (store name handle) (fun _ => Settled w₀ m k) E := by
  apply Triple.get_bind
  intro w hw
  have hclient : w.client = k.client := hw.agrees.client
  have hput : At w₀ m (k.holdAll [handle]) w := by
    rw [Books.holdAll_cons, Books.holdAll_nil]
    exact hw
  have hdrop := (at_withHandles (f := put name handle) hput (put_perm name handle hs)).dropAll
  have hlookup : w.client.handles.lookup name = k.client.handles.lookup name := by rw [hclient]
  rintro w' rfl
  rw [hlookup]
  cases hl : k.client.handles.lookup name with
  | none =>
      rw [hl] at hdrop
      exact ⟨_, ⟨hs.put name handle, rfl, rfl⟩, hdrop⟩
  | some old =>
      rw [hl] at hdrop
      exact ⟨_, ⟨hs.put name handle, rfl, rfl⟩, hdrop⟩

/-- What was obtained goes to the desk or is dropped. -/
theorem at_keep (hs : k.client.Sorted) (into : Option String) (r : Option Handle) :
    Triple (Yields w₀ m k r) (keep into r) (fun _ => Settled w₀ m k) (Settled w₀ m k) := by
  cases r with
  | none => exact .pure fun _ hw => .of_at hs (At.of_steady hw m)
  | some handle =>
      refine Triple.get_bind fun w hw => Triple.pre (P := At w₀ m (k.hold handle.buffer)) ?_
        fun _ he => he ▸ hw
      cases into with
      | none => exact at_drop.bind fun _ => .pure fun _ hw => .of_at hs hw
      | some name => exact (at_store hs name handle).bind fun _ => .pure fun _ hw => hw

/-- What the desk has is referred to. -/
theorem refs_ne_zero_of_find? {w : World Desk} {operand : Operand} {handle : Handle}
    (h : At w₀ m k w) (hf : k.client.find? operand = some handle) : w.refs handle.buffer ≠ 0 := by
  apply h.agrees.mem_references_iff.1
  apply mem_references_of_grips
  rw [grips_eq]
  refine Multiset.mem_add.2 (.inl (List.mem_map_of_mem ?_))
  rw [h.agrees.client]
  exact find?_mem_roots hf

theorem at_handOver {E : World Desk → Prop} (hs : k.client.Sorted) {operand : Operand}
    (kept : Bool) {handle : Handle} (hf : k.client.find? operand = some handle) :
    Triple (At w₀ m k) (handOver operand kept handle)
      (fun _ w => ∃ d : Desk, k.client.Successor d ∧
        At w₀ m (({ k with client := d } : Books Desk).hold handle.buffer) w) E := by
  unfold handOver
  split
  · rename_i name
    apply Triple.modify
    intro w hw
    have htaken : At w₀ m (k.holdAll []) w := k.holdAll_nil.symm ▸ hw
    have hat := at_withHandles (f := remove name) htaken (remove_perm name hs)
    rw [show k.client.handles.lookup name = some handle from hf, Option.toList_some,
      Books.holdAll_cons, Books.holdAll_nil] at hat
    exact ⟨_, ⟨hs.remove name, rfl, rfl⟩, hat⟩
  · exact (at_retain.pre fun w hw => ⟨hw, refs_ne_zero_of_find? hw hf⟩).post
      fun _ _ hw => ⟨k.client, ⟨hs, rfl, rfl⟩, hw⟩

theorem at_withHandle {operand : Operand} {act : Handle → DeskM Reply}
    {Q E : World Desk → Prop} (hQ : ∀ w, At w₀ m k w → Q w)
    (h : ∀ handle, k.client.find? operand = some handle →
      Triple (At w₀ m k) (act handle) (fun _ => Q) E) :
    Triple (At w₀ m k) (withHandle operand act) (fun _ => Q) E := by
  apply Triple.get_bind
  intro w hw
  refine Triple.pre (P := At w₀ m k) ?_ fun _ he => he ▸ hw
  have hclient : w.client = k.client := hw.agrees.client
  rw [hclient]
  cases hf : k.client.find? operand with
  | none => exact .pure fun w hw => hQ w hw
  | some handle => exact h handle hf

theorem at_withPool {act : Pool → DeskM Reply} {Q E : World Desk → Prop}
    (hQ : ∀ w, At w₀ m k w → Q w) (h : ∀ pool, Triple (At w₀ m k) (act pool) (fun _ => Q) E) :
    Triple (At w₀ m k) (withPool p act) (fun _ => Q) E := by
  apply Triple.get_bind
  intro w hw
  refine Triple.pre (P := At w₀ m k) ?_ fun _ he => he ▸ hw
  cases w.pool? p with
  | none => exact .pure fun w hw => hQ w hw
  | some pool => exact h pool

theorem at_pickNth (lane : Lane) (dir : Direction) (n : Nat) :
    Triple (At w₀ .steady k) (pickNth p lane dir n) (Yields w₀ .steady k) (At w₀ .steady k) := by
  apply (at_entries lane dir).bind
  intro entries
  cases he : entries[n]? with
  | none => exact .pure fun _ hw => hw.1
  | some entry =>
      obtain ⟨key, b⟩ := entry
      refine Triple.bind (at_retain.pre fun w hw => ⟨hw.1, ?_⟩) fun _ => .pure fun _ hw => hw
      exact hw.2 (key, b) (List.mem_of_getElem? he)

theorem idle_done {act : DeskM Unit} (h : PoolM.Idle act) : PoolM.Idle (done act) := h.map _

/-- What a call does to the buffer of its handle. Some calls only look, nothing is put at a position
that the profile finds astray, and a lease is refused in the checked profile unless the buffer is a
one-shot buffer. -/
def BufferCall.acts (me : Thread) (profile : Profile) (b : Buffer) : BufferCall → List Buffer.Act
  | .info | .debug | .read => []
  | .acquire t => [.acquire (t.getD me)]
  | .tryAcquire t => [.tryAcquire (t.getD me)]
  | .release => [.release]
  | .write bytes => if b.Astray profile then [] else [.write me bytes]
  | .stage bytes => if b.Astray profile then [] else [.stage me bytes]
  | .commit count => [.commit me count]
  | .flush => [.flush]
  | .reset => [.reset me]
  | .setRetired retired => [.setRetired retired]
  | .markTransient => [.markTransient]
  | .markLease => if profile = .checked ∧ b.transient = false then [] else [.markLease]
  | .displace distance => [.displace distance]

theorem leaves_onBuffer (me : Thread) (handle : Handle) (call : BufferCall) (w : World Desk) :
    (call.perform me handle).leaves w =
      w.work handle.buffer (call.acts me w.profile (w.buffer handle.buffer)) := by
  cases call with
  | info =>
      rw [BufferCall.perform, leaves, get_bind]
      exact (leaves_expect_bind _ _ _ w).trans ((ite_self w).trans (work_nil w _).symm)
  | debug => exact (work_nil w handle.buffer).symm
  | acquire t =>
      rw [BufferCall.perform, leaves_getBuffer_bind]
      split_ifs with howned
      · have hact : (Buffer.Act.acquire (t.getD me)).apply (w.buffer handle.buffer) =
            w.buffer handle.buffer := if_neg (by simpa [← Option.isNone_iff_eq_none] using howned)
        exact (work_of_eq hact).symm
      · exact (leaves_map _ _ w).trans (leaves_acquire handle.buffer _ w)
  | tryAcquire t => exact (leaves_map _ _ w).trans (leaves_tryAcquire handle.buffer _ w)
  | release => exact (leaves_map _ _ w).trans (leaves_release handle.buffer w)
  | write bytes => exact (leaves_map _ _ w).trans (leaves_write handle.buffer me bytes w)
  | stage bytes => exact (leaves_map _ _ w).trans (leaves_stage handle.buffer me bytes w)
  | commit count => exact (leaves_map _ _ w).trans (leaves_commit handle.buffer me count w)
  | read =>
      exact (leaves_map _ _ w).trans ((leaves_read handle.buffer me w).trans (work_nil w _).symm)
  | flush => exact leaves_flush handle.buffer w
  | reset => exact (leaves_map _ _ w).trans (leaves_reset handle.buffer me w)
  | setRetired retired => rfl
  | markTransient => exact (leaves_map _ _ w).trans (leaves_markTransient handle.buffer w)
  | markLease => exact (leaves_map _ _ w).trans (leaves_markLease handle.buffer w)
  | displace distance => rfl

theorem idle_onBuffer (me : Thread) (handle : Handle) (call : BufferCall) :
    PoolM.Idle (call.perform me handle) :=
  .of_work fun w => ⟨_, _, leaves_onBuffer me handle call w⟩

theorem at_request (size : UInt64) (t : Thread) (request : Request) :
    Triple (At w₀ .steady k) (request.perform p size t) (Yields w₀ .publishing k)
      (At w₀ .publishing k) := by
  have hsteady : ∀ {act : DeskM (Option Handle)},
      Triple (At w₀ .steady k) act (Yields w₀ .steady k) (At w₀ .steady k) →
      Triple (At w₀ .steady k) act (Yields w₀ .publishing k) (At w₀ .publishing k) :=
    fun h => (h.post fun _ _ hw => hw.of_steady _).early
  cases request with
  | allocate => exact hsteady (Pool.at_allocate size)
  | allocateWithin => exact hsteady (Pool.at_allocateWithin size)
  | find => exact hsteady (Pool.at_find size t)
  | provide => exact hsteady (Pool.at_provide size)
  | provideAcquired => exact hsteady (Pool.at_provideAcquired size t)
  | provideTransient => exact hsteady (Pool.at_provideTransient size t)
  | provideLease => exact hsteady (Pool.at_provideLease size t)
  | provideFull => exact Pool.at_provideFull size t
  | provideTransientFull => exact Pool.at_provideTransientFull size t
  | provideLeaseTo lane => exact Pool.at_provideLeaseTo size t lane
  | take => exact hsteady (Pool.at_find size t)
  | takeRetrying retries => exact hsteady (Pool.at_takeRetrying size t retries)
  | takeDetached => exact hsteady (Pool.at_takeDetached size t)
  | takeToFull => exact Pool.at_takeToFull size t
  | obtainFull => exact Pool.at_obtainFull size t
  | takeLeaseRetrying retries => exact hsteady (Pool.at_takeLeaseRetrying size t retries)
  | obtainLease => exact Pool.at_obtainLease size t

theorem at_give (handle : Handle) (giving : Giving) :
    Triple (At w₀ .fading (k.hold handle.buffer)) (giving.perform p handle)
      (fun _ => At w₀ .fading k) (At w₀ .fading k) := by
  cases giving with
  | deallocate => exact Pool.at_deallocate handle
  | release lane => exact Pool.at_release (.inr rfl) handle
  | giveBack lane => exact Pool.at_giveBack (.inr rfl) handle

theorem at_place (handle : Handle) (placing : Placing) :
    ∃ m, Triple (At w₀ .steady k) (placing.perform p handle) (fun _ => At w₀ m k) (At w₀ m k) := by
  cases placing with
  | insert lane => exact ⟨.publishing, (Pool.at_insert lane handle).early⟩
  | remove lane =>
      exact ⟨.fading, (Pool.at_take_out (.inr rfl) handle).pre fun _ hw => hw.of_steady _⟩
  | move source => exact Pool.at_move source handle

/-- A call has ended, in whatever manner. -/
def Ended (w₀ : World Desk) (k : Books Desk) (w : World Desk) : Prop := ∃ m, Settled w₀ m k w

theorem Ended.of_at (hs : k.client.Sorted) (h : At w₀ m k w) : Ended w₀ k w :=
  ⟨m, .of_at hs h⟩

theorem idle_maker (w : World Desk) (maker : Supply) : World.Idle w { w with maker := maker } :=
  ⟨rfl, fun _ => rfl, fun _ => rfl, rfl, fun _ c hc => ⟨c, hc, .refl c, rfl⟩, ⟨[], nofun, rfl⟩, rfl,
    rfl, rfl⟩

/-- Whatever is called, on any thread and for any pool, the books are kept. -/
theorem at_call (me : Thread) (call : Call) (hs : k.client.Sorted)
    (hclose : call = .close → ∀ e ∈ k.afloat, e.1 ≠ p) :
    Triple (At w₀ .steady k) (call.perform me p) (fun _ => Ended w₀ k) (Ended w₀ k) := by
  have hat : ∀ w, At w₀ .steady k w → Ended w₀ k w := fun w hw => .of_at hs hw
  have hidle : ∀ {act : DeskM Reply}, PoolM.Idle act →
      Triple (At w₀ .steady k) act (fun _ => Ended w₀ k) (Ended w₀ k) :=
    fun h => (at_idle h).weaken (fun _ hw => hw) (fun _ w hw => hat w hw) hat
  have hpure : ∀ reply : Reply,
      Triple (At w₀ .steady k) (pure reply) (fun _ => Ended w₀ k) (Ended w₀ k) :=
    fun reply => .pure hat
  have hsettled : ∀ {m : Manner} (reply : Reply),
      Triple (Settled w₀ m k) (pure reply) (fun _ => Ended w₀ k) (Ended w₀ k) :=
    fun reply => .pure fun _ hw => ⟨_, hw⟩
  cases call with
  | clone operand into =>
      apply at_withHandle hat
      intro handle hf
      refine Triple.bind (at_retain.pre fun w hw => ⟨hw, refs_ne_zero_of_find? hw hf⟩) fun _ => ?_
      exact (at_store hs into handle).bind fun _ => hsettled .nothing
  | discard operand =>
      cases operand with
      | visited => exact hpure _
      | named name =>
          refine Triple.get_bind fun w hw => Triple.pre (P := At w₀ .steady k) ?_ fun _ he => he ▸ hw
          have hclient : w.client = k.client := hw.agrees.client
          rw [hclient]
          cases hf : k.client.find? (.named name) with
          | none => exact hpure _
          | some handle =>
              apply (at_handOver hs false hf).bind
              intro _
              rintro w ⟨d, hd, hw⟩
              exact ⟨_, d, hd, hw.still (still_drop w handle.buffer) hw.agrees.drop⟩
  | same left right =>
      exact at_withHandle hat fun _ _ => at_withHandle hat fun _ _ => hpure _
  | onBuffer operand call =>
      exact at_withHandle hat fun handle _ => hidle (idle_onBuffer me handle call)
  | carryOver old new used requested =>
      exact at_withHandle hat fun _ _ => at_withHandle hat fun _ _ =>
        hidle (idle_done (idle_carryOver _ _ _ _ _))
  | allowBuffers allowance =>
      exact hidle (Idle.bind (fun w => idle_maker w _) fun _ => .pure _)
  | stop =>
      refine Triple.bind (.modify fun w hw => ?_) fun _ => .pure fun _ hw => hw
      have hclient : w.client = k.client := hw.agrees.client
      let d : Desk :=
        { k.client with present := k.client.present.map ({ · with stopped := true }) }
      have hroots : d.roots = k.client.roots := by
        cases hp : k.client.present <;> simp only [d, roots, hp] <;> rfl
      have hat := at_withDesk (d := d) hw (by rw [hroots])
      have hpresent : d.present.map (·.handle) = k.client.present.map (·.handle) :=
        Option.map_map ..
      rw [hclient]
      exact ⟨.steady, d, ⟨hs, hpresent, rfl⟩, hat⟩
  | build config debug =>
      refine Triple.bind ((Pool.at_build config).fault fun w hw => .of_at hs hw) fun r => ?_
      cases r with
      | ok p => exact .pure fun _ hw => .of_at hs hw
      | error e => exact .pure fun _ hw => .of_at hs hw
  | close =>
      refine Triple.get_bind fun w hw => Triple.pre (P := At w₀ .steady k) ?_ fun _ he => he ▸ hw
      split_ifs
      · refine Triple.bind (((Pool.at_close (hclose rfl)).pre fun w hw => hw.of_steady _).fault
          fun w hw => .of_at hs hw) fun _ => ?_
        exact .pure fun _ hw => .of_at hs hw
      · exact hpure _
  | allowRequests allowance =>
      exact at_withPool hat fun _ => hidle ((Pool.idle_modifyPool p _ (by intro; rfl) (by intro; rfl)
        (by intro; rfl)).bind fun _ => .pure _)
  | obtain request size t into =>
      apply at_withPool hat
      intro _
      refine Triple.bind ((at_request size (t.getD me) request).fault
        fun w hw => .of_at hs hw) fun r => ?_
      exact (at_keep hs into r).weaken (fun _ hw => hw) (fun _ _ hw => ⟨_, hw⟩) fun _ hw => ⟨_, hw⟩
  | pick lane dir n into =>
      apply at_withPool hat
      intro _
      refine Triple.bind ((at_pickNth lane dir n).fault hat) fun r => ?_
      exact (at_keep hs into r).weaken (fun _ hw => hw) (fun _ _ hw => ⟨_, hw⟩) fun _ hw => ⟨_, hw⟩
  | give operand kept giving =>
      apply at_withPool hat
      intro _
      apply at_withHandle hat
      intro handle hf
      apply (at_handOver hs kept hf).bind
      intro _
      rintro w ⟨d, hd, hw⟩
      have hgive : Triple (At w₀ .fading (({ k with client := d } : Books Desk).hold handle.buffer))
          (done (giving.perform p handle)) (fun _ => Ended w₀ k) (Ended w₀ k) :=
        ((at_give handle giving).fault fun w hw => ⟨_, d, hd, hw⟩).map _ fun _ w hw => ⟨_, d, hd, hw⟩
      exact hgive w (hw.of_steady _)
  | place operand placing =>
      apply at_withPool hat
      intro _
      apply at_withHandle hat
      intro handle hf
      obtain ⟨m, hplace⟩ := at_place handle placing
      exact (hplace.fault fun w hw => .of_at hs hw).map _ fun _ w hw => .of_at hs hw
  | inLane operand lane =>
      exact at_withPool hat fun _ => at_withHandle hat fun handle _ =>
        hidle ((Pool.idle_inLane p lane handle).map _)
  | counts => exact at_withPool hat fun _ => hpure _
  | list lane dir => exact at_withPool hat fun _ => hidle (Idle.get.bind fun _ => .pure _)
  | debugSection => exact at_withPool hat fun _ => hpure _
  | query => exact at_withPool hat fun _ => hpure _
  | debugPool => exact at_withPool hat fun _ => hpure _
  | sweep lane route dir maker passes =>
      apply at_withPool hat
      intro _
      refine Triple.bind (((Sweep.at_passes me route dir passes _).pre
        fun w hw => hw.of_steady _).fault fun w hw => .of_at hs hw) fun _ => ?_
      exact .pure fun _ hw => .of_at hs hw

end Desk

end BufferPool
