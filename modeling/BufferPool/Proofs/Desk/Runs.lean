import BufferPool.Proofs.Desk.Payloads
import BufferPool.Proofs.Pool.Skipping

/-!
# Commands as runs

Whatever a command does, and wherever it faults, it does by steps of its thread: its calls, what it
holds, and its visits. In between the visits form a stack. The innermost one is present while commands
run, and none is present while a traversal goes from one buffer to the next. So what is known of all
scenes is known of every desk that has followed commands. When in the end the pools are closed and the
handles dropped, nothing is outstanding.
-/

namespace BufferPool.Desk

open PoolM World

variable {w₀ w : World Desk} {held : List (List Handle)} {present : Option Handle}
  {visits handles : List Handle} {handle : Handle} {p : PoolId}

/-- A run leads from one world to another, with given operands and captures and with given visits. -/
structure Along (w₀ : World Desk) (held : List (List Handle)) (present : Option Handle)
    (visits : List Handle) (w : World Desk) : Prop where
  reaches : Scene.Reaches ⟨w₀, []⟩ ⟨w, []⟩
  held : w.held = held
  present : w.client.present.map (·.handle) = present
  suspended : w.client.suspended.map (·.handle) = visits

/-- A run that has faulted. A visit may be left over, and the suspended ones may have ended. -/
structure Faulted (w₀ : World Desk) (held : List (List Handle)) (visits : List Handle)
    (w : World Desk) : Prop where
  reaches : Scene.Reaches ⟨w₀, []⟩ ⟨w, []⟩
  held : w.held = held
  suspended : w.client.suspended.map (·.handle) = visits ∨ w.client.suspended = []

theorem Along.faulted (h : Along w₀ held present visits w) : Faulted w₀ held visits w :=
  ⟨h.reaches, h.held, .inl h.suspended⟩

theorem Along.kept (h : Along w₀ held present visits w) (hk : Scene.Kept ⟨w₀, []⟩) :
    Scene.Kept ⟨w, []⟩ :=
  Scene.Reaches.kept hk h.reaches

theorem letGo_eq (hheld : w.held = handles :: held) :
    w.letGo = { w.dropAll handles with held := held } := by
  unfold letGo
  rw [hheld]

theorem reaches_letGo (hheld : w.held = handles :: held) :
    Scene.Reaches ⟨w, []⟩ ⟨w.letGo, []⟩ := by
  have hinner : w.held = [] ++ handles :: held := hheld
  rw [letGo_eq hheld]
  exact .single (.letGo hinner)

theorem client_letGo (hheld : w.held = handles :: held) : w.letGo.client = w.client := by
  rw [letGo_eq hheld]
  exact (quiet_dropAll w handles).client

theorem held_letGo (hheld : w.held = handles :: held) : w.letGo.held = held := by
  rw [letGo_eq hheld]

theorem client_hold (w : World Desk) (handles : List Handle) : (w.hold handles).client = w.client :=
  (quiet_foldl_retain w handles).client

theorem Along.hold (h : Along w₀ held present visits w)
    (hr : Scene.Reaches ⟨w, []⟩ ⟨w.hold handles, []⟩) :
    Along w₀ (handles :: held) present visits (w.hold handles) := by
  refine ⟨h.reaches.trans hr, congrArg (handles :: ·) h.held, ?_, ?_⟩
  · rw [client_hold]
    exact h.present
  · rw [client_hold]
    exact h.suspended

theorem Along.letGo (h : Along w₀ (handles :: held) present visits w) :
    Along w₀ held present visits w.letGo := by
  refine ⟨h.reaches.trans (reaches_letGo h.held), held_letGo h.held, ?_, ?_⟩
  · rw [client_letGo h.held]
    exact h.present
  · rw [client_letGo h.held]
    exact h.suspended

theorem Faulted.letGo (h : Faulted w₀ (handles :: held) visits w) :
    Faulted w₀ held visits w.letGo := by
  refine ⟨h.reaches.trans (reaches_letGo h.held), held_letGo h.held, ?_⟩
  rw [client_letGo h.held]
  exact h.suspended

theorem along_enterVisit {E : World Desk → Prop} (hheld : handles ∈ held) (hin : handle ∈ handles) :
    Triple (Along w₀ held none visits) (enterVisit handle)
      (fun _ => Along w₀ held (some handle) visits) E := by
  refine .of_ok fun w hw => ⟨(), _, rfl, ?_, hw.held, rfl, hw.suspended⟩
  have hfree : w.client.present = none := Option.map_eq_none_iff.1 hw.present
  exact hw.reaches.tail (.enterVisit hfree (hw.held ▸ hheld) hin)

theorem client_leaveVisit (w : World Desk) :
    (leaveVisit w).client = { w.client with present := none } := by
  unfold leaveVisit
  cases hvisit : w.client.present with
  | none =>
      change w.client = _
      rw [← hvisit]
  | some visit => exact (World.quiet_drop _ visit.handle.buffer).client

theorem held_leaveVisit (w : World Desk) : (leaveVisit w).held = w.held := by
  unfold leaveVisit
  cases w.client.present with
  | none => rfl
  | some visit => exact (World.quiet_drop _ visit.handle.buffer).held

theorem Along.leaveVisit (h : Along w₀ held present visits w) :
    Along w₀ held none visits (Desk.leaveVisit w) := by
  refine ⟨h.reaches.tail (.leaveVisit w []), (held_leaveVisit w).trans h.held, ?_, ?_⟩
  · rw [client_leaveVisit]
    rfl
  · rw [client_leaveVisit]
    exact h.suspended

/-- When the outermost command has faulted, all visits end. -/
theorem Faulted.leaveVisit (h : Faulted w₀ held [] w) :
    Along w₀ held none [] (Desk.leaveVisit w) := by
  refine ⟨h.reaches.tail (.leaveVisit w []), (held_leaveVisit w).trans h.held, ?_, ?_⟩
  · rw [client_leaveVisit]
    rfl
  · rw [client_leaveVisit]
    exact h.suspended.elim id fun hnone => congrArg (·.map Visit.handle) hnone

theorem along_suspend {E : World Desk → Prop} :
    Triple (Along w₀ held visits.head? visits.tail) suspend (fun _ => Along w₀ held none visits)
      E := by
  refine .modify fun w hw => ⟨hw.reaches.tail (.suspend w []), hw.held, rfl, ?_⟩
  have hpresent := hw.present
  change (w.client.present.toList ++ w.client.suspended).map (·.handle) = visits
  rw [List.map_append, hw.suspended]
  cases visits with
  | nil => rw [Option.map_eq_none_iff.1 hpresent]; rfl
  | cons first rest =>
      obtain ⟨visit, hvisit, rfl⟩ := Option.map_eq_some_iff.1 hpresent
      rw [hvisit]
      rfl

theorem along_resume {E : World Desk → Prop} :
    Triple (Along w₀ held none visits) resume (fun _ => Along w₀ held visits.head? visits.tail)
      E := by
  refine .modify fun w hw => ?_
  have hfree : w.client.present = none := Option.map_eq_none_iff.1 hw.present
  refine ⟨hw.reaches.tail (.resume hfree), hw.held, ?_, ?_⟩
  · rw [← hw.suspended, List.head?_map]
  · rw [← hw.suspended, List.map_tail]

theorem Faulted.leaveSuspended (h : Faulted w₀ held visits w) (visits' : List Handle) :
    Faulted w₀ held visits' (Desk.leaveSuspended w) := by
  have hquiet := quiet_dropAll { w with client := { w.client with suspended := [] } }
    (w.client.suspended.map Visit.handle)
  refine ⟨h.reaches.tail (.leaveSuspended w []), hquiet.held.trans h.held, .inr ?_⟩
  exact congrArg Desk.suspended hquiet.client

theorem Along.call (hw : Along w₀ held present visits w) (hk : Scene.Kept ⟨w₀, []⟩) (me : Thread)
    (p : PoolId) (call : Call) : Along w₀ held present visits ((call.perform me p).leaves w) := by
  have hmade : ∀ b ∈ ([] : List BufferId), w.home? b ≠ some p :=
    fun b hb => absurd hb List.not_mem_nil
  obtain ⟨k, h⟩ := hw.kept hk
  have hended : Ended w k ((call.perform me p).leaves w) := h.ended me fun _ => hmade
  obtain ⟨m, d, hd, hat⟩ := hended
  have hclient : w.client = k.client := h.agrees.client
  have hclient' : ((call.perform me p).leaves w).client = d := hat.agrees.client
  have hheld : ((call.perform me p).leaves w).held = w.held :=
    hat.agrees.held.trans h.agrees.held.symm
  refine ⟨hw.reaches.tail (.call me p call fun _ => hmade), hheld.trans hw.held, ?_, ?_⟩
  · rw [hclient', hd.present, ← hclient]
    exact hw.present
  · rw [hclient', hd.suspended, ← hclient]
    exact hw.suspended

theorem along_call (hk : Scene.Kept ⟨w₀, []⟩) (me : Thread) (call : Call) :
    Triple (Along w₀ held present visits) (call.perform me p)
      (fun _ => Along w₀ held present visits) (Faulted w₀ held visits) :=
  (Triple.of_leaves fun _ hw => hw.call hk me p call).fault fun _ hw => hw.faulted

theorem along_report {E : World Desk → Prop} (reply : Reply) :
    Triple (Along w₀ held present visits) (report reply)
      (fun _ => Along w₀ held present visits) E :=
  .modify fun w hw => ⟨hw.reaches.tail (.trace w [] _), hw.held, hw.present, hw.suspended⟩

theorem triple_times {I E : World Desk → Prop} {act : DeskM Unit}
    (h : Triple I act (fun _ => I) E) (n : Nat) : Triple I (times act n) (fun _ => I) E := by
  induction n with
  | zero => exact .pure fun _ hw => hw
  | succ n ih => exact h.bind fun _ => ih

/-- A visit with a body that runs along, and one of those that were captured. -/
theorem along_visit {body : DeskM Unit} (hin : handle ∈ handles)
    (hbody : Triple (Along w₀ (handles :: held) (some handle) visits) body
      (fun _ => Along w₀ (handles :: held) (some handle) visits)
      (Faulted w₀ (handles :: held) visits)) (stopAfter : Option Nat) (n : Nat) :
    Triple (Along w₀ (handles :: held) none visits) (visit stopAfter body n handle)
      (fun _ => Along w₀ (handles :: held) none visits) (Faulted w₀ (handles :: held) visits) := by
  refine Triple.bind (along_enterVisit List.mem_cons_self hin) fun _ => ?_
  refine Triple.get_bind fun w hw => Triple.pre ?_ fun _ he => he ▸ hw
  refine Triple.bind (along_report _) fun _ => hbody.bind fun _ => ?_
  refine Triple.get_bind fun w hw => Triple.pre ?_ fun _ he => he ▸ hw
  exact Triple.bind (.modify fun _ hw => hw.leaveVisit) fun _ => .pure fun _ hw => hw

theorem along_capture (hk : Scene.Kept ⟨w₀, []⟩) (lane : Lane) (dir : Direction) :
    Triple (Along w₀ held present visits) (Pool.capture p lane dir)
      (fun handles w => Along w₀ (handles :: held) present visits
        (w.emit (.noted p (.traversing lane dir handles.length)))) (Faulted w₀ held visits) := by
  intro w hw
  obtain ⟨k, h⟩ := hw.kept hk
  have hstep := ThreadStep.capture w [] p lane dir
  have hcapture := Pool.triple_capture (h.agrees.sound p) lane dir w rfl
  cases hr : Pool.capture p lane dir w with
  | ok handles w' =>
      rw [hr] at hcapture
      obtain ⟨rfl, -⟩ := hcapture
      rw [leaves_of_ok hr] at hstep
      have hheld := hw.hold (.single hstep)
      exact ⟨hheld.reaches.tail (.note _ [] p _), hheld.held, hheld.present, hheld.suspended⟩
  | error fault w' =>
      rw [hr] at hcapture
      obtain rfl := hcapture
      exact hw.faulted

theorem along_travel (hk : Scene.Kept ⟨w₀, []⟩) (route : Pool.Route) (dir : Direction)
    (stopAfter : Option Nat) {body : DeskM Unit}
    (hbody : ∀ handles handle, Triple (Along w₀ (handles :: held) (some handle) visits) body
      (fun _ => Along w₀ (handles :: held) (some handle) visits)
      (Faulted w₀ (handles :: held) visits)) :
    Triple (Along w₀ held none visits) (Pool.travel p route dir (visit stopAfter body) 0)
      (fun _ => Along w₀ held none visits) (Faulted w₀ held visits) := by
  refine Pool.triple_travel (Q := fun _ => Along w₀ held none visits)
    (P := fun handles rest _ w => rest ⊆ handles ∧ Along w₀ (handles :: held) none visits w)
    (F := fun handles => Faulted w₀ (handles :: held) visits)
    (fun _ hw => hw.faulted) (fun _ _ hw _ _ => hw) ?_ (fun handles n handle rest => ?_)
    (fun _ _ _ hw => hw.2.letGo) fun _ _ hw => hw.letGo
  · exact (along_capture hk _ dir).post fun handles w hw => ⟨List.Subset.refl _, hw⟩
  · rintro w ⟨hsub, hw⟩
    obtain ⟨hin, hrest⟩ := List.cons_subset.1 hsub
    have hvisit := along_visit hin (hbody handles handle) stopAfter n
    exact (hvisit.post fun _ _ hw => ⟨⟨hrest, hw⟩, fun _ => hw.letGo⟩) w hw

mutual

/-- By cases on the command. A command that repeats, holds or visits does so with its body. -/
theorem along_run (hk : Scene.Kept ⟨w₀, []⟩) (c : Context) (command : Command)
    (held : List (List Handle)) (visits : List Handle) :
    Triple (Along w₀ held visits.head? visits.tail) (command.run c)
      (fun _ => Along w₀ held visits.head? visits.tail) (Faulted w₀ held visits.tail) := by
  cases command with
  | call name scope p call =>
      unfold Command.run
      split_ifs
      · exact along_call hk c.me call
      · exact .pure fun _ hw => hw
  | malformed complaint =>
      unfold Command.run
      exact .pure fun _ hw => hw
  | branch operand question yes no =>
      unfold Command.run
      refine Triple.get_bind fun w hw => ?_
      cases hf : w.client.find? operand with
      | none => exact .pure fun _ he => he ▸ hw
      | some handle =>
          refine Triple.of_getBuffer fun buffer => ?_
          refine Triple.bind (Q := fun _ => Along w₀ ([handle] :: held) visits.head? visits.tail)
            (.modify ?_) fun _ => ?_
          · rintro _ rfl
            exact hw.hold (.single (.hold hf))
          · have hbody : Triple (Along w₀ ([handle] :: held) visits.head? visits.tail)
                (if question.ask c.me buffer then runAll c.inside yes else runAll c.inside no)
                (fun _ => Along w₀ ([handle] :: held) visits.head? visits.tail)
                (Faulted w₀ ([handle] :: held) visits.tail) := by
              split_ifs
              · exact along_runAll hk c.inside yes _ visits
              · exact along_runAll hk c.inside no _ visits
            exact (hbody.ensuring (fun _ _ hw => hw.letGo) fun _ hw => hw.letGo).bind
              fun _ => .pure fun _ hw => hw
  | repeated n body =>
      unfold Command.run
      exact (triple_times (along_runAll hk c.inside body held visits) n).bind
        fun _ => .pure fun _ hw => hw
  | locked p body =>
      unfold Command.run
      split_ifs
      · exact .pure fun _ hw => hw
      · refine Triple.get_bind fun w hw => Triple.pre ?_ fun _ he => he ▸ hw
        cases w.pool? p with
        | none => exact .pure fun _ hw => hw
        | some pool =>
            exact (along_runAll hk { c.inside with held := some p } body held visits).bind
              fun _ => .pure fun _ hw => hw
  | visiting name p route dir stopAfter body =>
      unfold Command.run
      split_ifs
      · exact .pure fun _ hw => hw
      · refine Triple.get_bind fun w hw => Triple.pre ?_ fun _ he => he ▸ hw
        cases w.pool? p with
        | none => exact .pure fun _ hw => hw
        | some pool =>
            have htravel := along_travel (p := p) hk route dir stopAfter fun handles handle =>
              along_runAll hk c.inside body (handles :: held) (handle :: visits)
            refine Triple.bind along_suspend fun _ => ?_
            refine Triple.bind (htravel.onFault fun _ hw => hw.leaveSuspended _) fun r => ?_
            exact along_resume.bind fun _ => .pure fun _ hw => hw

theorem along_runAll (hk : Scene.Kept ⟨w₀, []⟩) (c : Context) (commands : List Command)
    (held : List (List Handle)) (visits : List Handle) :
    Triple (Along w₀ held visits.head? visits.tail) (runAll c commands)
      (fun _ => Along w₀ held visits.head? visits.tail) (Faulted w₀ held visits.tail) := by
  cases commands with
  | nil =>
      unfold runAll
      exact .pure fun _ hw => hw
  | cons command rest =>
      unfold runAll
      apply (along_run hk c command held visits).bind
      intro reply
      exact (along_report reply).bind fun _ => along_runAll hk c rest held visits

end

theorem along_step (hk : Scene.Kept ⟨w₀, []⟩) (h : Along w₀ [] none [] w) (logged : Bool)
    (me : Thread) (command : Command) : Along w₀ [] none [] (step logged me command w).2 := by
  have hstart : Along w₀ [] none [] { w with client := { w.client with trace := [] } } :=
    ⟨h.reaches.tail (.trace w [] []), h.held, h.present, h.suspended⟩
  have hrun := along_run hk ⟨me, none, true⟩ command [] [] _ hstart
  unfold step
  cases hr : command.run ⟨me, none, true⟩ { w with client := { w.client with trace := [] } } with
  | ok reply after =>
      rw [hr] at hrun
      exact hrun
  | error fault after =>
      rw [hr] at hrun
      exact hrun.leaveVisit

/-- Runs commands one after the other, each on its thread. -/
def stepAll (logged : Bool) (commands : List (Thread × Command)) (w : World Desk) : World Desk :=
  commands.foldl (fun w c => (step logged c.1 c.2 w).2) w

theorem along_stepAll (hk : Scene.Kept ⟨w₀, []⟩) (h : Along w₀ [] none [] w) (logged : Bool)
    (commands : List (Thread × Command)) : Along w₀ [] none [] (stepAll logged commands w) := by
  induction commands generalizing w with
  | nil => exact h
  | cons c rest ih => exact ih (along_step hk h logged c.1 c.2)

/-- Whatever commands a desk is told, and on whatever threads, it is led along a run. -/
theorem reaches_stepAll (profile : Profile) (format : Format) (maker : Supply) (logged : Bool)
    (commands : List (Thread × Command)) :
    (Scene.empty profile format maker).Reaches
      ⟨stepAll logged commands (.empty profile format maker .empty), []⟩ :=
  (along_stepAll (kept_empty profile format maker) ⟨.refl, rfl, rfl, rfl⟩ logged commands).reaches

/-- Whether or not there was such a pool, there is none then. -/
theorem arena?_close (hs : ∀ a, w.arena? p = some a → a.Sound) (q : PoolId) :
    ((Pool.close p).leaves w).arena? q = if q = p then none else w.arena? q := by
  cases hp : w.pool? p with
  | none =>
      have hr : Pool.close p w = .error (.noPool p) w := bind_of_error _ (getPool_of_none hp)
      rw [leaves_of_error hr]
      split_ifs with hq
      · rw [hq, arena?, hp]
        rfl
      · rfl
  | some pool =>
      obtain ⟨wiring, hw⟩ := hs _ (arena?_of_pool? hp)
      obtain ⟨w₂, hr, hquiet⟩ := Pool.close_of_wired hp hw
      rw [leaves_of_ok hr, arena?_retirePool, hquiet.arena, arena?_setArena _ hp]
      split_ifs <;> rfl

/-- Closing a pool is a call. -/
theorem leaves_close (me : Thread) (p : PoolId) (w : World Desk) :
    (Call.close.perform me p).leaves w = (Pool.close p).leaves w := by
  cases hp : w.pool? p with
  | none =>
      have hr : Pool.close p w = .error (.noPool p) w := bind_of_error _ (getPool_of_none hp)
      have hcall : Call.close.perform me p w = .ok (.flag false) w := by
        change (if (w.pool? p).isSome then _ else _ : DeskM Reply) w = _
        rw [hp]
        rfl
      rw [leaves_of_error hr, leaves_of_ok hcall]
  | some pool =>
      have hcall : Call.close.perform me p w = ((fun _ => Reply.flag true) <$> Pool.close p) w := by
        change (if (w.pool? p).isSome then _ else _ : DeskM Reply) w = _
        rw [hp]
        rfl
      rw [leaves, hcall]
      exact leaves_map (Pool.close p) _ w

/-- Some pools are closed, one after the other. -/
def closeAll (ps : List PoolId) (w : World Desk) : World Desk :=
  ps.foldl (fun w p => (Pool.close p).leaves w) w

theorem along_closeAll (hk : Scene.Kept ⟨w₀, []⟩) (h : Along w₀ held present visits w)
    (ps : List PoolId) :
    Along w₀ held present visits (closeAll ps w) ∧
      ∀ q, (q ∈ ps ∨ w.arena? q = none) → (closeAll ps w).arena? q = none := by
  induction ps generalizing w with
  | nil => exact ⟨h, fun q hq => hq.resolve_left List.not_mem_nil⟩
  | cons p rest ih =>
      obtain ⟨k, hbooks⟩ := h.kept hk
      have harena := arena?_close (hbooks.agrees.sound p)
      have hclose := h.call hk 0 p .close
      rw [leaves_close] at hclose
      obtain ⟨hrest, hnone⟩ := ih hclose
      refine ⟨hrest, fun q hq => hnone q ?_⟩
      rw [harena]
      rcases hq with hq | hq
      · rcases List.mem_cons.1 hq with rfl | hq
        · exact .inr (if_pos rfl)
        · exact .inl hq
      · refine .inr ?_
        rw [hq]
        exact ite_self _

theorem closePools_eq (w : World Desk) :
    closePools w = closeAll (List.range w.pools.size) w := by
  unfold closePools closeAll
  congr 1
  funext w p
  unfold leaves
  cases Pool.close p w <;> rfl

/-- Dropping does not look at the client. -/
theorem dropAll_client (w : World Desk) (d : Desk) (handles : List Handle) :
    ({ w with client := d } : World Desk).dropAll handles =
      { w.dropAll handles with client := d } := by
  rw [dropAll_with w d w.held handles, ← (quiet_dropAll w handles).held]

theorem leaves_discard (me : Thread) (p : PoolId) {name : String} {rest : List (String × Handle)}
    (hhandles : w.client.handles = (name, handle) :: rest) (hs : w.client.Sorted) :
    ((Call.discard (.named name)).perform me p).leaves w =
      { w.drop handle.buffer with client := { w.client with handles := rest } } := by
  have hremove : remove name w.client.handles = rest := by
    rw [Sorted, hhandles] at hs
    have hrest := remove_eq_self_of_lt (List.pairwise_cons.1 hs).1
    rw [hhandles, remove, List.filter_cons, bne_self_eq_false]
    exact hrest
  have hfind : w.client.find? (.named name) = some handle := by
    rw [Desk.find?, hhandles, List.lookup_cons_self]
  have hcall : (Call.discard (.named name)).perform me p w = .ok (.flag true)
      (({ w with client := { w.client with handles := remove name w.client.handles } } :
        World Desk).drop handle.buffer) := by
    have hget : (get : DeskM (World Desk)) w = .ok w w := rfl
    rw [Call.perform, bind_of_ok _ hget, hfind]
    rfl
  rw [leaves_of_ok hcall, hremove]
  exact dropAll_client w { w.client with handles := rest } [handle]

/-- All handles are dropped, in the order of their names. -/
theorem along_discardAll (hk : Scene.Kept ⟨w₀, []⟩) (h : Along w₀ held present visits w) :
    Along w₀ held present visits
      { w.dropAll (w.client.handles.map (·.2)) with client := { w.client with handles := [] } } := by
  generalize hhandles : w.client.handles = handles
  induction handles generalizing w with
  | nil =>
      change Along w₀ held present visits { w with client := { w.client with handles := [] } }
      rw [← hhandles]
      exact h
  | cons entry rest ih =>
      obtain ⟨name, handle⟩ := entry
      obtain ⟨k, hbooks⟩ := h.kept hk
      have hcall := h.call hk 0 0 (.discard (.named name))
      rw [leaves_discard 0 0 hhandles hbooks.sorted_desk] at hcall
      have hrest := ih hcall rfl
      rw [dropAll_client] at hrest
      exact hrest

theorem along_finish (hk : Scene.Kept ⟨w₀, []⟩) (h : Along w₀ [] none [] w) (logged : Bool) :
    Along w₀ [] none [] (finish logged w).2 ∧ (∀ q, (finish logged w).2.pool? q = none) ∧
      (finish logged w).2.handles = [] := by
  obtain ⟨hclosed, hnone⟩ := along_closeAll hk h (List.range w.pools.size)
  rw [← closePools_eq] at hclosed hnone
  have hfinish : Along w₀ [] none [] (finish logged w).2 := along_discardAll hk hclosed
  refine ⟨hfinish, fun q => ?_, ?_⟩
  · have harena : (finish logged w).2.arena? q = none := by
      refine ((quiet_dropAll _ _).arena q).trans (hnone q ?_)
      rw [List.mem_range]
      exact (Nat.lt_or_ge q w.pools.size).imp id arena?_of_le
    exact Option.map_eq_none_iff.1 harena
  · have hpresent : (finish logged w).2.client.present = none :=
      Option.map_eq_none_iff.1 hfinish.present
    have hsuspended : (finish logged w).2.client.suspended = [] :=
      List.map_eq_nil_iff.1 hfinish.suspended
    rw [World.handles, hfinish.held, roots, hpresent, hsuspended]
    rfl

/-- Whatever commands a desk is told, and on whatever threads, all payloads have gone back to their
heaps when it has finished. -/
theorem finish_settled (profile : Profile) (format : Format) (maker : Supply) (logged : Bool)
    (commands : List (Thread × Command)) :
    let w := stepAll logged commands (.empty profile format maker .empty)
    (finish logged w).1.outstanding = 0 ∧
      ∀ b c, (finish logged w).2.cells[b]? = some c →
        .freed c.home b c.tag c.buffer.capacity ∈ (finish logged w).2.events := by
  intro w
  have hk := kept_empty profile format maker
  have hrun := along_stepAll hk ⟨.refl, rfl, rfl, rfl⟩ logged commands
  obtain ⟨hfinish, hpools, hhandles⟩ := along_finish hk hrun logged
  obtain ⟨k, hbooks⟩ := hfinish.kept hk
  have hnone := Scene.references_eq_zero (s := ⟨(finish logged w).2, []⟩) hpools rfl hhandles
  have hrefs : ∀ b, (finish logged w).2.refs b = 0 := by
    intro b
    have hcount := hbooks.refs_eq b
    rw [hnone, Multiset.count_zero] at hcount
    exact hcount
  refine ⟨outstanding_eq_zero hrefs, fun b c hc => (hbooks.fate hc).freed ?_⟩
  rw [hnone]
  exact Multiset.notMem_zero b

end BufferPool.Desk
