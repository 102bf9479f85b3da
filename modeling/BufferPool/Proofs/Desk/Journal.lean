import BufferPool.Proofs.Desk.StepLabels
import BufferPool.Proofs.Pool.Bypassing

/-!
# What a labelled step does to a buffer

A buffer is changed by the calls on it, by what is carried over to it, and by operations of pools that
have it in hand. Those touch no byte of it, and take it from no owner; only a sweep may empty it, on
behalf of the thread that runs.

A journal tells a run entry by entry: the scene before, what was done, and the scene after.
-/

namespace BufferPool.Desk

open PoolM World
open Buffer (Act Lent)

variable {d : StepLabel} {s s' : Scene} {b : BufferId}

namespace StepLabel

/-- The call that is made on the buffer, and on which thread. -/
def call? (b : BufferId) (w : World Desk) : StepLabel → Option (Thread × BufferCall)
  | .call me _ (.onBuffer operand c) =>
    if (w.client.find? operand).map (·.buffer) = some b then some (me, c) else none
  | _ => none

/-- Whether bytes are to be carried over to the buffer. -/
def carries (b : BufferId) (w : World Desk) : StepLabel → Bool
  | .call _ _ (.carryOver _ target _ _) => (w.client.find? target).map (·.buffer) == some b
  | _ => false

/-- The thread on which a sweep runs. -/
def sweeper : StepLabel → Option Thread
  | .call me _ (.sweep ..) => some me
  | .visit me _ _ => some me
  | _ => none

/-- A sweep on thread `me` comes to the buffer, which is no one-shot buffer. -/
inductive Cleans (b : BufferId) (w : World Desk) (me : Thread) : StepLabel → Prop where
  | visit {sweep : Sweep} {handle : Handle} (hb : handle.buffer = b)
      (hlasting : (w.buffer b).transient = false) : Cleans b w me (.visit me sweep handle)
  | passes {p : PoolId} {lane : Lane} {route : Pool.Route} {dir : Direction} {maker : Option Thread}
      {n : Nat} {key : Arena.Key} (hplace : w.place? p key = some (b, some route.target))
      (hlasting : (w.buffer b).transient = false) :
      Cleans b w me (.call me p (.sweep lane route dir maker n))

theorem Cleans.sweeper {w : World Desk} {me : Thread} (h : d.Cleans b w me) :
    d.sweeper = some me := by
  cases h <;> rfl

/-- What is done to a buffer: a call on it, or something is carried over to it, or it is dealt with as
operations of pools do. Those may clean up for a thread only if a sweep on it comes to the buffer. -/
inductive Touches (d : StepLabel) (b : BufferId) (w w' : World Desk) : Prop where
  | call {me : Thread} {call : BufferCall} (hcall : d.call? b w = some (me, call))
      (h : w'.buffer b = (w.buffer b).perform (call.acts me w.profile (w.buffer b)))
  | carry {source : Buffer} {me : Thread} {used requested : UInt64} (hcall : d.call? b w = none)
      (hcarries : d.carries b w = true)
      (h : w'.buffer b = (Act.carryOver source me used requested).apply (w.buffer b))
  | lent {cleaner : Option Thread} (hcall : d.call? b w = none)
      (hcleans : ∀ me, cleaner = some me → d.Cleans b w me)
      (h : Lent cleaner (w.buffer b) (w'.buffer b))

/-- Any buffer may be handed out, and contents are only forgotten for `cleaner`. -/
theorem lent_of_led {cleaner : Option Thread} {w w' : World Desk}
    (h : (Warrant.lending cleaner fun _ => True).Led w w') (hb : b < w.cells.size) :
    Lent cleaner (w.buffer b) (w'.buffer b) :=
  h.steps.alters hb

/-- What is left as it was. -/
theorem Touches.of_eq {w w' : World Desk} (hcall : d.call? b w = none)
    (h : w'.buffer b = w.buffer b) : d.Touches b w w' := by
  have hlent : Lent none (w.buffer b) (w'.buffer b) := h ▸ .refl _
  exact .lent hcall (by nofun) hlent

/-- A call that is not on single buffers, and no sweep, deals with buffers as operations of pools do. -/
theorem lent_call {me : Thread} {p : PoolId} {call : Call} (hs : s.Kept)
    (hwork : call.work? me s.world = none) (hsweep : ∀ lane route dir maker passes,
      call ≠ .sweep lane route dir maker passes) (hb : b < s.world.cells.size) :
    Lent none (s.world.buffer b) (((call.perform me p).leaves s.world).buffer b) := by
  have hopen : (Warrant.lending none fun _ => True).Open s.world := (hs.open fun _ => trivial).world
  refine lent_of_led (led_call (Warrant.lends_lending none _) (fun _ => trivial) hopen ⟨?_, ?_⟩) hb
  · exact fun _ _ hsome => nomatch hwork.symm.trans hsome
  · exact fun lane route dir maker passes hcall => (hsweep lane route dir maker passes hcall).elim

/-- Passes of a sweep over a lane. -/
theorem touches_sweep {me : Thread} {p : PoolId} (hs : s.Kept) (lane : Lane) (route : Pool.Route)
    (dir : Direction) (maker : Option Thread) (n : Nat) (hb : b < s.world.cells.size) :
    (StepLabel.call me p (.sweep lane route dir maker n)).Touches b s.world
      (((Call.sweep lane route dir maker n).perform me p).leaves s.world) := by
  by_cases hcomes : (StepLabel.call me p (.sweep lane route dir maker n)).Cleans b s.world me
  · have hlends := Warrant.lends_lending (some me) fun _ => True
    have hopen : (Warrant.lending (some me) fun _ => True).Open s.world :=
      (hs.open fun _ => trivial).world
    have hled : (Warrant.lending (some me) fun _ => True).Led s.world
        (((Call.sweep lane route dir maker n).perform me p).leaves s.world) :=
      led_call hlends.of_some (fun _ => trivial) hopen ⟨fun _ _ hwork => (nomatch hwork),
        fun _ _ _ _ _ _ => hlends⟩
    exact .lent rfl (fun _ hme => Option.some.inj hme ▸ hcomes) (lent_of_led hled hb)
  · refine .of_eq rfl ?_
    rw [Call.perform, leaves_withPool]
    cases s.world.pool? p with
    | none => rfl
    | some pool =>
        have hready : Warrant.all.Ready s.world := (hs.open fun _ => trivial).world.toReady
        rw [Option.elim_some, leaves_map]
        exact Sweep.buffer_passes hready (fun hlasting key hplace => hcomes (.passes hplace hlasting))
          dir n

/-- Work on another buffer is none on this one. -/
theorem buffer_work_of_ne {w : World Desk} {b' : BufferId} (acts : List Act) (hne : b' ≠ b) :
    (w.work b' acts).buffer b = w.buffer b :=
  buffer_modifyBuffer_of_ne _ _ (Ne.symm hne)

section SingleBuffers

variable {w : World Desk} (me : Thread) (p : PoolId)

theorem call?_onBuffer {operand : Operand} (call : BufferCall)
    (h : (w.client.find? operand).map (·.buffer) = some b) :
    (StepLabel.call me p (.onBuffer operand call)).call? b w = some (me, call) :=
  if_pos h

theorem touches_onBuffer (operand : Operand) (call : BufferCall) (hb : b < w.cells.size) :
    (StepLabel.call me p (.onBuffer operand call)).Touches b w
      (((Call.onBuffer operand call).perform me p).leaves w) := by
  rw [leaves_onBuffer_call, Call.work?]
  cases hf : w.client.find? operand with
  | none =>
      refine .of_eq ?_ rfl
      simp [StepLabel.call?, hf]
  | some handle =>
      change Touches _ b w (w.work handle.buffer _)
      by_cases hsame : handle.buffer = b
      · subst hsame
        have hcall := call?_onBuffer me p call (congrArg (Option.map (·.buffer)) hf)
        exact .call hcall (buffer_modifyBuffer_self _ hb)
      · refine .of_eq ?_ (buffer_work_of_ne _ hsame)
        simp [StepLabel.call?, hf, hsame]

theorem touches_carryOver (old target : Operand) (used requested : UInt64)
    (hb : b < w.cells.size) :
    (StepLabel.call me p (.carryOver old target used requested)).Touches b w
      (((Call.carryOver old target used requested).perform me p).leaves w) := by
  rw [leaves_carryOver_call, Call.work?]
  cases w.client.find? old with
  | none => exact .of_eq rfl rfl
  | some source =>
      cases htarget : w.client.find? target with
      | none => exact .of_eq rfl rfl
      | some handle =>
          change Touches _ b w (w.work handle.buffer (if _ then [] else _))
          by_cases hsame : handle.buffer = b
          · subst hsame
            split_ifs
            · rw [work_nil]
              exact .of_eq rfl rfl
            · have hcarries : (StepLabel.call me p (.carryOver old target used requested)).carries
                  handle.buffer w = true := by simp [carries, htarget]
              exact .carry rfl hcarries (buffer_modifyBuffer_self _ hb)
          · exact .of_eq rfl (buffer_work_of_ne _ hsame)

end SingleBuffers

/-- A visit of a sweep. -/
theorem touches_visit (hs : s.Kept) (me : Thread) (sweep : Sweep) (handle : Handle)
    (hb : b < s.world.cells.size) :
    (StepLabel.visit me sweep handle).Touches b s.world ((sweep.visit me handle).leaves s.world) := by
  by_cases hcomes : handle.buffer = b ∧ (s.world.buffer b).transient = false
  · obtain ⟨hsame, hlasting⟩ := hcomes
    have hlends := Warrant.lends_lending (some me) fun _ => True
    have hfine : (Warrant.lending (some me) fun _ => True).Fine handle s.world :=
      ⟨trivial, fun _ _ _ => trivial⟩
    have hled := led_visit hlends (hs.open fun _ => trivial).world sweep hfine
    exact .lent rfl (fun _ hme => Option.some.inj hme ▸ .visit hsame hlasting) (lent_of_led hled hb)
  · refine .of_eq rfl ?_
    by_cases hsame : handle.buffer = b
    · refine Sweep.buffer_visit_of_transient ?_ b
      rw [hsame]
      exact Bool.eq_true_of_not_eq_false fun hlasting => hcomes ⟨hsame, hlasting⟩
    · exact Sweep.keeps_visit me sweep (Ne.symm hsame) _ s.world rfl

theorem Leads.touches (hs : s.Kept) (h : d.Leads s s') (hb : b < s.world.cells.size) :
    d.Touches b s.world s'.world := by
  have heffect := h.effect
  cases d with
  | rest => exact .of_eq rfl (heffect b hb)
  | visit me sweep handle =>
      have hrun : s'.world = (sweep.visit me handle).leaves s.world := heffect
      rw [hrun]
      exact touches_visit hs me sweep handle hb
  | call me p call =>
      have hrun : s'.world = (call.perform me p).leaves s.world := heffect
      rw [hrun]
      cases call with
      | onBuffer operand call => exact touches_onBuffer me p operand call hb
      | carryOver old target used requested =>
          exact touches_carryOver me p old target used requested hb
      | sweep lane route dir maker n => exact touches_sweep hs lane route dir maker n hb
      | _ => exact .lent rfl (by nofun) (lent_call hs rfl nofun hb)

end StepLabel

/-- What is answered to a thread that does not own the buffer. -/
def BufferCall.denial? : BufferCall → Option (Except Fault Reply)
  | .write _ | .stage _ | .commit _ => some (.ok (.refused (.write .notAcquired)))
  | .read => some (.error .unflushedReadByOther)
  | .reset => some (.error .resetByOther)
  | _ => none

/-- An answer after which the world is as it was. -/
def denied (answer : Except Fault Reply) (w : World Desk) : EStateM.Result Fault (World Desk) Reply :=
  match answer with
  | .ok reply => .ok reply w
  | .error fault => .error fault w

section Denials

variable {w : World Desk} {me : Thread} {handle : Handle}

theorem replyTo_of_error {act : DeskM (Except WriteError Unit)} {e : WriteError}
    (h : act w = .ok (.error e) w) : (replyTo <$> act) w = .ok (.refused (.write e)) w := by
  rw [map_eq_pure_bind, bind_of_ok _ h]
  rfl

theorem perform_of_denial {call : BufferCall} {answer : Except Fault Reply}
    (h : call.denial? = some answer) (ho : (w.buffer handle.buffer).owner ≠ some me) :
    call.perform me handle w = denied answer w := by
  have hother : ¬(w.buffer handle.buffer).ownedBy me = true := fun h => ho (beq_iff_eq.1 h)
  have hstage : ∀ bytes, (w.buffer handle.buffer).stage me bytes = .error .notAcquired :=
    fun bytes => if_neg hother
  cases call with
  | write bytes =>
      obtain rfl := Option.some.inj h
      have hwrite : (w.buffer handle.buffer).write me bytes = .error .notAcquired := by
        rw [Buffer.write, hstage]
        rfl
      exact replyTo_of_error (write_of_error hwrite)
  | stage bytes =>
      obtain rfl := Option.some.inj h
      exact replyTo_of_error (stage_of_error (hstage bytes))
  | commit count =>
      obtain rfl := Option.some.inj h
      exact replyTo_of_error (commit_of_error (if_neg hother))
  | read =>
      obtain rfl := Option.some.inj h
      rw [BufferCall.perform, PoolM.read, bind_assoc, getBuffer_bind, if_neg hother]
      rfl
  | reset =>
      obtain rfl := Option.some.inj h
      rw [BufferCall.perform, done, map_const, PoolM.reset, Function.comp_apply, map_eq_pure_bind,
        bind_assoc, getBuffer_bind, if_neg hother]
      rfl
  | _ => exact (Option.some_ne_none _ h.symm).elim

/-- Nobody carries bytes over to a buffer of somebody else. -/
theorem carryOver_of_other {old new : BufferId} {used requested : UInt64}
    (hsource : ¬(w.buffer old).Astray w.profile) (ho : (w.buffer new).owner ≠ some me) :
    ∃ fault, (carryOver old new me used requested : DeskM Unit) w = .error (.transfer fault) w := by
  have hother : ¬(w.buffer new).ownedBy me = true := fun h => ho (beq_iff_eq.1 h)
  cases hcarry : (w.buffer old).carryOver (w.buffer new) (old == new) me used requested with
  | error fault => exact ⟨fault, carryOver_of_error (fun hastray => hsource hastray.2) hcarry⟩
  | ok buffer =>
      unfold Buffer.carryOver at hcarry
      dsimp only at hcarry
      split_ifs at hcarry

end Denials

/-- What happened in one step. -/
structure Entry where
  before : Scene
  label : StepLabel
  after : Scene

/-- A run with what happened in it, the earliest entry first. -/
inductive Scene.Logs (start : Scene) : List Entry → Scene → Prop where
  | refl : Logs start [] start
  | step {log : List Entry} {s s' : Scene} {d : StepLabel} (h : Logs start log s) (hd : d.Leads s s') :
      Logs start (log ++ [⟨s, d, s'⟩]) s'

variable {start : Scene} {log : List Entry}

theorem Scene.Logs.reaches (h : start.Logs log s) : start.Reaches s := by
  induction h with
  | refl => exact .refl
  | step _ hd ih => exact ih.tail hd.step

theorem Scene.Logs.trans {log' : List Entry} (h : start.Logs log s) (h' : s.Logs log' s') :
    start.Logs (log ++ log') s' := by
  induction h' with
  | refl =>
      rw [List.append_nil]
      exact h
  | step _ hd ih =>
      rw [← List.append_assoc]
      exact ih.step hd

/-- A journal can be kept of every run. -/
theorem Scene.Reaches.exists_logs (hs : start.Kept) (h : start.Reaches s) :
    ∃ log, start.Logs log s := by
  induction h with
  | refl => exact ⟨[], .refl⟩
  | tail hr ha ih =>
      obtain ⟨log, hlog⟩ := ih
      obtain ⟨d, hd⟩ := ha.exists_label (Scene.Reaches.kept hs hr)
      exact ⟨_, hlog.step hd⟩

/-- Buffers do not disappear. -/
theorem Scene.Reaches.size_le (hs : s.Kept) (h : s.Reaches s') (hb : b < s.world.cells.size) :
    b < s'.world.cells.size := by
  obtain ⟨c', hc', -⟩ := (Scene.Reaches.follows hs h).cells b _ (Array.getElem?_eq_getElem hb)
  exact (Array.getElem?_eq_some_iff.1 hc').choose

/-- The journal of several calls on one thread. -/
def journal (me : Thread) (p : PoolId) : List Call → World Desk → List Entry
  | [], _ => []
  | call :: calls, w =>
    let w' := (call.perform me p).leaves w
    ⟨⟨w, []⟩, .call me p call, ⟨w', []⟩⟩ :: journal me p calls w'

theorem leads_call (me : Thread) (p : PoolId) (call : Call) (w : World Desk) :
    (StepLabel.call me p call).Leads ⟨w, []⟩ ⟨(call.perform me p).leaves w, []⟩ :=
  ⟨.call me p call fun _ => nofun, rfl⟩

theorem logs_journal (me : Thread) (p : PoolId) (calls : List Call) (w : World Desk) :
    Scene.Logs ⟨w, []⟩ (journal me p calls w) ⟨performAll me p calls w, []⟩ := by
  induction calls generalizing w with
  | nil => exact .refl
  | cons call calls ih => exact (Scene.Logs.refl.step (leads_call me p call w)).trans (ih _)

end BufferPool.Desk
