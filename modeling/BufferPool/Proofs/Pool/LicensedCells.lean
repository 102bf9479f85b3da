import BufferPool.Proofs.Pool.Cache
import BufferPool.Proofs.Pool.WarrantedSteps

/-!
# What licensed steps make of cells and of the free lane

A cell comes into being when a payload is granted, with a fresh buffer, and it stays for good. All that
happens to its buffer is acts. So what acts keep of a buffer, licensed steps keep: the marks that were
made and the size. And a lease is made of a one-shot buffer only, unless a licence allows otherwise.

Without a licence nothing comes into a free lane.
-/

namespace BufferPool

/-- What is put into a lane comes into that one, and everything else stays in its place. -/
theorem Arena.Catalog.Step.place_of_prepend {α : Type} {c c' : Catalog α} {answer : Answer α}
    {into : Lane} {entered key : Key} {value : α} {lane : Option Lane}
    (h : c.Step (.prepend into entered) answer c') (hk : c'.place key = some (value, lane)) :
    lane = some into ∨ c.place key = some (value, lane) := by
  cases h with
  | @prepend value' =>
      change Function.update c.place entered (some (value', some into)) key = _ at hk
      by_cases hkey : key = entered
      · subst hkey
        rw [Function.update_self, Option.some.injEq, Prod.mk.injEq] at hk
        exact .inl hk.2.symm
      · rw [Function.update_of_ne hkey] at hk
        exact .inr hk
  | prependStale | prependListed => exact .inr hk

namespace World

variable {σ : Type} {L : Licence} {w w' : World σ} {b : BufferId} {c c' c'' : Cell}

/-- The cell has become another one by acts on its buffer. A lease is made of a one-shot buffer, or with
a licence. -/
structure Descends (L : Licence) (c c' : Cell) : Prop where
  acts : ∃ acts : List Buffer.Act, c'.buffer = c.buffer.perform acts ∧
    (acts.any Buffer.Act.marksLease = true → L.marks ∨ c.buffer.transient = true)
  home : c'.home = c.home
  tag : c'.tag = c.tag

theorem descends_of_shape (h : c'.shape = c.shape) : Descends L c c' :=
  ⟨⟨[], congrArg (·.1) h, nofun⟩, congrArg (·.2.1) h, congrArg (·.2.2) h⟩

theorem Descends.transient (h : Descends L c c') (hone : c.buffer.transient = true) :
    c'.buffer.transient = true := by
  obtain ⟨acts, hacts, -⟩ := h.acts
  exact hacts ▸ Buffer.transient_perform hone acts

theorem Descends.lease (h : Descends L c c') (hlease : c.buffer.lease = true) :
    c'.buffer.lease = true := by
  obtain ⟨acts, hacts, -⟩ := h.acts
  exact hacts ▸ Buffer.lease_perform hlease acts

theorem Descends.proper (h : Descends L c c') (hmarks : ¬ L.marks) (hproper : c.buffer.Proper) :
    c'.buffer.Proper := by
  obtain ⟨acts, hacts, hlease⟩ := h.acts
  exact hacts ▸ hproper.perform fun hany => (hlease hany).resolve_left hmarks

/-- Nothing that happens to a buffer changes its size. -/
theorem Descends.weight (h : Descends L c c') :
    c'.buffer.header = c.buffer.header ∧ c'.buffer.capacity = c.buffer.capacity := by
  obtain ⟨acts, hacts, -⟩ := h.acts
  exact hacts ▸ Buffer.weight_perform c.buffer acts

/-- A licensed step keeps every cell, but for acts on its buffer. -/
theorem LicensedStep.descends (h : LicensedStep L w w') (hc : w.cells[b]? = some c) :
    ∃ c', w'.cells[b]? = some c' ∧ Descends L c c' := by
  have hlt := (Array.getElem?_eq_some_iff.1 hc).choose
  cases h with
  | minor h =>
      have hshape := h.cells b
      rw [hc, Option.map_some] at hshape
      obtain ⟨c', hc', hsame⟩ := Option.map_eq_some_iff.1 hshape
      exact ⟨c', hc', descends_of_shape hsame⟩
  | @work b' acts h =>
      rw [World.work, getElem?_modifyBuffer, hc]
      split_ifs with hb
      · subst hb
        have hbuffer : w.buffer b = c.buffer := by
          rw [World.buffer, hc]
          rfl
        exact ⟨_, rfl, ⟨acts, rfl, hbuffer ▸ h hlt⟩, rfl, rfl⟩
      · exact ⟨c, rfl, descends_of_shape rfl⟩
  | grant tag _ =>
      exact ⟨c, (Array.getElem?_push_lt hlt).trans ((Array.getElem?_eq_getElem hlt).symm.trans hc),
        descends_of_shape rfl⟩
  | refuse _ _ | update _ _ | insert _ _ _ | found _ _ _ | close _ =>
      exact ⟨c, hc, descends_of_shape rfl⟩

/-- A licensed step adds a cell with a fresh buffer of the size that was requested, or none. -/
theorem LicensedStep.born (h : LicensedStep L w w') (hc' : w'.cells[b]? = some c')
    (hnone : w.cells[b]? = none) :
    ∃ p size tag, c' = ⟨.fresh w.format size, 1, p, tag⟩ ∧ Sized L w p size := by
  cases h with
  | minor h =>
      have hshape := h.cells b
      rw [hc', hnone] at hshape
      exact absurd hshape (Option.some_ne_none _)
  | work _ =>
      rw [World.work, getElem?_modifyBuffer, hnone, Option.map_none, ite_self] at hc'
      exact absurd hc'.symm (Option.some_ne_none c')
  | @grant p size tag hsized =>
      have hpush : (w.cells.push ⟨.fresh w.format size, 1, p, tag⟩)[b]? = some c' := hc'
      rw [Array.getElem?_push, hnone] at hpush
      split_ifs at hpush
      exact ⟨p, size, tag, (Option.some.inj hpush).symm, hsized⟩
  | refuse _ _ | update _ _ | insert _ _ _ | found _ _ _ | close _ =>
      exact absurd (hc'.symm.trans hnone) (Option.some_ne_none c')

/-- What fresh buffers have and descent keeps, every buffer has. -/
theorem LicensedSteps.forall_cells {I : BufferId → Cell → Prop} (h : LicensedSteps L w w')
    (hall : ∀ (b : BufferId) c, w.cells[b]? = some c → I b c)
    (hkeep : ∀ {b c c'}, Descends L c c' → I b c → I b c')
    (hfresh : ∀ {w : World σ} {b p size tag}, Sized L w p size →
      I b ⟨.fresh w.format size, 1, p, tag⟩) :
    ∀ (b : BufferId) c, w'.cells[b]? = some c → I b c := by
  induction h with
  | refl => exact hall
  | @tail w₁ w₂ _ hlicensed ih =>
      intro b c hc
      cases hbefore : w₁.cells[b]? with
      | some c₁ =>
          obtain ⟨c₂, hc₂, hdescends⟩ := hlicensed.descends hbefore
          obtain rfl := Option.some.inj (hc₂.symm.trans hc)
          exact hkeep hdescends (ih b c₁ hbefore)
      | none =>
          obtain ⟨p, size, tag, rfl, hsized⟩ := hlicensed.born hc hbefore
          exact hfresh hsized

/-- What descent keeps of a buffer, a buffer keeps. -/
theorem LicensedSteps.cell {I : Cell → Prop} (h : LicensedSteps L w w') (hc : w.cells[b]? = some c) (hI : I c)
    (hkeep : ∀ {c c'}, Descends L c c' → I c → I c') : ∃ c', w'.cells[b]? = some c' ∧ I c' := by
  induction h with
  | refl => exact ⟨c, hc, hI⟩
  | tail _ hlicensed ih =>
      obtain ⟨c₁, hc₁, hI₁⟩ := ih
      obtain ⟨c₂, hc₂, hdescends⟩ := hlicensed.descends hc₁
      exact ⟨c₂, hc₂, hkeep hdescends hI₁⟩

theorem LicensedStep.profile (h : LicensedStep L w w') : w'.profile = w.profile := by
  cases h with
  | minor h => exact h.profile
  | work _ | grant _ _ | refuse _ _ | update _ _ | insert _ _ _ | found _ _ _ | close _ => rfl

theorem LicensedSteps.profile (h : LicensedSteps L w w') : w'.profile = w.profile := by
  induction h with
  | refl => rfl
  | tail _ hlicensed ih => exact hlicensed.profile.trans ih

variable {q : PoolId} {key : Arena.Key}

theorem LicensedStep.free_place (h : LicensedStep L w w') (hs : w.Sound) (hfills : ¬ L.fills q)
    (hkeeps : ¬ L.keeps) (hfree : w'.place? q key = some (b, some .free)) :
    w.place? q key = some (b, some .free) := by
  cases h with
  | minor h => exact (place?_congr (h.arena? q) key).symm.trans hfree
  | work _ | grant _ _ | refuse _ _ => exact hfree
  | @update p pool hp op hop =>
      rw [place?_setArena hp] at hfree
      split_ifs at hfree with hq
      · subst hq
        obtain ⟨wiring, hw⟩ := hs q pool.arena (arena?_of_pool? hp)
        obtain ⟨wiring', -, hstep⟩ := Arena.perform_refines hw op
        have hallows : Warrant.all.allows op := by
          cases op with
          | prepend lane key => exact absurd rfl (hop lane key)
          | _ => exact trivial
        rw [place?_of_pool? hp]
        rcases hstep.place_of_allows hallows hfree with ⟨-, hno⟩ | ⟨lane, hbefore, rfl | hno⟩
        · exact absurd hno (Option.some_ne_none _)
        · exact hbefore
        · exact absurd hno (Option.some_ne_none _)
      · exact hfree
  | @insert p pool hp lane entered hlane =>
      rw [place?_setArena hp] at hfree
      split_ifs at hfree with hq
      · subst hq
        have hfull : lane ≠ .free := fun hl =>
          (hlane hl).elim hfills fun hkept => hkeeps hkept.1
        obtain ⟨wiring, hw⟩ := hs q pool.arena (arena?_of_pool? hp)
        obtain ⟨wiring', -, hstep⟩ := Arena.perform_refines hw (.prepend lane entered)
        rw [place?_of_pool? hp]
        rcases hstep.place_of_prepend hfree with hentered | hbefore
        · exact absurd (Option.some.inj hentered).symm hfull
        · exact hbefore
      · exact hfree
  | @found pool hfounds hempty _ =>
      rw [World.place?, arena?_push] at hfree
      split_ifs at hfree with hnew
      · exact absurd (hnew ▸ hfounds) hfills
      · exact absurd hfree.symm (Option.some_ne_none _)
      · exact hfree
  | close p =>
      rw [World.place?, arena?_retirePool] at hfree
      split_ifs at hfree
      · exact absurd hfree.symm (Option.some_ne_none _)
      · exact hfree

theorem LicensedSteps.free_place (h : LicensedSteps L w w') (hs : w.Sound) (hfills : ¬ L.fills q)
    (hkeeps : ¬ L.keeps) (hfree : w'.place? q key = some (b, some .free)) :
    w.place? q key = some (b, some .free) := by
  induction h with
  | refl => exact hfree
  | tail hbefore hlicensed ih =>
      exact ih (hlicensed.free_place (LicensedSteps.sound hbefore hs) hfills hkeeps hfree)

end World

end BufferPool
