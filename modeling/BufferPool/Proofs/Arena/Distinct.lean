import BufferPool.Proofs.Arena.Catalog

/-!
# Values that are registered once

In a catalog in which no value is registered under two keys, a value stands for its key. Moving values
between lanes and taking them out keeps it so, and concerns no value but those that are moved.
-/

namespace BufferPool.Arena.Catalog

variable {α : Type}

/-- No value is registered twice. -/
def Distinct (c : Catalog α) : Prop :=
  ∀ key key' v l l', c.place key = some (v, l) → c.place key' = some (v, l') → key = key'

/-- What is said about values other than the touched ones is the same in both catalogs. -/
def Spares (touched : α → Prop) (c c' : Catalog α) : Prop :=
  ∀ key v l, ¬touched v → (c'.place key = some (v, l) ↔ c.place key = some (v, l))

variable {c c' : Catalog α} {key : Key} {v : α} {lane : Lane} {l : Option Lane}

@[simp] theorem place_enter_self (c : Catalog α) (lane : Lane) (key : Key) (v : α) :
    (c.enter lane key v).place key = some (v, some lane) :=
  Function.update_self ..

@[simp] theorem place_leave_self (c : Catalog α) (lane : Lane) (key : Key) (v : α) :
    (c.leave lane key v).place key = some (v, none) :=
  Function.update_self ..

@[simp] theorem order_enter_self (c : Catalog α) (lane : Lane) (key : Key) (v : α) :
    (c.enter lane key v).order lane = key :: c.order lane :=
  Function.update_self ..

theorem order_enter_of_ne {lane' : Lane} (h : lane' ≠ lane) (c : Catalog α) (key : Key) (v : α) :
    (c.enter lane key v).order lane' = c.order lane' :=
  Function.update_of_ne h _ _

@[simp] theorem order_leave_self (c : Catalog α) (lane : Lane) (key : Key) (v : α) :
    (c.leave lane key v).order lane = (c.order lane).erase key :=
  Function.update_self ..

theorem order_leave_of_ne {lane' : Lane} (h : lane' ≠ lane) (c : Catalog α) (key : Key) (v : α) :
    (c.leave lane key v).order lane' = c.order lane' :=
  Function.update_of_ne h _ _

/-- A value is in one place only. -/
theorem Distinct.lane_eq (h : c.Distinct) (hp : c.place key = some (v, l)) {key' : Key}
    {l' : Option Lane} (hp' : c.place key' = some (v, l')) : l' = l := by
  obtain rfl := h key key' v l l' hp hp'
  rw [hp] at hp'
  exact (Prod.mk.inj (Option.some.inj hp')).2.symm

theorem distinct_empty : (empty : Catalog α).Distinct := nofun

/-- Nothing has come in. -/
theorem Distinct.of_values (h : c.Distinct)
    (hv : ∀ key v l, c'.place key = some (v, l) → ∃ l', c.place key = some (v, l')) :
    c'.Distinct := by
  intro k k' x l l' hk hk'
  obtain ⟨m, hm⟩ := hv k x l hk
  obtain ⟨m', hm'⟩ := hv k' x l' hk'
  exact h k k' x m m' hm hm'

/-- A value has got another place. -/
theorem Distinct.update (h : c.Distinct) (hp : c.place key = some (v, l)) (lane : Lane)
    (hc : c'.place = Function.update c.place key (some (v, some lane)) ∨
      c'.place = Function.update c.place key (some (v, none))) : c'.Distinct := by
  apply h.of_values
  intro k x m hk
  rcases hc with hc | hc
  all_goals
    rw [hc, Function.update_apply] at hk
    split_ifs at hk with hkey
    · obtain ⟨rfl, -⟩ := Prod.mk.inj (Option.some.inj hk)
      exact ⟨l, hkey ▸ hp⟩
    · exact ⟨m, hk⟩

theorem Distinct.enter (h : c.Distinct) (hp : c.place key = some (v, l)) (lane : Lane) :
    (c.enter lane key v).Distinct :=
  h.update hp lane (.inl rfl)

theorem Distinct.leave (h : c.Distinct) (hp : c.place key = some (v, l)) (lane : Lane) :
    (c.leave lane key v).Distinct :=
  h.update hp lane (.inr rfl)

theorem Distinct.delete (h : c.Distinct) (keys : List Key) : (c.delete keys).Distinct := by
  apply h.of_values
  intro k x m hk
  simp only [Catalog.delete] at hk
  split_ifs at hk
  exact ⟨m, hk⟩

theorem Distinct.add (h : c.Distinct) (hv : ∀ key l, c.place key ≠ some (v, l)) (key : Key) :
    (c.add key v).Distinct := by
  intro k k' x l l' hk hk'
  simp only [Catalog.add, Function.update_apply] at hk hk'
  split_ifs at hk hk' with h₁ h₂ h₂
  · rw [h₁, h₂]
  · obtain ⟨rfl, -⟩ := Prod.mk.inj (Option.some.inj hk)
    exact absurd hk' (hv k' l')
  · obtain ⟨rfl, -⟩ := Prod.mk.inj (Option.some.inj hk')
    exact absurd hk (hv k l)
  · exact h k k' x l l' hk hk'

theorem Spares.refl (touched : α → Prop) (c : Catalog α) : Spares touched c c :=
  fun _ _ _ _ => Iff.rfl

theorem Spares.trans {touched : α → Prop} {c'' : Catalog α} (h : Spares touched c c')
    (h' : Spares touched c' c'') : Spares touched c c'' :=
  fun k x m hx => (h' k x m hx).trans (h k x m hx)

theorem spares_update {p : Option (α × Option Lane)}
    (hp : ∀ x m, x ≠ v → p ≠ some (x, m)) (hold : ∀ x m, x ≠ v → c.place key ≠ some (x, m))
    (hc : c'.place = Function.update c.place key p) : Spares (· = v) c c' := by
  intro k x m hx
  rw [hc, Function.update_apply]
  split_ifs with hk
  · rw [hk]
    exact iff_of_false (hp x m hx) (hold x m hx)
  · exact Iff.rfl

theorem place_ne_of_place (hp : c.place key = some (v, l)) (x : α) (m : Option Lane) (hx : x ≠ v) :
    c.place key ≠ some (x, m) := by
  rw [hp]
  intro he
  exact hx (Prod.mk.inj (Option.some.inj he)).1.symm

theorem spares_enter (hp : c.place key = some (v, l)) (lane : Lane) :
    Spares (· = v) c (c.enter lane key v) :=
  spares_update (fun _ _ hx he => hx (Prod.mk.inj (Option.some.inj he)).1.symm)
    (place_ne_of_place hp) rfl

theorem spares_leave (hp : c.place key = some (v, l)) (lane : Lane) :
    Spares (· = v) c (c.leave lane key v) :=
  spares_update (fun _ _ hx he => hx (Prod.mk.inj (Option.some.inj he)).1.symm)
    (place_ne_of_place hp) rfl

theorem spares_add (hp : c.place key = none) (v : α) : Spares (· = v) c (c.add key v) :=
  spares_update (fun _ _ hx he => hx (Prod.mk.inj (Option.some.inj he)).1.symm)
    (fun _ _ _ he => nomatch hp.symm.trans he) rfl

theorem mem_valuesOf {keys : List Key} (hk : key ∈ keys) (hp : c.place key = some (v, l)) :
    v ∈ c.valuesOf keys :=
  List.mem_filterMap.2 ⟨key, hk, by rw [hp]; rfl⟩

/-- Gathered values are detached. -/
theorem Gathered.place_of_mem {p : α → Bool} {keys : List Key} (h : c.Gathered p keys)
    (hv : v ∈ c.valuesOf keys) : ∃ key ∈ keys, c.place key = some (v, none) ∧ p v = true := by
  obtain ⟨key, hk, hp⟩ := List.mem_filterMap.1 hv
  obtain ⟨x, hx, hpx⟩ := (h.mem_iff key).1 hk
  rw [hx, Option.map_some, Option.some.injEq] at hp
  subst hp
  exact ⟨key, hk, hx, hpx⟩

theorem spares_delete (c : Catalog α) (keys : List Key) :
    Spares (· ∈ c.valuesOf keys) c (c.delete keys) := by
  intro k x m hx
  simp only [Catalog.delete]
  split_ifs with hk
  · exact iff_of_false not_false fun hp => hx (mem_valuesOf hk hp)
  · exact Iff.rfl

theorem place_delete_singleton (hd : c.Distinct) (hp : c.place key = some (v, l)) (k : Key)
    (m : Option Lane) : (c.delete [key]).place k ≠ some (v, m) := by
  intro hk
  simp only [Catalog.delete, List.mem_singleton] at hk
  split_ifs at hk with hne
  exact hne (hd k key v m l hk hp)

theorem spares_delete_singleton (hp : c.place key = some (v, l)) :
    Spares (· = v) c (c.delete [key]) := by
  intro k x m hx
  simp only [Catalog.delete, List.mem_singleton]
  split_ifs with hk
  · rw [hk]
    exact iff_of_false not_false (place_ne_of_place hp x m hx)
  · exact Iff.rfl

/-- A value has left the full lane, for the free lane or for good. -/
def Recycled (c c' : Catalog α) (key : Key) (v : α) : Prop :=
  c' = (c.leave .full key v).enter .free key v ∨ c' = (c.leave .full key v).delete [key]

namespace Recycled

theorem distinct (h : c.Recycled c' key v) (hd : c.Distinct)
    (hp : c.place key = some (v, some .full)) : c'.Distinct := by
  have hleft := hd.leave hp .full
  rcases h with rfl | rfl
  · exact hleft.enter (place_leave_self ..) .free
  · exact hleft.delete [key]

theorem spares (h : c.Recycled c' key v) (hp : c.place key = some (v, some .full)) :
    Spares (· = v) c c' := by
  have hleft := spares_leave hp .full
  rcases h with rfl | rfl
  · exact hleft.trans (spares_enter (place_leave_self ..) .free)
  · exact hleft.trans (spares_delete_singleton (place_leave_self ..))

theorem order_eq (h : c.Recycled c' key v) : c'.order .full = (c.order .full).erase key := by
  have hne : Lane.full ≠ .free := nofun
  rcases h with rfl | rfl
  · rw [order_enter_of_ne hne, order_leave_self]
  · exact order_leave_self c .full key v

/-- If the value is still there, it is free. -/
theorem lane_eq (h : c.Recycled c' key v) (hd : c.Distinct)
    (hp : c.place key = some (v, some .full)) {k : Key} (hk : c'.place k = some (v, l)) :
    l = some .free := by
  have hd' := h.distinct hd hp
  rcases h with rfl | rfl
  · exact hd'.lane_eq (place_enter_self ..) hk
  · exact absurd hk (place_delete_singleton (hd.leave hp .full) (place_leave_self ..) k l)

end Recycled

end BufferPool.Arena.Catalog
