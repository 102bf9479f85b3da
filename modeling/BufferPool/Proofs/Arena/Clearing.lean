import BufferPool.Proofs.Arena.Tenants

/-!
# Clearing many slots

`reclaim` and `drain` vacate one slot after the other. On a sound arena neither meets a fault:
`reclaim` takes exactly the abandoned detached values in slot order, and `drain` takes everything,
lane by lane, and leaves the empty arena.
-/

namespace BufferPool.Arena

variable {α : Type}

/-- Detached values can be unregistered in any order. -/
theorem unregisterAll_wired {keys : List Key} :
    ∀ {a : Arena α} {w : Wiring}, a.Wired w → (keys.map (·.index)).Nodup →
      (∀ key ∈ keys, ∃ value, a.place? key = some (value, none)) →
      ∃ a', a.unregisterAll keys = .ok (keys.filterMap a.get?, a') ∧ a.Cleared keys a' ∧
        a'.Wired { w with vacant := (keys.map (·.index)).reverse ++ w.vacant } := by
  induction keys with
  | nil => exact fun {a w} h _ _ => ⟨a, rfl, cleared_nil a, h⟩
  | cons key keys ih =>
      intro a w h hnd hloose
      obtain ⟨hnot, hnd⟩ := List.nodup_cons.1 hnd
      obtain ⟨value, hv⟩ := hloose key List.mem_cons_self
      obtain ⟨node, hn, rfl, hl⟩ := place?_eq_some_iff.1 hv
      obtain ⟨a₁, ha₁, hu, hw₁⟩ := unregister_wired h hn hl
      have hc := hu.cleared hn
      have hstay : ∀ other ∈ keys, a₁.place? other = a.place? other := by
        intro other ho
        have hne : other ≠ key := by
          rintro rfl
          exact hnot (List.mem_map_of_mem ho)
        rw [hc.place?, if_neg (by simpa using hne)]
      have hloose₁ : ∀ other ∈ keys, ∃ value, a₁.place? other = some (value, none) := by
        intro other ho
        rw [hstay other ho]
        exact hloose other (List.mem_cons_of_mem _ ho)
      obtain ⟨a₂, ha₂, hc₂, hw₂⟩ := ih hw₁ hnd hloose₁
      have hvalues : keys.filterMap a₁.get? = keys.filterMap a.get? := by
        refine List.filterMap_congr fun other ho => ?_
        rw [get?_eq_place?, get?_eq_place?, hstay other ho]
      refine ⟨a₂, ?_, hc.append hc₂, by simpa using hw₂⟩
      have hget : a.get? key = some node.value := by
        simp [get?, hn]
      simp only [unregisterAll, ha₁]
      change (a₁.unregisterAll keys >>= _) = _
      rw [ha₂, List.filterMap_cons, hget, hvalues]
      rfl

theorem mem_abandonedKeys {a : Arena α} {abandoned : α → Bool} {key : Key} :
    key ∈ a.abandonedKeys abandoned ↔
      ∃ value, a.place? key = some (value, none) ∧ abandoned value = true := by
  rw [abandonedKeys, List.mem_filterMap]
  simp only [place?_eq_some_iff]
  constructor
  · rintro ⟨⟨k, node⟩, hm, hk⟩
    obtain ⟨hcond, hkey⟩ := Option.ite_none_right_eq_some.1 hk
    rw [Bool.and_eq_true, Option.isNone_iff_eq_none] at hcond
    obtain rfl : k = key := Option.some.inj hkey
    exact ⟨node.value, ⟨node, mem_occupants.1 hm, rfl, hcond.1⟩, hcond.2⟩
  · rintro ⟨value, ⟨node, hn, rfl, hl⟩, hv⟩
    exact ⟨(key, node), mem_occupants.2 hn, by simp [hl, hv]⟩

/-- The abandoned values are found in slot order. -/
theorem pairwise_abandonedKeys (a : Arena α) (abandoned : α → Bool) :
    (a.abandonedKeys abandoned).Pairwise fun x y => x.index < y.index := by
  rw [abandonedKeys, List.pairwise_filterMap]
  refine (pairwise_occupants a).imp ?_
  rintro ⟨k, m⟩ ⟨l, n⟩ hlt key hk other ho
  obtain rfl := Option.some.inj (Option.ite_none_right_eq_some.1 hk).2
  obtain rfl := Option.some.inj (Option.ite_none_right_eq_some.1 ho).2
  exact hlt

theorem nodup_abandonedKeys (a : Arena α) (abandoned : α → Bool) :
    ((a.abandonedKeys abandoned).map (·.index)).Nodup := by
  rw [List.nodup_iff_pairwise_ne, List.pairwise_map]
  exact (pairwise_abandonedKeys a abandoned).imp fun h => Nat.ne_of_lt h

/-- If the counters show no detached value, then there is none to reclaim. -/
theorem Wired.abandonedKeys_eq_nil {a : Arena α} {w : Wiring} (h : a.Wired w)
    (hd : a.detached = 0) (abandoned : α → Bool) : a.abandonedKeys abandoned = [] := by
  rw [h.detached_eq, List.length_eq_zero_iff] at hd
  refine List.eq_nil_iff_forall_not_mem.2 fun key hk => ?_
  obtain ⟨value, hp, -⟩ := mem_abandonedKeys.1 hk
  obtain ⟨node, hn, -, hl⟩ := place?_eq_some_iff.1 hp
  have hm := mem_loose.2 ⟨hn, hl⟩
  rw [hd] at hm
  exact nomatch hm

theorem reclaim_wired {a : Arena α} {w : Wiring} (h : a.Wired w) (abandoned : α → Bool) :
    ∃ a', a.reclaim abandoned = .ok ((a.abandonedKeys abandoned).filterMap a.get?, a') ∧
      a.Cleared (a.abandonedKeys abandoned) a' ∧
      a'.Wired { w with
        vacant := ((a.abandonedKeys abandoned).map (·.index)).reverse ++ w.vacant } := by
  unfold reclaim
  split_ifs with hd
  · rw [h.abandonedKeys_eq_nil hd]
    exact ⟨a, rfl, cleared_nil a, h⟩
  · refine unregisterAll_wired h (nodup_abandonedKeys a abandoned) fun key hk => ?_
    obtain ⟨value, hv, -⟩ := mem_abandonedKeys.1 hk
    exact ⟨value, hv⟩

/-- A lane is emptied from its head. -/
theorem drainLane_wired {lane : Lane} {chain : List Nat} :
    ∀ {a : Arena α} {w : Wiring} {fuel : Nat}, a.Wired w → w.lane lane = chain →
      chain.length ≤ fuel →
      ∃ a', a.drainLane lane fuel = .ok ((chain.filterMap a.entryAt?).map (·.2), a') ∧
        a.Cleared ((chain.filterMap a.entryAt?).map (·.1)) a' ∧
        a'.Wired ⟨Function.update w.lane lane [], chain.reverse ++ w.vacant⟩ := by
  induction chain with
  | nil =>
      intro a w fuel h hw _
      refine ⟨a, ?_, cleared_nil a, ?_⟩
      · cases fuel with
        | zero => rfl
        | succ fuel =>
            have hhead := (h.lanes lane).head?_eq
            rw [hw] at hhead
            simp only [drainLane, hhead]
            rfl
      · have hid : Function.update w.lane lane [] = w.lane := by rw [← hw, Function.update_eq_self]
        rw [hid]
        exact h
  | cons i chain ih =>
      intro a w fuel h hw hf
      obtain ⟨fuel, rfl⟩ : ∃ n, fuel = n + 1 := ⟨fuel - 1, by simp at hf; omega⟩
      have ht := h.lanes lane
      rw [hw] at ht
      obtain ⟨key, node, rfl, hn, hl⟩ := ht.node List.mem_cons_self
      have hentry : a.entryAt? key.index = some (key, node.value) :=
        entryAt?_eq_some_iff.2 ⟨rfl, node, hn, rfl⟩
      obtain ⟨a₁, f, ha₁, hr, hm, hw₁⟩ := remove_wired h hn hl
      have hn₁ : a₁.node? key = some (f key.index node) := by rw [hr.node?, hn]; rfl
      obtain ⟨hvalue, hlane⟩ := hm key.index node
      rw [if_pos rfl] at hlane
      obtain ⟨a₂, ha₂, hu, hw₂⟩ := unregister_wired hw₁ hn₁ hlane
      have hc : a.Cleared [key] a₂ := hr.cleared hm (hu.cleared hn₁)
      have hrest : (w.lane lane).erase key.index = chain := by rw [hw, List.erase_cons_head]
      have hnot : key.index ∉ chain := (List.nodup_cons.1 ht.nodup).1
      have hentries : chain.filterMap a₂.entryAt? = chain.filterMap a.entryAt? := by
        refine List.filterMap_congr fun j hj => ?_
        rw [hc.entryAt?, if_neg]
        simp only [List.map_cons, List.map_nil, List.mem_singleton]
        exact fun hjk => hnot (hjk ▸ hj)
      have hf₂ : chain.length ≤ fuel := by simpa using hf
      obtain ⟨a₃, ha₃, hc₃, hw₃⟩ := ih hw₂ (by simp only [Function.update_self, hrest]) hf₂
      rw [hentries] at ha₃ hc₃
      refine ⟨a₃, ?_, ?_, ?_⟩
      · have hhead := ht.head?_eq
        simp only [List.filterMap_cons, hentry] at hhead
        simp only [drainLane, hhead]
        change (a.remove lane key >>= _) = _
        rw [ha₁]
        change (a₁.unregister key >>= _) = _
        rw [ha₂]
        change (a₂.drainLane lane fuel >>= _) = _
        rw [ha₃, hvalue]
        simp only [List.filterMap_cons, hentry]
        rfl
      · have := hc.append hc₃
        simpa [List.filterMap_cons, hentry] using this
      · simpa [Function.update_idem] using hw₃

/-- The detached values are those of the slots on neither chain. -/
theorem Wired.loose_eq {a : Arena α} {w : Wiring} (h : a.Wired w) :
    a.loose.map (fun (key, node) => (key, node.value)) =
      (List.range a.slots.size).filterMap fun i =>
        if i ∈ w.lane .full ++ w.lane .free then none else a.entryAt? i := by
  rw [loose, occupants_eq, List.filter_filterMap, List.map_filterMap]
  refine List.filterMap_congr fun i _ => ?_
  simp only [entryAt?_eq_map, List.mem_append, (h.lanes .full).mem_iff, (h.lanes .free).mem_iff]
  cases ho : a.occupantAt? i with
  | none => simp
  | some o =>
      obtain ⟨key, node⟩ := o
      obtain ⟨rfl, hn⟩ := occupantAt?_eq_some_iff.1 ho
      rw [nodeAt?_of_node? hn]
      cases hl : node.lane with
      | none => simp [hl, Option.filter_some]
      | some lane => cases lane <;> simp [hl, Option.filter_some]

/-- Everything comes out, and the empty arena is left. -/
theorem drain_wired {a : Arena α} {w : Wiring} (h : a.Wired w) :
    a.drain = .ok (((w.lane .full).filterMap a.entryAt?).map (·.2) ++
      ((w.lane .free).filterMap a.entryAt?).map (·.2) ++ a.loose.map (·.2.value), empty) := by
  obtain ⟨a₁, ha₁, hc₁, hw₁⟩ := drainLane_wired h rfl (h.lanes .full).length_le
  have hother : Wiring.lane ⟨Function.update w.lane .full [], (w.lane .full).reverse ++ w.vacant⟩
      .free = w.lane .free := rfl
  have hlength : (w.lane .free).length ≤ a₁.slots.size := by
    have hle := (hw₁.lanes .free).length_le
    rwa [hother] at hle
  obtain ⟨a₂, ha₂, hc₂, hw₂⟩ := drainLane_wired hw₁ hother hlength
  have hindex : ∀ lane,
      (((w.lane lane).filterMap a.entryAt?).map (·.1)).map (·.index) = w.lane lane :=
    fun lane => (h.lanes lane).index_entries
  have hfree : (w.lane .free).filterMap a₁.entryAt? = (w.lane .free).filterMap a.entryAt? := by
    refine List.filterMap_congr fun i hi => ?_
    rw [hc₁.entryAt?, if_neg]
    rw [hindex]
    intro hfull
    obtain ⟨n, hn, hl⟩ := ((h.lanes .full).mem_iff i).1 hfull
    exact nomatch hl.symm.trans ((h.lanes .free).lane_eq hi hn)
  rw [hfree] at ha₂ hc₂
  have hloose : a₂.values = a.loose.map (·.2.value) := by
    have hmap : a.loose.map (·.2.value) =
        (a.loose.map fun (key, node) => (key, node.value)).map (·.2) := by
      rw [List.map_map]
      rfl
    have hsize : a₂.slots.size = a.slots.size := hc₂.size.trans hc₁.size
    rw [values_eq, hmap, h.loose_eq, hsize]
    congr 1
    refine List.filterMap_congr fun i _ => ?_
    rw [(hc₁.append hc₂).entryAt?, List.map_append, hindex, hindex]
  have hends : ∀ lane, a₂.ends lane = .empty := by
    have hnil : ∀ lane, Function.update (Function.update w.lane .full []) .free [] lane = [] := by
      intro lane
      cases lane <;> rfl
    intro lane
    have ht := hw₂.lanes lane
    simp only [hnil] at ht
    have hh := ht.head
    have hl := ht.tail
    have hc := ht.count
    generalize a₂.ends lane = e at hh hl hc
    obtain ⟨head, tail, count⟩ := e
    simp only [List.head?_nil, List.getLast?_nil, List.length_nil] at hh hl hc
    subst hh hl hc
    rfl
  unfold drain
  rw [ha₁]
  change (a₁.drainLane .free a₁.slots.size >>= _) = _
  rw [ha₂]
  change Except.ok (_ ++ a₂.values, (⟨#[], none, a₂.ends .free, a₂.ends .full, 0⟩ : Arena α)) = _
  rw [hloose, hends, hends]
  rfl

end BufferPool.Arena
