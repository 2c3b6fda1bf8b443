import K180.Osd.Hubs

namespace k180.osd

/-- What allocating for a number of slots has come to: the slots own the resources that have been
created, and all are usable exactly if no allocation has failed. -/
structure Allocated (alloc : ℕ → Bool) (count next : ℕ) (slots : List SlotResources) (next' : ℕ)
    (ok : Bool) : Prop where
  le : next ≤ next'
  owned : (slots.flatMap (·.owned)).Perm (List.range' next (next' - next))
  usable : ok = true ↔ ∀ s ∈ slots, s.usable = true
  succeeds : ok = true ↔ ∀ j < 5 * count, alloc (next + j) = true
  all : ok = true → next' = next + 5 * count
  fails_at_once : 0 < count → (next' = next ↔ alloc next = false)

theorem forall_lt_add_iff (p : ℕ → Prop) (start m n : ℕ) :
    (∀ j < m + n, p (start + j)) ↔ (∀ j < m, p (start + j)) ∧ ∀ j < n, p (start + m + j) := by
  constructor
  · intro h
    refine ⟨fun j hj => h j (by omega), fun j hj => ?_⟩
    rw [Nat.add_assoc]
    exact h (m + j) (by omega)
  · rintro ⟨hfirst, hlater⟩ j hj
    by_cases hlt : j < m
    · exact hfirst j hlt
    · have h := hlater (j - m) (by omega)
      rwa [Nat.add_assoc, Nat.add_sub_cancel' (by omega)] at h

namespace Allocated

variable {alloc : ℕ → Bool} {next next' next'' m n : ℕ} {slots others : List SlotResources} {ok : Bool}

/-- One slot whose allocation number `k` has failed. -/
theorem of_failure {k : ℕ} (hk : k < 5) {s : SlotResources} (hfail : alloc (next + k) = false)
    (hbefore : alloc next = true ∨ k = 0) (howned : s.owned = List.range' next k)
    (hunusable : s.usable = false) : Allocated alloc 1 next [s] (next + k) false := by
  refine ⟨Nat.le_add_right next k, ?_, ?_, ?_, ?_, ?_⟩
  · simp [howned]
  · simp [hunusable]
  · constructor
    · intro h
      cases h
    · intro h
      exact absurd (h k (by omega)) (by simp [hfail])
  · intro h
    cases h
  · intro _
    obtain hnext | rfl := hbefore
    · have hne : k ≠ 0 := by
        rintro rfl
        rw [Nat.add_zero, hnext] at hfail
        cases hfail
      simp [hnext, hne]
    · simpa using hfail

/-- Allocating for the slots of `others` goes on where allocating for those of `slots` has ended. -/
theorem append (hm : 0 < m) (hslots : Allocated alloc m next slots next' true)
    (hothers : Allocated alloc n next' others next'' ok) :
    Allocated alloc (m + n) next (slots ++ others) next'' ok := by
  have hnext : next' = next + 5 * m := hslots.all rfl
  have hle := hothers.le
  subst hnext
  refine ⟨by omega, ?_, ?_, ?_, ?_, ?_⟩
  · have hsplit : List.range' next (next'' - next) =
        List.range' next (5 * m) ++ List.range' (next + 5 * m) (next'' - (next + 5 * m)) := by
      rw [List.range'_append_1]
      congr 1
      omega
    rw [List.flatMap_append, hsplit]
    apply List.Perm.append
    · simpa using hslots.owned
    · exact hothers.owned
  · rw [hothers.usable, List.forall_mem_append]
    exact (and_iff_right (hslots.usable.mp rfl)).symm
  · rw [hothers.succeeds, Nat.mul_add, forall_lt_add_iff fun j => alloc j = true]
    exact (and_iff_right (hslots.succeeds.mp rfl)).symm
  · intro hok
    rw [hothers.all hok]
    ring
  · intro _
    have hfirst : alloc next = true := hslots.succeeds.mp rfl 0 (by omega)
    rw [hfirst]
    constructor
    · intro h
      omega
    · intro h
      cases h

/-- After a failure the slots of `others` are left as they were made. -/
theorem append_of_failure (hm : 0 < m) (hslots : Allocated alloc m next slots next' false)
    (hothers : others.flatMap (·.owned) = []) :
    Allocated alloc (m + n) next (slots ++ others) next' false := by
  refine ⟨hslots.le, ?_, ?_, ?_, ?_, fun _ => hslots.fails_at_once hm⟩
  · rw [List.flatMap_append, hothers, List.append_nil]
    exact hslots.owned
  · constructor
    · intro h
      cases h
    · intro h
      exact hslots.usable.mpr (List.forall_mem_append.mp h).1
  · constructor
    · intro h
      cases h
    · intro h
      exact hslots.succeeds.mpr fun j hj => h j (by omega)
  · intro h
    cases h

end Allocated

theorem allocate_slot_spec (alloc : ℕ → Bool) (id next : ℕ) :
    Allocated alloc 1 next [(allocate_slot alloc (.empty id) next).1]
      (allocate_slot alloc (.empty id) next).2.1 (allocate_slot alloc (.empty id) next).2.2 ∧
      (allocate_slot alloc (.empty id) next).1.id = id := by
  rw [allocate_slot]
  split
  · rename_i h0
    exact ⟨.of_failure (by decide) h0 (.inr rfl) rfl rfl, rfl⟩
  rename_i h0
  have hnext : alloc next = true := Bool.not_eq_false _ ▸ h0
  split
  · rename_i h1
    exact ⟨.of_failure (by decide) h1 (.inl hnext) rfl rfl, rfl⟩
  rename_i h1
  split
  · rename_i h2
    exact ⟨.of_failure (by decide) h2 (.inl hnext) rfl rfl, rfl⟩
  rename_i h2
  split
  · rename_i h3
    exact ⟨.of_failure (by decide) h3 (.inl hnext) rfl rfl, rfl⟩
  rename_i h3
  split
  · rename_i h4
    exact ⟨.of_failure (by decide) h4 (.inl hnext) rfl rfl, rfl⟩
  · rename_i h4
    refine ⟨⟨Nat.le_add_right next _, ?_, ?_, ?_, ?_, ?_⟩, rfl⟩
    · -- the event is created last and destroyed first
      have hlast : List.range' next (next + 5 - next) =
          [next, next + 1, next + 2, next + 3] ++ [next + 4] := by
        simp [List.range'_succ]
      rw [hlast]
      exact (List.perm_append_singleton (next + 4) _).symm
    · simp [SlotResources.usable]
    · simp only [Bool.not_eq_false] at h0 h1 h2 h3 h4
      simp only [true_iff]
      intro j hj
      interval_cases j <;> assumption
    · simp
    · simp [hnext]

theorem allocate_slots_spec (alloc : ℕ → Bool) (ids : List ℕ) (next : ℕ) :
    Allocated alloc ids.length next (allocate_slots alloc (ids.map .empty) next).1
      (allocate_slots alloc (ids.map .empty) next).2.1
      (allocate_slots alloc (ids.map .empty) next).2.2 ∧
      (allocate_slots alloc (ids.map .empty) next).1.map (·.id) = ids := by
  induction ids generalizing next with
  | nil =>
    refine ⟨⟨le_rfl, ?_, ?_, ?_, ?_, ?_⟩, rfl⟩
    · simp [allocate_slots]
    · simp [allocate_slots]
    · simp [allocate_slots]
    · simp [allocate_slots]
    · simp
  | cons id rest ih =>
    obtain ⟨hslot, hid⟩ := allocate_slot_spec alloc id next
    rw [List.map_cons, allocate_slots, List.length_cons, Nat.add_comm rest.length]
    generalize allocate_slot alloc (.empty id) next = first at hslot hid
    obtain ⟨s, next', ok⟩ := first
    cases ok with
    | false =>
      have howned : (rest.map SlotResources.empty).flatMap (·.owned) = [] := by
        rw [List.flatMap_map]
        simp [SlotResources.owned, SlotResources.empty]
      refine ⟨hslot.append_of_failure Nat.one_pos howned, ?_⟩
      rw [List.map_cons, hid, List.map_map]
      exact congrArg (id :: ·) (List.map_id rest)
    | true =>
      obtain ⟨hrest, hids⟩ := ih next'
      refine ⟨hslot.append Nat.one_pos hrest, ?_⟩
      rw [List.map_cons, hid, hids]

theorem init_slot_vector_spec (alloc : ℕ → Bool) (next_slot next : ℕ) :
    Allocated alloc slot_count next (init_slot_vector alloc next_slot next).1
      (init_slot_vector alloc next_slot next).2.1 (init_slot_vector alloc next_slot next).2.2 ∧
      (init_slot_vector alloc next_slot next).1.map (·.id) = List.range' next_slot slot_count := by
  have hspec := allocate_slots_spec alloc (List.range' next_slot slot_count) next
  rw [List.length_range', List.range'_eq_map_range, List.map_map, ← List.range'_eq_map_range] at hspec
  exact hspec

/-- `osd_init_slots` stops after the first vector, or it goes on to the second. -/
theorem osd_init_slots_cases (σ : HubState) (alloc : ℕ → Bool) :
    (∃ slots next, Allocated alloc slot_count σ.next_resource slots next false ∧
      slots.map (·.id) = List.range' σ.next_slot slot_count ∧
      σ.osd_init_slots alloc =
        ({ σ with slots := slots, next_slot := σ.next_slot + slot_count, next_resource := next }, false)) ∨
    ∃ slots next track_slots next' ok, Allocated alloc slot_count σ.next_resource slots next true ∧
      slots.map (·.id) = List.range' σ.next_slot slot_count ∧
      Allocated alloc slot_count next track_slots next' ok ∧
      track_slots.map (·.id) = List.range' (σ.next_slot + slot_count) slot_count ∧
      σ.osd_init_slots alloc =
        ({ σ with
            slots := slots
            track_slots := track_slots
            next_slot := σ.next_slot + slot_count + slot_count
            next_resource := next' }, ok) := by
  obtain ⟨hslots, hids⟩ := init_slot_vector_spec alloc σ.next_slot σ.next_resource
  rw [HubState.osd_init_slots]
  generalize init_slot_vector alloc σ.next_slot σ.next_resource = first at hslots hids
  obtain ⟨slots, next, ok⟩ := first
  cases ok with
  | false => exact .inl ⟨slots, next, hslots, hids, rfl⟩
  | true =>
    obtain ⟨htrack, hids'⟩ := init_slot_vector_spec alloc (σ.next_slot + slot_count) next
    simp only at hslots hids ⊢
    generalize init_slot_vector alloc (σ.next_slot + slot_count) next = second at htrack hids'
    obtain ⟨track_slots, next', ok⟩ := second
    exact .inr ⟨slots, next, track_slots, next', ok, hslots, hids, htrack, hids', rfl⟩

theorem osd_init_slots_pipeline (σ : HubState) (alloc : ℕ → Bool) :
    (σ.osd_init_slots alloc).1.pipeline = σ.pipeline := by
  obtain ⟨slots, next, _, _, hinit⟩ | ⟨slots, next, track_slots, next', ok, _, _, _, _, hinit⟩ :=
    osd_init_slots_cases σ alloc
  · rw [hinit]
  · rw [hinit]

/-- The vector holds the four slots that `osd_init_slots` makes, with all they need. -/
def Usable (slots : List SlotResources) : Prop :=
  slots.length = slot_count ∧ ∀ s ∈ slots, s.usable = true

theorem owned_eq (σ : HubState) :
    σ.owned = σ.slots.flatMap (·.owned) ++ σ.track_slots.flatMap (·.owned) :=
  List.flatMap_append

theorem ids_eq (σ : HubState) : σ.ids = σ.slots.map (·.id) ++ σ.track_slots.map (·.id) :=
  List.map_append

/-- A usable slot owns an event. -/
theorem Usable.owned_ne_nil {slots : List SlotResources} (husable : Usable slots) :
    slots.flatMap (·.owned) ≠ [] := by
  obtain ⟨hlength, hall⟩ := husable
  cases slots with
  | nil => cases hlength
  | cons s rest =>
    have hs := hall s List.mem_cons_self
    simp only [SlotResources.usable, Bool.and_eq_true] at hs
    obtain ⟨event, hevent⟩ := Option.isSome_iff_exists.mp hs.2
    simp [SlotResources.owned, hevent]

theorem Allocated.length_owned {alloc : ℕ → Bool} {count next next' : ℕ} {slots : List SlotResources}
    {ok : Bool} (hslots : Allocated alloc count next slots next' ok) :
    (slots.flatMap (·.owned)).length = next' - next := by
  rw [hslots.owned.length_eq, List.length_range']

/-- What `osd_init_slots` has done when the track slots were empty before. -/
structure Initialised (alloc : ℕ → Bool) (σ σ' : HubState) : Prop where
  destroyed : σ'.destroyed = σ.destroyed
  pipeline : σ'.pipeline = σ.pipeline
  held : σ'.held = σ.held
  le : σ.next_resource ≤ σ'.next_resource
  owned : σ'.owned.Perm (List.range' σ.next_resource (σ'.next_resource - σ.next_resource))
  usable : Usable σ'.slots ∧ Usable σ'.track_slots ↔
    ∀ j < 5 * slot_count + 5 * slot_count, alloc (σ.next_resource + j) = true
  fails_at_once : σ'.next_resource = σ.next_resource ↔ alloc σ.next_resource = false
  ids : ∀ id ∈ σ'.ids, σ.next_slot ≤ id ∧ id < σ'.next_slot
  no_track_slots : alloc σ.next_resource = false → σ'.track_slots = []

theorem Allocated.usable_iff {alloc : ℕ → Bool} {next next' next_slot : ℕ} {slots : List SlotResources}
    {ok : Bool} (hslots : Allocated alloc slot_count next slots next' ok)
    (hids : slots.map (·.id) = List.range' next_slot slot_count) : Usable slots ↔ ok = true := by
  have hlength : slots.length = slot_count := by
    rw [← List.length_map, hids, List.length_range']
  rw [hslots.usable, Usable]
  exact and_iff_right hlength

theorem osd_init_slots_spec {σ : HubState} (alloc : ℕ → Bool) (hempty : σ.track_slots = []) :
    Initialised alloc σ (σ.osd_init_slots alloc).1 := by
  have hpos : 0 < slot_count := by decide
  obtain ⟨slots, next, hslots, hids, hinit⟩ |
      ⟨slots, next, track_slots, next', ok, hslots, hids, htrack, hids', hinit⟩ :=
    osd_init_slots_cases σ alloc
  · rw [hinit]
    refine ⟨rfl, rfl, rfl, hslots.le, ?_, ?_, hslots.fails_at_once hpos, ?_, fun _ => hempty⟩
    · rw [owned_eq]
      simpa [hempty] using hslots.owned
    · constructor
      · rintro ⟨husable, _⟩
        cases (hslots.usable_iff hids).mp husable
      · intro h
        have hok := hslots.succeeds.mpr fun j hj => h j (by omega)
        cases hok
    · intro id hid
      rw [ids_eq] at hid
      simp only [hempty, List.map_nil, List.append_nil, hids, List.mem_range'_1] at hid
      exact hid
  · have hall := hslots.append hpos htrack
    rw [hinit]
    refine ⟨rfl, rfl, rfl, hall.le, ?_, ?_, hall.fails_at_once (by decide), ?_, ?_⟩
    · rw [owned_eq, ← List.flatMap_append]
      exact hall.owned
    · rw [hslots.usable_iff hids, htrack.usable_iff hids', ← Nat.mul_add, ← hall.succeeds]
      exact and_iff_right rfl
    · intro id hid
      rw [ids_eq] at hid
      simp only [hids, hids', List.mem_append, List.mem_range'_1] at hid
      simp only
      omega
    · intro hfail
      have hsucceeds := hslots.succeeds.mp rfl 0 (by decide)
      rw [Nat.add_zero, hfail] at hsucceeds
      cases hsucceeds

end k180.osd
