import Mathlib

namespace shared_pool

/-- The slots that are free, the next to be taken last, and the items that places hold references to. -/
structure Pool (P F : Type*) where
  free : List ℕ
  held : P → Option F

variable {P F : Type*} {slot : F → ℕ} {s : Pool P F} {p q : P} {x : F}

/-- The free slots are different ones, no item that is held has one of them, and items that are held have
different slots. -/
structure Owned (slot : F → ℕ) (s : Pool P F) : Prop where
  nodup : s.free.Nodup
  not_free : ∀ p x, s.held p = some x → slot x ∉ s.free
  injective : ∀ p q x y, s.held p = some x → s.held q = some y → slot x = slot y → x = y

/-- The item at a place is held nowhere else. -/
def Pool.Only (s : Pool P F) (p : P) : Prop := ∀ x q, s.held p = some x → s.held q = some x → q = p

theorem owned_init {free : List ℕ} (hfree : free.Nodup) :
    Owned slot ({ free, held := fun _ => none } : Pool P F) where
  nodup := hfree
  not_free _ _ h := nomatch h
  injective _ _ _ _ h := nomatch h

variable [DecidableEq P]

/-- An item takes the last of the free slots, and a place holds the first reference to it. -/
def Pool.take (s : Pool P F) (p : P) (x : F) : Pool P F where
  free := s.free.dropLast
  held := Function.update s.held p (some x)

@[simp] theorem Pool.held_take : (s.take p x).held = Function.update s.held p (some x) := rfl

theorem Owned.take (howned : Owned slot s) (hlast : s.free.getLast? = some (slot x)) :
    Owned slot (s.take p x) := by
  have hfree : s.free = s.free.dropLast ++ [slot x] := (List.dropLast_append_getLast? _ hlast).symm
  have hnodup := howned.nodup
  rw [hfree, List.nodup_append] at hnodup
  obtain ⟨hrest, -, hdisjoint⟩ := hnodup
  have hmem : slot x ∈ s.free := List.mem_of_getLast? hlast
  have hother : ∀ r y, (s.take p x).held r = some y → y = x ∨ s.held r = some y := by
    intro r y hr
    by_cases hrp : r = p
    · subst hrp
      rw [Pool.held_take, Function.update_self] at hr
      exact .inl (Option.some.inj hr).symm
    · rw [Pool.held_take, Function.update_of_ne hrp] at hr
      exact .inr hr
  refine ⟨hrest, fun r y hr => ?_, fun r t y z hr ht hslot => ?_⟩
  · rcases hother r y hr with rfl | hold
    · exact fun hin => hdisjoint _ hin _ (List.mem_singleton_self _) rfl
    · exact fun hin => howned.not_free r y hold (List.dropLast_subset _ hin)
  · rcases hother r y hr with rfl | hy <;> rcases hother t z ht with rfl | hz
    · rfl
    · exact absurd (hslot ▸ hmem) (howned.not_free t z hz)
    · exact absurd (hslot ▸ hmem) (howned.not_free r y hy)
    · exact howned.injective r t y z hy hz hslot

/-- An item that takes a free slot is held nowhere yet. -/
theorem Owned.only_take (howned : Owned slot s) (hlast : s.free.getLast? = some (slot x)) :
    (s.take p x).Only p := by
  intro y q hp hq
  rw [Pool.held_take, Function.update_self, Option.some.injEq] at hp
  subst hp
  by_contra hqp
  rw [Pool.held_take, Function.update_of_ne hqp] at hq
  exact howned.not_free q x hq (List.mem_of_getLast? hlast)

variable [Fintype P] [DecidableEq F]

/-- A place gets another reference, or none. When it held the last reference to an item, the slot of the item
becomes free. -/
def Pool.put (slot : F → ℕ) (s : Pool P F) (p : P) (new : Option F) : Pool P F where
  held := Function.update s.held p new
  free :=
    match s.held p with
    | none => s.free
    | some old => if ∃ q, Function.update s.held p new q = some old then s.free else s.free ++ [slot old]

variable {new : Option F}

@[simp] theorem Pool.held_put : (s.put slot p new).held = Function.update s.held p new := rfl

/-- What is held after a place has got a reference was held before. -/
theorem Pool.held_of_put (hnew : ∀ y ∈ new, ∃ r, s.held r = some y) {y : F}
    (hq : (s.put slot p new).held q = some y) : ∃ r, s.held r = some y := by
  by_cases hqp : q = p
  · subst hqp
    rw [Pool.held_put, Function.update_self] at hq
    exact hnew y hq
  · rw [Pool.held_put, Function.update_of_ne hqp] at hq
    exact ⟨q, hq⟩

theorem Owned.put (howned : Owned slot s) (hnew : ∀ y ∈ new, ∃ r, s.held r = some y) :
    Owned slot (s.put slot p new) := by
  have hinjective : ∀ q r x y, (s.put slot p new).held q = some x → (s.put slot p new).held r = some y →
      slot x = slot y → x = y := by
    intro q r x y hq hr hslot
    obtain ⟨q', hq'⟩ := Pool.held_of_put hnew hq
    obtain ⟨r', hr'⟩ := Pool.held_of_put hnew hr
    exact howned.injective q' r' x y hq' hr' hslot
  have hkept : ∀ q x, (s.put slot p new).held q = some x → slot x ∉ s.free := by
    intro q x hq
    obtain ⟨q', hq'⟩ := Pool.held_of_put hnew hq
    exact howned.not_free q' x hq'
  cases hold : s.held p with
  | none =>
    have hfree : (s.put slot p new).free = s.free := by simp only [Pool.put, hold]
    exact ⟨hfree ▸ howned.nodup, hfree ▸ hkept, hinjective⟩
  | some old =>
    by_cases hlast : ∃ q, Function.update s.held p new q = some old
    · have hfree : (s.put slot p new).free = s.free := by simp only [Pool.put, hold, if_pos hlast]
      exact ⟨hfree ▸ howned.nodup, hfree ▸ hkept, hinjective⟩
    · have hfree : (s.put slot p new).free = s.free ++ [slot old] := by
        simp only [Pool.put, hold, if_neg hlast]
      refine ⟨?_, fun q x hq hin => ?_, hinjective⟩
      · rw [hfree, List.nodup_append]
        refine ⟨howned.nodup, List.nodup_singleton _, fun i hi j hj hij => ?_⟩
        rw [List.mem_singleton] at hj
        exact howned.not_free p old hold (hj ▸ hij ▸ hi)
      · rw [hfree, List.mem_append, List.mem_singleton] at hin
        rcases hin with hin | hin
        · exact hkept q x hq hin
        · obtain ⟨q', hq'⟩ := Pool.held_of_put hnew hq
          obtain rfl := howned.injective q' p x old hq' hold hin
          exact hlast ⟨q, hq⟩

theorem Pool.Only.put (honly : s.Only p) (hq : q ≠ p) (hnew : ∀ y ∈ new, ∃ r, r ≠ p ∧ s.held r = some y) :
    (s.put slot q new).Only p := by
  intro x r hp hr
  rw [Pool.held_put, Function.update_of_ne hq.symm] at hp
  by_cases hrq : r = q
  · subst hrq
    rw [Pool.held_put, Function.update_self] at hr
    obtain ⟨t, ht, hheld⟩ := hnew x hr
    exact absurd (honly x t hp hheld) ht
  · rw [Pool.held_put, Function.update_of_ne hrq] at hr
    exact honly x r hp hr

end shared_pool
