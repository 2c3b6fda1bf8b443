import K180.Postprocess.Suppression

open threads binary_float

namespace k180.postprocess

/-- What the comparisons of an arithmetic need for some entry to come first. -/
structure Comparable {F : Type} (A : Arithmetic F) : Prop where
  irrefl : ∀ x, A.lt x x = false
  trans : ∀ {x y z}, A.lt x y = true → A.lt y z = true → A.lt x z = true
  symm : ∀ {x y}, A.eq x y = true → A.eq y x = true
  eq_trans : ∀ {x y z}, A.eq x y = true → A.eq y z = true → A.eq x z = true
  lt_of_eq : ∀ {x y z}, A.eq x y = true → A.lt y z = true → A.lt x z = true
  lt_of_lt_of_eq : ∀ {x y z}, A.lt x y = true → A.eq y z = true → A.lt x z = true

theorem comparable_float32 : Comparable float32 where
  irrefl x := by rcases x with _ | (_ | _) | x <;> simp [float32, Value.lt]
  trans hxy hyz := Value.lt_of_lt_of_le hxy (Value.le_of_lt hyz)
  symm hxy := Value.eq_iff.mpr (Value.eq_iff.mp hxy).symm
  eq_trans hxy hyz := by
    obtain ⟨hxy, hyx⟩ := Value.eq_iff.mp hxy
    obtain ⟨hyz, hzy⟩ := Value.eq_iff.mp hyz
    exact Value.eq_iff.mpr ⟨Value.le_trans hxy hyz, Value.le_trans hzy hyx⟩
  lt_of_eq hxy hyz := Value.lt_of_le_of_lt (Value.eq_iff.mp hxy).1 hyz
  lt_of_lt_of_eq hxy hyz := Value.lt_of_lt_of_le hxy (Value.eq_iff.mp hyz).1

theorem comparable_rational : Comparable rational where
  irrefl x := by simp [rational]
  trans hxy hyz := by
    simp only [rational, decide_eq_true_eq] at *
    exact hxy.trans hyz
  symm hxy := by
    simp only [rational, decide_eq_true_eq] at *
    exact hxy.symm
  eq_trans hxy hyz := by
    simp only [rational, decide_eq_true_eq] at *
    exact hxy.trans hyz
  lt_of_eq hxy hyz := by
    simp only [rational, decide_eq_true_eq] at *
    exact hxy.trans_lt hyz
  lt_of_lt_of_eq hxy hyz := by
    simp only [rational, decide_eq_true_eq] at *
    exact hxy.trans_eq hyz

variable {F : Type} {A : Arithmetic F} {s : Device F} {a b c : ℕ}

theorem precedes_iff :
    Precedes A s a b ↔ A.lt (conf s b) (conf s a) = true ∨ A.eq (conf s a) (conf s b) = true ∧ a < b := by
  rw [Precedes, Bool.or_eq_true, Bool.and_eq_true, decide_eq_true_eq]

theorem Comparable.not_precedes_self (hA : Comparable A) : ¬ Precedes A s a a := by
  rw [precedes_iff, hA.irrefl]
  rintro (h | ⟨-, h⟩)
  · cases h
  · exact lt_irrefl a h

theorem Comparable.precedes_trans (hA : Comparable A) (hab : Precedes A s a b) (hbc : Precedes A s b c) :
    Precedes A s a c := by
  rw [precedes_iff] at *
  obtain hab | ⟨hab, hlt⟩ := hab
  · obtain hbc | ⟨hbc, -⟩ := hbc
    · exact .inl (hA.trans hbc hab)
    · exact .inl (hA.lt_of_eq (hA.symm hbc) hab)
  · obtain hbc | ⟨hbc, hlt'⟩ := hbc
    · exact .inl (hA.lt_of_lt_of_eq hbc (hA.symm hab))
    · exact .inr ⟨hA.eq_trans hab hbc, hlt.trans hlt'⟩

/-- Of some entries there is one that no other one precedes. -/
theorem Comparable.exists_first (hA : Comparable A) (s : Device F) {n : ℕ} {P : ℕ → Prop} (hsome : ∃ i < n, P i) :
    ∃ i < n, P i ∧ ∀ j < n, P j → ¬ Precedes A s j i := by
  obtain ⟨i, hi, hP⟩ := hsome
  let precedes (x y : {i : Fin n // P i}) : Prop := Precedes A s x.val y.val
  have : IsTrans _ precedes := ⟨fun _ _ _ hab hbc => hA.precedes_trans hab hbc⟩
  have : Std.Irrefl precedes := ⟨fun _ => hA.not_precedes_self⟩
  have hfounded := Finite.wellFounded_of_trans_of_irrefl precedes
  obtain ⟨first, -, hfirst⟩ := hfounded.has_min Set.univ ⟨⟨⟨i, hi⟩, hP⟩, trivial⟩
  refine ⟨first.val, first.val.isLt, first.property, fun j hj hPj => ?_⟩
  exact hfirst ⟨⟨j, hj⟩, hPj⟩ trivial

end k180.postprocess
