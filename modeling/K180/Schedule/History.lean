import K180.Schedule.Run

namespace schedule

variable {S A N : Type*}

/-- A step that also notes what happened in it, the latest note first. -/
def noted_step (note : S → A → Option N) (step : S → A → Option S) (x : S × List N) (a : A) :
    Option (S × List N) :=
  (step x.1 a).map fun s' => (s', (note x.1 a).toList ++ x.2)

/-- What has been noted since the last note of a kind. -/
def since (last : N → Bool) (history : List N) : List N := history.takeWhile fun n => !last n

/-- Each note of a kind has a note of another kind between it and the one of its own kind before it. -/
def Preceded (last kind : N → Bool) : List N → Prop
  | [] => True
  | n :: rest => (last n = true → ∃ m ∈ since last rest, kind m = true) ∧ Preceded last kind rest

variable {note : S → A → Option N} {step : S → A → Option S} {last kind : N → Bool} {history : List N}

theorem noted_step_eq_some {x x' : S × List N} {a : A} (hstep : noted_step note step x a = some x') :
    step x.1 a = some x'.1 ∧ x'.2 = (note x.1 a).toList ++ x.2 := by
  obtain ⟨s', hs', rfl⟩ := Option.map_eq_some_iff.mp hstep
  exact ⟨hs', rfl⟩

@[simp] theorem since_nil : since last [] = [] := rfl

theorem since_cons_of_last {n : N} (hn : last n = true) : since last (n :: history) = [] := by
  rw [since, List.takeWhile_cons, hn, Bool.not_true, if_neg Bool.false_ne_true]

theorem since_cons_of_not {n : N} (hn : last n = false) :
    since last (n :: history) = n :: since last history := by
  rw [since, List.takeWhile_cons, hn, Bool.not_false, if_pos rfl, since]

/-- There are no more notes of the kind that is preceded than of the other. -/
theorem Preceded.countP_add_le (hkinds : ∀ n, last n = true → kind n = false)
    (hpreceded : Preceded last kind history) :
    history.countP last + (since last history).countP kind ≤ history.countP kind := by
  induction history with
  | nil => exact le_rfl
  | cons n rest ih =>
    obtain ⟨hn, hrest⟩ := hpreceded
    have hle := ih hrest
    cases hlast : last n with
    | true =>
      have hpos := List.countP_pos_iff.mpr (hn hlast)
      rw [since_cons_of_last hlast, List.countP_nil, List.countP_cons_of_pos hlast,
        List.countP_cons_of_neg (by rw [hkinds n hlast]; exact Bool.false_ne_true)]
      omega
    | false =>
      rw [since_cons_of_not hlast, List.countP_cons_of_neg (by rw [hlast]; exact Bool.false_ne_true),
        List.countP_cons, List.countP_cons]
      omega

end schedule
