import K180.Schedule.Run

namespace schedule

variable {T : Type*} {source line source' line' : List T}

/-- A line takes what its source gives. It may lose some of it on the way, and keeps the rest in order. -/
def Fed (source line source' line' : List T) : Prop :=
  ∃ new, source' = source ++ new ∧ line'.Sublist (line ++ new)

namespace Fed

theorem lose (hline : line'.Sublist line) : Fed source line source line' :=
  ⟨[], (List.append_nil source).symm, by rwa [List.append_nil]⟩

theorem same : Fed source line source line := lose (List.Sublist.refl line)

theorem sublist (hfed : Fed source line source' line') (hline : line.Sublist source) : line'.Sublist source' := by
  obtain ⟨new, rfl, hnew⟩ := hfed
  exact hnew.trans (hline.append_right new)

end Fed

variable {S A : Type*} {step : S → A → Option S}

/-- Whatever the schedule, a line has what its source has given, in the same order and no item twice. -/
theorem sublist_of_run (source line : S → List T)
    (hfed : ∀ s a s', step s a = some s' → Fed (source s) (line s) (source s') (line s')) {s s' : S} {actions : List A}
    (hinit : (line s).Sublist (source s)) (hrun : run step s actions = some s') :
    (line s').Sublist (source s') :=
  invariant_of_run (fun s a s' hline hstep => (hfed s a s' hstep).sublist hline) hinit hrun

end schedule
