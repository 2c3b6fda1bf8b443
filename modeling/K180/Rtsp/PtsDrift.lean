import K180.Rtsp.FpsGate

open schedule

namespace k180.h265_hub

variable {fps : ℕ} {s s' : StreamState}

theorem period_ns_eq (fps : ℕ) : period_ns fps = frame_dur fps := by
  rw [period_ns, frame_dur, one_mul]

theorem frame_dur_le (fps : ℕ) : frame_dur fps ≤ 1000000000 := by
  rw [frame_dur, one_mul]
  exact Nat.div_le_self _ _

theorem wrap_of_lt {n : ℕ} (h : n < 2 ^ 64) : wrap n = n := Nat.mod_eq_of_lt h

/-- A credit, up to its maximum, could be spent at once and the PTS still be within its bound. -/
def Funded (fps : ℕ) (s : StreamState) (credit : ℕ) : Prop :=
  s.last_pts + s.t0_ns + min credit (2 * frame_dur fps) ≤ s.now_ns + 3 * frame_dur fps

/-- What is known at each access of the capture thread. A store of `viewer_inc` may come at any time,
so that `last_ns` is zero or the last check. -/
def PhaseInv (fps : ℕ) (s : StreamState) : Prop :=
  match s.capture with
  | .idle | .load_last => s.last_ns ≠ 0 → Funded fps s (s.credit_ns + (s.now_ns - s.last_ns))
  | .store_last_open => s.last_pts + s.t0_ns ≤ s.now_ns + frame_dur fps
  | .store_credit_open =>
    s.last_pts + s.t0_ns ≤ s.now_ns + frame_dur fps ∧ (s.last_ns ≠ 0 → s.last_ns = s.now_ns)
  | .load_credit last => last ≤ s.now_ns ∧ Funded fps s (s.credit_ns + (s.now_ns - last))
  | .store_last credit => Funded fps s credit
  | .store_credit credit =>
    credit ≤ 2 * frame_dur fps ∧ Funded fps s credit ∧ (s.last_ns ≠ 0 → s.last_ns = s.now_ns)
  | .push =>
    s.last_pts + s.t0_ns ≤ s.now_ns + 2 * frame_dur fps ∧ (s.last_ns ≠ 0 → s.last_ns = s.now_ns ∧
      s.last_pts + s.t0_ns + (s.credit_ns + frame_dur fps) ≤ s.now_ns + 3 * frame_dur fps)

structure Inv (fps : ℕ) (s : StreamState) : Prop where
  clock : s.now_ns < 2 ^ 63
  last_le : s.last_ns ≤ s.now_ns
  credit_le : s.credit_ns ≤ 2 * frame_dur fps
  t0_le : s.t0_ns ≤ s.now_ns
  pts_le : s.last_pts + s.t0_ns ≤ s.now_ns + 3 * frame_dur fps
  first_le : ∀ first ∈ s.stamped.head?, first.1 ≤ s.t0_ns
  unset : s.stamped = [] → s.t0_ns = 0
  not_ahead : NotAhead fps s.stamped
  phase : PhaseInv fps s

theorem inv_start (fps : ℕ) (record_enabled : Bool) : Inv fps (stream_start record_enabled) where
  clock := Nat.two_pow_pos 63
  last_le := le_rfl
  credit_le := Nat.zero_le _
  t0_le := le_rfl
  pts_le := Nat.zero_le _
  first_le first hfirst := by cases hfirst
  unset _ := rfl
  not_ahead first hfirst := by cases hfirst
  phase hlast := absurd rfl hlast

/-- Clearing the last check or the credit leaves less to spend. -/
theorem PhaseInv.reset {last_ns credit_ns : ℕ} (hphase : PhaseInv fps s)
    (hlast : last_ns = 0 ∨ last_ns = s.last_ns) (hcredit : credit_ns ≤ s.credit_ns) (resetting counting : ℕ) :
    PhaseInv fps { s with
      last_ns := last_ns, credit_ns := credit_ns, resetting := resetting, counting := counting } := by
  unfold PhaseInv at hphase ⊢
  simp only [Funded] at hphase ⊢
  cases hcapture : s.capture <;> simp only [hcapture] at hphase ⊢ <;> grind

theorem Inv.reset {last_ns credit_ns : ℕ} (hinv : Inv fps s) (hlast : last_ns = 0 ∨ last_ns = s.last_ns)
    (hcredit : credit_ns ≤ s.credit_ns) (resetting counting : ℕ) :
    Inv fps { s with
      last_ns := last_ns, credit_ns := credit_ns, resetting := resetting, counting := counting } where
  clock := hinv.clock
  last_le := by
    have hle := hinv.last_le
    grind
  credit_le := hcredit.trans hinv.credit_le
  t0_le := hinv.t0_le
  pts_le := hinv.pts_le
  first_le := hinv.first_le
  unset := hinv.unset
  not_ahead := hinv.not_ahead
  phase := hinv.phase.reset hlast hcredit resetting counting

/-- An access of the gate does not touch the hub or the clock. -/
theorem Inv.gate {last_ns credit_ns : ℕ} {capture : Capture} (hinv : Inv fps s)
    (hlast : last_ns ≤ s.now_ns) (hcredit : credit_ns ≤ 2 * frame_dur fps)
    (hphase : PhaseInv fps { s with last_ns := last_ns, credit_ns := credit_ns, capture := capture }) :
    Inv fps { s with last_ns := last_ns, credit_ns := credit_ns, capture := capture } where
  clock := hinv.clock
  last_le := hlast
  credit_le := hcredit
  t0_le := hinv.t0_le
  pts_le := hinv.pts_le
  first_le := hinv.first_le
  unset := hinv.unset
  not_ahead := hinv.not_ahead
  phase := hphase

theorem Inv.allow_step (hinv : Inv fps s) (hfps : 1 ≤ fps ∧ fps ≤ 59)
    (hopens : OpensInTime fps s .allow) (hstep : allow_step fps s = some s') : Inv fps s' := by
  have hphase := hinv.phase
  have hlast := hinv.last_le
  have hcredit := hinv.credit_le
  have hdur := frame_dur_le fps
  have hclock := hinv.clock
  unfold PhaseInv at hphase
  unfold h265_hub.allow_step at hstep
  simp only [OpensInTime] at hopens
  cases hcapture : s.capture with
  | load_last =>
    simp only [hcapture, if_neg (by omega : ¬ fps = 0), if_neg (by omega : ¬ 60 ≤ fps)] at hphase hstep
    split at hstep
    · rename_i hopen
      obtain rfl := Option.some.inj hstep
      apply hinv.gate hlast hcredit
      exact hopens hcapture (hopen.resolve_right (by omega))
    · rename_i hopen
      obtain rfl := Option.some.inj hstep
      apply hinv.gate hlast hcredit
      exact ⟨hlast, hphase fun h => hopen (.inl h)⟩
  | store_last_open =>
    simp only [hcapture, Option.some.injEq] at hphase hstep
    subst hstep
    exact hinv.gate le_rfl hcredit ⟨hphase, fun _ => rfl⟩
  | store_credit_open =>
    simp only [hcapture, Option.some.injEq] at hphase hstep
    subst hstep
    rw [period_ns_eq]
    apply hinv.gate hlast (by omega)
    exact ⟨by dsimp only; omega, fun h => ⟨hphase.2 h, by dsimp only; omega⟩⟩
  | load_credit last =>
    simp only [hcapture, Option.some.injEq] at hphase hstep
    subst hstep
    rw [wrap_of_lt (by omega)]
    exact hinv.gate hlast hcredit hphase.2
  | store_last credit =>
    simp only [hcapture, Option.some.injEq] at hphase hstep
    subst hstep
    rw [period_ns_eq]
    apply hinv.gate le_rfl hcredit
    refine ⟨by omega, ?_, fun _ => rfl⟩
    simp only [Funded] at hphase ⊢
    omega
  | store_credit credit =>
    simp only [hcapture, period_ns_eq, Funded] at hphase hstep
    split at hstep
    · obtain rfl := Option.some.inj hstep
      apply hinv.gate hlast (by omega)
      exact ⟨by dsimp only; omega, fun h => ⟨hphase.2.2 h, by dsimp only; omega⟩⟩
    · obtain rfl := Option.some.inj hstep
      apply hinv.gate hlast hphase.1
      intro h
      have hnow : s.last_ns = s.now_ns := hphase.2.2 h
      simp only [Funded, hnow, Nat.sub_self]
      omega
  | idle | push => simp [hcapture] at hstep

/-- The first PTS is one frame duration; a later one is on the clock, or a frame duration after the one
before it. -/
theorem stamp_cases (fps : ℕ) {now : ℕ} (hclock : now < 2 ^ 63) (ht0 : s.t0_ns ≤ now)
    (hpts : s.last_pts + frame_dur fps < 2 ^ 64) :
    ∃ t0 pts, stamp fps s now =
        { s with t0_ns := t0, last_pts := pts, stamped := s.stamped ++ [(now, pts)] } ∧
      (s.t0_ns = 0 ∧ t0 = now ∧ pts = frame_dur fps ∨
        s.t0_ns ≠ 0 ∧ t0 = s.t0_ns ∧ (pts + t0 ≤ now ∨ pts = s.last_pts + frame_dur fps)) := by
  refine ⟨_, _, rfl, ?_⟩
  by_cases hfirst : s.t0_ns = 0
  · have hraw : wrap (now + 2 ^ 64 - now) = 0 := by
      rw [Nat.add_sub_cancel_left, wrap, Nat.mod_self]
    have hdur : wrap (0 + frame_dur fps) = frame_dur fps := by
      rw [wrap_of_lt (by omega), Nat.zero_add]
    simp only [hfirst, if_true, hraw, Nat.zero_div, Nat.zero_mul, le_refl, hdur, true_and, true_or]
  · have hraw : wrap (now + 2 ^ 64 - s.t0_ns) = now - s.t0_ns := by
      rw [Nat.sub_add_comm ht0, wrap, Nat.add_mod_right, Nat.mod_eq_of_lt (by omega)]
    simp only [if_neg hfirst, hraw, wrap_of_lt hpts, true_and]
    refine .inr ⟨hfirst, ?_⟩
    split
    · exact .inr rfl
    · have hquantized := Nat.div_mul_le_self (now - s.t0_ns) (frame_dur fps)
      omega

theorem NotAhead.append {stamped : List (ℕ × ℕ)} {now pts t0 : ℕ} (hstamped : NotAhead fps stamped)
    (hfirst : ∀ first ∈ (stamped ++ [(now, pts)]).head?, first.1 ≤ t0)
    (hpts : pts + t0 ≤ now + 3 * frame_dur fps) : NotAhead fps (stamped ++ [(now, pts)]) := by
  intro first hhead frame hframe
  have hfirst_le := hfirst first hhead
  obtain hold | hnew := List.mem_append.mp hframe
  · obtain ⟨first', rest, rfl⟩ := List.exists_cons_of_ne_nil (List.ne_nil_of_mem hold)
    exact hstamped first hhead frame hold
  · obtain rfl := List.mem_singleton.mp hnew
    dsimp only
    omega

/-- A push that the gate has let through uses up a frame duration. -/
theorem Inv.push (hinv : Inv fps s) (hcapture : s.capture = .push) {now : ℕ} (hnow : s.now_ns ≤ now)
    (hclock : now < 2 ^ 63) : Inv fps (stamp fps { s with now_ns := now, capture := .idle } now) := by
  have hphase := hinv.phase
  simp only [PhaseInv, hcapture] at hphase
  have hdur := frame_dur_le fps
  have ht0_le := hinv.t0_le
  have hlast_le := hinv.last_le
  have hpts_le := hinv.pts_le
  obtain ⟨t0, pts, heq, hcases⟩ := stamp_cases (s := { s with now_ns := now, capture := .idle }) fps hclock
    (ht0_le.trans hnow) (by dsimp only; omega)
  dsimp only at heq hcases
  rw [heq]
  have hpts : pts + t0 ≤ now + 3 * frame_dur fps := by omega
  have hfirst : ∀ first ∈ (s.stamped ++ [(now, pts)]).head?, first.1 ≤ t0 := by
    intro first hhead
    rw [List.head?_append] at hhead
    cases hstamped : s.stamped with
    | nil =>
      obtain rfl : (now, pts) = first := by simpa [hstamped] using hhead
      have hunset := hinv.unset hstamped
      dsimp only
      omega
    | cons first' rest =>
      have hfirst_le := hinv.first_le first (by simpa [hstamped] using hhead)
      omega
  refine ⟨hclock, ?_, hinv.credit_le, ?_, hpts, hfirst, ?_, hinv.not_ahead.append hfirst hpts, ?_⟩
  · exact hlast_le.trans hnow
  · dsimp only
    omega
  · simp
  · intro hlast
    have hsaved := hphase.2 hlast
    simp only [Funded]
    omega

/-- Time passes between two checks. -/
theorem Inv.tick (hinv : Inv fps s)
    (hfunded : s.last_ns ≠ 0 → Funded fps s (s.credit_ns + (s.now_ns - s.last_ns))) {now : ℕ}
    (hnow : s.now_ns ≤ now) (hclock : now < 2 ^ 63) {capture : Capture}
    (hcapture : capture = .idle ∨ capture = .load_last) :
    Inv fps { s with now_ns := now, capture := capture } := by
  have hlast_le := hinv.last_le
  have hfunded' : s.last_ns ≠ 0 →
      Funded fps { s with now_ns := now, capture := capture } (s.credit_ns + (now - s.last_ns)) := by
    intro hlast
    have hold := hfunded hlast
    simp only [Funded] at hold ⊢
    omega
  refine ⟨hclock, hlast_le.trans hnow, hinv.credit_le, hinv.t0_le.trans hnow, ?_, hinv.first_le,
    hinv.unset, hinv.not_ahead, ?_⟩
  · have hpts_le := hinv.pts_le
    dsimp only
    omega
  · obtain rfl | rfl := hcapture
    · exact hfunded'
    · exact hfunded'

theorem Inv.stream_step (hinv : Inv fps s) (hfps : 1 ≤ fps ∧ fps ≤ 59) (action : StreamAction)
    (hopens : OpensInTime fps s action) (hstep : stream_step fps s action = some s') : Inv fps s' := by
  cases action with
  | reset_last =>
    obtain rfl := Option.some.inj hstep
    exact hinv.reset (.inl rfl) le_rfl _ _
  | reset_credit =>
    simp only [h265_hub.stream_step, Option.ite_none_left_eq_some, Option.some.injEq] at hstep
    obtain ⟨-, rfl⟩ := hstep
    exact hinv.reset (.inr rfl) (Nat.zero_le _) _ _
  | count_viewer =>
    simp only [h265_hub.stream_step, Option.ite_none_left_eq_some, Option.some.injEq] at hstep
    obtain ⟨-, rfl⟩ := hstep
    exact { hinv with }
  | viewer_dec =>
    obtain rfl := Option.some.inj hstep
    exact { hinv with }
  | frame now =>
    simp only [h265_hub.stream_step, Option.ite_none_right_eq_some, Option.some.injEq] at hstep
    obtain ⟨⟨hcapture, hnow, hclock⟩, rfl⟩ := hstep
    have hphase := hinv.phase
    simp only [PhaseInv, hcapture] at hphase
    apply hinv.tick hphase hnow hclock
    split
    · exact .inr rfl
    · exact .inl rfl
  | allow => exact hinv.allow_step hfps hopens hstep
  | push now ready =>
    simp only [h265_hub.stream_step, Option.ite_none_right_eq_some, Option.some.injEq] at hstep
    obtain ⟨⟨hcapture, hnow, hclock⟩, rfl⟩ := hstep
    split
    · exact hinv.push hcapture hnow hclock
    · have hphase := hinv.phase
      simp only [PhaseInv, hcapture] at hphase
      refine hinv.tick (fun hlast => ?_) hnow hclock (.inl rfl)
      have hsaved := hphase.2 hlast
      simp only [Funded]
      omega

/-- The stamps stay within three frame durations of the time since the first push, however viewers
join, as long as no check that finds the gate reset comes while the PTS is ahead. -/
theorem pts_not_ahead (hfps : 1 ≤ fps ∧ fps ≤ 59) {record_enabled : Bool} {actions : List StreamAction}
    (hopens : Meets (stream_step fps) (OpensInTime fps) (stream_start record_enabled) actions)
    (hrun : run (stream_step fps) (stream_start record_enabled) actions = some s) :
    NotAhead fps s.stamped := by
  have hinv : Inv fps s := by
    apply invariant_of_meets _ (inv_start fps record_enabled) hopens hrun
    intro s action s' hinv hopens hstep
    exact hinv.stream_step hfps action hopens hstep
  exact hinv.not_ahead

theorem pts_not_ahead_two_viewers :
    NotAhead 10 [(1001000000, 100000000), (1017666667, 200000000)] := by
  have hstamped : (run (stream_step 10) (stream_start false)
      (viewer_inc ++ opening_frame 1000000000 1001000000 ++ viewer_inc ++
        opening_frame 1016666667 1017666667)).map StreamState.stamped =
      some [(1001000000, 100000000), (1017666667, 200000000)] := by decide +kernel
  obtain ⟨s, hrun, hstamped⟩ := Option.map_eq_some_iff.mp hstamped
  exact hstamped ▸ pts_not_ahead (by decide) (by decide +kernel) hrun

/-- A viewer joins before each of four frames of a 60 Hz camera, on a stream of 10 fps. -/
theorem pts_ahead : ∃ s,
    run (stream_step 10) (stream_start false)
      (viewer_inc ++ opening_frame 1000000000 1001000000 ++ viewer_inc ++
        opening_frame 1016666667 1017666667 ++ viewer_inc ++ opening_frame 1033333333 1034333333 ++
        viewer_inc ++ opening_frame 1050000000 1051000000) = some s ∧
      ¬ NotAhead 10 s.stamped := by
  have hstamped : (run (stream_step 10) (stream_start false)
      (viewer_inc ++ opening_frame 1000000000 1001000000 ++ viewer_inc ++
        opening_frame 1016666667 1017666667 ++ viewer_inc ++ opening_frame 1033333333 1034333333 ++
        viewer_inc ++ opening_frame 1050000000 1051000000)).map StreamState.stamped =
      some [(1001000000, 100000000), (1017666667, 200000000), (1034333333, 300000000),
        (1051000000, 400000000)] := by decide +kernel
  obtain ⟨s, hrun, hstamped⟩ := Option.map_eq_some_iff.mp hstamped
  exact ⟨s, hrun, hstamped ▸ by decide⟩

end k180.h265_hub
