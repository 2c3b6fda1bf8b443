import K180.BrightTuner.Tuner
import K180.Schedule.Ranking
import K180.UserCfg.Validate

open k180.user_cfg schedule

namespace k180.brighttuner

variable {cfg : BrightTunerCfg} {s : TunerState} {bs : BrightState}

structure InRange (s : TunerState) : Prop where
  expo_min : CAM_EXPO_MIN ≤ s.exposure_tun_val
  expo_max : s.exposure_tun_val ≤ CAM_EXPO_MAX
  gain_min : CAM_GAIN_MIN ≤ s.gain_tun_val
  gain_max : s.gain_tun_val ≤ CAM_GAIN_MAX

/-- The step limits that `user_cfg_validate` sees to. -/
structure ValidSteps (cfg : BrightTunerCfg) : Prop where
  gain : 0 < cfg.max_gain_step
  expo : 0 < cfg.max_expo_step

/-- A request for the exposure or the gain that the tuner holds. -/
def Request.IsCurrent (s : TunerState) : Request → Prop
  | .exposure _ val => val = req_expo s.exposure_tun_val
  | .gain _ val => val = s.gain_tun_val

def Request.InRange : Request → Prop
  | .exposure _ val => CAM_EXPO_MIN ≤ val ∧ val ≤ CAM_EXPO_MAX
  | .gain _ val => CAM_GAIN_MIN ≤ val ∧ val ≤ CAM_GAIN_MAX

theorem clamp_step_pos {v max_v : ℤ} (hmax : 0 < max_v) : 0 < clamp_step v max_v := by
  unfold clamp_step
  split
  · decide
  · rename_i hmin
    simp only [MIN_STEP, not_lt] at hmin
    split <;> omega

theorem get_gain_step_from_base_pos {max_gain_step error_level : ℤ} (hmax : 0 < max_gain_step)
    (herror : 0 < error_level) (base_step : ℤ) :
    0 < get_gain_step_from_base max_gain_step base_step error_level := by
  rw [get_gain_step_from_base, if_neg (not_le.mpr herror)]
  exact clamp_step_pos hmax

theorem get_expo_step_from_base_pos {max_expo_step error_level : ℤ} (hmax : 0 < max_expo_step)
    (herror : 0 < error_level) (base_step : ℤ) :
    0 < get_expo_step_from_base max_expo_step base_step error_level := by
  rw [get_expo_step_from_base, if_neg (not_le.mpr herror)]
  exact clamp_step_pos hmax

theorem get_gain_step_from_base_nonneg {max_gain_step : ℤ} (hmax : 0 < max_gain_step)
    (base_step error_level : ℤ) : 0 ≤ get_gain_step_from_base max_gain_step base_step error_level := by
  by_cases herror : 0 < error_level
  · exact (get_gain_step_from_base_pos hmax herror base_step).le
  · rw [get_gain_step_from_base, if_pos (not_lt.mp herror)]

theorem get_expo_step_from_base_nonneg {max_expo_step : ℤ} (hmax : 0 < max_expo_step)
    (base_step error_level : ℤ) : 0 ≤ get_expo_step_from_base max_expo_step base_step error_level := by
  by_cases herror : 0 < error_level
  · exact (get_expo_step_from_base_pos hmax herror base_step).le
  · rw [get_expo_step_from_base, if_pos (not_lt.mp herror)]

theorem near_limit_step_pos {expo step : ℤ} (hstep : 0 < step) : 0 < near_limit_step expo step := by
  unfold near_limit_step
  split
  · omega
  · split <;> omega

theorem near_limit_step_nonneg {expo step : ℤ} (hstep : 0 ≤ step) : 0 ≤ near_limit_step expo step := by
  unfold near_limit_step
  split
  · omega
  · split <;> omega

theorem lower_le {val step limit : ℤ} (hstep : 0 ≤ step) (hlimit : limit ≤ val) :
    limit ≤ lower val step limit ∧ lower val step limit ≤ val := by
  unfold lower
  split <;> omega

theorem le_raise {val step limit : ℤ} (hstep : 0 ≤ step) (hlimit : val ≤ limit) :
    val ≤ raise val step limit ∧ raise val step limit ≤ limit := by
  unfold raise
  split <;> omega

theorem req_expo_mono : Monotone req_expo := by
  intro x y hxy
  unfold req_expo
  split <;> split <;> simp only [CAM_EXPO_MID, not_and, not_lt] at * <;> omega

/-- What a call does to the two values, and which requests it makes. -/
structure Moves (bs : BrightState) (s s' : TunerState) (made : List Request) : Prop where
  in_range : InRange s'
  falls : bs = .BS_TOO_B → s'.exposure_tun_val ≤ s.exposure_tun_val ∧ s'.gain_tun_val ≤ s.gain_tun_val
  rises : bs = .BS_TOO_D → s.exposure_tun_val ≤ s'.exposure_tun_val ∧ s.gain_tun_val ≤ s'.gain_tun_val
  current : ∀ request ∈ made, request.IsCurrent s'

/-- A call that changes neither value. -/
theorem Moves.still {s' : TunerState} (hrange : InRange s)
    (hexpo : s'.exposure_tun_val = s.exposure_tun_val) (hgain : s'.gain_tun_val = s.gain_tun_val) :
    Moves bs s s' [] where
  in_range := by
    obtain ⟨h₁, h₂, h₃, h₄⟩ := hrange
    exact ⟨hexpo ▸ h₁, hexpo ▸ h₂, hgain ▸ h₃, hgain ▸ h₄⟩
  falls _ := ⟨hexpo.le, hgain.le⟩
  rises _ := ⟨hexpo.ge, hgain.ge⟩
  current request hrequest := by cases hrequest

theorem Moves.expo {expo : ℤ} (hrange : InRange s) (cooldown : ℤ)
    (hmin : CAM_EXPO_MIN ≤ expo) (hmax : expo ≤ CAM_EXPO_MAX)
    (hfalls : bs = .BS_TOO_B → expo ≤ s.exposure_tun_val)
    (hrises : bs = .BS_TOO_D → s.exposure_tun_val ≤ expo) :
    Moves bs s { s with exposure_tun_val := expo, adjust_cooldown_frames := cooldown }
      (request_exposures expo) where
  in_range := ⟨hmin, hmax, hrange.gain_min, hrange.gain_max⟩
  falls h := ⟨hfalls h, le_rfl⟩
  rises h := ⟨hrises h, le_rfl⟩
  current request hrequest := by
    obtain ⟨i, -, rfl⟩ := List.mem_map.mp hrequest
    rfl

theorem Moves.gain {gain : ℤ} (hrange : InRange s) (cooldown : ℤ)
    (hmin : CAM_GAIN_MIN ≤ gain) (hmax : gain ≤ CAM_GAIN_MAX)
    (hfalls : bs = .BS_TOO_B → gain ≤ s.gain_tun_val)
    (hrises : bs = .BS_TOO_D → s.gain_tun_val ≤ gain) :
    Moves bs s { s with gain_tun_val := gain, adjust_cooldown_frames := cooldown }
      (request_gains gain) where
  in_range := ⟨hrange.expo_min, hrange.expo_max, hmin, hmax⟩
  falls h := ⟨le_rfl, hfalls h⟩
  rises h := ⟨le_rfl, hrises h⟩
  current request hrequest := by
    obtain ⟨i, -, rfl⟩ := List.mem_map.mp hrequest
    rfl

theorem Moves.tune_init (hsteps : ValidSteps cfg) (hrange : InRange s) (bs : BrightState) (error_level : ℤ) :
    Moves bs s (tune_init cfg s bs error_level).1 (tune_init cfg s bs error_level).2 := by
  obtain ⟨hmin, hmax, -, -⟩ := id hrange
  simp only [brighttuner.tune_init]
  generalize hbase : get_expo_step_from_base _ _ _ = step
  have hnonneg : 0 ≤ step := hbase ▸ get_expo_step_from_base_nonneg hsteps.expo _ error_level
  have hstep : 0 ≤ near_limit_step s.exposure_tun_val step := near_limit_step_nonneg hnonneg
  split
  · exact Moves.still hrange rfl rfl
  · split
    · rename_i hfall
      have hlower := lower_le hstep hfall.2.le
      apply Moves.expo hrange
      · exact le_trans (by decide) hlower.1
      · exact hlower.2.trans hmax
      · exact fun _ => hlower.2
      · simp [hfall.1]
    · split
      · rename_i hrise
        have hraise := le_raise hstep hrise.2.le
        apply Moves.expo hrange
        · exact hmin.trans hraise.1
        · exact le_trans hraise.2 (by decide)
        · simp [hrise.1]
        · exact fun _ => hraise.1
      · exact Moves.expo hrange _ hmin hmax (fun _ => le_rfl) fun _ => le_rfl

theorem Moves.tune_gain (hsteps : ValidSteps cfg) (hrange : InRange s) (bs : BrightState) (error_level : ℤ) :
    Moves bs s (tune_gain cfg s bs error_level).1 (tune_gain cfg s bs error_level).2 := by
  obtain ⟨-, -, hmin, hmax⟩ := id hrange
  have hstep := get_gain_step_from_base_nonneg hsteps.gain
    (CAM_GAIN_TUNE_STEP.getD (base_level s.gain_tun_val) 0) error_level
  simp only [brighttuner.tune_gain]
  split
  · exact Moves.still hrange rfl rfl
  · split
    · rename_i hfall
      have hlower := lower_le hstep hfall.2.le
      apply Moves.gain hrange
      · exact hlower.1
      · exact hlower.2.trans hmax
      · exact fun _ => hlower.2
      · simp [hfall.1]
    · split
      · rename_i hrise
        have hraise := le_raise hstep hrise.2.le
        apply Moves.gain hrange
        · exact hmin.trans hraise.1
        · exact hraise.2
        · simp [hrise.1]
        · exact fun _ => hraise.1
      · exact Moves.gain hrange _ hmin hmax (fun _ => le_rfl) fun _ => le_rfl

theorem Moves.tune_expo (hsteps : ValidSteps cfg) (hrange : InRange s) (bs : BrightState) (error_level : ℤ) :
    Moves bs s (tune_expo cfg s bs error_level).1 (tune_expo cfg s bs error_level).2 := by
  obtain ⟨hmin, hmax, -, -⟩ := id hrange
  simp only [brighttuner.tune_expo]
  generalize get_expo_step_from_base _ _ _ = step
  have hclamp : 0 < clamp_step step cfg.max_expo_step := clamp_step_pos hsteps.expo
  have hstep : 0 < near_limit_step s.exposure_tun_val (clamp_step step cfg.max_expo_step) :=
    near_limit_step_pos hclamp
  split
  · exact Moves.still hrange rfl rfl
  · split
    · exact Moves.still hrange rfl rfl
    · split
      · rename_i hfall
        have hlower := lower_le hstep.le hfall.2.le
        apply Moves.expo hrange
        · exact hlower.1
        · exact hlower.2.trans hmax
        · exact fun _ => hlower.2
        · simp [hfall.1]
      · split
        · rename_i hrise
          have hraise := le_raise hstep.le hrise.2.le
          apply Moves.expo hrange
          · exact hmin.trans hraise.1
          · exact hraise.2
          · simp [hrise.1]
          · exact fun _ => hraise.1
        · exact Moves.expo hrange _ hmin hmax (fun _ => le_rfl) fun _ => le_rfl

/-- The guard turns a verdict into `BS_OK` or leaves it alone. -/
theorem guard_limits_of_ne_ok (h : guard_limits s bs ≠ .BS_OK) : guard_limits s bs = bs := by
  unfold guard_limits at h ⊢
  grind

theorem Moves.bright_tunning (hsteps : ValidSteps cfg) (hrange : InRange s) (bs : BrightState)
    (error_level : ℤ) :
    Moves bs s (bright_tunning cfg s bs error_level).1 (bright_tunning cfg s bs error_level).2 := by
  have hrange' : InRange { s with ok_streak := 0 } := { hrange with }
  simp only [brighttuner.bright_tunning]
  split
  · split <;> exact Moves.still hrange rfl rfl
  · rename_i hadjust
    rw [guard_limits_of_ne_ok hadjust]
    split
    · exact Moves.still hrange rfl rfl
    · split
      · exact { Moves.tune_init hsteps hrange' bs error_level with }
      · exact { Moves.tune_gain hsteps hrange' bs error_level with }
      · exact { Moves.tune_expo hsteps hrange' bs error_level with }
      · exact Moves.still hrange rfl rfl

theorem Moves.call_tuner (hsteps : ValidSteps cfg) (hrange : InRange s) (call : Call) :
    Moves call.bs s (call_tuner cfg s call).1 (call_tuner cfg s call).2 := by
  have hrange' : InRange { s with adjust_cooldown_frames := call.cooldown } := { hrange with }
  exact { Moves.bright_tunning hsteps hrange' call.bs call.error_level with }

theorem in_range_start : InRange tuner_start := by
  constructor <;> decide

theorem in_range_of_reachable (hsteps : ValidSteps cfg) (hreach : Reachable cfg s) : InRange s := by
  obtain ⟨calls, rfl⟩ := hreach
  have hkeep : ∀ s call, InRange s → True → InRange (call_tuner cfg s call).1 :=
    fun s call hrange _ => (Moves.call_tuner hsteps hrange call).in_range
  exact foldl_invariant hkeep (fun _ _ => trivial) in_range_start

theorem Request.in_range_of_current {request : Request} (hcurrent : request.IsCurrent s)
    (hrange : brighttuner.InRange s) :
    request.InRange := by
  obtain ⟨h₁, h₂, h₃, h₄⟩ := hrange
  cases request with
  | exposure cam_idx val =>
    obtain rfl : val = _ := hcurrent
    have hlow : req_expo CAM_EXPO_MIN = CAM_EXPO_MIN := by decide
    have hhigh : req_expo CAM_EXPO_MAX = CAM_EXPO_MAX := by decide
    exact ⟨hlow ▸ req_expo_mono h₁, hhigh ▸ req_expo_mono h₂⟩
  | gain cam_idx val =>
    obtain rfl : val = _ := hcurrent
    exact ⟨h₃, h₄⟩

/-- The exposures among the requests, in their order. -/
def exposures : List Request → List ℤ
  | [] => []
  | .exposure _ val :: rest => val :: exposures rest
  | .gain _ _ :: rest => exposures rest

theorem exposures_append (made made' : List Request) :
    exposures (made ++ made') = exposures made ++ exposures made' := by
  induction made with
  | nil => rfl
  | cons request rest ih =>
    cases request with
    | exposure cam_idx val => exact congrArg (val :: ·) ih
    | gain cam_idx val => exact ih

theorem mem_exposures {made : List Request} {val : ℤ} (hval : val ∈ exposures made)
    (hcurrent : ∀ request ∈ made, request.IsCurrent s) : val = req_expo s.exposure_tun_val := by
  induction made with
  | nil => cases hval
  | cons request rest ih =>
    obtain ⟨hrequest, hrest⟩ := List.forall_mem_cons.mp hcurrent
    cases request with
    | exposure cam_idx val' =>
      obtain rfl | hval := List.mem_cons.mp hval
      · exact hrequest
      · exact ih hval hrest
    | gain cam_idx val' => exact ih hval hrest

/-- A stretch of calls with one verdict requests exposures that only move in its direction, from the
exposure the stretch starts with. -/
theorem exposures_pairwise (hsteps : ValidSteps cfg) {R : ℤ → ℤ → Prop} (htrans : ∀ x y z, R x y → R y z → R x z)
    (hrefl : ∀ x, R x x)
    (hmoves : ∀ s s' made, Moves bs s s' made →
      R (req_expo s.exposure_tun_val) (req_expo s'.exposure_tun_val))
    {calls : List Call} (hbs : ∀ call ∈ calls, call.bs = bs) (hrange : InRange s) :
    (exposures (requests cfg s calls)).Pairwise R ∧
      ∀ val ∈ exposures (requests cfg s calls), R (req_expo s.exposure_tun_val) val := by
  induction calls generalizing s with
  | nil => exact ⟨List.Pairwise.nil, fun val hval => by cases hval⟩
  | cons call rest ih =>
    obtain ⟨rfl, hrest⟩ := List.forall_mem_cons.mp hbs
    have hcall := Moves.call_tuner hsteps hrange call
    obtain ⟨hpairwise, hbound⟩ := ih hrest hcall.in_range
    have hfirst := hmoves _ _ _ hcall
    rw [requests, exposures_append]
    refine ⟨List.pairwise_append.mpr ⟨?_, hpairwise, ?_⟩, ?_⟩
    · apply List.pairwise_of_forall_mem_list
      intro x hx y hy
      rw [mem_exposures hx hcall.current, mem_exposures hy hcall.current]
      exact hrefl _
    · intro x hx y hy
      rw [mem_exposures hx hcall.current]
      exact hbound y hy
    · intro val hval
      obtain hval | hval := List.mem_append.mp hval
      · rw [mem_exposures hval hcall.current]
        exact hfirst
      · exact htrans _ _ _ hfirst (hbound val hval)

theorem valid_steps_of_validate {max_stream_fps : ℤ} {cfg : UserConfig}
    (hvalid : user_cfg_validate max_stream_fps cfg = .ok ()) : ValidSteps cfg.bright_tuner := by
  obtain ⟨-, -, ⟨-, -, -, hbright⟩, -⟩ := (user_cfg_validate_eq_ok_iff max_stream_fps cfg).mp hvalid
  simp only [validate_bright_tuner, checked.check_bind_eq_ok_iff, reject_if_eq_ok_iff,
    Bool.or_eq_false_iff, decide_eq_false_iff_not, not_le] at hbright
  exact ⟨hbright.2.2.1.1, hbright.2.2.2.1.1⟩

/-- Whatever the tuner has observed, its values and requests are in range, a verdict only moves them
its way, and so do the exposures that are requested while it stays the same. -/
theorem tuner_in_range {max_stream_fps : ℤ} {cfg : UserConfig}
    (hvalid : user_cfg_validate max_stream_fps cfg = .ok ()) (hreach : Reachable cfg.bright_tuner s) :
    InRange s ∧
    (∀ call, ∀ request ∈ (call_tuner cfg.bright_tuner s call).2, request.InRange) ∧
    (∀ call, call.bs = .BS_TOO_B →
      (call_tuner cfg.bright_tuner s call).1.exposure_tun_val ≤ s.exposure_tun_val ∧
      (call_tuner cfg.bright_tuner s call).1.gain_tun_val ≤ s.gain_tun_val) ∧
    (∀ call, call.bs = .BS_TOO_D →
      s.exposure_tun_val ≤ (call_tuner cfg.bright_tuner s call).1.exposure_tun_val ∧
      s.gain_tun_val ≤ (call_tuner cfg.bright_tuner s call).1.gain_tun_val) ∧
    (∀ calls, (∀ call ∈ calls, call.bs = .BS_TOO_B) →
      (exposures (requests cfg.bright_tuner s calls)).Pairwise (· ≥ ·)) ∧
    (∀ calls, (∀ call ∈ calls, call.bs = .BS_TOO_D) →
      (exposures (requests cfg.bright_tuner s calls)).Pairwise (· ≤ ·)) := by
  have hsteps := valid_steps_of_validate hvalid
  have hrange := in_range_of_reachable hsteps hreach
  have hcall := Moves.call_tuner hsteps hrange
  refine ⟨hrange, fun call request hrequest => ?_, fun call => (hcall call).falls,
    fun call => (hcall call).rises, fun calls hbs => ?_, fun calls hbs => ?_⟩
  · exact request.in_range_of_current ((hcall call).current request hrequest) (hcall call).in_range
  · refine (exposures_pairwise (R := (· ≥ ·)) hsteps (fun x y z hxy hyz => hyz.trans hxy) le_refl ?_ hbs hrange).1
    exact fun s s' made hmoves => req_expo_mono (hmoves.falls rfl).1
  · refine (exposures_pairwise (R := (· ≤ ·)) hsteps (fun x y z => le_trans) le_refl ?_ hbs hrange).1
    exact fun s s' made hmoves => req_expo_mono (hmoves.rises rfl).1

/-- A configuration with the default values of the source. -/
def sample_config : UserConfig where
  ipaddress := "192.168.1.10".toList
  gateway := "192.168.1.1".toList

theorem sample_config_valid : user_cfg_validate 60 sample_config = .ok () := by decide +kernel

/-- Six bright observations, of which the second to the fourth lower the gain to its minimum and the last the
exposure. -/
def bright_calls : List Call := List.replicate 6 ⟨.BS_TOO_B, 5, 0⟩

/-- The tuner has moved both values and asked all the cameras for an exposure. -/
theorem tuner_in_range_sample :
    let s := tuner_run sample_config.bright_tuner tuner_start bright_calls
    s.exposure_tun_val = 4840 ∧ s.gain_tun_val = CAM_GAIN_MIN ∧ InRange s ∧
      (∀ request ∈ (call_tuner sample_config.bright_tuner s ⟨.BS_TOO_B, 5, 0⟩).2, request.InRange) ∧
      exposures (requests sample_config.bright_tuner tuner_start bright_calls) = [5000, 5000, 5000, 5000] ∧
      (exposures (requests sample_config.bright_tuner tuner_start bright_calls)).Pairwise (· ≥ ·) := by
  obtain ⟨hrange, hrequests, -⟩ :=
    tuner_in_range sample_config_valid ⟨bright_calls, rfl⟩
  obtain ⟨-, -, -, -, hfalling, -⟩ := tuner_in_range sample_config_valid ⟨[], rfl⟩
  refine ⟨by decide +kernel, by decide +kernel, hrange, hrequests _, by decide +kernel, ?_⟩
  exact hfalling bright_calls fun call hcall => congrArg Call.bs (List.eq_of_mem_replicate hcall)

end k180.brighttuner
