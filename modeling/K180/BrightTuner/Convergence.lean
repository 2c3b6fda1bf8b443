import K180.BrightTuner.Range

open binary_float k180.user_cfg schedule

namespace k180.brighttuner

variable {cfg : BrightTunerCfg} {s s' : TunerState} {bs : BrightState}

/-- Both values are where a verdict drives them. -/
def AtLimit (bs : BrightState) (s : TunerState) : Prop :=
  match bs with
  | .BS_OK => True
  | .BS_TOO_B => s.exposure_tun_val = CAM_EXPO_MIN ∧ s.gain_tun_val = CAM_GAIN_MIN
  | .BS_TOO_D => s.exposure_tun_val = CAM_EXPO_MAX ∧ s.gain_tun_val = CAM_GAIN_MAX

/-- How far the two values are from their limit. -/
def distance (bs : BrightState) (s : TunerState) : ℤ :=
  match bs with
  | .BS_OK => 0
  | .BS_TOO_B => s.exposure_tun_val - CAM_EXPO_MIN + (s.gain_tun_val - CAM_GAIN_MIN)
  | .BS_TOO_D => CAM_EXPO_MAX - s.exposure_tun_val + (CAM_GAIN_MAX - s.gain_tun_val)

/-- The gain is not at its limit. -/
def gain_left (bs : BrightState) (s : TunerState) : Bool :=
  match bs with
  | .BS_OK => false
  | .BS_TOO_B => decide (CAM_GAIN_MIN < s.gain_tun_val)
  | .BS_TOO_D => decide (s.gain_tun_val < CAM_GAIN_MAX)

/-- The order in which the states follow each other while neither value moves: they end in `ST_1` as
long as the gain can move, and in `ST_2` after that. -/
def stage (bs : BrightState) (s : TunerState) : ℕ :=
  match s.ts_state with
  | .ST_INIT => if gain_left bs s then 2 else 3
  | .ST_1 => if gain_left bs s then 1 else 2
  | .ST_2 => if gain_left bs s then 3 else 1
  | .ST_3 => 0

def rank (bs : BrightState) (s : TunerState) : ℕ := 4 * (distance bs s).toNat + stage bs s

theorem stage_le (bs : BrightState) (s : TunerState) : stage bs s ≤ 3 := by
  unfold stage
  split <;> (try split) <;> omega

theorem distance_nonneg (hrange : InRange s) (bs : BrightState) : 0 ≤ distance bs s := by
  obtain ⟨h₁, h₂, h₃, h₄⟩ := hrange
  cases bs <;> simp only [distance] <;> omega

/-- A value that moves counts for more than the state. -/
theorem rank_lt_of_distance_lt (hrange : InRange s') (h : distance bs s' < distance bs s) :
    rank bs s' < rank bs s := by
  have hnonneg := distance_nonneg hrange bs
  have hstage := stage_le bs s'
  unfold rank
  omega

theorem rank_lt_of_stage_lt (hexpo : s'.exposure_tun_val = s.exposure_tun_val)
    (hgain : s'.gain_tun_val = s.gain_tun_val) (h : stage bs s' < stage bs s) : rank bs s' < rank bs s := by
  have hdistance : distance bs s' = distance bs s := by
    unfold distance
    rw [hexpo, hgain]
  unfold rank
  omega

theorem rank_congr (hexpo : s'.exposure_tun_val = s.exposure_tun_val)
    (hgain : s'.gain_tun_val = s.gain_tun_val) (hstate : s'.ts_state = s.ts_state) :
    rank bs s' = rank bs s := by
  unfold rank distance stage gain_left
  rw [hexpo, hgain, hstate]

theorem lower_lt {val step limit : ℤ} (hstep : 0 < step) (hlimit : limit < val) : lower val step limit < val := by
  unfold lower
  split <;> omega

theorem lt_raise {val step limit : ℤ} (hstep : 0 < step) (hlimit : val < limit) : val < raise val step limit := by
  unfold raise
  split <;> omega

theorem lower_zero {val limit : ℤ} (hlimit : limit ≤ val) : lower val 0 limit = val := by
  unfold lower
  split <;> omega

theorem raise_zero {val limit : ℤ} (hlimit : val ≤ limit) : raise val 0 limit = val := by
  unfold raise
  split <;> omega

/-- A call lowers the rank, if its error level is at least 1, and does not raise it. -/
def Descends (bs : BrightState) (error_level : ℤ) (s s' : TunerState) : Prop :=
  rank bs s' < rank bs s ∨ error_level ≤ 0 ∧ rank bs s' = rank bs s

theorem Descends.goto {state : TunningStates} (h : stage bs { s with ts_state := state } < stage bs s)
    (error_level : ℤ) : Descends bs error_level s { s with ts_state := state } :=
  .inl (rank_lt_of_stage_lt rfl rfl h)

theorem Descends.expo {expo cooldown error_level : ℤ} (hbs : bs = .BS_TOO_B ∨ bs = .BS_TOO_D)
    (hrange : InRange { s with exposure_tun_val := expo, adjust_cooldown_frames := cooldown })
    (hmoves : error_level ≤ 0 ∧ expo = s.exposure_tun_val ∨
      (bs = .BS_TOO_B → expo < s.exposure_tun_val) ∧ (bs = .BS_TOO_D → s.exposure_tun_val < expo)) :
    Descends bs error_level s { s with exposure_tun_val := expo, adjust_cooldown_frames := cooldown } := by
  obtain ⟨herror, rfl⟩ | ⟨hfalls, hrises⟩ := hmoves
  · exact .inr ⟨herror, rank_congr rfl rfl rfl⟩
  · apply Or.inl (rank_lt_of_distance_lt hrange _)
    obtain rfl | rfl := hbs
    · have hlt := hfalls rfl
      simp only [distance]
      omega
    · have hlt := hrises rfl
      simp only [distance]
      omega

theorem Descends.gain {gain cooldown error_level : ℤ} (hbs : bs = .BS_TOO_B ∨ bs = .BS_TOO_D)
    (hrange : InRange { s with gain_tun_val := gain, adjust_cooldown_frames := cooldown })
    (hmoves : error_level ≤ 0 ∧ gain = s.gain_tun_val ∨
      (bs = .BS_TOO_B → gain < s.gain_tun_val) ∧ (bs = .BS_TOO_D → s.gain_tun_val < gain)) :
    Descends bs error_level s { s with gain_tun_val := gain, adjust_cooldown_frames := cooldown } := by
  obtain ⟨herror, rfl⟩ | ⟨hfalls, hrises⟩ := hmoves
  · exact .inr ⟨herror, rank_congr rfl rfl rfl⟩
  · apply Or.inl (rank_lt_of_distance_lt hrange _)
    obtain rfl | rfl := hbs
    · have hlt := hfalls rfl
      simp only [distance]
      omega
    · have hlt := hrises rfl
      simp only [distance]
      omega

/-- What a state makes of a value, with a step that is zero only for an error level of 0. -/
theorem adjusted_value {val step lo hi error_level : ℤ} (hbs : bs = .BS_TOO_B ∨ bs = .BS_TOO_D)
    (hgoes : ¬ (bs = .BS_TOO_B ∧ val ≤ lo ∨ bs = .BS_TOO_D ∧ hi ≤ val))
    (hstep : error_level ≤ 0 ∧ step = 0 ∨ 0 < step) {val' : ℤ}
    (hval' : val' = if bs = .BS_TOO_B ∧ lo < val then lower val step lo
      else if bs = .BS_TOO_D ∧ val < hi then raise val step hi else val) :
    error_level ≤ 0 ∧ val' = val ∨ (bs = .BS_TOO_B → val' < val) ∧ (bs = .BS_TOO_D → val < val') := by
  obtain rfl | rfl := hbs
  · have hlo : lo < val := not_le.mp fun h => hgoes (.inl ⟨rfl, h⟩)
    rw [if_pos ⟨rfl, hlo⟩] at hval'
    obtain ⟨herror, rfl⟩ | hstep := hstep
    · exact .inl ⟨herror, hval'.trans (lower_zero hlo.le)⟩
    · exact .inr ⟨fun _ => hval' ▸ lower_lt hstep hlo, fun h => by cases h⟩
  · have hhi : val < hi := not_le.mp fun h => hgoes (.inr ⟨rfl, h⟩)
    rw [if_neg (by simp), if_pos ⟨rfl, hhi⟩] at hval'
    obtain ⟨herror, rfl⟩ | hstep := hstep
    · exact .inl ⟨herror, hval'.trans (raise_zero hhi.le)⟩
    · exact .inr ⟨(fun h => by cases h), fun _ => hval' ▸ lt_raise hstep hhi⟩

theorem gain_step_cases {max_gain_step : ℤ} (hmax : 0 < max_gain_step) (base_step error_level : ℤ) :
    error_level ≤ 0 ∧ get_gain_step_from_base max_gain_step base_step error_level = 0 ∨
      0 < get_gain_step_from_base max_gain_step base_step error_level := by
  by_cases herror : error_level ≤ 0
  · exact .inl ⟨herror, if_pos herror⟩
  · exact .inr (get_gain_step_from_base_pos hmax (not_le.mp herror) base_step)

theorem expo_step_cases {max_expo_step : ℤ} (hmax : 0 < max_expo_step) (expo base_step error_level : ℤ) :
    error_level ≤ 0 ∧ near_limit_step expo (get_expo_step_from_base max_expo_step base_step error_level) = 0 ∨
      0 < near_limit_step expo (get_expo_step_from_base max_expo_step base_step error_level) := by
  by_cases herror : error_level ≤ 0
  · left
    rw [get_expo_step_from_base, if_pos herror, near_limit_step]
    exact ⟨herror, by split <;> (try split) <;> rfl⟩
  · exact .inr (near_limit_step_pos (get_expo_step_from_base_pos hmax (not_le.mp herror) base_step))

theorem Descends.tune_init (hsteps : ValidSteps cfg) (hrange : InRange s) (hstate : s.ts_state = .ST_INIT)
    (hbs : bs = .BS_TOO_B ∨ bs = .BS_TOO_D) (error_level : ℤ) :
    Descends bs error_level s (tune_init cfg s bs error_level).1 := by
  have hrange' := (Moves.tune_init hsteps hrange bs error_level).in_range
  simp only [brighttuner.tune_init] at hrange' ⊢
  split
  · apply Descends.goto
    simp only [stage, hstate]
    change (if gain_left bs s = true then 1 else 2) < _
    split <;> decide
  · rename_i hgoes
    rw [if_neg hgoes] at hrange'
    exact Descends.expo hbs hrange' (adjusted_value hbs hgoes (expo_step_cases hsteps.expo _ _ _) rfl)

theorem Descends.tune_gain (hsteps : ValidSteps cfg) (hrange : InRange s) (hstate : s.ts_state = .ST_1)
    (hbs : bs = .BS_TOO_B ∨ bs = .BS_TOO_D) (error_level : ℤ) :
    Descends bs error_level s (tune_gain cfg s bs error_level).1 := by
  have hrange' := (Moves.tune_gain hsteps hrange bs error_level).in_range
  simp only [brighttuner.tune_gain] at hrange' ⊢
  split
  · rename_i hdone
    have hgain : gain_left bs s = false := by
      obtain ⟨rfl, hmin⟩ | ⟨rfl, hmax⟩ := hdone
      · exact decide_eq_false (not_lt.mpr hmin)
      · exact decide_eq_false (not_lt.mpr hmax)
    apply Descends.goto
    simp only [stage, hstate, hgain]
    change (if gain_left bs s = true then 3 else 1) < _
    simp [hgain]
  · rename_i hgoes
    rw [if_neg hgoes] at hrange'
    exact Descends.gain hbs hrange' (adjusted_value hbs hgoes (gain_step_cases hsteps.gain _ _) rfl)

theorem Descends.tune_expo (hsteps : ValidSteps cfg) (hrange : InRange s) (hstate : s.ts_state = .ST_2)
    (hbs : bs = .BS_TOO_B ∨ bs = .BS_TOO_D) (hlimit : ¬ AtLimit bs s) (error_level : ℤ) :
    Descends bs error_level s (tune_expo cfg s bs error_level).1 := by
  have hrange' := (Moves.tune_expo hsteps hrange bs error_level).in_range
  simp only [brighttuner.tune_expo] at hrange' ⊢
  split
  · rename_i hback
    have hgain : gain_left bs s = true := by
      obtain ⟨rfl, hhigh, -⟩ := hback
      simp only [gain_left, decide_eq_true_eq]
      simp only [CAM_GAIN_MIN, CAM_GAIN_MID] at hhigh ⊢
      omega
    apply Descends.goto
    simp only [stage, hstate]
    change (if gain_left bs s = true then 1 else 2) < _
    simp [hgain]
  · rename_i hback
    rw [if_neg hback] at hrange'
    split
    · rename_i hdone
      have hgain : gain_left bs s = true := by
        obtain ⟨h₁, h₂, h₃, h₄⟩ := hrange
        obtain ⟨rfl, hmin⟩ | ⟨rfl, hmax⟩ := hdone
        · exact decide_eq_true (lt_of_le_of_ne h₃ fun h => hlimit ⟨hmin.antisymm h₁, h.symm⟩)
        · exact decide_eq_true (lt_of_le_of_ne h₄ fun h => hlimit ⟨h₂.antisymm hmax, h⟩)
      apply Descends.goto
      simp only [stage, hstate]
      change (if gain_left bs s = true then 2 else 3) < _
      simp [hgain]
    · rename_i hgoes
      rw [if_neg hgoes] at hrange'
      apply Descends.expo hbs hrange' (adjusted_value hbs hgoes _ rfl)
      exact .inr (near_limit_step_pos (clamp_step_pos hsteps.expo))

/-- The verdict goes through as long as the values are not at its limit. -/
theorem guard_limits_of_not_limit (hrange : InRange s) (hlimit : ¬ AtLimit bs s) :
    guard_limits s bs = bs ∧ bs ≠ .BS_OK := by
  obtain ⟨h₁, h₂, h₃, h₄⟩ := hrange
  constructor
  · unfold guard_limits
    rw [if_neg, if_neg]
    · rintro ⟨rfl, hexpo, hgain⟩
      exact hlimit ⟨h₂.antisymm hexpo, h₄.antisymm hgain⟩
    · rintro ⟨rfl, hexpo, hgain⟩
      exact hlimit ⟨hexpo.antisymm h₁, hgain.antisymm h₃⟩
  · rintro rfl
    exact hlimit trivial

theorem Descends.bright_tunning (hsteps : ValidSteps cfg) (hrange : InRange s) (hstate : s.ts_state ≠ .ST_3)
    (hbs : bs = .BS_TOO_B ∨ bs = .BS_TOO_D) (hlimit : ¬ AtLimit bs s)
    (hcooldown : s.adjust_cooldown_frames ≤ 0) (error_level : ℤ) :
    Descends bs error_level s (bright_tunning cfg s bs error_level).1 := by
  obtain ⟨hguard, hadjust⟩ := guard_limits_of_not_limit hrange hlimit
  have hrange' : InRange { s with ok_streak := 0 } := { hrange with }
  have hrank : rank bs { s with ok_streak := 0 } = rank bs s := rank_congr rfl rfl rfl
  have hlimit' : ¬ AtLimit bs { s with ok_streak := 0 } := hlimit
  simp only [brighttuner.bright_tunning, hguard, if_neg hadjust, if_neg (not_lt.mpr hcooldown)]
  rw [Descends, ← hrank]
  split
  · exact Descends.tune_init hsteps hrange' ‹_› hbs error_level
  · exact Descends.tune_gain hsteps hrange' ‹_› hbs error_level
  · exact Descends.tune_expo hsteps hrange' ‹_› hbs hlimit' error_level
  · exact absurd ‹_› hstate

/-- A cooldown holds the tuner where it is. -/
theorem rank_of_cooldown (hrange : InRange s) (hlimit : ¬ AtLimit bs s)
    (hcooldown : 0 < s.adjust_cooldown_frames) (error_level : ℤ) :
    rank bs (bright_tunning cfg s bs error_level).1 = rank bs s := by
  obtain ⟨hguard, hadjust⟩ := guard_limits_of_not_limit hrange hlimit
  simp only [brighttuner.bright_tunning, hguard, if_neg hadjust, if_pos hcooldown]
  exact rank_congr rfl rfl rfl

/-- No call enters `ST_3`. -/
theorem bright_tunning_state (hstate : s.ts_state ≠ .ST_3) (bs : BrightState) (error_level : ℤ) :
    (bright_tunning cfg s bs error_level).1.ts_state ≠ .ST_3 := by
  unfold bright_tunning tune_init tune_gain tune_expo
  grind

/-- The tuner is in range, and in a state that acts. -/
structure Live (s : TunerState) : Prop where
  in_range : InRange s
  state : s.ts_state ≠ .ST_3

theorem Live.call_tuner (hsteps : ValidSteps cfg) (hlive : Live s) (call : Call) :
    Live (call_tuner cfg s call).1 where
  in_range := (Moves.call_tuner hsteps hlive.in_range call).in_range
  state := by
    have hstate : ({ s with adjust_cooldown_frames := call.cooldown } : TunerState).ts_state ≠ .ST_3 := hlive.state
    exact bright_tunning_state hstate call.bs call.error_level

theorem live_of_reachable (hsteps : ValidSteps cfg) (hreach : Reachable cfg s) : Live s := by
  obtain ⟨calls, rfl⟩ := hreach
  have hstart : Live tuner_start := ⟨in_range_start, by decide⟩
  have hkeep : ∀ s call, Live s → True → Live (brighttuner.call_tuner cfg s call).1 :=
    fun s call hlive _ => hlive.call_tuner hsteps call
  exact foldl_invariant hkeep (fun _ _ => trivial) hstart

/-- A value at its limit stays there. -/
theorem at_limit_call_tuner (hsteps : ValidSteps cfg) (hrange : InRange s) {call : Call}
    (hlimit : AtLimit call.bs s) : AtLimit call.bs (call_tuner cfg s call).1 := by
  have hmoves := Moves.call_tuner hsteps hrange call
  obtain ⟨h₁, h₂, h₃, h₄⟩ := hmoves.in_range
  cases hbs : call.bs with
  | BS_OK => trivial
  | BS_TOO_B =>
    rw [hbs] at hlimit
    have hfalls := hmoves.falls hbs
    exact ⟨h₁.antisymm' (hlimit.1 ▸ hfalls.1), h₃.antisymm' (hlimit.2 ▸ hfalls.2)⟩
  | BS_TOO_D =>
    rw [hbs] at hlimit
    have hrises := hmoves.rises hbs
    exact ⟨h₂.antisymm (hlimit.1 ▸ hrises.1), h₄.antisymm (hlimit.2 ▸ hrises.2)⟩

/-- The calls that have to move the tuner. -/
def Call.effective (call : Call) : Bool := decide (call.cooldown = 0 ∧ 1 ≤ call.error_level)

theorem rank_call_tuner (hsteps : ValidSteps cfg) (hlive : Live s) {call : Call}
    (hbs : call.bs = .BS_TOO_B ∨ call.bs = .BS_TOO_D) (hlimit : ¬ AtLimit call.bs s) :
    rank call.bs (call_tuner cfg s call).1 ≤ rank call.bs s ∧
      (call.effective = true → rank call.bs (call_tuner cfg s call).1 < rank call.bs s) := by
  have hrange : InRange { s with adjust_cooldown_frames := call.cooldown } := { hlive.in_range with }
  have hrank : rank call.bs { s with adjust_cooldown_frames := call.cooldown } = rank call.bs s :=
    rank_congr rfl rfl rfl
  rw [brighttuner.call_tuner, ← hrank]
  by_cases hcooldown : 0 < call.cooldown
  · rw [rank_of_cooldown hrange hlimit hcooldown]
    refine ⟨le_rfl, fun heffective => ?_⟩
    have hzero := (of_decide_eq_true heffective).1
    omega
  · obtain hlt | ⟨herror, heq⟩ :=
      Descends.bright_tunning hsteps hrange hlive.state hbs hlimit (not_lt.mp hcooldown) call.error_level
    · exact ⟨hlt.le, fun _ => hlt⟩
    · refine ⟨heq.le, fun heffective => ?_⟩
      have hone := (of_decide_eq_true heffective).2
      omega

/-- A verdict that stays brings the tuner to its limit and keeps it there, after a number of calls
without a cooldown and with an error level of at least 1 that depends on the tuner alone. -/
theorem tuner_converges {max_stream_fps : ℤ} {cfg : UserConfig}
    (hvalid : user_cfg_validate max_stream_fps cfg = .ok ()) (hreach : Reachable cfg.bright_tuner s)
    (hbs : bs = .BS_TOO_B ∨ bs = .BS_TOO_D) :
    ∃ n, ∀ calls : List Call, (∀ call ∈ calls, call.bs = bs) → n ≤ calls.countP Call.effective →
      AtLimit bs (tuner_run cfg.bright_tuner s calls) := by
  have hsteps := valid_steps_of_validate hvalid
  refine ⟨rank bs s + 1, fun calls hcalls hcount => ?_⟩
  have hkeep : ∀ s call, Live s → call.bs = bs → Live (call_tuner cfg.bright_tuner s call).1 :=
    fun s call hlive _ => hlive.call_tuner hsteps call
  refine goal_of_rank hkeep ?_ ?_ ?_ hcalls (live_of_reachable hsteps hreach) hcount
  · rintro s call hlive rfl hlimit
    exact at_limit_call_tuner hsteps hlive.in_range hlimit
  · rintro s call hlive rfl hlimit
    exact (rank_call_tuner hsteps hlive hbs hlimit).1
  · rintro s call hlive rfl hlimit heffective
    exact (rank_call_tuner hsteps hlive hbs hlimit).2 heffective

theorem tuner_converges_sample :
    ∃ n, ∀ calls : List Call, (∀ call ∈ calls, call.bs = .BS_TOO_B) → n ≤ calls.countP Call.effective →
      (tuner_run sample_config.bright_tuner tuner_start calls).exposure_tun_val = CAM_EXPO_MIN ∧
        (tuner_run sample_config.bright_tuner tuner_start calls).gain_tun_val = CAM_GAIN_MIN :=
  tuner_converges sample_config_valid ⟨[], rfl⟩ (.inl rfl)

/-- Between `ST_INIT` and `ST_1` with the values of the start. -/
structure StaysAtStart (s : TunerState) : Prop where
  expo : s.exposure_tun_val = 5000
  gain : s.gain_tun_val = 29000
  state : s.ts_state = .ST_INIT ∨ s.ts_state = .ST_1

theorem StaysAtStart.call_tuner (h : StaysAtStart s) :
    StaysAtStart (call_tuner cfg s ⟨.BS_TOO_B, 0, 0⟩).1 := by
  obtain ⟨expo, gain, state, ok_streak, cooldown⟩ := s
  obtain ⟨rfl, rfl, rfl | rfl⟩ := h
  · exact ⟨rfl, rfl, .inr rfl⟩
  · exact ⟨rfl, rfl, .inr rfl⟩

/-- A frame with a mean at `mid_val` and two fifths of its pixels saturated is too bright with an error
level of 0, and as long as that stays so the gain does not move. -/
theorem tuner_stays_at_error_level_zero :
    (probe sample_config.bright_tuner (.fin 0) (.fin 0) (float_lit (4 / 10)) (.fin 0) false).1 = .BS_TOO_B ∧
      error_level sample_config.bright_tuner (.fin 0) = some 0 ∧
      user_cfg_validate 60 sample_config = .ok () ∧
      ∀ n, (tuner_run sample_config.bright_tuner tuner_start
        (List.replicate n ⟨.BS_TOO_B, 0, 0⟩)).gain_tun_val ≠ CAM_GAIN_MIN := by
  refine ⟨by decide +kernel, by decide +kernel, sample_config_valid, fun n => ?_⟩
  have hstays : ∀ s (call : Call), StaysAtStart s → call = ⟨.BS_TOO_B, 0, 0⟩ →
      StaysAtStart (call_tuner sample_config.bright_tuner s call).1 := by
    rintro s call hstays rfl
    exact hstays.call_tuner
  have hstart : StaysAtStart tuner_start := ⟨rfl, rfl, .inl rfl⟩
  have hcalls : ∀ call ∈ List.replicate n (⟨.BS_TOO_B, 0, 0⟩ : Call), call = ⟨.BS_TOO_B, 0, 0⟩ :=
    fun call hcall => List.eq_of_mem_replicate hcall
  have hrun := foldl_invariant hstays hcalls hstart
  intro hmin
  exact absurd (hrun.gain.symm.trans hmin) (by decide)

end k180.brighttuner
