import K180.BrightTuner.Range

open binary_float checked k180.user_cfg

namespace k180.brighttuner

/-- What `bright_adjust` measures of a frame. -/
structure Measures where
  da : Value
  K : Value
  sat_hi : Value
  sat_lo : Value
deriving DecidableEq

/-- `float(cnt) / float(N)`, of the pixels in a range of the histogram. -/
def sat_ratio (picture : List ℕ) (bins : List ℕ) : Value :=
  binary32.divFin (binary32.ofInt (bins.map picture.count).sum) picture.length

/-- The measures of a gray picture, with `mid_val` already converted to `int`. -/
def measure (MID_VAL : ℤ) (picture : List ℕ) : Measures :=
  let a := picture.foldl (fun a (p : ℕ) => binary32.add a (binary32.ofInt (p - MID_VAL))) (.fin 0)
  let da := binary32.divFin a picture.length
  let Ma := (List.range 256).foldl (fun Ma (i : ℕ) =>
    binary32.add Ma (binary32.mulFin (binary32.sub (binary32.ofInt (i - MID_VAL)) da).abs (picture.count i))) (.fin 0)
  let M := (binary32.divFin Ma picture.length).abs
  ⟨da, if (float_lit (1 / 1000000)).lt M then binary32.div da.abs M else float_lit 0,
    sat_ratio picture (List.range' 250 6), sat_ratio picture (List.range 6)⟩

variable (cfg : BrightTunerCfg)

def Measures.D (m : Measures) : Value := m.da.abs

def Measures.probe (m : Measures) (k_active : Bool) : BrightState × Bool :=
  brighttuner.probe cfg m.da m.K m.sat_hi m.sat_lo k_active

/-- `k_active` behind a frame that finds it so. -/
def latch (k_active : Bool) (m : Measures) : Bool := (m.probe cfg k_active).2

/-- `k_active` behind frames. -/
def latch_run (k_active : Bool) (frames : List Measures) : Bool := frames.foldl (latch cfg) k_active

/-- The verdict on a frame of a constant scene, behind `n` others. -/
def verdict (m : Measures) (k_active : Bool) (n : ℕ) : BrightState :=
  (m.probe cfg (latch_run cfg k_active (List.replicate n m))).1

/-- How often `k_active` changes. -/
def changes : Bool → List Measures → ℕ
  | _, [] => 0
  | k_active, m :: rest =>
    (if latch cfg k_active m = k_active then 0 else 1) + changes (latch cfg k_active m) rest

/-- A frame without saturation whose `D` is at least the threshold. -/
structure Latches (m : Measures) : Prop where
  sat_hi : cfg.sat_ratio_hi.lt m.sat_hi = false
  sat_lo : cfg.sat_ratio_lo.lt m.sat_lo = false
  D : m.D.lt cfg.hysteresis_d_threshold = false

/-- `K` stays on one side of both thresholds, or between them. -/
def OneRegion (frames : List Measures) : Prop :=
  (∀ m ∈ frames, cfg.k_lo.le m.K = true ∧ cfg.k_hi.le m.K = true) ∨
    (∀ m ∈ frames, m.K.le cfg.k_lo = true ∧ m.K.le cfg.k_hi = true) ∨
    (∀ m ∈ frames, cfg.k_lo.le m.K = true ∧ m.K.le cfg.k_hi = true) ∨
    (∀ m ∈ frames, cfg.k_hi.le m.K = true ∧ m.K.le cfg.k_lo = true)

/-- The change of `k_active` on a frame is one that its `K` is on the right side for. -/
def RightSide (m : Measures) (k_active : Bool) : Prop :=
  latch cfg k_active m = k_active ∨ (latch cfg k_active m = true ∧ cfg.k_hi.lt m.K = true) ∨
    (latch cfg k_active m = false ∧ m.K.lt cfg.k_lo = true)

/-- The verdict on a constant scene settles with the second frame, and `k_active` is a latch. -/
structure Stable : Prop where
  verdict_constant : ∀ m k_active n, verdict cfg m k_active (n + 1) = verdict cfg m k_active 1
  right_side : ∀ before m after k_active, (∀ other ∈ before ++ m :: after, Latches cfg other) →
    RightSide cfg m (latch_run cfg k_active before)
  at_most_once : ∀ frames k_active, (∀ m ∈ frames, Latches cfg m) → OneRegion cfg frames →
    changes cfg k_active frames ≤ 1

/-- `K` is above the threshold for raising `k_active` and below the one for dropping it. -/
def InGap (m : Measures) : Prop := Latches cfg m ∧ cfg.k_hi.lt m.K = true ∧ m.K.lt cfg.k_lo = true

variable {cfg} {m : Measures}

theorem Latches.latch (hlatches : Latches cfg m) (k_active : Bool) :
    brighttuner.latch cfg k_active m = if k_active then !m.K.lt cfg.k_lo else cfg.k_hi.lt m.K := by
  obtain ⟨hhi, hlo, hD⟩ := hlatches
  rw [Measures.D] at hD
  rw [brighttuner.latch, Measures.probe, probe, hhi, hlo, hD]
  cases k_active <;> cases cfg.k_hi.lt m.K <;> cases m.K.lt cfg.k_lo <;> rfl

/-- A frame that latches is OK exactly when it leaves `k_active` false. -/
theorem Latches.probe (hlatches : Latches cfg m) (k_active : Bool) :
    (m.probe cfg k_active).1 = if brighttuner.latch cfg k_active m then
      (if Value.lt (.fin 0) m.da then .BS_TOO_B else .BS_TOO_D) else .BS_OK := by
  rw [hlatches.latch]
  obtain ⟨hhi, hlo, hD⟩ := hlatches
  rw [Measures.D] at hD
  rw [Measures.probe, brighttuner.probe, hhi, hlo, hD]
  cases k_active <;> cases cfg.k_hi.lt m.K <;> cases m.K.lt cfg.k_lo <;> rfl

/-- Any other frame has the same verdict whatever `k_active` is. -/
theorem probe_of_not_latches (hnot : ¬ Latches cfg m) (k_active k_active' : Bool) :
    (m.probe cfg k_active).1 = (m.probe cfg k_active').1 := by
  rw [Measures.probe, Measures.probe, probe, probe]
  by_cases hhi : cfg.sat_ratio_hi.lt m.sat_hi = true
  · rw [if_pos hhi, if_pos hhi]
  rw [if_neg hhi, if_neg hhi]
  by_cases hlo : cfg.sat_ratio_lo.lt m.sat_lo = true
  · rw [if_pos hlo, if_pos hlo]
  rw [if_neg hlo, if_neg hlo]
  by_cases hD : m.da.abs.lt cfg.hysteresis_d_threshold = true
  · rw [if_pos hD, if_pos hD]
  · rw [Bool.not_eq_true] at hhi hlo hD
    exact absurd ⟨hhi, hlo, hD⟩ hnot

theorem latch_run_replicate_succ (k_active : Bool) (n : ℕ) :
    latch_run cfg k_active (List.replicate (n + 1) m) = latch cfg (latch_run cfg k_active (List.replicate n m)) m := by
  rw [List.replicate_succ', latch_run, latch_run, List.foldl_append, List.foldl_cons, List.foldl_nil]

/-- Out of the gap the second frame of a constant scene leaves `k_active` as the first has left it. -/
theorem Latches.latch_latch (hlatches : Latches cfg m) (hgap : ¬ (cfg.k_hi.lt m.K = true ∧ m.K.lt cfg.k_lo = true))
    (k_active : Bool) :
    brighttuner.latch cfg (brighttuner.latch cfg k_active m) m = brighttuner.latch cfg k_active m := by
  simp only [hlatches.latch]
  cases k_active <;> cases hhi : cfg.k_hi.lt m.K <;> cases hlo : m.K.lt cfg.k_lo <;>
    first | rfl | exact absurd ⟨hhi, hlo⟩ hgap

/-- In the gap each frame inverts `k_active`. -/
theorem InGap.latch (hgap : InGap cfg m) (k_active : Bool) : brighttuner.latch cfg k_active m = !k_active := by
  obtain ⟨hlatches, hhi, hlo⟩ := hgap
  rw [hlatches.latch, hhi, hlo]
  cases k_active <;> rfl

/-- A constant scene has a constant verdict from the second frame on exactly when it is not in the gap. -/
theorem verdict_constant_iff :
    (∀ k_active n, verdict cfg m k_active (n + 1) = verdict cfg m k_active 1) ↔ ¬ InGap cfg m := by
  constructor
  · intro hconstant hgap
    have hsame := hconstant false 1
    have hfirst : latch_run cfg false (List.replicate 1 m) = true := hgap.latch false
    rw [verdict, verdict, latch_run_replicate_succ, hgap.1.probe, hgap.1.probe, hgap.latch, hgap.latch, hfirst] at hsame
    revert hsame
    cases Value.lt (.fin 0) m.da <;> simp
  · intro hnot k_active n
    by_cases hlatches : Latches cfg m
    · have hsettled : ∀ n, latch_run cfg k_active (List.replicate (n + 1) m) = latch cfg k_active m := by
        intro n
        induction n with
        | zero => rfl
        | succ n ih =>
          rw [latch_run_replicate_succ, ih]
          exact hlatches.latch_latch (fun h => hnot ⟨hlatches, h⟩) k_active
      rw [verdict, verdict, hsettled n, hsettled 0]
    · exact probe_of_not_latches hlatches _ _

theorem Latches.rightSide (hlatches : Latches cfg m) (k_active : Bool) : RightSide cfg m k_active := by
  rw [RightSide, hlatches.latch]
  cases k_active <;> cases cfg.k_hi.lt m.K <;> cases m.K.lt cfg.k_lo <;> simp

/-- `k_active` that is never dropped is raised once at most. -/
theorem changes_le_of_not_dropped {frames : List Measures} (hlatches : ∀ m ∈ frames, Latches cfg m)
    (hkeeps : ∀ m ∈ frames, m.K.lt cfg.k_lo = false) (k_active : Bool) :
    changes cfg k_active frames ≤ if k_active then 0 else 1 := by
  induction frames generalizing k_active with
  | nil => exact Nat.zero_le _
  | cons m rest ih =>
    rw [List.forall_mem_cons] at hlatches hkeeps
    have hrest := ih hlatches.2 hkeeps.2 (latch cfg k_active m)
    rw [changes]
    rw [hlatches.1.latch, hkeeps.1] at hrest ⊢
    cases k_active <;> cases hhi : cfg.k_hi.lt m.K <;> simp_all

/-- `k_active` that is never raised is dropped once at most. -/
theorem changes_le_of_not_raised {frames : List Measures} (hlatches : ∀ m ∈ frames, Latches cfg m)
    (hkeeps : ∀ m ∈ frames, cfg.k_hi.lt m.K = false) (k_active : Bool) :
    changes cfg k_active frames ≤ if k_active then 1 else 0 := by
  induction frames generalizing k_active with
  | nil => exact Nat.zero_le _
  | cons m rest ih =>
    rw [List.forall_mem_cons] at hlatches hkeeps
    have hrest := ih hlatches.2 hkeeps.2 (latch cfg k_active m)
    rw [changes]
    rw [hlatches.1.latch, hkeeps.1] at hrest ⊢
    cases k_active <;> cases hlo : m.K.lt cfg.k_lo <;> simp_all

theorem changes_le_one {frames : List Measures} (hlatches : ∀ m ∈ frames, Latches cfg m)
    (hregion : OneRegion cfg frames) (horder : cfg.k_hi.lt cfg.k_lo = false) (k_active : Bool) :
    changes cfg k_active frames ≤ 1 := by
  have hdropped : (∀ m ∈ frames, cfg.k_lo.le m.K = true) → changes cfg k_active frames ≤ 1 := by
    intro habove
    refine (changes_le_of_not_dropped hlatches (fun m hm => Value.not_lt_of_le (habove m hm)) k_active).trans ?_
    split <;> omega
  have hraised : (∀ m ∈ frames, m.K.le cfg.k_hi = true) → changes cfg k_active frames ≤ 1 := by
    intro hbelow
    refine (changes_le_of_not_raised hlatches (fun m hm => Value.not_lt_of_le (hbelow m hm)) k_active).trans ?_
    split <;> omega
  obtain habove | hbelow | hbetween | hbetween := hregion
  · exact hdropped fun m hm => (habove m hm).1
  · exact hraised fun m hm => (hbelow m hm).2
  · exact hdropped fun m hm => (hbetween m hm).1
  · -- thresholds in the right order leave one value in between
    refine hraised fun m hm => ?_
    obtain ⟨hhi, hlo⟩ := hbetween m hm
    exact Value.le_trans hlo (Value.le_of_le_of_not_lt (Value.le_trans hhi hlo) horder)

/-- The frame that is used against thresholds in the wrong order: far from the middle, without saturation. -/
def far_frame (K : Value) : Measures := ⟨.fin 100, K, .fin 0, .fin 0⟩

/-- What the validation checks of the thresholds. -/
theorem latches_far_frame (hvalid : validate_bright_tuner cfg = .ok ()) (K : Value) : Latches cfg (far_frame K) := by
  simp only [validate_bright_tuner, check_bind_eq_ok_iff, reject_if_eq_ok_iff, outside, not_above,
    Bool.or_eq_false_iff] at hvalid
  obtain ⟨hD, -, -, -, -, -, -, -, hhi, hlo, -⟩ := hvalid
  have hpositive : ∀ ratio : Value, ratio.le (float_lit (1 / 10)) = false → ratio.lt (.fin 0) = false := by
    intro ratio hratio
    rw [← Bool.not_eq_true]
    intro hlt
    have hzero : (Value.fin 0).le (float_lit (1 / 10)) = true := by decide +kernel
    rw [Value.le_trans (Value.le_of_lt hlt) hzero] at hratio
    cases hratio
  refine ⟨hpositive _ hhi.1, hpositive _ hlo.1, ?_⟩
  rw [← Bool.not_eq_true]
  intro hlt
  have htwenty : (float_lit 20).lt (.fin 100) = true := by decide +kernel
  have hover : (float_lit 20).lt cfg.hysteresis_d_threshold = true :=
    Value.lt_of_lt_of_le htwenty (Value.le_of_lt hlt)
  rw [hD.2] at hover
  cases hover

/-- `K` on the one threshold and then on the other changes an active `k_active` twice when their order is wrong. -/
theorem changes_far_frames (hvalid : validate_bright_tuner cfg = .ok ()) (hswapped : cfg.k_hi.lt cfg.k_lo = true) :
    changes cfg true [far_frame cfg.k_hi, far_frame cfg.k_lo] = 2 := by
  have hfirst : latch cfg true (far_frame cfg.k_hi) = false := by
    rw [(latches_far_frame hvalid _).latch]
    exact congrArg not hswapped
  have hsecond : latch cfg false (far_frame cfg.k_lo) = true := by
    rw [(latches_far_frame hvalid _).latch]
    exact hswapped
  rw [changes, changes, changes, hfirst, hsecond]
  rfl

/-- The brightness hysteresis of an accepted configuration is stable exactly when the threshold for raising `k_active`
is not below the one for dropping it. -/
theorem stable_iff {max_stream_fps : ℤ} {cfg : UserConfig} (hvalid : user_cfg_validate max_stream_fps cfg = .ok ()) :
    Stable cfg.bright_tuner ↔ ¬ cfg.bright_tuner.k_hi.lt cfg.bright_tuner.k_lo = true := by
  have hbright : validate_bright_tuner cfg.bright_tuner = .ok () :=
    ((user_cfg_validate_eq_ok_iff max_stream_fps cfg).mp hvalid).2.2.1.2.2.2
  constructor
  · intro hstable hswapped
    have hcount := changes_far_frames hbright hswapped
    have honce := hstable.at_most_once [far_frame cfg.bright_tuner.k_hi, far_frame cfg.bright_tuner.k_lo] true
      (by simp [latches_far_frame hbright]) (.inr (.inr (.inr ?_)))
    · omega
    · have hle := Value.le_of_lt hswapped
      simp [far_frame, hle, Value.le_refl_of_le hle]
  · intro horder
    rw [Bool.not_eq_true] at horder
    refine ⟨fun m => verdict_constant_iff.mpr ?_, ?_, fun frames k_active hlatches hregion =>
      changes_le_one hlatches hregion horder k_active⟩
    · rintro ⟨-, hhi, hlo⟩
      rw [Value.lt_of_lt_of_le hhi (Value.le_of_lt hlo)] at horder
      cases horder
    · intro before m after k_active hlatches
      exact (hlatches m (List.mem_append_right before List.mem_cons_self)).rightSide _

theorem stable_sample : Stable sample_config.bright_tuner :=
  (stable_iff sample_config_valid).mpr (by decide +kernel)

/-- Thresholds in the wrong order, which the validation accepts. -/
def swapped_config : UserConfig :=
  { sample_config with
    bright_tuner := { k_hi := float_lit (9 / 10), k_lo := float_lit (11 / 10), mid_val := float_lit 100 } }

/-- A picture whose one half is of gray 100 and whose other half of gray 140. -/
def half_and_half : List ℕ := List.replicate 28800 100 ++ List.replicate 28800 140

/-- Summing up the deviations of a picture is exact: 2 ^ 24 is far above 256 times its number of pixels. -/
theorem sum_deviations {MID_VAL : ℤ} {picture : List ℕ} (hmid : 0 ≤ MID_VAL ∧ MID_VAL ≤ 255)
    (hpicture : ∀ p ∈ picture, p ≤ 255) (hsize : picture.length < 2 ^ 16) :
    picture.foldl (fun a (p : ℕ) => binary32.add a (binary32.ofInt (p - MID_VAL))) (.fin 0) =
      .fin ↑(picture.map fun p : ℕ => (p : ℤ) - MID_VAL).sum := by
  have hexact := binary32.foldl_add_ofInt (by decide) (by decide) (picture.map fun p : ℕ => (p : ℤ) - MID_VAL) 0 ?_
  · rw [List.foldl_map, Int.cast_zero, zero_add] at hexact
    exact hexact
  · have hsum := List.sum_le_card_nsmul ((picture.map fun p : ℕ => (p : ℤ) - MID_VAL).map abs) 255 ?_
    · rw [List.length_map, List.length_map] at hsum
      norm_num [binary32] at hsum ⊢
      omega
    · simp only [List.map_map, List.forall_mem_map, Function.comp_apply, abs_le]
      intro p hp
      have hle := hpicture p hp
      omega

/-- Summing up the spread around a whole mean is exact while it fits the significand. -/
theorem sum_spread {MID_VAL da : ℤ} {count : ℕ → ℕ} (hmid : 0 ≤ MID_VAL ∧ MID_VAL ≤ 255) (hda : |da| ≤ 255)
    (hsum : ((List.range 256).map fun i : ℕ => |(i : ℤ) - MID_VAL - da| * count i).sum < 2 ^ 24) :
    (List.range 256).foldl (fun Ma (i : ℕ) => binary32.add Ma
        (binary32.mulFin (binary32.sub (binary32.ofInt (i - MID_VAL)) (.fin da)).abs (count i))) (.fin 0) =
      .fin ↑((List.range 256).map fun i : ℕ => |(i : ℤ) - MID_VAL - da| * count i).sum := by
  have hterm : ∀ i ∈ List.range 256, binary32.mulFin (binary32.sub (binary32.ofInt (i - MID_VAL)) (.fin da)).abs
      (count i) = binary32.ofInt (|(i : ℤ) - MID_VAL - da| * count i) := by
    intro i hi
    rw [List.mem_range] at hi
    rw [abs_le] at hda
    have hsmall : ∀ n : ℤ, -1000 < n → n < 1000 → binary32.ofInt n = .fin n := by
      intro n hlo hhi
      refine binary32.ofInt_eq_fin ?_ (by decide) (by decide)
      rw [abs_lt]
      norm_num [binary32]
      omega
    have hdeviation : binary32.sub (.fin ↑((i : ℤ) - MID_VAL)) (.fin da) = binary32.ofInt (i - MID_VAL - da) := by
      rw [Format.sub, Format.ofInt, Int.cast_sub _ da]
    rw [hsmall _ (by omega) (by omega), hdeviation, hsmall _ (by omega) (by omega), Value.abs_fin, Format.mulFin,
      Format.ofInt]
    push_cast
    rfl
  have hexact := binary32.foldl_add_ofInt (by decide) (by decide)
    ((List.range 256).map fun i : ℕ => |(i : ℤ) - MID_VAL - da| * count i) 0 ?_
  · rw [List.foldl_map, Int.cast_zero, zero_add] at hexact
    rw [← hexact]
    refine List.foldl_ext _ _ _ fun Ma i hi => ?_
    rw [hterm i hi]
  · rw [List.map_map, abs_zero, zero_add]
    simp only [Function.comp_def, abs_mul, abs_abs, Nat.abs_cast]
    exact hsum

theorem measure_half_and_half : measure 100 half_and_half = ⟨.fin 20, .fin 1, .fin 0, .fin 0⟩ := by
  have hlength : half_and_half.length = 57600 := by
    rw [half_and_half, List.length_append, List.length_replicate, List.length_replicate]
  have hcount : ∀ i, half_and_half.count i = if i = 100 then 28800 else if i = 140 then 28800 else 0 := by
    intro i
    rw [half_and_half, List.count_append, List.count_replicate, List.count_replicate]
    by_cases hlow : i = 100
    · rw [hlow]
      rfl
    · by_cases hhigh : i = 140
      · rw [hhigh]
        rfl
      · rw [if_neg (by simpa using Ne.symm hlow), if_neg (by simpa using Ne.symm hhigh), if_neg hlow, if_neg hhigh]
  have htotal : (half_and_half.map fun p : ℕ => (p : ℤ) - 100).sum = 1152000 := by
    rw [half_and_half, List.map_append, List.map_replicate, List.map_replicate, List.sum_append, List.sum_replicate,
      List.sum_replicate]
    norm_num
  have hpixels : ∀ p ∈ half_and_half, p ≤ 255 := by
    intro p hp
    rw [half_and_half, List.mem_append, List.mem_replicate, List.mem_replicate] at hp
    omega
  have hmid : 0 ≤ (100 : ℤ) ∧ (100 : ℤ) ≤ 255 := by norm_num
  have hsum := sum_deviations hmid hpixels (by rw [hlength]; norm_num)
  have hspread : ((List.range 256).map fun i : ℕ => |(i : ℤ) - 100 - 20| * half_and_half.count i).sum = 1152000 := by
    simp only [hcount]
    decide +kernel
  have hMa := sum_spread hmid (show |(20 : ℤ)| ≤ 255 by decide) (by rw [hspread]; norm_num)
  have hda : binary32.divFin (.fin ↑(1152000 : ℤ)) ↑(57600 : ℕ) = .fin ↑(20 : ℤ) := by decide +kernel
  rw [hspread] at hMa
  rw [htotal] at hsum
  rw [measure, hsum, hlength, hda, hMa, sat_ratio, sat_ratio, hlength, funext hcount]
  decide +kernel

/-- With thresholds in the wrong order the verdict on a picture that does not change alternates. -/
theorem verdict_alternates :
    user_cfg_validate 60 swapped_config = .ok () ∧
      verdict swapped_config.bright_tuner (measure 100 half_and_half) false 1 = .BS_OK ∧
      verdict swapped_config.bright_tuner (measure 100 half_and_half) false 2 = .BS_TOO_B ∧
      ¬ Stable swapped_config.bright_tuner := by
  rw [measure_half_and_half]
  have hvalid : user_cfg_validate 60 swapped_config = .ok () := by decide +kernel
  have hfirst : verdict swapped_config.bright_tuner ⟨.fin 20, .fin 1, .fin 0, .fin 0⟩ false 1 = .BS_OK := by
    decide +kernel
  have hsecond : verdict swapped_config.bright_tuner ⟨.fin 20, .fin 1, .fin 0, .fin 0⟩ false 2 = .BS_TOO_B := by
    decide +kernel
  refine ⟨hvalid, hfirst, hsecond, fun hstable => ?_⟩
  have hsame := hstable.verdict_constant ⟨.fin 20, .fin 1, .fin 0, .fin 0⟩ false 1
  rw [hfirst, hsecond] at hsame
  cases hsame

end k180.brighttuner
