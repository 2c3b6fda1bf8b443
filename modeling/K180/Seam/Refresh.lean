import K180.BrightTuner.Range
import K180.Libc.Math

open k180.user_cfg libc schedule

namespace k180.seam

/-- `SeamShared` with the `prev_valid` of camera 0, whose thread is the only one that writes these. -/
structure SeamShared where
  seam_epoch : ℕ
  seam_count : ℕ
  seam_c_base : ℕ
  SEAM_COUNT_RESET : Bool
  prev_valid : Bool
deriving DecidableEq

def seam_shared_start : SeamShared := ⟨0, 0, 30, true, false⟩

/-- An `int` stored to a `uint64_t`. -/
def uint64_cast (n : ℤ) : ℕ := (n % 2 ^ 64).toNat

theorem int_cast_uint64_cast {n : ℤ} (hlo : -2147483648 ≤ n) (hhi : n ≤ 2147483647) :
    int_cast (uint64_cast n) = n := by
  have hmod : ((uint64_cast n : ℕ) : ℤ) = n % 2 ^ 64 := by
    rw [uint64_cast]
    omega
  rw [hmod, int_cast, Int.bmod_def]
  omega

variable (cfg : UserConfig)

/-- What a comparison with the frame before leads to; `high` is `mse >= cfggg.seam_mse_thresh`. -/
def compare (ss : SeamShared) (high : Bool) : SeamShared :=
  if high then
    let b := int_cast ss.seam_c_base
    let ss := if cfg.seam_rate < b then { ss with seam_c_base := uint64_cast (b - 1) } else ss
    let sc_now := int_cast ss.seam_count
    let b2 := int_cast ss.seam_c_base
    if 0 < b2 ∧ b2 < sc_now then { ss with SEAM_COUNT_RESET := true } else ss
  else
    let b := int_cast ss.seam_c_base
    if b < 60 then { ss with seam_c_base := uint64_cast (b + 1) } else ss

/-- A frame is compared with the one before, if there is one, and counted. -/
def count_frame (ss : SeamShared) (high : Bool) : SeamShared :=
  let ss := if ss.prev_valid then compare cfg ss high else ss
  { ss with prev_valid := true, seam_count := (ss.seam_count + 1) % 2 ^ 64 }

/-- `trigger`, with the frame counted. -/
def trigger (ss : SeamShared) : Bool :=
  let sc := int_cast ss.seam_count
  let base := int_cast ss.seam_c_base
  (decide (0 < base) && decide (sc.tmod base = 0)) || ss.SEAM_COUNT_RESET

/-- The epoch is bumped on the frame. -/
def bumps (ss : SeamShared) (high : Bool) : Bool := trigger (count_frame cfg ss high)

/-- The part of camera 0 in `thread_cc_prepare_seam_input`, for one frame. -/
def next_frame (ss : SeamShared) (high : Bool) : SeamShared :=
  let ss := count_frame cfg ss high
  if trigger ss then
    { ss with seam_count := 0, SEAM_COUNT_RESET := false, seam_epoch := (ss.seam_epoch + 1) % 2 ^ 64 }
  else ss

/-- The frames of a run, as the comparisons that are made on them. -/
def frames_run (frames : List Bool) : SeamShared := frames.foldl (next_frame cfg) seam_shared_start

/-- The seam is refreshed on the first frame and in every 120 consecutive ones, and the modulus is positive. -/
structure Refreshed : Prop where
  first_frame : ∀ high, bumps cfg seam_shared_start high = true
  every_120 : ∀ before window : List Bool, window.length = 120 → ∃ early high late,
    window = early ++ high :: late ∧ bumps cfg (frames_run cfg (before ++ early)) high = true
  base_pos : ∀ frames, 0 < int_cast (frames_run cfg frames).seam_c_base

/-- `seam_c_base` behind a comparison. -/
def next_base (b : ℤ) (high : Bool) : ℤ :=
  if high then (if cfg.seam_rate < b then b - 1 else b) else (if b < 60 then b + 1 else b)

variable {cfg} {ss : SeamShared}

variable (cfg) in
theorem compare_spec {b : ℤ} (hbase : int_cast ss.seam_c_base = b) (hlo : -2147483648 < b) (hhi : b ≤ 60) (high : Bool) :
    (compare cfg ss high).seam_count = ss.seam_count ∧
      int_cast (compare cfg ss high).seam_c_base = next_base cfg b high ∧
      (compare cfg ss high).SEAM_COUNT_RESET = (ss.SEAM_COUNT_RESET ||
        high && decide (0 < next_base cfg b high ∧ next_base cfg b high < int_cast ss.seam_count)) := by
  have hdown : int_cast (uint64_cast (b - 1)) = b - 1 := int_cast_uint64_cast (by omega) (by omega)
  have hup : int_cast (uint64_cast (b + 1)) = b + 1 := int_cast_uint64_cast (by omega) (by omega)
  cases high with
  | false =>
    simp only [compare, next_base, hbase, Bool.false_eq_true, if_false, Bool.false_and, Bool.or_false]
    split
    · exact ⟨rfl, hup, rfl⟩
    · exact ⟨rfl, hbase, rfl⟩
  | true =>
    simp only [compare, next_base, hbase, if_true, Bool.true_and]
    by_cases hrate : cfg.seam_rate < b
    · simp only [if_pos hrate, hdown]
      split
      · rename_i hover
        exact ⟨rfl, hdown, by rw [decide_eq_true hover, Bool.or_true]⟩
      · rename_i hover
        exact ⟨rfl, hdown, by rw [decide_eq_false hover, Bool.or_false]⟩
    · simp only [if_neg hrate, hbase]
      split
      · rename_i hover
        exact ⟨rfl, hbase, by simp [hover]⟩
      · rename_i hover
        exact ⟨rfl, hbase, by simp [hover]⟩

/-- Between two frames behind the first one: the values of the two counters as `int`. -/
structure Between (ss : SeamShared) (b : ℤ) (c : ℕ) : Prop where
  count : ss.seam_count = c
  base : int_cast ss.seam_c_base = b
  reset : ss.SEAM_COUNT_RESET = false
  prev_valid : ss.prev_valid = true

theorem Between.next_frame {b : ℤ} {c : ℕ} {high : Bool} (hc : (count_frame cfg ss high).seam_count = c + 1)
    (hb : int_cast (count_frame cfg ss high).seam_c_base = b) (hprev : (count_frame cfg ss high).prev_valid = true) :
    Between (next_frame cfg ss high) b (if bumps cfg ss high = true then 0 else c + 1) := by
  rw [seam.next_frame, bumps]
  split
  · exact ⟨rfl, hb, rfl, hprev⟩
  · rename_i htrigger
    rw [trigger, Bool.not_eq_true, Bool.or_eq_false_iff] at htrigger
    exact ⟨hc, hb, htrigger.2, hprev⟩

/-- The condition for the bump, from the counters before the frame. -/
def Due (cfg : UserConfig) (b : ℤ) (c : ℕ) (high : Bool) : Prop :=
  0 < next_base cfg b high ∧ (((c : ℤ) + 1).tmod (next_base cfg b high) = 0 ∨ high = true ∧ next_base cfg b high < c)

variable (cfg) in
theorem Between.frame {b : ℤ} {c : ℕ} (hbetween : Between ss b c) (hlo : -2147483648 < b) (hhi : b ≤ 60)
    (hcount : c < 2147483647) (high : Bool) :
    (bumps cfg ss high = true ↔ Due cfg b c high) ∧
      Between (seam.next_frame cfg ss high) (next_base cfg b high) (if bumps cfg ss high = true then 0 else c + 1) := by
  obtain ⟨hc, hb, hreset, hprev⟩ := hbetween
  obtain ⟨hcompare_count, hcompare_base, hcompare_reset⟩ := compare_spec cfg hb hlo hhi high
  have hold : int_cast c = c := int_cast_of_bounds (by omega) (by omega)
  have hsucc : int_cast ((c + 1 : ℕ) : ℤ) = c + 1 := int_cast_of_bounds (by omega) (by omega)
  rw [hreset, Bool.false_or, hc, hold] at hcompare_reset
  have hcounted : (count_frame cfg ss high).seam_count = c + 1 := by
    rw [count_frame, if_pos hprev, hcompare_count, hc]
    exact Nat.mod_eq_of_lt (by omega)
  have hbase : int_cast (count_frame cfg ss high).seam_c_base = next_base cfg b high := by
    rw [count_frame, if_pos hprev, hcompare_base]
  have hover : (count_frame cfg ss high).SEAM_COUNT_RESET =
      (high && decide (0 < next_base cfg b high ∧ next_base cfg b high < c)) := by
    rw [count_frame, if_pos hprev, hcompare_reset]
  refine ⟨?_, .next_frame hcounted hbase (by rw [count_frame])⟩
  rw [bumps, trigger, hcounted, hbase, hsucc, hover, Due]
  simp only [Bool.or_eq_true, Bool.and_eq_true, decide_eq_true_eq]
  constructor
  · rintro (⟨hpos, hmod⟩ | ⟨hhigh, hpos, hover⟩)
    · exact ⟨hpos, .inl hmod⟩
    · exact ⟨hpos, .inr ⟨hhigh, hover⟩⟩
  · rintro ⟨hpos, hmod | ⟨hhigh, hover⟩⟩
    · exact .inl ⟨hpos, hmod⟩
    · exact .inr ⟨hhigh, hpos, hover⟩

/-- On the first frame there is nothing to compare with, and the flag is still set. -/
theorem count_frame_first (high : Bool) : count_frame cfg seam_shared_start high = ⟨0, 1, 30, true, true⟩ := by
  rw [count_frame, if_neg (by decide)]
  rfl

theorem bumps_first (high : Bool) : bumps cfg seam_shared_start high = true := by
  rw [bumps, trigger, count_frame_first, Bool.or_true]

theorem between_first (high : Bool) : Between (seam.next_frame cfg seam_shared_start high) 30 0 := by
  have hbase : int_cast (count_frame cfg seam_shared_start high).seam_c_base = 30 := by
    rw [count_frame_first]
    exact int_cast_of_bounds (by norm_num) (by norm_num)
  have hcounted : (count_frame cfg seam_shared_start high).seam_count = 0 + 1 := by rw [count_frame_first]
  have hbetween := Between.next_frame hcounted hbase (by rw [count_frame_first])
  rw [if_pos (bumps_first high)] at hbetween
  exact hbetween

/-- The counters while `seam_rate` is positive: the count is below the base, or just above it, or both have run up
against the largest base. -/
structure Spaced (b : ℤ) (c : ℕ) : Prop where
  base_pos : 0 < b
  base_le : b ≤ 60
  count : c < b ∨ c = b + 1 ∨ b = 60 ∧ 60 < c
  count_lt : c < 120

theorem next_base_bounds {b : ℤ} (hrate : 1 ≤ cfg.seam_rate) (hpos : 0 < b) (hle : b ≤ 60) (high : Bool) :
    0 < next_base cfg b high ∧ next_base cfg b high ≤ 60 ∧ b ≤ next_base cfg b high + 1 ∧
      (if high = true then next_base cfg b high ≤ b else next_base cfg b high = min 60 (b + 1)) := by
  unfold next_base
  cases high with
  | false =>
    simp only [Bool.false_eq_true, if_false]
    split <;> omega
  | true =>
    simp only [if_true]
    split <;> omega

theorem Spaced.next {b : ℤ} {c : ℕ} (hspaced : Spaced b c) (hrate : 1 ≤ cfg.seam_rate) (high : Bool)
    (hnot : ¬ Due cfg b c high) : Spaced (next_base cfg b high) (c + 1) := by
  obtain ⟨hpos, hle, hcount, hlt⟩ := hspaced
  obtain ⟨hpos', hle', hnear, hmove⟩ := next_base_bounds hrate hpos hle high
  rw [Due, not_and, not_or] at hnot
  obtain ⟨hmod, hover⟩ := hnot hpos'
  generalize next_base cfg b high = b' at hpos' hle' hnear hmove hmod hover
  have hne : (c : ℤ) + 1 ≠ b' := by
    rintro h
    rw [h, Int.tmod_self] at hmod
    exact hmod rfl
  have hne_one : b' ≠ 1 := by
    rintro rfl
    exact hmod (Int.tmod_one _)
  have htop : ¬ ((c : ℤ) + 1 = 120 ∧ b' = 60) := by
    rintro ⟨hc, rfl⟩
    rw [hc] at hmod
    exact hmod rfl
  refine ⟨hpos', hle', ?_, ?_⟩
  · push_cast
    cases high with
    | false => simp only [Bool.false_eq_true, if_false] at hmove; omega
    | true => simp only [if_true, true_and, not_lt] at hmove hover; omega
  · cases high with
    | false => simp only [Bool.false_eq_true, if_false] at hmove; omega
    | true => simp only [if_true, true_and, not_lt] at hmove hover; omega

/-- In a run with a positive `seam_rate` the counters are those of `Spaced`. -/
def Regular (ss : SeamShared) : Prop := ∃ b c, Between ss b c ∧ Spaced b c

theorem Regular.next (hregular : Regular ss) (hrate : 1 ≤ cfg.seam_rate) (high : Bool) :
    Regular (seam.next_frame cfg ss high) ∧
      (bumps cfg ss high = false → (seam.next_frame cfg ss high).seam_count = ss.seam_count + 1) := by
  obtain ⟨b, c, hbetween, hspaced⟩ := hregular
  have hpos := hspaced.base_pos
  have hlt := hspaced.count_lt
  obtain ⟨hdue, hbetween'⟩ := hbetween.frame cfg (by omega) hspaced.base_le (by omega) high
  by_cases hbumps : bumps cfg ss high = true
  · rw [if_pos hbumps] at hbetween'
    refine ⟨⟨_, 0, hbetween', (hdue.mp hbumps).1, ?_, .inl (hdue.mp hbumps).1, by omega⟩, fun hnot => ?_⟩
    · exact (next_base_bounds hrate hspaced.base_pos hspaced.base_le high).2.1
    · rw [hbumps] at hnot
      cases hnot
  · rw [if_neg hbumps] at hbetween'
    refine ⟨⟨_, c + 1, hbetween', hspaced.next hrate high (mt hdue.mpr hbumps)⟩, fun _ => ?_⟩
    rw [hbetween'.count, hbetween.count]

theorem regular_first (high : Bool) : Regular (seam.next_frame cfg seam_shared_start high) :=
  ⟨30, 0, between_first high, by omega, by omega, .inl (by norm_num), by omega⟩

theorem regular_run (hrate : 1 ≤ cfg.seam_rate) (high : Bool) (frames : List Bool) :
    Regular (frames_run cfg (high :: frames)) := by
  rw [frames_run, List.foldl_cons]
  have hkeep : ∀ ss high, Regular ss → True → Regular (seam.next_frame cfg ss high) :=
    fun ss high hregular _ => (hregular.next hrate high).1
  exact foldl_invariant hkeep (fun _ _ => trivial) (regular_first high)

theorem Regular.seam_count_lt (hregular : Regular ss) : ss.seam_count < 120 := by
  obtain ⟨b, c, hbetween, hspaced⟩ := hregular
  rw [hbetween.count]
  exact hspaced.count_lt

theorem Regular.base_pos (hregular : Regular ss) : 0 < int_cast ss.seam_c_base := by
  obtain ⟨b, c, hbetween, hspaced⟩ := hregular
  rw [hbetween.base]
  exact hspaced.base_pos

/-- How many frames there can still be before the next bump, apart from its own. -/
def frames_left (ss : SeamShared) : ℕ := 119 - ss.seam_count

theorem refreshed_of_rate (hrate : 1 ≤ cfg.seam_rate) : Refreshed cfg := by
  refine ⟨bumps_first, fun before window hlength => ?_, fun frames => ?_⟩
  · cases before with
    | nil =>
      cases window with
      | nil => cases hlength
      | cons high rest => exact ⟨[], high, rest, rfl, bumps_first high⟩
    | cons high before =>
      have hregular := regular_run hrate high before
      have hstep : ∀ ss high, Regular ss → bumps cfg ss high = false → Regular (seam.next_frame cfg ss high) ∧
          frames_left (seam.next_frame cfg ss high) < frames_left ss := by
        intro ss high hregular hnot
        obtain ⟨hnext, hcount⟩ := hregular.next hrate high
        have hlt := hnext.seam_count_lt
        rw [frames_left, frames_left]
        rw [hcount hnot] at hlt ⊢
        exact ⟨hnext, by omega⟩
      have hcount : frames_left (frames_run cfg (high :: before)) < window.length := by
        rw [frames_left]
        omega
      obtain ⟨early, found, late, hwindow, hbumps⟩ := exists_event_of_rank hstep hregular hcount
      refine ⟨early, found, late, hwindow, ?_⟩
      rw [frames_run, List.foldl_append]
      exact hbumps
  · cases frames with
    | nil =>
      have hstart : int_cast seam_shared_start.seam_c_base = 30 := int_cast_of_bounds (by decide) (by decide)
      rw [frames_run, List.foldl_nil, hstart]
      norm_num
    | cons high frames => exact (regular_run hrate high frames).base_pos

/-- Without a positive `seam_rate` the base sinks to zero where every comparison is high. -/
theorem between_of_high (hrate : cfg.seam_rate ≤ 0) {n : ℕ} (hn : n < 1000000) :
    ∃ b c, Between (frames_run cfg (List.replicate (n + 1) true)) b c ∧ b ≤ max (30 - (n : ℤ)) 0 ∧
      -(n : ℤ) ≤ b ∧ b ≤ 30 ∧ c ≤ n := by
  induction n with
  | zero =>
    refine ⟨30, 0, ?_, by norm_num, by norm_num, by norm_num, le_refl 0⟩
    rw [List.replicate_one, frames_run, List.foldl_cons, List.foldl_nil]
    exact between_first true
  | succ n ih =>
    obtain ⟨b, c, hbetween, hsinks, hlo, hhi, hc⟩ := ih (by omega)
    have hnext := (hbetween.frame cfg (by omega) (by omega) (by omega) true).2
    have hbase : next_base cfg b true = if cfg.seam_rate < b then b - 1 else b := rfl
    have hrun : frames_run cfg (List.replicate (n + 1 + 1) true) =
        seam.next_frame cfg (frames_run cfg (List.replicate (n + 1) true)) true := by
      rw [List.replicate_succ', frames_run, List.foldl_append, List.foldl_cons, List.foldl_nil, frames_run]
    rw [← hrun] at hnext
    refine ⟨_, _, hnext, ?_⟩
    rw [hbase]
    push_cast
    refine ⟨?_, ?_, ?_, ?_⟩ <;> split <;> omega

/-- Then there is no bump any more. -/
theorem bumps_of_high (hrate : cfg.seam_rate ≤ 0) {n : ℕ} (hlo : 31 ≤ n) (hn : n < 1000000) :
    bumps cfg (frames_run cfg (List.replicate n true)) true = false := by
  obtain ⟨m, rfl⟩ : ∃ m, n = m + 1 := ⟨n - 1, by omega⟩
  obtain ⟨b, c, hbetween, hsinks, hbase, hhi, hc⟩ := between_of_high hrate (show m < 1000000 by omega)
  rw [← Bool.not_eq_true, (hbetween.frame cfg (by omega) (by omega) (by omega) true).1, Due]
  rintro ⟨hpos, -⟩
  have hnext : next_base cfg b true = if cfg.seam_rate < b then b - 1 else b := rfl
  rw [hnext] at hpos
  split at hpos <;> omega

theorem not_refreshed_of_rate (hrate : cfg.seam_rate ≤ 0) : ¬ Refreshed cfg := by
  intro hrefreshed
  obtain ⟨early, high, late, hwindow, hbumps⟩ := hrefreshed.every_120 (List.replicate 31 true) (List.replicate 120 true)
    List.length_replicate
  obtain ⟨hlength, hearly, hlate⟩ := List.append_eq_replicate_iff.mp hwindow.symm
  rw [List.length_cons] at hlength
  obtain rfl : high = true := List.eq_of_mem_replicate (hlate ▸ List.mem_cons_self)
  rw [hearly, List.replicate_append_replicate, bumps_of_high hrate (by omega) (by omega)] at hbumps
  cases hbumps

/-- The seam is refreshed in every 120 frames exactly when `seam_rate` is positive. -/
theorem refreshed_iff : Refreshed cfg ↔ 1 ≤ cfg.seam_rate := by
  constructor
  · intro hrefreshed
    by_contra hrate
    exact not_refreshed_of_rate (by omega) hrefreshed
  · exact refreshed_of_rate

/-- A configuration with `seam_rate` 0 is accepted, and on it there is no bump from the 32nd frame on while every
comparison is high. -/
theorem seam_rate_zero_never_refreshes :
    user_cfg_validate 60 { brighttuner.sample_config with seam_rate := 0 } = .ok () ∧
      (∀ n < 120, bumps { brighttuner.sample_config with seam_rate := 0 }
        (frames_run { brighttuner.sample_config with seam_rate := 0 } (List.replicate (31 + n) true)) true = false) ∧
      ¬ Refreshed { brighttuner.sample_config with seam_rate := 0 } :=
  ⟨by decide +kernel, fun _ _ => bumps_of_high (le_refl 0) (by omega) (by omega), not_refreshed_of_rate (le_refl 0)⟩

end k180.seam
