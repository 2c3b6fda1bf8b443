import K180.UserCfg.Validate

open binary_float

namespace k180.user_cfg

/-- The allowed rates in bits per second. -/
def nominal_bps : List ℤ :=
  [1000000, 1600000, 2000000, 3000000, 4000000, 6000000, 8000000, 10000000, 12000000, 16000000]

/-- The rates in bits per second that pass the comparison with the allowed ones: the tolerance of
`1e-6` is one bit per second, so how the two sides are rounded decides about the neighbours. -/
def camera_bps : List ℤ :=
  [1000000, 1000001, 1600000, 1600001, 1999999, 2000000, 3000000, 4000000, 6000000, 8000000, 8000001,
    9999999, 10000000, 10000001, 11999999, 12000000, 12000001, 15999999, 16000000]

/-- The rational that `datarate_mbps` computes. -/
def mbps_rat (n : ℤ) : ℚ := binary64.quantize (binary64.quantize n / 1000000)

/-- The difference that is compared with the tolerance, for the allowed rate `nominal`. -/
def gap (nominal n : ℤ) : ℚ :=
  binary64.quantize (binary64.quantize (nominal / 1000000) - mbps_rat n)

def tolerance : ℚ := binary64.quantize (1 / 1000000)

theorem mbps_rat_mono {m n : ℤ} (hmn : m ≤ n) : mbps_rat m ≤ mbps_rat n := by
  apply binary64.quantize_mono
  have hcast := binary64.quantize_mono (show (m : ℚ) ≤ n by exact_mod_cast hmn)
  linarith

theorem gap_anti (nominal : ℤ) {m n : ℤ} (hmn : m ≤ n) : gap nominal n ≤ gap nominal m := by
  apply binary64.quantize_mono
  have hmono := mbps_rat_mono hmn
  linarith

theorem datarate_mbps_eq {n : ℤ} (hlo : -2147483648 ≤ n) (hhi : n ≤ 2147483647) :
    datarate_mbps n = .fin (mbps_rat n) := by
  have hnlo : binary64.quantize (-2147483648) ≤ binary64.quantize n :=
    binary64.quantize_mono (by exact_mod_cast hlo)
  have hnhi : binary64.quantize n ≤ binary64.quantize 2147483647 :=
    binary64.quantize_mono (by exact_mod_cast hhi)
  have hint : binary64.ofInt n = .fin (binary64.quantize n) := by
    apply binary64.round_eq_fin
    have hmin : -2 ^ binary64.emax < binary64.quantize (-2147483648) := by decide +kernel
    have hmax : binary64.quantize 2147483647 < 2 ^ binary64.emax := by decide +kernel
    exact abs_lt.mpr ⟨by linarith, by linarith⟩
  have hdiv : binary64.divFin (.fin (binary64.quantize n)) 1000000 = .fin (mbps_rat n) := by
    apply binary64.round_eq_fin
    have hmin : -2 ^ binary64.emax < mbps_rat (-2147483648) := by decide +kernel
    have hmax : mbps_rat 2147483647 < 2 ^ binary64.emax := by decide +kernel
    have hmlo := mbps_rat_mono hlo
    have hmhi := mbps_rat_mono hhi
    exact abs_lt.mpr ⟨hmin.trans_le hmlo, hmhi.trans_lt hmax⟩
  rw [datarate_mbps, hint, hdiv]

theorem allowed_datarate_mbps_eq :
    allowed_datarate_mbps = nominal_bps.map fun nominal : ℤ => (nominal : ℚ) / 1000000 := by
  decide +kernel

/-- The comparison with the allowed rates, on rationals. -/
theorem is_one_of_double_datarate_iff {n : ℤ} (hlo : -2147483648 ≤ n) (hhi : n ≤ 2147483647) :
    is_one_of_double (datarate_mbps n) allowed_datarate_mbps (1 / 1000000) = true ↔
      ∃ nominal ∈ nominal_bps, |gap nominal n| < tolerance := by
  have hnominal : ∀ nominal ∈ nominal_bps, binary64.round ((nominal : ℚ) / 1000000) =
      .fin (binary64.quantize ((nominal : ℚ) / 1000000)) := by decide +kernel
  have htolerance : binary64.round (1 / 1000000) = .fin tolerance := by decide +kernel
  have hbound : tolerance ≤ 2 ^ binary64.emax := by decide +kernel
  rw [is_one_of_double, datarate_mbps_eq hlo hhi, allowed_datarate_mbps_eq, List.any_map,
    List.any_eq_true, htolerance]
  refine exists_congr fun nominal => and_congr_right fun hmem => ?_
  rw [Function.comp_apply, hnominal nominal hmem]
  exact binary64.abs_round_lt_fin_iff hbound

/-- A rate two bits per second or more away from an allowed one is too far away. -/
theorem near_nominal {nominal n : ℤ} (hmem : nominal ∈ nominal_bps) (hgap : |gap nominal n| < tolerance) :
    n = nominal - 1 ∨ n = nominal ∨ n = nominal + 1 := by
  have hfar : ∀ nominal ∈ nominal_bps,
      tolerance ≤ gap nominal (nominal - 2) ∧ gap nominal (nominal + 2) ≤ -tolerance := by
    decide +kernel
  obtain ⟨hbelow, habove⟩ := hfar nominal hmem
  obtain ⟨hmin, hmax⟩ := abs_lt.mp hgap
  by_contra hout
  rcases le_or_gt n (nominal - 2) with hle | hgt
  · have hanti := gap_anti nominal hle
    linarith
  · have hge : nominal + 2 ≤ n := by omega
    have hanti := gap_anti nominal hge
    linarith

/-- Which rates in bits per second the camera process takes. -/
theorem validDatarate_iff {n : ℤ} (hlo : -2147483648 ≤ n) (hhi : n ≤ 2147483647) :
    ValidDatarate n ↔ n ∈ camera_bps := by
  rw [ValidDatarate, is_one_of_double_datarate_iff hlo hhi]
  constructor
  · rintro ⟨_, nominal, hmem, hgap⟩
    have hbelow : ∀ nominal ∈ nominal_bps, |gap nominal (nominal - 1)| < tolerance →
        nominal - 1 ∈ camera_bps := by decide +kernel
    have hequal : ∀ nominal ∈ nominal_bps, nominal ∈ camera_bps := by decide +kernel
    have habove : ∀ nominal ∈ nominal_bps, |gap nominal (nominal + 1)| < tolerance →
        nominal + 1 ∈ camera_bps := by decide +kernel
    obtain rfl | rfl | rfl := near_nominal hmem hgap
    · exact hbelow nominal hmem hgap
    · exact hequal n hmem
    · exact habove nominal hmem hgap
  · intro hmem
    have hnear : ∀ n ∈ camera_bps, 0 < n ∧ ∃ nominal ∈ nominal_bps, |gap nominal n| < tolerance := by
      decide +kernel
    exact hnear n hmem

end k180.user_cfg
