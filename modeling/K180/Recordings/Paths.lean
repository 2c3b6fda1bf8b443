import K180.Libc.Localtime
import K180.Recordings.Names

open libc

namespace k180.recordings

/-- What `std::time` returns at each instant, in nanoseconds: any clock that the kernel keeps, adjusted or not. -/
structure Clock where
  time : ℤ → ℤ
  lo : ∀ instant, 0 ≤ time instant
  hi : ∀ instant, time instant ≤ 9223372036

/-- The seconds that the local clock shows at an instant. -/
def local_time (clock : Clock) (zone : ZoneRule) (instant : ℤ) : ℤ := zone.local_seconds (clock.time instant)

/-- The path of a recording that is started at an instant. -/
def path_at (clock : Clock) (zone : ZoneRule) (dir head : List Char) (instant : ℤ) : List Char :=
  on_format_location_full dir head (localtime_r zone (clock.time instant))

section Text

variable {a b : tm}

/-- The text tells the fields. -/
theorem now_injective (hyear : 0 ≤ a.tm_year + 1900 ∧ a.tm_year + 1900 ≤ 9999)
    (hyear' : 0 ≤ b.tm_year + 1900 ∧ b.tm_year + 1900 ≤ 9999) (hsame : now_yyyymmdd_hhmm a = now_yyyymmdd_hhmm b) :
    a = b := by
  have hlengths : ∀ {n n' : ℤ}, 0 ≤ n → n < 100 → 0 ≤ n' → n' < 100 →
      (zero_padded 2 n).length = (zero_padded 2 n').length := by
    intro n n' hn hlt hn' hlt'
    rw [zero_padded_length (by decide) hn hlt, zero_padded_length (by decide) hn' hlt']
  have hmon := a.mon_range
  have hmday := a.mday_range
  have hhour := a.hour_range
  have hmin := a.min_range
  have hmon' := b.mon_range
  have hmday' := b.mday_range
  have hhour' := b.hour_range
  have hmin' := b.min_range
  rw [now_text hyear, now_text hyear'] at hsame
  obtain ⟨hsame, hmins⟩ := List.append_inj' hsame (hlengths (by omega) (by omega) (by omega) (by omega))
  obtain ⟨hsame, hhours⟩ := List.append_inj' hsame (hlengths (by omega) (by omega) (by omega) (by omega))
  obtain ⟨hsame, -⟩ := List.append_inj' hsame rfl
  obtain ⟨hsame, hmdays⟩ := List.append_inj' hsame (hlengths (by omega) (by omega) (by omega) (by omega))
  obtain ⟨hyears, hmons⟩ := List.append_inj' hsame (hlengths (by omega) (by omega) (by omega) (by omega))
  have heqYear := zero_padded_injective hyear.1 hyear'.1 hyears
  have heqMon := zero_padded_injective (by omega) (by omega) hmons
  exact tm.ext (by omega) (by omega) (zero_padded_injective (by omega) (by omega) hmdays)
    (zero_padded_injective (by omega) (by omega) hhours) (zero_padded_injective (by omega) (by omega) hmins)

end Text

variable {clock : Clock} {zone : ZoneRule} {x y : ℤ}

theorem local_time_year (clock : Clock) (zone : ZoneRule) (instant : ℤ) :
    0 ≤ (localtime_r zone (clock.time instant)).tm_year + 1900 ∧
      (localtime_r zone (clock.time instant)).tm_year + 1900 ≤ 9999 := by
  have hlo := clock.lo instant
  have hhi := clock.hi instant
  have hzone_lo := zone.lo (clock.time instant)
  have hzone_hi := zone.hi (clock.time instant)
  apply broken_down_year <;> rw [ZoneRule.local_seconds] <;> omega

/-- Two recordings have the same path exactly when they are started in the same minute of the local clock. -/
theorem path_at_eq_iff (dir head : List Char) :
    path_at clock zone dir head x = path_at clock zone dir head y ↔
      local_time clock zone x / 60 = local_time clock zone y / 60 := by
  rw [local_time, local_time, ← broken_down_eq_iff]
  constructor
  · intro hsame
    rw [path_at, path_at, on_format_location_full, on_format_location_full] at hsame
    have htext := List.append_cancel_left (List.append_cancel_right hsame)
    exact now_injective (local_time_year clock zone x) (local_time_year clock zone y) htext
  · intro hsame
    rw [path_at, path_at, localtime_r, localtime_r, hsame]

/-- Two recordings have different paths exactly when they are started in different minutes of the local clock, and so
two of one run do that are at least 180 seconds apart, unless that clock has been set back by more than 120 seconds. -/
theorem paths_differ (clock : Clock) (zone : ZoneRule) (dir head : List Char) (x y : ℤ) :
    (path_at clock zone dir head x ≠ path_at clock zone dir head y ↔
      local_time clock zone x / 60 ≠ local_time clock zone y / 60) ∧
      (x + 180 * 10 ^ 9 ≤ y → local_time clock zone x + (y - x) / 10 ^ 9 - 120 ≤ local_time clock zone y →
        path_at clock zone dir head x ≠ path_at clock zone dir head y) := by
  refine ⟨not_congr (path_at_eq_iff dir head), fun hapart hback hsame => ?_⟩
  rw [path_at_eq_iff] at hsame
  omega

/-- A clock that is right, and local time that is UTC. -/
def utc_clock : Clock where
  time instant := max 0 (min 9223372036 (instant / 10 ^ 9))
  lo _ := by omega
  hi _ := by omega

def utc : ZoneRule := ⟨fun _ => 0, fun _ => by decide, fun _ => by decide⟩

/-- Local time that is set back from two hours ahead to one at 1:00 UTC on 27 October 2024. -/
def central_europe : ZoneRule where
  offset t := if t < 1729990800 then 7200 else 3600
  lo t := by split <;> decide
  hi t := by split <;> decide

theorem paths_differ_utc :
    let head := make_record_prefix .S1 .V1
    path_at utc_clock utc "/data".toList head (1704067200 * 10 ^ 9) ≠
      path_at utc_clock utc "/data".toList head (1704067380 * 10 ^ 9) :=
  (paths_differ utc_clock utc "/data".toList _ (1704067200 * 10 ^ 9) (1704067380 * 10 ^ 9)).2 (by norm_num) (by decide)

/-- A restart within the minute, and an hour in which local time is repeated: the later recording gets the path of the
earlier one. -/
theorem recording_overwritten :
    let head := make_record_prefix .S1 .V1
    path_at utc_clock utc "/data".toList head (1704067200 * 10 ^ 9) =
        path_at utc_clock utc "/data".toList head (1704067230 * 10 ^ 9) ∧
      path_at utc_clock central_europe "/data".toList head (1729989000 * 10 ^ 9) =
        path_at utc_clock central_europe "/data".toList head (1729992600 * 10 ^ 9) :=
  ⟨(path_at_eq_iff _ _).mpr (by decide), (path_at_eq_iff _ _).mpr (by decide)⟩

end k180.recordings
