import Mathlib

namespace k180.trigger

section Grid

/-- A grid point that has passed is moved on by as many intervals as it takes. -/
def skip_ahead (next now interval : ℤ) : ℤ :=
  if next < now then
    let lag := now - next
    let skip := lag / interval + 1
    next + skip * interval
  else next

variable {next now interval : ℤ}

theorem le_skip_ahead (hinterval : 0 < interval) : next ≤ skip_ahead next now interval := by
  rw [skip_ahead]
  split
  · rename_i hlate
    have hskip : 0 ≤ (now - next) / interval + 1 :=
      add_nonneg (Int.ediv_nonneg (sub_nonneg.mpr hlate.le) hinterval.le) zero_le_one
    exact le_add_of_nonneg_right (mul_nonneg hskip hinterval.le)
  · exact le_refl next

theorem now_le_skip_ahead (hinterval : 0 < interval) : now ≤ skip_ahead next now interval := by
  rw [skip_ahead]
  split
  · have hlag := Int.lt_ediv_add_one_mul_self (now - next) hinterval
    linarith
  · rename_i hahead
    exact not_lt.mp hahead

theorem skip_ahead_le (hinterval : 0 < interval) : skip_ahead next now interval ≤ max (now + interval) next := by
  rw [skip_ahead]
  split
  · have hlag := Int.ediv_mul_le (now - next) hinterval.ne'
    exact le_max_of_le_left (by linarith)
  · exact le_max_right _ _

end Grid

def tmmm_nu : ℕ := 4

/-- What `cam_do_trigger` finds for a camera and is answered by the driver, with the nanoseconds that pass before the
ioctl of the trigger and after it. -/
structure Turn where
  fd : ℤ
  applied_trigger_shutter_us : ℤ
  ok : Bool
  before : ℕ
  after : ℕ

/-- The inputs of an iteration of the loop: the delay of the wake-up, the turns of the cameras, and how long it takes
from there until the clock is read. -/
structure Iteration where
  wake : ℕ
  turn : ℕ → Turn
  tail : ℕ

/-- `next`, and the clock when the thread last read it, in nanoseconds. -/
structure Timer where
  next : ℤ
  now : ℤ
deriving DecidableEq

def microseconds (us : ℤ) : ℤ := us * 1000

variable (trigger_interval_us : ℤ)

/-- The result of `cam_do_trigger`, and `shutter_used_us`. -/
def cam_do_trigger (turn : Turn) (shutter_used_us : ℤ) : Bool × ℤ :=
  if turn.fd < 0 then (false, shutter_used_us)
  else
    (turn.ok, if turn.applied_trigger_shutter_us ≤ 0 then trigger_interval_us else turn.applied_trigger_shutter_us)

/-- The shutter time that the iteration has for a camera. -/
def shutter_used (it : Iteration) (i : ℕ) : ℤ :=
  (cam_do_trigger trigger_interval_us (it.turn i) trigger_interval_us).2

/-- `next_interval_us` behind the loop over the cameras. -/
def next_interval_us (it : Iteration) : ℤ :=
  (List.range tmmm_nu).foldl (fun next_interval_us i =>
    if next_interval_us < shutter_used trigger_interval_us it i then shutter_used trigger_interval_us it i
    else next_interval_us) trigger_interval_us

/-- The time that the first `i` turns take. -/
def elapsed (it : Iteration) : ℕ → ℕ
  | 0 => 0
  | i + 1 => elapsed it i + (it.turn i).before + (it.turn i).after

/-- `sleep_until` returns behind `next`, at once where that has passed. -/
def woken (s : Timer) (it : Iteration) : ℤ := max s.next s.now + it.wake

/-- When the trigger of a camera is issued. -/
def trigger_time (s : Timer) (it : Iteration) (i : ℕ) : ℤ := woken s it + elapsed it i + (it.turn i).before

def trigger_start (now : ℤ) : Timer := ⟨now + microseconds trigger_interval_us, now⟩

/-- An iteration of `trigger_thread`. -/
def trigger_iteration (s : Timer) (it : Iteration) : Timer :=
  let interval := microseconds (next_interval_us trigger_interval_us it)
  let now := woken s it + elapsed it tmmm_nu + it.tail
  ⟨skip_ahead (s.next + interval) now interval, now⟩

def trigger_run (s : Timer) (its : List Iteration) : Timer := its.foldl (trigger_iteration trigger_interval_us) s

/-- What passes between the end of the sleep and the trigger of a camera: the delay of the wake-up, the turns of the
cameras before it, and what its own turn takes before the ioctl. -/
def trigger_delay (it : Iteration) (i : ℕ) : ℕ := it.wake + elapsed it i + (it.turn i).before

variable {trigger_interval_us} {s : Timer} {it : Iteration}

/-- No trigger comes before its grid point and its delay. -/
theorem next_le_trigger_time (s : Timer) (it : Iteration) (i : ℕ) :
    s.next + trigger_delay it i ≤ trigger_time s it i := by
  have hnext := le_max_left s.next s.now
  rw [trigger_time, woken, trigger_delay]
  push_cast
  linarith

/-- Where the grid point has not passed yet, the thread sleeps until then. -/
theorem trigger_time_eq (hgrid : s.now ≤ s.next) (it : Iteration) (i : ℕ) :
    trigger_time s it i = s.next + trigger_delay it i := by
  rw [trigger_time, woken, max_eq_left hgrid, trigger_delay]
  push_cast
  ring

/-- The interval is no shorter than the shortest one allowed and than any shutter time. -/
theorem foldl_longest_ge {used : ℕ → ℤ} (cameras : List ℕ) (longest : ℤ) :
    longest ≤ cameras.foldl (fun longest i => if longest < used i then used i else longest) longest ∧
      ∀ i ∈ cameras,
        used i ≤ cameras.foldl (fun longest i => if longest < used i then used i else longest) longest := by
  induction cameras generalizing longest with
  | nil => exact ⟨le_refl longest, fun i hi => absurd hi List.not_mem_nil⟩
  | cons first rest ih =>
    rw [List.foldl_cons, List.forall_mem_cons]
    have hstep : longest ≤ (if longest < used first then used first else longest) ∧
        used first ≤ if longest < used first then used first else longest := by
      split <;> omega
    obtain ⟨hkeep, hrest⟩ := ih (if longest < used first then used first else longest)
    exact ⟨hstep.1.trans hkeep, hstep.2.trans hkeep, hrest⟩

variable (trigger_interval_us) in
theorem trigger_interval_le (it : Iteration) : trigger_interval_us ≤ next_interval_us trigger_interval_us it :=
  (foldl_longest_ge (List.range tmmm_nu) trigger_interval_us).1

theorem shutter_used_le (it : Iteration) {i : ℕ} (hi : i < tmmm_nu) :
    shutter_used trigger_interval_us it i ≤ next_interval_us trigger_interval_us it :=
  (foldl_longest_ge (List.range tmmm_nu) trigger_interval_us).2 i (List.mem_range.mpr hi)

theorem interval_pos (hpos : 0 < trigger_interval_us) (it : Iteration) :
    0 < microseconds (next_interval_us trigger_interval_us it) := by
  have hle := trigger_interval_le trigger_interval_us it
  rw [microseconds]
  omega

/-- What an iteration does to `next`. -/
theorem trigger_iteration_next (hpos : 0 < trigger_interval_us) (s : Timer) (it : Iteration) :
    s.next + microseconds (next_interval_us trigger_interval_us it) ≤
        (trigger_iteration trigger_interval_us s it).next ∧
      (trigger_iteration trigger_interval_us s it).now ≤ (trigger_iteration trigger_interval_us s it).next ∧
      (trigger_iteration trigger_interval_us s it).next ≤
        max (trigger_iteration trigger_interval_us s it).now s.next +
          microseconds (next_interval_us trigger_interval_us it) := by
  have hinterval := interval_pos hpos it
  refine ⟨le_skip_ahead hinterval, now_le_skip_ahead hinterval, (skip_ahead_le hinterval).trans ?_⟩
  rw [max_add_add_right]
  rfl

theorem next_le_trigger_run (hpos : 0 < trigger_interval_us) (s : Timer) (its : List Iteration) :
    s.next ≤ (trigger_run trigger_interval_us s its).next := by
  induction its generalizing s with
  | nil => exact le_refl s.next
  | cons it rest ih =>
    have hstep := (trigger_iteration_next hpos s it).1
    have hinterval := interval_pos hpos it
    exact (by omega : s.next ≤ (trigger_iteration trigger_interval_us s it).next).trans (ih _)

/-- The thread always goes to sleep before its grid point. -/
theorem now_le_next_of_run (hpos : 0 < trigger_interval_us) (now : ℤ) (its : List Iteration) :
    (trigger_run trigger_interval_us (trigger_start trigger_interval_us now) its).now ≤
      (trigger_run trigger_interval_us (trigger_start trigger_interval_us now) its).next := by
  obtain rfl | ⟨before, last, rfl⟩ := its.eq_nil_or_concat
  · rw [trigger_run, List.foldl_nil, trigger_start, microseconds]
    dsimp only
    omega
  · rw [trigger_run, List.concat_eq_append, List.foldl_append, List.foldl_cons, List.foldl_nil]
    exact (trigger_iteration_next hpos _ last).2.1

/-- In every run, the triggers of a camera in two iterations are apart by the interval of the earlier one, less the
time by which the earlier one was late and with the time by which the other one is; and each iteration leaves `next` on
a grid point that has not passed, at most one interval behind. -/
theorem trigger_spacing (hpos : 0 < trigger_interval_us) (now : ℤ) (before between : List Iteration)
    (it it' : Iteration) :
    let s := trigger_run trigger_interval_us (trigger_start trigger_interval_us now) before
    let s' := trigger_run trigger_interval_us s (it :: between)
    (∀ i < tmmm_nu, shutter_used trigger_interval_us it i ≤ next_interval_us trigger_interval_us it ∧
      trigger_interval_us ≤ next_interval_us trigger_interval_us it ∧
      microseconds (next_interval_us trigger_interval_us it) - trigger_delay it i + trigger_delay it' i ≤
        trigger_time s' it' i - trigger_time s it i) ∧
      (trigger_iteration trigger_interval_us s it).now ≤ (trigger_iteration trigger_interval_us s it).next ∧
      (trigger_iteration trigger_interval_us s it).next ≤
        max (trigger_iteration trigger_interval_us s it).now s.next +
          microseconds (next_interval_us trigger_interval_us it) := by
  intro s s'
  obtain ⟨hnext, hgrid⟩ := trigger_iteration_next hpos s it
  refine ⟨fun i hi => ⟨shutter_used_le it hi, trigger_interval_le trigger_interval_us it, ?_⟩, hgrid⟩
  have hrun : (trigger_iteration trigger_interval_us s it).next ≤ s'.next :=
    next_le_trigger_run hpos (trigger_iteration trigger_interval_us s it) between
  have hearlier := trigger_time_eq (now_le_next_of_run hpos now before) it i
  have hlater := next_le_trigger_time s' it' i
  linarith

/-- All cameras with an exposure of 5 ms, ioctls that take no time, and a wake-up that is late by `wake`. -/
def sample_iteration (wake : ℕ) : Iteration := ⟨wake, fun _ => ⟨3, 5000, true, 0, 0⟩, 0⟩

/-- A trigger that is late by 2 ms, and one that is on time. -/
theorem trigger_spacing_sample :
    microseconds (next_interval_us 16667 (sample_iteration 2000000)) -
        trigger_delay (sample_iteration 2000000) 0 + trigger_delay (sample_iteration 0) 0 ≤
      trigger_time (trigger_run 16667 (trigger_run 16667 (trigger_start 16667 0) []) [sample_iteration 2000000])
          (sample_iteration 0) 0 -
        trigger_time (trigger_run 16667 (trigger_start 16667 0) []) (sample_iteration 2000000) 0 :=
  ((trigger_spacing (by norm_num) 0 [] [] (sample_iteration 2000000) (sample_iteration 0)).1 0 (by decide)).2.2

/-- A wake-up that is late by 10 ms and one that is on time: the second trigger comes 6.667 ms after the first one. -/
theorem late_trigger_followed_too_soon :
    shutter_used 16667 (sample_iteration 10000000) 0 = 5000 ∧
      trigger_time (trigger_run 16667 (trigger_start 16667 0) [sample_iteration 10000000]) (sample_iteration 0) 0 -
        trigger_time (trigger_start 16667 0) (sample_iteration 10000000) 0 = 6667000 ∧
      ¬ microseconds 16667 ≤
        trigger_time (trigger_run 16667 (trigger_start 16667 0) [sample_iteration 10000000]) (sample_iteration 0) 0 -
          trigger_time (trigger_start 16667 0) (sample_iteration 10000000) 0 := by
  decide

end k180.trigger
