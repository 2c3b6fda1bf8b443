import K180.Rtsp.PtsDrift

namespace k180.h265_hub

structure timespec where
  tv_sec : ℤ
  tv_nsec : ℤ

/-- `CLOCK_MONOTONIC` in nanoseconds, in `uint64_t`. -/
def now_ns_mono (ts : timespec) : ℕ := ((ts.tv_sec * 1000000000 + ts.tv_nsec) % 2 ^ 64).toNat

def now_ns_mono_h264 (ts : timespec) : ℕ := ((ts.tv_sec * 1000000000 + ts.tv_nsec) % 2 ^ 64).toNat

inductive GstState where
  | void_pending
  | null
  | ready
  | paused
  | playing
deriving DecidableEq

/-- What `push_nvmm_rgba_buffer` reads and writes of a hub; both kinds of hub have these fields. -/
structure Hub where
  started : Bool
  pipeline : Bool
  rawsrc : Bool
  in_w : ℤ
  in_h : ℤ
  fps : ℤ
  t0_ns_ : ℕ
  last_pts_ : ℕ

/-- A call: whether the buffer is there, the clock when it is read, the state of the pipeline, and
whether the appsrc takes the buffer. -/
structure Frame where
  buf : Bool
  ts : timespec
  st : GstState
  flow_ok : Bool

/-- The time origin is set once; the PTS is the elapsed time rounded down to a multiple of `dur`, or
the last PTS plus `dur`. One thread pushes, so that the exchange of a zero `t0` succeeds. -/
def Hub.assign_pts (hub : Hub) (dur now : ℕ) : Hub × ℕ :=
  let t0 := if hub.t0_ns_ = 0 then now else hub.t0_ns_
  let prev := if hub.t0_ns_ = 0 then 0 else hub.last_pts_
  let raw := wrap (now + 2 ^ 64 - t0)
  let q := raw / dur * dur
  let pts := if q ≤ prev then wrap (prev + dur) else q
  ({ hub with t0_ns_ := t0, last_pts_ := pts }, pts)

/-- The checks before a PTS is assigned. -/
def Hub.accepts (hub : Hub) (frame : Frame) : Bool :=
  frame.buf &&
  !(!hub.started || !hub.pipeline || !hub.rawsrc || decide (hub.in_w ≤ 0) || decide (hub.in_h ≤ 0) ||
    decide (hub.fps ≤ 0)) &&
  frame_dur hub.fps.toNat != 0 &&
  !(frame.st == .void_pending || frame.st == .null || frame.st == .ready)

/-- The hub afterwards, the PTS that the buffer was given, and the answer. -/
def Hub.push_nvmm_rgba_buffer (clock : timespec → ℕ) (hub : Hub) (frame : Frame) :
    Hub × Option ℕ × Bool :=
  if hub.accepts frame = true then
    let (hub', pts) := hub.assign_pts (frame_dur hub.fps.toNat) (clock frame.ts)
    (hub', some pts, frame.flow_ok)
  else (hub, none, false)

def H265Hub.push_nvmm_rgba_buffer : Hub → Frame → Hub × Option ℕ × Bool :=
  Hub.push_nvmm_rgba_buffer now_ns_mono

def H264Hub.push_nvmm_rgba_buffer : Hub → Frame → Hub × Option ℕ × Bool :=
  Hub.push_nvmm_rgba_buffer now_ns_mono_h264

/-- The clock and the PTS of every buffer that was given one. -/
def stamps (push : Hub → Frame → Hub × Option ℕ × Bool) (clock : timespec → ℕ) (hub : Hub) :
    List Frame → List (ℕ × ℕ)
  | [] => []
  | frame :: rest =>
    ((push hub frame).2.1.map fun pts => (clock frame.ts, pts)).toList ++
      stamps push clock (push hub frame).1 rest

def H265Hub.stamps : Hub → List Frame → List (ℕ × ℕ) :=
  h265_hub.stamps H265Hub.push_nvmm_rgba_buffer now_ns_mono

def H264Hub.stamps : Hub → List Frame → List (ℕ × ℕ) :=
  h265_hub.stamps H264Hub.push_nvmm_rgba_buffer now_ns_mono_h264

/-- The time from the first push to push `i`, rounded down to a multiple of `dur`. -/
def rounded_elapsed (dur : ℕ) (times : List ℕ) (i : ℕ) : ℕ :=
  (times.getD i 0 - times.headD 0) / dur * dur

/-- What the `n`-th PTS is the maximum of, for a hub whose last PTS was `prev`. -/
def Candidates (dur prev : ℕ) (q : ℕ → ℕ) (n : ℕ) : Set ℕ :=
  {pts | pts = prev + (n + 1) * dur ∨ ∃ i ≤ n, pts = q i + (n - i) * dur}

/-- The law of the PTS values of a hub. -/
structure PtsLaw (dur : ℕ) (stamped : List (ℕ × ℕ)) : Prop where
  maximum : ∀ n frame, stamped[n]? = some frame →
    IsGreatest (Candidates dur 0 (rounded_elapsed dur (stamped.map Prod.fst)) n) frame.2
  multiple : ∀ frame ∈ stamped, 0 < frame.2 ∧ dur ∣ frame.2
  increasing : ∀ n frame next, stamped[n]? = some frame → stamped[n + 1]? = some next →
    frame.2 + dur ≤ next.2
  not_behind : ∀ n frame, stamped[n]? = some frame →
    rounded_elapsed dur (stamped.map Prod.fst) n ≤ frame.2

variable {hub : Hub} {dur prev n : ℕ} {q : ℕ → ℕ} {times : List ℕ}

/-- `stamp` assigns the same PTS. -/
theorem stamp_eq_assign_pts {fps : ℕ} (s : StreamState) (now : ℕ) (ht0 : hub.t0_ns_ = s.t0_ns)
    (hlast : hub.last_pts_ = s.last_pts) :
    (stamp fps s now).stamped = s.stamped ++ [(now, (hub.assign_pts (frame_dur fps) now).2)] ∧
      (stamp fps s now).t0_ns = (hub.assign_pts (frame_dur fps) now).1.t0_ns_ ∧
      (stamp fps s now).last_pts = (hub.assign_pts (frame_dur fps) now).1.last_pts_ := by
  simp only [stamp, Hub.assign_pts, ht0, hlast, and_self]

/-- The PTS values assigned at these clock readings. -/
def Hub.assign_all (hub : Hub) (dur : ℕ) : List ℕ → List (ℕ × ℕ)
  | [] => []
  | now :: rest => (now, (hub.assign_pts dur now).2) :: (hub.assign_pts dur now).1.assign_all dur rest

/-- Buffers that are turned away leave the hub as it is. -/
theorem stamps_eq_assign_all (clock : timespec → ℕ) (hub : Hub) (frames : List Frame) :
    stamps (Hub.push_nvmm_rgba_buffer clock) clock hub frames =
      hub.assign_all (frame_dur hub.fps.toNat)
        ((frames.filter hub.accepts).map fun frame => clock frame.ts) := by
  induction frames generalizing hub with
  | nil => rfl
  | cons frame rest ih =>
    rw [stamps]
    by_cases haccepts : hub.accepts frame = true
    · rw [Hub.push_nvmm_rgba_buffer, if_pos haccepts, List.filter_cons_of_pos haccepts, ih]
      rfl
    · rw [Hub.push_nvmm_rgba_buffer, if_neg haccepts, List.filter_cons_of_neg haccepts, ih]
      rfl

theorem Hub.map_fst_assign_all (hub : Hub) (dur : ℕ) (times : List ℕ) :
    (hub.assign_all dur times).map Prod.fst = times := by
  induction times generalizing hub with
  | nil => rfl
  | cons now rest ih => rw [assign_all, List.map_cons, ih]

/-- The PTS values depend on the time origin and the last PTS only. -/
theorem Hub.assign_all_congr {hub hub' : Hub} (ht0 : hub.t0_ns_ = hub'.t0_ns_)
    (hlast : hub.last_pts_ = hub'.last_pts_) (dur : ℕ) (times : List ℕ) :
    hub.assign_all dur times = hub'.assign_all dur times := by
  induction times generalizing hub hub' with
  | nil => rfl
  | cons now rest ih =>
    have hpts : (hub.assign_pts dur now).2 = (hub'.assign_pts dur now).2 := by
      simp only [assign_pts, ht0, hlast]
    have hnext : (hub.assign_pts dur now).1.assign_all dur rest =
        (hub'.assign_pts dur now).1.assign_all dur rest :=
      ih (by simp only [assign_pts, ht0]) hpts
    rw [assign_all, assign_all, hpts, hnext]

theorem now_ns_mono_lt (ts : timespec) : now_ns_mono ts < 2 ^ 64 := by
  rw [now_ns_mono]
  omega

theorem Hub.assign_pts_lt (hub : Hub) (dur now : ℕ) : (hub.assign_pts dur now).2 < 2 ^ 64 := by
  have hwrap (n : ℕ) : wrap n < 2 ^ 64 := Nat.mod_lt _ (Nat.two_pow_pos 64)
  have hrounded (n : ℕ) : wrap n / dur * dur < 2 ^ 64 := (Nat.div_mul_le_self _ _).trans_lt (hwrap n)
  simp only [assign_pts]
  split_ifs with ht0 hbehind hbehind
  · exact hwrap _
  · exact hrounded _
  · exact hwrap _
  · exact hrounded _

theorem Hub.assign_all_lt {frame : ℕ × ℕ} (hframe : frame ∈ hub.assign_all dur times) :
    frame.2 < 2 ^ 64 := by
  induction times generalizing hub with
  | nil => cases hframe
  | cons now rest ih =>
    rcases List.mem_cons.mp hframe with rfl | hrest
    · exact hub.assign_pts_lt dur now
    · exact ih hrest

/-- With a time origin the PTS is the later of the rounded time and the next multiple of `dur`. -/
theorem Hub.assign_pts_eq_max {now : ℕ} (ht0 : hub.t0_ns_ ≠ 0) (hdvd : dur ∣ hub.last_pts_)
    (hclock : hub.t0_ns_ ≤ now) (hnow : now < 2 ^ 64) (hfits : hub.last_pts_ + dur < 2 ^ 64) :
    hub.assign_pts dur now = ({ hub with
      last_pts_ := max (hub.last_pts_ + dur) ((now - hub.t0_ns_) / dur * dur) },
      max (hub.last_pts_ + dur) ((now - hub.t0_ns_) / dur * dur)) := by
  have hraw : wrap (now + 2 ^ 64 - hub.t0_ns_) = now - hub.t0_ns_ := by
    rw [wrap]
    omega
  have hpts : (if (now - hub.t0_ns_) / dur * dur ≤ hub.last_pts_ then wrap (hub.last_pts_ + dur)
      else (now - hub.t0_ns_) / dur * dur) =
      max (hub.last_pts_ + dur) ((now - hub.t0_ns_) / dur * dur) := by
    by_cases hbehind : (now - hub.t0_ns_) / dur * dur ≤ hub.last_pts_
    · rw [if_pos hbehind, wrap_of_lt hfits, max_eq_left (by omega)]
    · have hstep := Nat.le_of_dvd (Nat.sub_pos_of_lt (Nat.lt_of_not_le hbehind))
        (Nat.dvd_sub (Nat.dvd_mul_left dur _) hdvd)
      rw [if_neg hbehind, max_eq_right (by omega)]
  simp only [assign_pts, if_neg ht0, hraw, hpts]

/-- One push moves every earlier candidate on by `dur`, and adds the time of its own. -/
theorem isGreatest_candidates_zero : IsGreatest (Candidates dur prev q 0) (max (prev + dur) (q 0)) := by
  constructor
  · rcases max_choice (prev + dur) (q 0) with hmax | hmax
    · exact .inl (by rw [hmax, zero_add, one_mul])
    · exact .inr ⟨0, le_rfl, by rw [hmax, zero_tsub, zero_mul, add_zero]⟩
  · rintro pts (rfl | ⟨i, hi, rfl⟩)
    · simp
    · simp [Nat.le_zero.mp hi]

/-- The first push of a sequence acts on the later ones only through the PTS that it was given. -/
theorem candidates_succ_subset :
    Candidates dur (max (prev + dur) (q 0)) (fun i => q (i + 1)) n ⊆ Candidates dur prev q (n + 1) := by
  rintro pts (rfl | ⟨i, hi, rfl⟩)
  · rcases max_choice (prev + dur) (q 0) with hmax | hmax
    · exact .inl (by rw [hmax]; ring)
    · exact .inr ⟨0, Nat.zero_le _, by rw [hmax, Nat.sub_zero]⟩
  · exact .inr ⟨i + 1, Nat.succ_le_succ hi, by rw [Nat.add_sub_add_right]⟩

theorem isGreatest_candidates_succ {pts : ℕ}
    (hgreatest : IsGreatest (Candidates dur (max (prev + dur) (q 0)) (fun i => q (i + 1)) n) pts) :
    IsGreatest (Candidates dur prev q (n + 1)) pts := by
  obtain ⟨hmem, hupper⟩ := hgreatest
  have hfirst : max (prev + dur) (q 0) + (n + 1) * dur ≤ pts := hupper (.inl rfl)
  refine ⟨candidates_succ_subset hmem, ?_⟩
  rintro pts' (rfl | ⟨i, hi, rfl⟩)
  · have hstep : (n + 1 + 1) * dur = dur + (n + 1) * dur := by ring
    have := le_max_left (prev + dur) (q 0)
    omega
  · cases i with
    | zero =>
      have := le_max_right (prev + dur) (q 0)
      rw [Nat.sub_zero]
      omega
    | succ i => exact hupper (.inr ⟨i, Nat.le_of_succ_le_succ hi, by rw [Nat.add_sub_add_right]⟩)

/-- The time since `t0`, rounded down, of each push. -/
def rounded_since (dur t0 : ℕ) (times : List ℕ) (i : ℕ) : ℕ := (times.getD i 0 - t0) / dur * dur

theorem Hub.assign_all_greatest (hub : Hub) (ht0 : hub.t0_ns_ ≠ 0) (hdvd : dur ∣ hub.last_pts_)
    (hclock : ∀ now ∈ times, hub.t0_ns_ ≤ now ∧ now < 2 ^ 64)
    (hfits : ∀ n < times.length, ∀ pts ∈ Candidates dur hub.last_pts_ (rounded_since dur hub.t0_ns_ times) n,
      pts < 2 ^ 64)
    {frame : ℕ × ℕ} (hframe : (hub.assign_all dur times)[n]? = some frame) :
    IsGreatest (Candidates dur hub.last_pts_ (rounded_since dur hub.t0_ns_ times) n) frame.2 := by
  induction times generalizing hub n with
  | nil => simp [assign_all] at hframe
  | cons now rest ih =>
    obtain ⟨hafter, hnow⟩ := hclock now List.mem_cons_self
    have hnext : hub.last_pts_ + dur < 2 ^ 64 :=
      hfits 0 (Nat.succ_pos _) _ (.inl (by rw [zero_add, one_mul]))
    have hassign := Hub.assign_pts_eq_max ht0 hdvd hafter hnow hnext
    rw [assign_all, hassign] at hframe
    cases n with
    | zero =>
      rw [List.getElem?_cons_zero, Option.some.injEq] at hframe
      subst hframe
      exact isGreatest_candidates_zero
    | succ n =>
      rw [List.getElem?_cons_succ] at hframe
      have hdvdNext : dur ∣ max (hub.last_pts_ + dur) ((now - hub.t0_ns_) / dur * dur) := by
        rcases max_choice (hub.last_pts_ + dur) ((now - hub.t0_ns_) / dur * dur) with hmax | hmax
        · rw [hmax]
          exact Nat.dvd_add hdvd dvd_rfl
        · rw [hmax]
          exact Nat.dvd_mul_left dur _
      exact isGreatest_candidates_succ (ih { hub with last_pts_ := _ } ht0 hdvdNext
        (fun later hlater => hclock later (List.mem_cons_of_mem _ hlater))
        (fun m hm pts hpts => hfits (m + 1) (Nat.succ_lt_succ hm) pts (candidates_succ_subset hpts)) hframe)

/-- The closed form gives the other parts of the law. -/
theorem PtsLaw.of_maximum {stamped : List (ℕ × ℕ)} (hdur : 0 < dur)
    (hmaximum : ∀ n frame, stamped[n]? = some frame →
      IsGreatest (Candidates dur 0 (rounded_elapsed dur (stamped.map Prod.fst)) n) frame.2) :
    PtsLaw dur stamped where
  maximum := hmaximum
  multiple frame hframe := by
    obtain ⟨n, hn⟩ := List.mem_iff_getElem?.mp hframe
    obtain ⟨hmem, hupper⟩ := hmaximum n frame hn
    have hfirst : 0 + (n + 1) * dur ≤ frame.2 := hupper (.inl rfl)
    refine ⟨lt_of_lt_of_le (by positivity) hfirst, ?_⟩
    rcases hmem with hpts | ⟨i, _, hpts⟩
    · exact hpts ▸ Nat.dvd_add (dvd_zero dur) (Nat.dvd_mul_left dur _)
    · exact hpts ▸ Nat.dvd_add (Nat.dvd_mul_left dur _) (Nat.dvd_mul_left dur _)
  increasing n frame next hframe hnext := by
    obtain ⟨hmem, -⟩ := hmaximum n frame hframe
    obtain ⟨-, hupper⟩ := hmaximum (n + 1) next hnext
    refine hupper ?_
    rcases hmem with hpts | ⟨i, hi, hpts⟩
    · exact .inl (by rw [hpts]; ring)
    · refine .inr ⟨i, hi.trans (Nat.le_succ n), ?_⟩
      rw [hpts, Nat.sub_add_comm hi, add_assoc, Nat.succ_mul]
  not_behind n frame hframe := (hmaximum n frame hframe).2 (.inr ⟨n, le_rfl, by simp⟩)

/-- The first push sets the time origin. -/
theorem Hub.assign_all_opening (hub : Hub) (ht0 : hub.t0_ns_ = 0) {now : ℕ} (hnow : now ≠ 0) (dur : ℕ)
    (rest : List ℕ) :
    hub.assign_all dur (now :: rest) =
      { hub with t0_ns_ := now, last_pts_ := 0 }.assign_all dur (now :: rest) := by
  have hassign : hub.assign_pts dur now = { hub with t0_ns_ := now, last_pts_ := 0 }.assign_pts dur now := by
    simp only [assign_pts, ht0, if_true, if_neg hnow]
  rw [assign_all, assign_all, hassign]

/-- The law at clock readings that do not go back, as long as the values it names fit in 64 bits. -/
theorem Hub.assign_all_pts_law (hdur : 0 < dur) (ht0 : hub.t0_ns_ = 0)
    (hclock : ∀ now ∈ times, 0 < now ∧ now < 2 ^ 64) (hsorted : times.Pairwise (· ≤ ·))
    (hfits : ∀ n < times.length, ∀ pts ∈ Candidates dur 0 (rounded_elapsed dur times) n, pts < 2 ^ 64) :
    PtsLaw dur (hub.assign_all dur times) := by
  refine PtsLaw.of_maximum hdur fun n frame hframe => ?_
  rw [map_fst_assign_all]
  cases times with
  | nil => simp [assign_all] at hframe
  | cons now rest =>
    have hnow : now ≠ 0 := (hclock now List.mem_cons_self).1.ne'
    rw [hub.assign_all_opening ht0 hnow] at hframe
    refine assign_all_greatest { hub with t0_ns_ := now, last_pts_ := 0 } hnow (dvd_zero dur)
      (fun later hlater => ⟨?_, (hclock later hlater).2⟩) hfits hframe
    rcases List.mem_cons.mp hlater with rfl | hrest
    · exact le_rfl
    · exact List.rel_of_pairwise_cons hsorted hrest

/-- A clock that counts nanoseconds from a time before the first push, and does not go back. -/
structure Monotonic (stamped : List (ℕ × ℕ)) : Prop where
  positive : ∀ now ∈ stamped.map Prod.fst, 0 < now
  sorted : (stamped.map Prod.fst).Pairwise (· ≤ ·)

/-- Every value that the law names is one that a PTS can have. -/
def Fits (dur : ℕ) (stamped : List (ℕ × ℕ)) : Prop :=
  ∀ n < stamped.length, ∀ pts ∈ Candidates dur 0 (rounded_elapsed dur (stamped.map Prod.fst)) n,
    pts < 2 ^ 64

variable {clock : timespec → ℕ} {frames : List Frame}

theorem stamps_pts_law (hlt : ∀ ts, clock ts < 2 ^ 64) (ht0 : hub.t0_ns_ = 0)
    (hclock : Monotonic (stamps (Hub.push_nvmm_rgba_buffer clock) clock hub frames))
    (hfits : Fits (frame_dur hub.fps.toNat) (stamps (Hub.push_nvmm_rgba_buffer clock) clock hub frames)) :
    PtsLaw (frame_dur hub.fps.toNat) (stamps (Hub.push_nvmm_rgba_buffer clock) clock hub frames) := by
  rw [stamps_eq_assign_all] at hclock hfits ⊢
  obtain ⟨hpositive, hsorted⟩ := hclock
  rw [Fits, ← List.length_map Prod.fst] at hfits
  rw [Hub.map_fst_assign_all] at hpositive hsorted hfits
  by_cases hdur : frame_dur hub.fps.toNat = 0
  · -- nothing is accepted
    have hnone : frames.filter hub.accepts = [] :=
      List.filter_eq_nil_iff.mpr fun frame _ => by simp [Hub.accepts, hdur]
    rw [hnone]
    exact ⟨fun n frame hframe => (Option.some_ne_none _ hframe.symm).elim,
      fun frame hframe => (List.not_mem_nil hframe).elim,
      fun n frame next hframe => (Option.some_ne_none _ hframe.symm).elim,
      fun n frame hframe => (Option.some_ne_none _ hframe.symm).elim⟩
  · refine Hub.assign_all_pts_law (Nat.pos_of_ne_zero hdur) ht0 (fun now hnow => ?_) hsorted hfits
    refine ⟨hpositive now hnow, ?_⟩
    obtain ⟨frame, -, rfl⟩ := List.mem_map.mp hnow
    exact hlt frame.ts

/-- The PTS values of a new hub depend on the frame rate and the clock readings only. -/
theorem stamps_eq_of_times {clock' : timespec → ℕ} {hub' : Hub} {frames' : List Frame}
    (ht0 : hub.t0_ns_ = 0) (ht0' : hub'.t0_ns_ = 0) (hfps : hub'.fps = hub.fps)
    (hpositive : ∀ now ∈ (stamps (Hub.push_nvmm_rgba_buffer clock) clock hub frames).map Prod.fst, 0 < now)
    (htimes : (stamps (Hub.push_nvmm_rgba_buffer clock') clock' hub' frames').map Prod.fst =
      (stamps (Hub.push_nvmm_rgba_buffer clock) clock hub frames).map Prod.fst) :
    stamps (Hub.push_nvmm_rgba_buffer clock') clock' hub' frames' =
      stamps (Hub.push_nvmm_rgba_buffer clock) clock hub frames := by
  rw [stamps_eq_assign_all, Hub.map_fst_assign_all] at hpositive
  simp only [stamps_eq_assign_all, Hub.map_fst_assign_all] at htimes ⊢
  rw [htimes, hfps]
  cases htaken : (frames.filter hub.accepts).map fun frame => clock frame.ts with
  | nil => rfl
  | cons now rest =>
    have hnow : now ≠ 0 := (hpositive now (by rw [htaken]; exact List.mem_cons_self)).ne'
    rw [hub.assign_all_opening ht0 hnow, hub'.assign_all_opening ht0' hnow]
    exact Hub.assign_all_congr (by rfl) (by rfl) _ _

/-- Both kinds of hub keep the law, from their start and for as long as the values it names fit in
64 bits; and, however long, they give the same PTS at the same clock readings. -/
theorem hub_pts_law (hub : Hub) (frames : List Frame) (ht0 : hub.t0_ns_ = 0)
    (hclock : Monotonic (H265Hub.stamps hub frames)) :
    (Fits (frame_dur hub.fps.toNat) (H265Hub.stamps hub frames) →
      PtsLaw (frame_dur hub.fps.toNat) (H265Hub.stamps hub frames) ∧
      PtsLaw (frame_dur hub.fps.toNat) (H264Hub.stamps hub frames)) ∧
    ∀ (hub264 : Hub) (frames264 : List Frame), hub264.t0_ns_ = 0 → hub264.fps = hub.fps →
      (H264Hub.stamps hub264 frames264).map Prod.fst = (H265Hub.stamps hub frames).map Prod.fst →
      H264Hub.stamps hub264 frames264 = H265Hub.stamps hub frames := by
  refine ⟨fun hfits => ?_, fun hub264 frames264 ht0' hfps htimes => ?_⟩
  · have hlaw := stamps_pts_law now_ns_mono_lt ht0 hclock hfits
    exact ⟨hlaw, hlaw⟩
  · exact stamps_eq_of_times ht0 ht0' hfps hclock.positive htimes

/-- The values fit while the time since the first push, and a `dur` for each push, are short of
`2 ^ 64`. -/
theorem fits_of_elapsed {stamped : List (ℕ × ℕ)}
    (helapsed : ∀ frame ∈ stamped,
      frame.1 - (stamped.map Prod.fst).headD 0 + stamped.length * dur < 2 ^ 64) : Fits dur stamped := by
  intro n hn pts hpts
  have hdur : (n + 1) * dur ≤ stamped.length * dur := Nat.mul_le_mul_right dur hn
  rcases hpts with rfl | ⟨i, hi, rfl⟩
  · have := helapsed _ (List.getElem_mem hn)
    omega
  · have hlong : i < stamped.length := hi.trans_lt hn
    have hget : (stamped.map Prod.fst).getD i 0 = stamped[i].1 := by simp [hlong]
    have hround := Nat.div_mul_le_self ((stamped.map Prod.fst).getD i 0 - (stamped.map Prod.fst).headD 0) dur
    have hlater : (n - i) * dur ≤ (n + 1) * dur := Nat.mul_le_mul_right dur (by omega)
    have := helapsed _ (List.getElem_mem hlong)
    rw [rounded_elapsed]
    rw [hget] at hround ⊢
    omega

theorem Hub.length_assign_all (hub : Hub) (dur : ℕ) (times : List ℕ) :
    (hub.assign_all dur times).length = times.length := by
  rw [← List.length_map Prod.fst, map_fst_assign_all]

/-- More pushes than there are multiples of `dur` below `2 ^ 64` break the law. -/
theorem Hub.not_ptsLaw_of_length (hlong : 2 ^ 64 ≤ times.length * dur) :
    ¬ PtsLaw dur (hub.assign_all dur times) := by
  intro hlaw
  have hpos : 0 < times.length := Nat.pos_of_mul_pos_right (lt_of_lt_of_le (Nat.two_pow_pos 64) hlong)
  have hlast : times.length - 1 < (hub.assign_all dur times).length := by
    rw [length_assign_all]
    omega
  have hframe := List.getElem?_eq_getElem hlast
  have hge := (hlaw.maximum _ _ hframe).2 (.inl rfl)
  have hlt := assign_all_lt (List.getElem_mem hlast)
  rw [Nat.sub_add_cancel hpos] at hge
  omega

/-- A hub of one frame each second that gets more than 2 ^ 64 / 10 ^ 9 frames at one clock reading. -/
theorem hub_pts_law_overflow :
    ¬ ∀ (hub : Hub) (frames : List Frame), hub.t0_ns_ = 0 → hub.last_pts_ = 0 → 1 ≤ hub.fps →
      Monotonic (H265Hub.stamps hub frames) →
      PtsLaw (frame_dur hub.fps.toNat) (H265Hub.stamps hub frames) := by
  intro hclaim
  let hub : Hub := ⟨true, true, true, 1920, 1080, 1, 0, 0⟩
  let frame : Frame := ⟨true, ⟨1, 0⟩, .playing, true⟩
  have hdur : frame_dur hub.fps.toNat = 1000000000 := by decide
  have hstamps (count : ℕ) : H265Hub.stamps hub (List.replicate count frame) =
      hub.assign_all 1000000000 (List.replicate count 1000000000) := by
    refine (stamps_eq_assign_all _ _ _).trans ?_
    have hnow : now_ns_mono frame.ts = 1000000000 := by decide
    rw [List.filter_replicate_of_pos (by decide), List.map_replicate, hdur, hnow]
  have hclock (count : ℕ) : Monotonic (H265Hub.stamps hub (List.replicate count frame)) := by
    rw [hstamps]
    constructor
    · rw [Hub.map_fst_assign_all]
      intro now hnow
      rw [List.eq_of_mem_replicate hnow]
      norm_num
    · rw [Hub.map_fst_assign_all]
      exact List.pairwise_replicate.mpr (.inr le_rfl)
  have hlaw := hclaim hub _ rfl rfl (by decide) (hclock 18446744074)
  rw [hstamps, hdur] at hlaw
  refine Hub.not_ptsLaw_of_length ?_ hlaw
  rw [List.length_replicate]
  norm_num

/-- Two frames of a stream at 30 frames per second. -/
theorem hub_pts_law_two_frames :
    PtsLaw (frame_dur 30) (H265Hub.stamps ⟨true, true, true, 1920, 1080, 30, 0, 0⟩
      [⟨true, ⟨1, 0⟩, .playing, true⟩, ⟨true, ⟨1, 10000000⟩, .playing, true⟩]) := by
  have hclock : Monotonic (H265Hub.stamps ⟨true, true, true, 1920, 1080, 30, 0, 0⟩
      [⟨true, ⟨1, 0⟩, .playing, true⟩, ⟨true, ⟨1, 10000000⟩, .playing, true⟩]) := ⟨by decide, by decide⟩
  exact ((hub_pts_law _ _ rfl hclock).1 (fits_of_elapsed (by decide))).1

end k180.h265_hub
