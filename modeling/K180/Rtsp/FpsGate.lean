import K180.Schedule.Run

namespace k180.h265_hub

/-- Arithmetic on `uint64_t`. -/
def wrap (n : ℕ) : ℕ := n % 2 ^ 64

/-- `period_ns` of the gate. -/
def period_ns (fps : ℕ) : ℕ := 1000000000 / fps

/-- `dur` of the hub: `gst_util_uint64_scale_int(1, GST_SECOND, fps)`. -/
def frame_dur (fps : ℕ) : ℕ := 1 * 1000000000 / fps

/-- The access that the capture thread makes next, with what it has loaded: between two frames, in
`StreamFpsGate::allow`, or on its way into the hub. -/
inductive Capture where
  | idle
  | load_last
  | store_last_open
  | store_credit_open
  | load_credit (last : ℕ)
  | store_last (credit : ℕ)
  | store_credit (credit : ℕ)
  | push
deriving DecidableEq

/-- The gate and the hub of a stream. `now_ns` is the time that its capture thread has read last;
`resetting` and `counting` are the calls of `viewer_inc` that still have to clear the credit, and to
count their viewer; `stamped` has the time and the PTS of each frame that was pushed. -/
structure StreamState where
  last_ns : ℕ
  credit_ns : ℕ
  t0_ns : ℕ
  last_pts : ℕ
  viewers : ℕ
  record_enabled : Bool
  now_ns : ℕ
  capture : Capture
  resetting : ℕ
  counting : ℕ
  stamped : List (ℕ × ℕ)

/-- A stream after `set_h265_fps` and the start of its hub. -/
def stream_start (record_enabled : Bool) : StreamState where
  last_ns := 0
  credit_ns := 0
  t0_ns := 0
  last_pts := 0
  viewers := 0
  record_enabled := record_enabled
  now_ns := 0
  capture := .idle
  resetting := 0
  counting := 0
  stamped := []

def want_push (s : StreamState) : Bool := decide (0 < s.viewers) || s.record_enabled

/-- The three stores of `viewer_inc`, the CAS of `viewer_dec`, a new frame with the time at which its
gate check starts, the next access of `allow`, and the push. A frame is not stamped when its copy
failed or the pipeline is not `ready`. -/
inductive StreamAction where
  | reset_last
  | reset_credit
  | count_viewer
  | viewer_dec
  | frame (now : ℕ)
  | allow
  | push (now : ℕ) (ready : Bool)

/-- The next access of `StreamFpsGate::allow`. -/
def allow_step (fps : ℕ) (s : StreamState) : Option StreamState :=
  match s.capture with
  | .load_last =>
    if fps = 0 then some { s with capture := .idle }
    else if 60 ≤ fps then some { s with capture := .push }
    else if s.last_ns = 0 ∨ s.now_ns < s.last_ns then some { s with capture := .store_last_open }
    else some { s with capture := .load_credit s.last_ns }
  | .store_last_open => some { s with last_ns := s.now_ns, capture := .store_credit_open }
  | .store_credit_open => some { s with credit_ns := period_ns fps, capture := .push }
  | .load_credit last =>
    let credit := wrap (s.credit_ns + (s.now_ns - last))
    some { s with capture := .store_last credit }
  | .store_last credit =>
    let max_credit := period_ns fps * 2
    some { s with last_ns := s.now_ns, capture := .store_credit (min credit max_credit) }
  | .store_credit credit =>
    if period_ns fps ≤ credit then some { s with credit_ns := credit - period_ns fps, capture := .push }
    else some { s with credit_ns := credit, capture := .idle }
  | _ => none

/-- The part of `push_nvmm_rgba_buffer` that chooses the PTS. -/
def stamp (fps : ℕ) (s : StreamState) (now : ℕ) : StreamState :=
  let dur := frame_dur fps
  let t0 := if s.t0_ns = 0 then now else s.t0_ns
  let prev := if s.t0_ns = 0 then 0 else s.last_pts
  let raw := wrap (now + 2 ^ 64 - t0)
  let q := raw / dur * dur
  let pts := if q ≤ prev then wrap (prev + dur) else q
  { s with t0_ns := t0, last_pts := pts, stamped := s.stamped ++ [(now, pts)] }

/-- One access; `none` where it is not possible. The clock does not go back, and counts nanoseconds in
a signed 64-bit integer. -/
def stream_step (fps : ℕ) (s : StreamState) : StreamAction → Option StreamState
  | .reset_last => some { s with last_ns := 0, resetting := s.resetting + 1 }
  | .reset_credit =>
    if s.resetting = 0 then none
    else some { s with credit_ns := 0, resetting := s.resetting - 1, counting := s.counting + 1 }
  | .count_viewer =>
    if s.counting = 0 then none
    else some { s with viewers := s.viewers + 1, counting := s.counting - 1 }
  | .viewer_dec => some { s with viewers := s.viewers - 1 }
  | .frame now =>
    if s.capture = .idle ∧ s.now_ns ≤ now ∧ now < 2 ^ 63 then
      some { s with now_ns := now, capture := if want_push s then .load_last else .idle }
    else none
  | .allow => allow_step fps s
  | .push now ready =>
    if s.capture = .push ∧ s.now_ns ≤ now ∧ now < 2 ^ 63 then
      let s' := { s with now_ns := now, capture := .idle }
      some (if ready = true ∧ frame_dur fps ≠ 0 then stamp fps s' now else s')
    else none

/-- `viewer_inc` with no other access in between. -/
def viewer_inc : List StreamAction := [.reset_last, .reset_credit, .count_viewer]

/-- A frame that finds the gate reset, with no other access in between. -/
def opening_frame (checked pushed : ℕ) : List StreamAction :=
  [.frame checked, .allow, .allow, .allow, .push pushed true]

/-- No PTS is more than three frame durations ahead of the time since the first push. -/
def NotAhead (fps : ℕ) (stamped : List (ℕ × ℕ)) : Prop :=
  ∀ first ∈ stamped.head?, ∀ frame ∈ stamped, frame.2 + first.1 ≤ frame.1 + 3 * frame_dur fps

/-- Whenever a check finds the gate reset, the last PTS is at most one frame duration ahead. -/
def OpensInTime (fps : ℕ) (s : StreamState) (action : StreamAction) : Prop :=
  match action with
  | .allow =>
    s.capture = .load_last → s.last_ns = 0 → s.last_pts + s.t0_ns ≤ s.now_ns + frame_dur fps
  | _ => True

instance (fps : ℕ) (stamped : List (ℕ × ℕ)) : Decidable (NotAhead fps stamped) :=
  inferInstanceAs (Decidable (∀ first ∈ stamped.head?, ∀ frame ∈ stamped, _ ≤ _))

instance (fps : ℕ) (s : StreamState) : (action : StreamAction) → Decidable (OpensInTime fps s action)
  | .allow => inferInstanceAs (Decidable (_ → _ → _ ≤ _))
  | .reset_last | .reset_credit | .count_viewer | .viewer_dec | .frame _ | .push _ _ => isTrue trivial

end k180.h265_hub
