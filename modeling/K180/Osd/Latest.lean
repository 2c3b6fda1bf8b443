import K180.Libc.Math

open libc

namespace k180.osd

variable {D : Type*}

/-- An array of detections with its length, as it is passed: `none` is a null pointer. -/
structure DetArray (D : Type*) where
  det : Option (List D)
  count : ℤ
  readable : ∀ dets ∈ det, count ≤ dets.length

/-- The detections of an update that has some. -/
def DetArray.dets (a : DetArray D) : Option (List D) :=
  if 0 < a.count then a.det.map (List.take a.count.toNat) else none

/-- The fields of `OsdShared` that belong to the latest result of one path, and its policy for empty results. -/
structure LatestResult (D : Type*) where
  det_host : List D
  det_count : ℤ
  frame_seq : ℕ
  valid : Bool
  empty_streak : ℤ
  max_fallback_frames : ℤ
  clear_after_empty : ℤ

/-- What a copy fills in; `none` where no result number is asked for. -/
structure CopyOut (D : Type*) where
  out : List D
  out_result_seq : Option ℕ

section Path

variable [Inhabited D]

/-- `std::vector::resize` -/
def resize (v : List D) (n : ℕ) : List D := v.take n ++ List.replicate (n - v.length) default

/-- `latest_max_fallback_frames` and `latest_track_max_fallback_frames`, which nothing changes. -/
def latest_max_fallback_frames : ℕ := 2

/-- `latest_clear_after_empty` and `latest_track_clear_after_empty`, which nothing changes. -/
def latest_clear_after_empty : ℕ := 2

def LatestResult.initial (max_det : ℕ) : LatestResult D where
  det_host := resize [] max_det
  det_count := 0
  frame_seq := 0
  valid := false
  empty_streak := 0
  max_fallback_frames := latest_max_fallback_frames
  clear_after_empty := latest_clear_after_empty

/-- An update with an empty result. The streak is an `int`. -/
def LatestResult.update_empty (latest : LatestResult D) (frame_seq : ℕ) : LatestResult D :=
  let empty_streak := int_cast (latest.empty_streak + 1)
  if latest.clear_after_empty ≤ empty_streak then
    { latest with empty_streak, valid := false, det_count := 0, frame_seq }
  else { latest with empty_streak }

/-- The text that `osd_update_latest_result` and `osd_update_latest_track_result` have in common. -/
def LatestResult.update (latest : LatestResult D) (frame_seq : ℕ) (a : DetArray D) : LatestResult D :=
  match a.det with
  | some det =>
    if 0 < a.count then
      let count := a.count.toNat
      let host := if latest.det_host.length < count then resize latest.det_host count else latest.det_host
      { latest with
        det_host := det.take count ++ host.drop count
        det_count := a.count
        frame_seq
        valid := true
        empty_streak := 0 }
    else latest.update_empty frame_seq
  | none => latest.update_empty frame_seq

/-- The text that the two copies have in common; the numbers of the frames are compared as `uint64_t`. -/
def LatestResult.copy (latest : LatestResult D) (frame_seq : ℕ) (o : CopyOut D) : Bool × CopyOut D :=
  if latest.valid = false then (false, o)
  else if latest.det_count ≤ 0 then (false, o)
  else if latest.frame_seq = 0 then (false, o)
  else if frame_seq < latest.frame_seq then (false, o)
  else if latest.frame_seq < frame_seq ∧
      (latest.max_fallback_frames % 2 ^ 64).toNat < frame_seq - latest.frame_seq then (false, o)
  else
    (true, {
      out := latest.det_host.take latest.det_count.toNat
      out_result_seq := o.out_result_seq.map fun _ => latest.frame_seq })

def LatestResult.clear (latest : LatestResult D) : LatestResult D :=
  { latest with valid := false, det_count := 0, frame_seq := 0, empty_streak := 0, det_host := [] }

/-- The latest results of the two paths. Each call holds the mutex of its path. -/
structure OsdShared (D : Type*) where
  latest : LatestResult D
  latest_track : LatestResult D

/-- After `osd_init_slots`. -/
def OsdShared.initial (max_det : ℕ) : OsdShared D where
  latest := .initial max_det
  latest_track := .initial max_det

def osd_update_latest_result (shared : OsdShared D) (frame_seq : ℕ) (a : DetArray D) : OsdShared D :=
  { shared with latest := shared.latest.update frame_seq a }

def osd_copy_latest_result (shared : OsdShared D) (frame_seq : ℕ) (o : CopyOut D) : Bool × CopyOut D :=
  shared.latest.copy frame_seq o

def osd_clear_latest_det (shared : OsdShared D) : OsdShared D :=
  { shared with latest := shared.latest.clear }

def osd_update_latest_track_result (shared : OsdShared D) (frame_seq : ℕ) (a : DetArray D) : OsdShared D :=
  { shared with latest_track := shared.latest_track.update frame_seq a }

def osd_copy_latest_track_result (shared : OsdShared D) (frame_seq : ℕ) (o : CopyOut D) : Bool × CopyOut D :=
  shared.latest_track.copy frame_seq o

def osd_clear_latest_track_det (shared : OsdShared D) : OsdShared D :=
  { shared with latest_track := shared.latest_track.clear }

/-- A call that changes the latest result of a path. -/
inductive LatestOp (D : Type*) where
  | update (frame_seq : ℕ) (a : DetArray D)
  | clear

/-- A call on one of the paths; a copy changes nothing. -/
inductive LatestCall (D : Type*) where
  | detect (op : LatestOp D)
  | track (op : LatestOp D)
  | copy_detect (frame_seq : ℕ)
  | copy_track (frame_seq : ℕ)

def OsdShared.call (shared : OsdShared D) : LatestCall D → OsdShared D
  | .detect (.update frame_seq a) => osd_update_latest_result shared frame_seq a
  | .detect .clear => osd_clear_latest_det shared
  | .track (.update frame_seq a) => osd_update_latest_track_result shared frame_seq a
  | .track .clear => osd_clear_latest_track_det shared
  | .copy_detect _ | .copy_track _ => shared

def LatestResult.op (latest : LatestResult D) : LatestOp D → LatestResult D
  | .update frame_seq a => latest.update frame_seq a
  | .clear => latest.clear

end Path

def LatestCall.detect_op : LatestCall D → Option (LatestOp D)
  | .detect op => some op
  | _ => none

def LatestCall.track_op : LatestCall D → Option (LatestOp D)
  | .track op => some op
  | _ => none

/-- The fact about the past of a path that its fields encode: the last non-empty result since the last clear,
and how many empty ones have followed it. -/
structure Fact (D : Type*) where
  frame_seq : ℕ
  dets : List D
  empties : ℕ

def Fact.op (fact : Option (Fact D)) : LatestOp D → Option (Fact D)
  | .update frame_seq a =>
    match a.dets with
    | some dets => some ⟨frame_seq, dets, 0⟩
    | none => fact.map fun f => { f with empties := f.empties + 1 }
  | .clear => none

end k180.osd
