import Mathlib

namespace k180.tracking

/-- `bbox` of a detection and `tlwh` of a track: left, top, width and height. -/
structure Tlwh where
  left : ℚ
  top : ℚ
  width : ℚ
  height : ℚ
deriving DecidableEq

structure Detection where
  bbox : Tlwh
  conf : ℚ
  class_id : ℚ
deriving DecidableEq

/-- What the table reads of a track of the tracker. -/
structure STrack where
  track_id : ℤ
  tlwh : Tlwh
  score : ℚ
deriving DecidableEq

structure TrackerInfo where
  track_id : ℤ
  velocity : ℚ × ℚ
  age : ℚ
  checked : Bool
  lost_count : ℤ
  tlwh : Tlwh

structure ObjectTrackData where
  det : Detection
  tracker : TrackerInfo

/-- An `unordered_map` from track ids. -/
abbrev TrackTable := ℤ → Option ObjectTrackData

def IoU_tlwh_vs_tlwh (a b : Tlwh) : ℚ :=
  let ax2 := a.left + a.width
  let ay2 := a.top + a.height
  let bx2 := b.left + b.width
  let by2 := b.top + b.height
  let xx1 := max a.left b.left
  let yy1 := max a.top b.top
  let xx2 := min ax2 bx2
  let yy2 := min ay2 by2
  let inter := max 0 (xx2 - xx1) * max 0 (yy2 - yy1)
  let areaA := (ax2 - a.left) * (ay2 - a.top)
  let areaB := (bx2 - b.left) * (by2 - b.top)
  let uni := areaA + areaB - inter
  if 0 < uni then inter / uni else 0

def IoU_tlwh_vs_bbox (tlwh : Tlwh) (det : Detection) : ℚ := IoU_tlwh_vs_tlwh tlwh det.bbox

def make_detection_from_track (track : STrack) : Detection where
  bbox := track.tlwh
  conf := track.score
  class_id := 0

def IOU_THRESHOLD : ℚ := 3 / 10

def MAX_LOST : ℤ := 5

/-- The loop over the detections from index `i` on: the first unused one of the largest IoU above
`best_iou`. -/
def best_match (track : STrack) (res_used : ℕ → Bool) :
    List Detection → ℕ → Option ℕ × ℚ → Option ℕ × ℚ
  | [], _, best => best
  | det :: rest, i, best =>
    if res_used i = true then best_match track res_used rest (i + 1) best
    else
      let iou := IoU_tlwh_vs_bbox track.tlwh det
      best_match track res_used rest (i + 1) (if best.2 < iou then (some i, iou) else best)

/-- The detection that a track is given, if one overlaps it enough; both branches of the loop over the
tracks have this text. -/
def match_track (res : List Detection) (res_used : ℕ → Bool) (track : STrack) : Option ℕ :=
  let best := best_match track res_used res 0 (none, 0)
  if IOU_THRESHOLD ≤ best.2 then best.1 else none

/-- The entry of a track, from its entry in the snapshot if it has one. -/
def track_object (prev_tracks : TrackTable) (track : STrack) (det : Detection) : ObjectTrackData :=
  match prev_tracks track.track_id with
  | some obj =>
    { det
      tracker := { obj.tracker with
        tlwh := track.tlwh, age := obj.tracker.age + 1, checked := true, lost_count := 0,
        velocity := (track.tlwh.left - obj.tracker.tlwh.left, track.tlwh.top - obj.tracker.tlwh.top) } }
  | none =>
    { det
      tracker := {
        track_id := track.track_id, age := 1, checked := true, velocity := (0, 0), lost_count := 0,
        tlwh := track.tlwh } }

/-- `res[best_idx]`, or the box of the track itself. -/
def assigned_detection (res : List Detection) (track : STrack) (best_idx : Option ℕ) : Detection :=
  (best_idx.bind fun i => res[i]?).getD (make_detection_from_track track)

/-- `res_used[best_idx] = 1`, where there is a match. -/
def mark_used (res_used : ℕ → Bool) : Option ℕ → ℕ → Bool
  | some i => Function.update res_used i true
  | none => res_used

/-- `res_used` and `updated_tracks` in the loop over the tracks. -/
structure Building where
  res_used : ℕ → Bool
  updated_tracks : TrackTable

def build_track (prev_tracks : TrackTable) (res : List Detection) (b : Building) (track : STrack) :
    Building :=
  let best_idx := match_track res b.res_used track
  let obj := track_object prev_tracks track (assigned_detection res track best_idx)
  { res_used := mark_used b.res_used best_idx
    updated_tracks := Function.update b.updated_tracks track.track_id (some obj) }

def mark_unchecked (g_tracks_by_id : TrackTable) : TrackTable := fun id =>
  (g_tracks_by_id id).map fun obj => { obj with tracker := { obj.tracker with checked := false } }

def apply_updates (updated_tracks g_tracks_by_id : TrackTable) : TrackTable := fun id =>
  match updated_tracks id with
  | some obj => some obj
  | none => g_tracks_by_id id

/-- The pass over the entries that were not updated, and the removal of those lost too long. -/
def age_lost (g_tracks_by_id : TrackTable) : TrackTable :=
  let aged : TrackTable := fun id => (g_tracks_by_id id).map fun obj =>
    if obj.tracker.checked = true then obj
    else { obj with tracker := { obj.tracker with lost_count := obj.tracker.lost_count + 1 } }
  let to_remove : ℤ → Bool := fun id =>
    (aged id).any fun obj => !obj.tracker.checked && decide (MAX_LOST < obj.tracker.lost_count)
  fun id => if to_remove id = true then none else aged id

/-- The arguments of a call. -/
structure Call where
  res : List Detection
  output_tracks : List STrack

/-- The loop that looks for unmatched detections keeps none of them. -/
def updateTrackTable (call : Call) (g_tracks_by_id : TrackTable) : TrackTable :=
  let prev_tracks := g_tracks_by_id
  let built := call.output_tracks.foldl (build_track prev_tracks call.res)
    ⟨fun _ => false, fun _ => none⟩
  age_lost (apply_updates built.updated_tracks (mark_unchecked g_tracks_by_id))

/-- The table after these calls, the newest first. -/
def g_tracks_by_id (history : List Call) : TrackTable := history.foldr updateTrackTable fun _ => none

def Call.ids (call : Call) : List ℤ := call.output_tracks.map STrack.track_id

/-- Which detection each track of a call is given, in the order of the tracks. -/
def assignments (res : List Detection) : (ℕ → Bool) → List STrack → List (Option ℕ)
  | _, [] => []
  | res_used, track :: rest =>
    let best_idx := match_track res res_used track
    best_idx :: assignments res (mark_used res_used best_idx) rest

end k180.tracking
