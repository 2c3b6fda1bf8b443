import K180.InferPool.Slots
import K180.Rtsp.StreamKey
import K180.WarpPool.Streams

open schedule

namespace k180.frames

open infer_pool (InferJob infer_pool_size)
open stage_queue (StageQueue)
open warp_pool (Camera cameras)

/-- A buffer for a hub, with the number in its frame tag, unless the tag could not be added. -/
structure Outbuf where
  frame_tag : Option ℕ

/-- `capture_thread` of a camera: it waits for a sample, has a frame with its number, or has to signal. -/
inductive Capture where
  | waiting
  | numbered (seq : ℕ)
  | signalling
  | exited

/-- `thread_blender_apply`, with the numbers of the frames in `cur`, and from `detect` on with that of `cur[0]`. -/
inductive Apply where
  | warm_up
  | head
  | wait_all
  | pop (rest : List Camera) (cur : Camera → Option ℕ)
  | take_blender (cur : Camera → Option ℕ)
  | detect (frame_seq : ℕ)
  | submit (slot_idx frame_seq : ℕ)
  | make_s1 (frame_seq : ℕ)
  | make_s2 (out_s1 : Option Outbuf) (frame_seq : ℕ)
  | push_s1 (out_s1 out_s2 : Option Outbuf)
  | push_s2 (out_s2 : Option Outbuf)
  | exited

/-- What `thread_infer_worker` does with the detections of a job, in this order: it publishes them, hands them to
the tracker, and publishes the tracks. -/
inductive Stage where
  | detections
  | tracker
  | tracks
deriving DecidableEq

inductive Worker where
  | head
  | popping
  | popped (job : InferJob)
  | inferred (stage : Stage) (job : InferJob)
  | exited

/-- `panoramas` has the frames of each panorama blended so far, `pushed` the buffers handed to the hub of a group, and
`results` the numbers of the frames for which a stage of the worker has run. -/
structure State where
  seq : Camera → ℕ
  capture : Camera → Capture
  q_blend : Camera → StageQueue ℕ
  signalled : Camera → Bool
  gain_epoch : ℕ
  apply : Apply
  infer_q : StageQueue InferJob
  worker : Worker
  running : Bool
  pipeline_sync_stop : Bool
  panoramas : List (Camera → ℕ)
  pushed : StreamGroup → List Outbuf
  results : Stage → List ℕ

def start : State where
  seq _ := 0
  capture _ := .waiting
  q_blend _ := .init 1
  signalled _ := false
  gain_epoch := 0
  apply := .warm_up
  infer_q := .init infer_pool_size
  worker := .head
  running := true
  pipeline_sync_stop := false
  panoramas := []
  pushed _ := []
  results _ := []

/-- The next step of a thread, with the outcome of what it calls, or one of `shutdown_all`. -/
inductive Action where
  | pull (c : Camera)
  | warp (c : Camera) (ok : Bool)
  | signal (c : Camera)
  | end_capture (c : Camera)
  | gains
  | apply
  | take_blender (available : Bool)
  | detect (slot_idx : Option ℕ)
  | make_outbuf (made : Option Bool)
  | worker
  | synchronize (ok : Bool)
  | stage (enabled : Bool)
  | sync_stop
  | stop
  | close_blend (c : Camera)
  | close_infer

def State.to_capture (s : State) (c : Camera) (phase : Capture) : State :=
  { s with capture := Function.update s.capture c phase }

@[simp] theorem State.capture_to_capture (s : State) (c : Camera) (phase : Capture) :
    (s.to_capture c phase).capture = Function.update s.capture c phase := rfl

def State.to_blend (s : State) (c : Camera) (queue : StageQueue ℕ) : State :=
  { s with q_blend := Function.update s.q_blend c queue }

def pull_step (s : State) (c : Camera) : Option State :=
  match s.capture c with
  | .waiting => some ({ s with seq := Function.update s.seq c (s.seq c + 1) }.to_capture c (.numbered (s.seq c + 1)))
  | _ => none

/-- A frame that cannot be wrapped, or for which the pool has no slot, is dropped with its number. -/
def warp_step (s : State) (c : Camera) (ok : Bool) : Option State :=
  match s.capture c with
  | .numbered seq =>
    if ok then some ((s.to_blend c ((s.q_blend c).try_push seq).1).to_capture c .signalling)
    else some (s.to_capture c .waiting)
  | _ => none

def signal_step (s : State) (c : Camera) : Option State :=
  match s.capture c with
  | .signalling => some ({ s with signalled := Function.update s.signalled c true }.to_capture c .waiting)
  | _ => none

def end_capture_step (s : State) (c : Camera) : Option State :=
  match s.capture c with
  | .waiting => if s.running = false ∨ s.pipeline_sync_stop = true then some (s.to_capture c .exited) else none
  | _ => none

/-- `wait_all` takes the mask back, unless it returns because of the stop flag. -/
def wait_all_step (s : State) : Option State :=
  if s.pipeline_sync_stop then some { s with apply := .exited }
  else if ∀ c ∈ cameras, s.signalled c then
    some { s with signalled := fun _ => false, apply := .pop cameras fun _ => none }
  else none

/-- `if (q->try_pop_latest(tmp)) { cur[c] = tmp; }` -/
def pop_step (s : State) (c : Camera) (rest : List Camera) (cur : Camera → Option ℕ) : State :=
  let (queue, effect) := (s.q_blend c).try_pop_latest
  { s.to_blend c queue with apply := .pop rest (Function.update cur c (effect.handed <|> cur c)) }

def State.push (s : State) (g : StreamGroup) (out : Option Outbuf) : State :=
  { s with pushed := Function.update s.pushed g (s.pushed g ++ out.toList) }

def apply_step (s : State) : Option State :=
  match s.apply with
  | .warm_up => if s.running = true ∧ s.gain_epoch = 0 then none else some { s with apply := .head }
  | .head => some { s with apply := if s.running then .wait_all else .exited }
  | .wait_all => wait_all_step s
  | .pop [] cur => some { s with apply := .take_blender cur }
  | .pop (c :: rest) cur => some (pop_step s c rest cur)
  | .submit slot_idx frame_seq =>
    some { s with infer_q := (s.infer_q.try_push ⟨slot_idx, frame_seq⟩).1, apply := .make_s1 frame_seq }
  | .push_s1 out_s1 out_s2 => some { s.push .S1 out_s1 with apply := .push_s2 out_s2 }
  | .push_s2 out_s2 => some { s.push .S2 out_s2 with apply := .head }
  | .take_blender _ | .detect _ | .make_s1 _ | .make_s2 _ _ | .exited => none

/-- The iteration ends here unless all four cameras have a frame and there is a blender. -/
def take_blender_step (s : State) (available : Bool) : Option State :=
  match s.apply with
  | .take_blender cur =>
    if (∀ c ∈ cameras, cur c ≠ none) ∧ available = true then
      some { s with
        panoramas := s.panoramas ++ [fun c => (cur c).getD 0]
        apply := .detect ((cur .cam0).getD 0) }
    else some { s with apply := .head }
  | _ => none

/-- If the detector is to run, and there is a free slot, the panorama is copied there. -/
def detect_step (s : State) (slot_idx : Option ℕ) : Option State :=
  match s.apply with
  | .detect frame_seq => some { s with apply := slot_idx.elim (.make_s1 frame_seq) fun i => .submit i frame_seq }
  | _ => none

/-- `make_v1234_outbuf` as it is called when the hub wants a frame, by whether there is a buffer, and it gets a tag. -/
def make_v1234_outbuf (frame_seq : ℕ) (made : Option Bool) : Option Outbuf :=
  made.map fun tagged => ⟨if tagged then some frame_seq else none⟩

def make_outbuf_step (s : State) (made : Option Bool) : Option State :=
  match s.apply with
  | .make_s1 frame_seq => some { s with apply := .make_s2 (make_v1234_outbuf frame_seq made) frame_seq }
  | .make_s2 out_s1 frame_seq => some { s with apply := .push_s1 out_s1 (make_v1234_outbuf frame_seq made) }
  | _ => none

def worker_step (s : State) : Option State :=
  match s.worker with
  | .head => some { s with worker := if s.running then .popping else .exited }
  | .popping => s.infer_q.pop.map fun (infer_q, effect) =>
    { s with infer_q, worker := effect.handed.elim .exited .popped }
  | _ => none

def synchronize_step (s : State) (ok : Bool) : Option State :=
  match s.worker with
  | .popped job =>
    if job.slot_idx < 0 ∨ infer_pool_size ≤ job.slot_idx then some { s with worker := .head }
    else some { s with worker := if ok then .inferred .detections job else .head }
  | _ => none

def State.result (s : State) (stage : Stage) (frame_seq : ℕ) : State :=
  { s with results := Function.update s.results stage (s.results stage ++ [frame_seq]) }

/-- What follows a stage, by whether the mode of the AI runtime has let it run. -/
def Worker.next (job : InferJob) : Stage → Bool → Worker
  | .detections, _ => .inferred .tracker job
  | .tracker, true => .inferred .tracks job
  | .tracker, false | .tracks, _ => .head

def stage_step (s : State) (enabled : Bool) : Option State :=
  match s.worker with
  | .inferred stage job =>
    some { if enabled then s.result stage job.frame_seq else s with worker := Worker.next job stage enabled }
  | _ => none

def step (s : State) : Action → Option State
  | .pull c => pull_step s c
  | .warp c ok => warp_step s c ok
  | .signal c => signal_step s c
  | .end_capture c => end_capture_step s c
  | .gains => some { s with gain_epoch := s.gain_epoch + 1 }
  | .apply => apply_step s
  | .take_blender available => take_blender_step s available
  | .detect slot_idx => detect_step s slot_idx
  | .make_outbuf made => make_outbuf_step s made
  | .worker => worker_step s
  | .synchronize ok => synchronize_step s ok
  | .stage enabled => stage_step s enabled
  | .sync_stop => some { s with pipeline_sync_stop := true }
  | .stop => some { s with running := false }
  | .close_blend c => some (s.to_blend c (s.q_blend c).close)
  | .close_infer => some { s with infer_q := s.infer_q.close }

end k180.frames
