import K180.SharedPool.Ownership
import K180.Schedule.Run

open schedule shared_pool

namespace k180.warp_pool

inductive Camera where
  | cam0
  | cam1
  | cam2
  | cam3
deriving DecidableEq

def cameras : List Camera := [.cam0, .cam1, .cam2, .cam3]

structure FrameItem where
  seq : ℕ
  warp_pool_idx : ℕ
deriving DecidableEq

/-- Where a `FramePtr` is kept: in `f` of the capture thread, in one of the queues of a camera, in `cur` and `tmp`
of an iteration of the apply thread, in `f` of the seam thread, or in `tmp` of `bright_adjust`. -/
inductive Place where
  | capture
  | q_blend
  | q_seam
  | cc2bright
  | apply
  | seam
  | bright
deriving DecidableEq

instance : Fintype Place where
  elems := {.capture, .q_blend, .q_seam, .cc2bright, .apply, .seam, .bright}
  complete place := by cases place <;> decide

/-- The `GpuMatPool` of a camera, and the references to its frames. -/
abbrev WarpPool := Pool Place FrameItem

def warp_pool_slots : ℕ := 6

def WarpPool.init : WarpPool where
  free := List.range warp_pool_slots
  held _ := none

/-- The queues keep one frame, so that a push drops the one before. -/
def WarpPool.put (pool : WarpPool) (place : Place) (frame : Option FrameItem) : WarpPool :=
  Pool.put FrameItem.warp_pool_idx pool place frame

/-- `out = std::move(q_.front())` -/
def WarpPool.pop (pool : WarpPool) (queue out : Place) : WarpPool :=
  (pool.put out (pool.held queue)).put queue none

/-- What the streams are given to do with the slot of a frame: `remap` into it, `warp_done.record`,
`waitEvent(warp_done)`, or a kernel that reads it. -/
inductive Kind where
  | remap
  | record
  | wait
  | read
deriving DecidableEq

/-- An operation; `ticket` is its place in the order in which operations have been enqueued. -/
structure Op where
  kind : Kind
  camera : Camera
  frame : FrameItem
  ticket : ℕ

inductive StreamId where
  | camera (c : Camera)
  | apply
  | seam (c : Camera)
deriving DecidableEq

/-- The operations in each stream that have not completed, and whether the first of them runs. -/
structure Gpu where
  stream : StreamId → List Op
  running : StreamId → Bool
  ticket : ℕ

def Gpu.enqueue (gpu : Gpu) (id : StreamId) (kind : Kind) (camera : Camera) (frame : FrameItem) : Gpu :=
  { gpu with
    stream := Function.update gpu.stream id (gpu.stream id ++ [⟨kind, camera, frame, gpu.ticket⟩])
    ticket := gpu.ticket + 1 }

@[simp] theorem Gpu.stream_enqueue (gpu : Gpu) (id : StreamId) (kind : Kind) (camera : Camera) (frame : FrameItem) :
    (gpu.enqueue id kind camera frame).stream =
      Function.update gpu.stream id (gpu.stream id ++ [⟨kind, camera, frame, gpu.ticket⟩]) := rfl

/-- The event that a wait waits for has been recorded and has completed. -/
def Gpu.Ready (gpu : Gpu) (op : Op) : Prop :=
  op.kind = .wait → ∀ r ∈ gpu.stream (.camera op.camera), ¬ (r.kind = .record ∧ r.frame = op.frame)

instance (gpu : Gpu) (op : Op) : Decidable (gpu.Ready op) := inferInstanceAs (Decidable (_ → _))

def Gpu.start (gpu : Gpu) (id : StreamId) : Option Gpu :=
  match gpu.stream id with
  | [] => none
  | op :: _ =>
    if gpu.running id = false ∧ gpu.Ready op then some { gpu with running := Function.update gpu.running id true }
    else none

def Gpu.complete (gpu : Gpu) (id : StreamId) : Option Gpu :=
  match gpu.stream id with
  | [] => none
  | _ :: rest =>
    if gpu.running id then
      some { gpu with
        stream := Function.update gpu.stream id rest
        running := Function.update gpu.running id false }
    else none

/-- What `capture_thread` does next for a camera. -/
inductive CapturePhase where
  | try_acquire
  | remap
  | push_blend
  | signal
  | push_seam
  | push_bright
  | reset
deriving DecidableEq

/-- What `thread_cc_prepare_seam_input` does next for a camera. `need` is `need_small_for_seam`; `queued` says
that the resize of its frame has been enqueued and not been waited for. -/
inductive SeamPhase where
  | pop (queued : Bool)
  | wait_event (need : Bool)
  | resize (need : Bool)
  | download
  | mse (queued : Bool)

/-- What `thread_blender_apply` does next; `launch` enqueues the gain kernels. `queued` says that they have been
enqueued and the stream has not been synchronised since. -/
inductive ApplyPhase where
  | warm_up
  | wait_all
  | pop (rest : List Camera)
  | take_blender
  | wait_event (rest : List Camera)
  | launch (rest : List Camera)
  | out_s1
  | out_s2 (queued out_s1 : Bool)
  | reset (queued : Bool) (rest : List Camera)

structure State where
  pool : Camera → WarpPool
  gpu : Gpu
  seq : Camera → ℕ
  capture : Camera → CapturePhase
  seam : Camera → SeamPhase
  prev_valid : Bool
  signalled : Camera → Bool
  gain_epoch : ℕ
  apply : ApplyPhase

def start : State where
  pool _ := WarpPool.init
  gpu := { stream := fun _ => [], running := fun _ => false, ticket := 0 }
  seq _ := 0
  capture _ := .try_acquire
  seam _ := .pop false
  prev_valid := false
  signalled _ := false
  gain_epoch := 0
  apply := .warm_up

/-- How `make_v1234_outbuf` ends for a stream, if it is called at all: `nvmm_copy_rgba_to_outbuf_cached` is not
reached, or it returns whether it has succeeded. -/
inductive Outbuf where
  | not_copied
  | copied (ok : Bool)

/-- The next step of a thread, or of a stream. `gains` are published by `thread_seam_find`. -/
inductive Action where
  | capture (c : Camera)
  | seam (c : Camera) (need : Bool)
  | bright
  | gains
  | apply
  | take_blender (available : Bool)
  | make_outbuf (outcome : Outbuf)
  | start (id : StreamId)
  | complete (id : StreamId)

def State.set_pool (s : State) (c : Camera) (pool : WarpPool) : State :=
  { s with pool := Function.update s.pool c pool }

@[simp] theorem State.pool_set_pool (s : State) (c : Camera) (pool : WarpPool) :
    (s.set_pool c pool).pool = Function.update s.pool c pool := rfl

def State.put (s : State) (c : Camera) (place : Place) (frame : Option FrameItem) : State :=
  s.set_pool c ((s.pool c).put place frame)

def State.pop (s : State) (c : Camera) (queue out : Place) : State :=
  s.set_pool c ((s.pool c).pop queue out)

def State.to_capture (s : State) (c : Camera) (phase : CapturePhase) : State :=
  { s with capture := Function.update s.capture c phase }

@[simp] theorem State.capture_to_capture (s : State) (c : Camera) (phase : CapturePhase) :
    (s.to_capture c phase).capture = Function.update s.capture c phase := rfl

def State.to_seam (s : State) (c : Camera) (phase : SeamPhase) : State :=
  { s with seam := Function.update s.seam c phase }

@[simp] theorem State.seam_to_seam (s : State) (c : Camera) (phase : SeamPhase) :
    (s.to_seam c phase).seam = Function.update s.seam c phase := rfl

def State.enqueue (s : State) (id : StreamId) (kind : Kind) (c : Camera) (frame : FrameItem) : State :=
  { s with gpu := s.gpu.enqueue id kind c frame }

/-- A frame for which the pool has no slot is dropped. -/
def capture_step (s : State) (c : Camera) : Option State :=
  match s.capture c with
  | .try_acquire =>
    let s' := { s with seq := Function.update s.seq c (s.seq c + 1) }
    match (s.pool c).free.getLast? with
    | none => some s'
    | some slot =>
      let frame : FrameItem := { seq := s.seq c + 1, warp_pool_idx := slot }
      some ((s'.set_pool c ((s.pool c).take .capture frame)).to_capture c .remap)
  | .remap =>
    ((s.pool c).held .capture).map fun frame =>
      ((s.enqueue (.camera c) .remap c frame).enqueue (.camera c) .record c frame).to_capture c .push_blend
  | .push_blend => some ((s.put c .q_blend ((s.pool c).held .capture)).to_capture c .signal)
  | .signal => some ({ s with signalled := Function.update s.signalled c true }.to_capture c .push_seam)
  | .push_seam => some ((s.put c .q_seam ((s.pool c).held .capture)).to_capture c .push_bright)
  | .push_bright =>
    let s' := if c = .cam1 then s.put c .cc2bright ((s.pool c).held .capture) else s
    some (s'.to_capture c .reset)
  | .reset => some ((s.put c .capture none).to_capture c .try_acquire)

/-- `pop` waits for a frame, and `waitForCompletion` for the stream. -/
def seam_step (s : State) (c : Camera) (need : Bool) : Option State :=
  match s.seam c with
  | .pop _ =>
    if (s.pool c).held .q_seam = none then none else some ((s.pop c .q_seam .seam).to_seam c (.wait_event need))
  | .wait_event need =>
    ((s.pool c).held .seam).map fun frame => (s.enqueue (.seam c) .wait c frame).to_seam c (.resize need)
  | .resize need =>
    if need ∨ c = .cam0 then
      ((s.pool c).held .seam).map fun frame =>
        (s.enqueue (.seam c) .read c frame).to_seam c (if need then .download else .mse true)
    else some (s.to_seam c (.pop false))
  | .download =>
    if (s.gpu.stream (.seam c)).isEmpty then some (s.to_seam c (if c = .cam0 then .mse false else .pop false)) else none
  | .mse queued =>
    if s.prev_valid then
      -- `computeMSE_gray_gpu` waits for the stream
      if (s.gpu.stream (.seam c)).isEmpty then some (s.to_seam c (.pop false)) else none
    else some ({ s with prev_valid := true }.to_seam c (.pop queued))

def apply_step (s : State) : Option State :=
  match s.apply with
  | .warm_up => if s.gain_epoch = 0 then none else some { s with apply := .wait_all }
  | .wait_all =>
    if ∀ c ∈ cameras, s.signalled c then some { s with signalled := fun _ => false, apply := .pop cameras } else none
  | .pop [] => some { s with apply := .take_blender }
  | .pop (c :: rest) =>
    if (s.pool c).held .q_blend = none then some { s with apply := .pop rest }
    else some { s.pop c .q_blend .apply with apply := .pop rest }
  | .wait_event [] => some { s with apply := .launch cameras }
  | .wait_event (c :: rest) =>
    ((s.pool c).held .apply).map fun frame => { s.enqueue .apply .wait c frame with apply := .wait_event rest }
  | .launch [] => some { s with apply := .out_s1 }
  | .launch (c :: rest) =>
    ((s.pool c).held .apply).map fun frame => { s.enqueue .apply .read c frame with apply := .launch rest }
  | .reset _ [] => some { s with apply := .wait_all }
  | .reset queued (c :: rest) => some { s.put c .apply none with apply := .reset queued rest }
  | .take_blender | .out_s1 | .out_s2 _ _ => none

/-- The iteration ends here unless all four cameras have a frame and there is a blender. The frames in `cur` are
destroyed from the last to the first. -/
def take_blender_step (s : State) (available : Bool) : Option State :=
  match s.apply with
  | .take_blender =>
    if (∀ c ∈ cameras, (s.pool c).held .apply ≠ none) ∧ available then some { s with apply := .wait_event cameras }
    else some { s with apply := .reset false cameras.reverse }
  | _ => none

/-- With an output buffer the frames are reset in a loop, without one they are destroyed at the end of the
iteration. The copy synchronises the stream. -/
def make_outbuf_step (s : State) (outcome : Outbuf) : Option State :=
  let to_reset (queued out : Bool) : ApplyPhase := .reset queued (if out then cameras else cameras.reverse)
  match s.apply, outcome with
  | .out_s1, .not_copied => some { s with apply := .out_s2 true false }
  | .out_s1, .copied ok => if (s.gpu.stream .apply).isEmpty then some { s with apply := .out_s2 false ok } else none
  | .out_s2 queued out_s1, .not_copied => some { s with apply := to_reset queued out_s1 }
  | .out_s2 _ out_s1, .copied ok =>
    if (s.gpu.stream .apply).isEmpty then some { s with apply := to_reset false (out_s1 || ok) } else none
  | _, _ => none

def step (s : State) : Action → Option State
  | .capture c => capture_step s c
  | .seam c need => seam_step s c need
  | .bright => if (s.pool .cam1).held .cc2bright = none then none else some (s.pop .cam1 .cc2bright .bright)
  | .gains => some { s with gain_epoch := s.gain_epoch + 1 }
  | .apply => apply_step s
  | .take_blender available => take_blender_step s available
  | .make_outbuf outcome => make_outbuf_step s outcome
  | .start id => (s.gpu.start id).map fun gpu => { s with gpu }
  | .complete id => (s.gpu.complete id).map fun gpu => { s with gpu }

/-- A kernel that reads the slot which an operation is about. -/
def Op.Reads (r op : Op) : Prop :=
  r.kind = .read ∧ r.camera = op.camera ∧ r.frame.warp_pool_idx = op.frame.warp_pool_idx

instance (r op : Op) : Decidable (r.Reads op) := inferInstanceAs (Decidable (_ ∧ _ ∧ _))

/-- No remap that runs writes a slot which an operation enqueued before it has still to read. -/
def NotReused (s : State) : Prop :=
  ∀ id, s.gpu.running id = true → ∀ w ∈ (s.gpu.stream id).head?, w.kind = .remap →
    ∀ id', ∀ r ∈ s.gpu.stream id', r.Reads w → ¬ r.ticket < w.ticket

/-- The camera whose frame an iteration of the apply thread drops next, when it has made no copy for an output
buffer since it launched the kernels. -/
def ApplyPhase.drops_unsynchronised : ApplyPhase → Option Camera
  | .reset true (c :: _) => some c
  | _ => none

/-- The seam thread drops a frame next that it has resized and not waited for: the first one of camera 0. -/
def SeamPhase.drops_unsynchronised : SeamPhase → Bool
  | .pop queued => queued
  | _ => false

/-- When a thread drops a frame without having synchronised its stream since it enqueued a kernel for it, this
kernel has completed. -/
def KernelsCompleted (s : State) : Action → Prop
  | .apply => ∀ c ∈ s.apply.drops_unsynchronised, ∀ op ∈ s.gpu.stream .apply, ¬ (op.kind = .read ∧ op.camera = c)
  | .seam c _ => (s.seam c).drops_unsynchronised = true → ∀ op ∈ s.gpu.stream (.seam c), op.kind ≠ .read
  | _ => True

instance decidableKernelsCompleted (s : State) : (action : Action) → Decidable (KernelsCompleted s action)
  | .apply => inferInstanceAs (Decidable (∀ c ∈ s.apply.drops_unsynchronised, ∀ op ∈ s.gpu.stream .apply, ¬ _))
  | .seam c _ => inferInstanceAs (Decidable (_ → ∀ op ∈ s.gpu.stream (.seam c), op.kind ≠ .read))
  | .capture _ | .bright | .gains | .take_blender _ | .make_outbuf _ | .start _ | .complete _ => isTrue trivial

end k180.warp_pool
