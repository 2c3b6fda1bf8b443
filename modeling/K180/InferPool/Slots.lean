import K180.Schedule.Run
import K180.StageQueue.Operations

open schedule

namespace k180.infer_pool

open stage_queue (StageQueue)

def infer_pool_size : ℕ := 4

/-- The number of its frame is a `uint64_t`, which nothing computes with here. -/
structure InferJob where
  slot_idx : ℤ
  frame_seq : ℕ

/-- The index with which a job's slot is looked up in the pool. -/
def InferJob.slot (job : InferJob) : ℕ := job.slot_idx.toNat

/-- The apply thread: outside of the submission, looking for a slot from index `i` on, or with a slot to copy
into, to record the event of, to submit, or to give back after an error. -/
inductive Apply where
  | idle
  | scanning (i : ℕ)
  | acquired (i : ℕ)
  | copied (i : ℕ)
  | recorded (i : ℕ)
  | failed (i : ℕ)

/-- The inference worker: at the head of its loop, in `pop`, or with a job to wait for, to infer, or to
release the slot of. -/
inductive Worker where
  | top
  | popping
  | popped (job : InferJob)
  | inferring (job : InferJob)
  | releasing (job : InferJob)
  | exited

structure State where
  busy : ℕ → Bool
  infer_q : StageQueue InferJob
  apply : Apply
  worker : Worker
  running : Bool

/-- The pool after `init_infer_pool`. -/
def init : State where
  busy _ := false
  infer_q := .init infer_pool_size
  apply := .idle
  worker := .top
  running := true

/-- The steps of the apply thread, each CUDA call with its outcome; those of the worker; and from elsewhere
`infer_q->close()` and the end of `running`. -/
inductive Action where
  | detect
  | scan
  | memcpy (ok : Bool)
  | record (ok : Bool)
  | submit (frame_seq : ℕ)
  | give_back
  | loop
  | pop
  | synchronize (ok : Bool)
  | infer
  | release
  | close
  | stop

def State.set_busy (s : State) (i : ℕ) (busy : Bool) : State := { s with busy := Function.update s.busy i busy }

/-- One step. The worker waits in `pop` while the queue is empty and open. -/
def step (s : State) : Action → Option State
  | .detect =>
    match s.apply with
    | .idle => some { s with apply := .scanning 0 }
    | _ => none
  | .scan =>
    match s.apply with
    | .scanning i =>
      if i < infer_pool_size then
        if s.busy i then some { s with apply := .scanning (i + 1) }
        else some { s.set_busy i true with apply := .acquired i }
      else some { s with apply := .idle }
    | _ => none
  | .memcpy ok =>
    match s.apply with
    | .acquired i => some { s with apply := if ok then .copied i else .failed i }
    | _ => none
  | .record ok =>
    match s.apply with
    | .copied i => some { s with apply := if ok then .recorded i else .failed i }
    | _ => none
  | .submit frame_seq =>
    match s.apply with
    | .recorded i =>
      let (infer_q, effect) := s.infer_q.try_push { slot_idx := i, frame_seq }
      some { s with infer_q, apply := if effect.accepted.isSome then .idle else .failed i }
    | _ => none
  | .give_back =>
    match s.apply with
    | .failed i => some { s.set_busy i false with apply := .idle }
    | _ => none
  | .loop =>
    match s.worker with
    | .top => some { s with worker := if s.running then .popping else .exited }
    | _ => none
  | .pop =>
    match s.worker with
    | .popping => s.infer_q.pop.map fun (infer_q, effect) =>
      { s with infer_q, worker := effect.handed.elim .exited .popped }
    | _ => none
  | .synchronize ok =>
    match s.worker with
    | .popped job =>
      if job.slot_idx < 0 ∨ infer_pool_size ≤ job.slot_idx then some { s with worker := .top }
      else some { s with worker := if ok then .inferring job else .releasing job }
    | _ => none
  | .infer =>
    match s.worker with
    | .inferring job => some { s with worker := .releasing job }
    | _ => none
  | .release =>
    match s.worker with
    | .releasing job => some { s.set_busy job.slot false with worker := .top }
    | _ => none
  | .close => some { s with infer_q := s.infer_q.close }
  | .stop => some { s with running := false }

def Apply.slot : Apply → Option ℕ
  | .idle | .scanning _ => none
  | .acquired i | .copied i | .recorded i | .failed i => some i

def Worker.job : Worker → Option InferJob
  | .popped job | .inferring job | .releasing job => some job
  | .top | .popping | .exited => none

/-- The jobs that have been submitted and whose slots have not been released, in the order in which the worker
takes them. -/
def State.jobs (s : State) : List InferJob := s.worker.job.toList ++ s.infer_q.q_

/-- The slots that the apply thread, the worker and the entries of the queue own, each listed once for each
owner. -/
def State.owners (s : State) : List ℕ := s.apply.slot.toList ++ s.jobs.map InferJob.slot

end k180.infer_pool
