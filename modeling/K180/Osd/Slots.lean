import K180.Postprocess.Kernels
import K180.Schedule.Run

namespace k180.osd

open postprocess (kMaxNumOutputBbox)

inductive SlotState where
  | FREE
  | INFER_PENDING
deriving DecidableEq

/-- A result slot. `event_pending` says that the last record of `ready_event` has not completed. The
last two fields tell the publications into the slot apart: how many there have been, and for which frame
the last one is. -/
structure OsdDetSlot (D : Type*) where
  frame_seq : ℕ
  det_host : List D
  det_count_host : ℕ
  event_pending : Bool
  state : SlotState
  generation : ℕ
  published_seq : ℕ

/-- A slot as `init_slot_vector` leaves it, with whatever is in its memory. -/
def OsdDetSlot.init {D : Type*} (det_host : List D) : OsdDetSlot D where
  frame_seq := 0
  det_host := det_host
  det_count_host := 0
  event_pending := false
  state := .FREE
  generation := 0
  published_seq := 0

def osd_release_slot {D : Type*} (slot : OsdDetSlot D) : OsdDetSlot D :=
  { slot with frame_seq := 0, det_count_host := 0, state := .FREE }

def find_slot_by_frame_seq_from {D : Type*} {n : ℕ} (slots : Fin n → OsdDetSlot D) (frame_seq : ℕ) :
    Option (Fin n) :=
  (List.finRange n).find? fun i => (slots i).state ≠ .FREE ∧ (slots i).frame_seq = frame_seq

/-- The steps of a publication once `acquire_free_slot_from` has decided for a slot; it reclaims the
publication that it has seen there. -/
inductive Stage where
  | reclaim (seen : ℕ)
  | claim
  | set_frame_seq
  | set_count
  | copy_detections
  | store_state
  | record_event
  | give_up
deriving DecidableEq

/-- From its claim to its end a publication writes to its slot. -/
def Stage.writes : Stage → Bool
  | reclaim _ | claim => false
  | _ => true

/-- The inference worker: waiting for a job, looking for a slot from index `i` on, or publishing. -/
inductive Worker (n : ℕ) (D : Type*) where
  | idle
  | scan (i : ℕ) (frame_seq : ℕ) (res : List D)
  | publish (stage : Stage) (i : Fin n) (frame_seq : ℕ) (res : List D)

/-- A run of `mux_src_pad_probe`, with the slot it has found and the publication it has seen there: it
still has to query the event; to query it again, in `copy_exact_slot_if_ready`; to read the count; to
copy; to release the slot. -/
inductive Probe (n : ℕ) (D : Type*) where
  | idle
  | found (frame_seq : ℕ) (i : Fin n) (seen : ℕ)
  | ready (frame_seq : ℕ) (i : Fin n) (seen : ℕ)
  | reading (frame_seq : ℕ) (i : Fin n) (seen : ℕ)
  | copying (frame_seq : ℕ) (i : Fin n) (seen : ℕ) (count : ℕ)
  | releasing (frame_seq : ℕ) (i : Fin n) (seen : ℕ) (out : List D)

/-- A release or a reclaim: the publication seen, the one in the slot, whether the slot was in use and
whether somebody else was still writing it. -/
structure Freed where
  seen : ℕ
  generation : ℕ
  in_use : Bool
  writing : Bool
deriving DecidableEq

/-- The detect or the track slots with the worker and the probes of the hubs, and what has happened. -/
structure State (n k : ℕ) (D : Type*) where
  slots : Fin n → OsdDetSlot D
  worker : Worker n D
  probes : Fin k → Probe n D
  published : List (ℕ × List D)
  attached : List (ℕ × List D)
  freed : List Freed

variable {n k : ℕ} {D : Type*}

def Worker.writes (i : Fin n) : Worker n D → Bool
  | .publish stage j _ _ => stage.writes && decide (j = i)
  | _ => false

def State.initial (k : ℕ) (det_hosts : Fin n → List D) : State n k D where
  slots i := .init (det_hosts i)
  worker := .idle
  probes _ := .idle
  published := []
  attached := []
  freed := []

def State.set_slot (σ : State n k D) (i : Fin n) (slot : OsdDetSlot D) : State n k D :=
  { σ with slots := Function.update σ.slots i slot }

def State.set_probe (σ : State n k D) (p : Fin k) (probe : Probe n D) : State n k D :=
  { σ with probes := Function.update σ.probes p probe }

/-- `osd_release_slot` by somebody who has seen publication `seen` in the slot. -/
def State.release (σ : State n k D) (i : Fin n) (seen : ℕ) (writing : Bool) : State n k D :=
  { σ.set_slot i (osd_release_slot (σ.slots i)) with
    freed := σ.freed ++
      [⟨seen, (σ.slots i).generation, decide ((σ.slots i).state ≠ .FREE), writing⟩] }

/-- What is published of a result: at most as many detections as fit. -/
def detections (res : List D) : List D := res.take kMaxNumOutputBbox.toNat

/-- The loop of `acquire_free_slot_from` at index `i`. The query of the event can also fail. -/
def State.scan (σ : State n k D) (fail : Bool) (i frame_seq : ℕ) (res : List D) : State n k D :=
  if hi : i < n then
    if (σ.slots ⟨i, hi⟩).state = .FREE then { σ with worker := .publish .claim ⟨i, hi⟩ frame_seq res }
    else if fail ∨ (σ.slots ⟨i, hi⟩).event_pending then
      { σ with worker := .scan (i + 1) frame_seq res }
    else
      { σ with worker := .publish (.reclaim (σ.slots ⟨i, hi⟩).generation) ⟨i, hi⟩ frame_seq res }
  else { σ with worker := .idle }

/-- The next step of a publication into slot `i`. Recording the event can fail. -/
def State.publish (σ : State n k D) (fail : Bool) (i : Fin n) (frame_seq : ℕ) (res : List D) :
    Stage → State n k D
  | .reclaim seen => { σ.release i seen false with worker := .publish .claim i frame_seq res }
  | .claim =>
    if (σ.slots i).state = .FREE then
      { σ.set_slot i { σ.slots i with
          state := .INFER_PENDING
          generation := (σ.slots i).generation + 1
          published_seq := frame_seq } with
        worker := .publish .set_frame_seq i frame_seq res }
    else { σ with worker := .scan (i + 1) frame_seq res }
  | .set_frame_seq =>
    { σ.set_slot i { σ.slots i with frame_seq := frame_seq } with
      worker := .publish .set_count i frame_seq res }
  | .set_count =>
    { σ.set_slot i { σ.slots i with det_count_host := (detections res).length } with
      worker := .publish .copy_detections i frame_seq res }
  | .copy_detections =>
    { σ.set_slot i { σ.slots i with
        det_host := detections res ++ (σ.slots i).det_host.drop (detections res).length } with
      worker := .publish .store_state i frame_seq res }
  | .store_state =>
    { σ.set_slot i { σ.slots i with state := .INFER_PENDING } with
      worker := .publish .record_event i frame_seq res }
  | .record_event =>
    if fail then { σ with worker := .publish .give_up i frame_seq res }
    else
      { σ.set_slot i { σ.slots i with event_pending := true } with
        worker := .idle
        published := σ.published ++ [(frame_seq, detections res)] }
  | .give_up => { σ.release i (σ.slots i).generation false with worker := .idle }

def State.worker_step (σ : State n k D) (fail : Bool) : Option (State n k D) :=
  match σ.worker with
  | .idle => none
  | .scan i frame_seq res => some (σ.scan fail i frame_seq res)
  | .publish stage i frame_seq res => some (σ.publish fail i frame_seq res stage)

/-- The next step of a probe; `error` says that its query of the event fails. -/
def State.probe_step (σ : State n k D) (p : Fin k) (error : Bool) : Option (State n k D) :=
  match σ.probes p with
  | .idle => none
  | .found frame_seq i seen =>
    if error then some (σ.set_probe p (.releasing frame_seq i seen []))
    else if (σ.slots i).event_pending then some (σ.set_probe p .idle)
    else some (σ.set_probe p (.ready frame_seq i seen))
  | .ready frame_seq i seen =>
    if error ∨ (σ.slots i).event_pending then some (σ.set_probe p (.releasing frame_seq i seen []))
    else some (σ.set_probe p (.reading frame_seq i seen))
  | .reading frame_seq i seen =>
    if (σ.slots i).det_count_host = 0 then some (σ.set_probe p (.releasing frame_seq i seen []))
    else some (σ.set_probe p (.copying frame_seq i seen (σ.slots i).det_count_host))
  | .copying frame_seq i seen count =>
    some (σ.set_probe p (.releasing frame_seq i seen ((σ.slots i).det_host.take count)))
  | .releasing frame_seq i seen out =>
    some { (σ.release i seen (σ.worker.writes i)).set_probe p .idle with
      attached := if out = [] then σ.attached else σ.attached ++ [(frame_seq, out)] }

/-- The worker gets a result to publish, or takes its next step; a probe looks for the slot of its
frame, or takes its next step; the work before a record of an event completes. -/
inductive Action (n k : ℕ) (D : Type*) where
  | publish (frame_seq : ℕ) (res : List D)
  | worker (fail : Bool)
  | find (p : Fin k) (frame_seq : ℕ)
  | probe (p : Fin k) (error : Bool)
  | complete (i : Fin n)

/-- The frames are numbered from 1 on. -/
def step (σ : State n k D) : Action n k D → Option (State n k D)
  | .publish frame_seq res =>
    match σ.worker with
    | .idle => some { σ with worker := .scan 0 frame_seq res }
    | _ => none
  | .worker fail => σ.worker_step fail
  | .find p frame_seq =>
    match σ.probes p with
    | .idle =>
      if frame_seq = 0 then none
      else
        match find_slot_by_frame_seq_from σ.slots frame_seq with
        | some i => some (σ.set_probe p (.found frame_seq i (σ.slots i).generation))
        | none => some σ
    | _ => none
  | .probe p error => σ.probe_step p error
  | .complete i => some (σ.set_slot i { σ.slots i with event_pending := false })

end k180.osd
