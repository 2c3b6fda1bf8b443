import K180.Osd.ExactResults
import K180.Osd.Latest

namespace k180.osd

variable {n k : ℕ} {D : Type*}

/-- The arguments of an update with the detections of a slot. -/
def DetArray.of_slot (dets : List D) : DetArray D where
  det := if dets = [] then none else some dets
  count := dets.length
  readable := by
    intro det hdet
    split at hdet
    · cases hdet
    · obtain rfl := Option.some.inj hdet
      exact le_rfl

/-- A buffer in the probe of a hub. `due` is the complete result for its frame that was there when it came, if the
slot of this result was, or had been when another buffer of the frame came. -/
structure Pass (D : Type*) where
  frame_seq : ℕ
  due : Option (List D)

/-- Where `mux_src_pad_probe` of a hub is: it waits for a buffer, works on the slot of its frame, or is about to
fall back to the latest result. -/
inductive HubPhase (D : Type*) where
  | waiting
  | exact (pass : Pass D)
  | fallback (pass : Pass D)

/-- A buffer that has passed, with the detections attached to it. -/
structure Passed (k : ℕ) (D : Type*) where
  hub : Fin k
  frame_seq : ℕ
  due : Option (List D)
  attached : Option (List D)

/-- The slots with the worker and the probes, and the latest result. `updated` says that the publication under way
has updated it, `last_seq` is the number of the last frame with a result, and `shown` lists the frames of which a
buffer has found the slot of a complete result. -/
structure HubsState (n k : ℕ) (D : Type*) where
  slots : State n k D
  latest : LatestResult D
  updated : Bool
  last_seq : ℕ
  hubs : Fin k → HubPhase D
  shown : List ℕ
  passed : List (Passed k D)

/-- The frame that a probe is working for. -/
def Probe.frame : Probe n D → Option ℕ
  | .idle => none
  | .found frame_seq _ _ | .ready frame_seq _ _ | .reading frame_seq _ _ | .copying frame_seq _ _ _
  | .releasing frame_seq _ _ _ => some frame_seq

/-- What a probe that releases its slot has copied. -/
def Probe.copied : Probe n D → Option (List D)
  | .releasing _ _ _ out => if out = [] then none else some out
  | _ => none

/-- The frame and the result that the worker is busy with. -/
def Worker.job : Worker n D → Option (ℕ × List D)
  | .idle => none
  | .scan _ frame_seq res | .publish _ _ frame_seq res => some (frame_seq, res)

namespace HubsState

/-- The complete result for a frame, if it has detections. -/
def complete_result (s : HubsState n k D) (frame_seq : ℕ) : Option (List D) :=
  (s.slots.published.find? fun r => r.1 = frame_seq ∧ r.2 ≠ []).map Prod.snd

def due (s : HubsState n k D) (frame_seq : ℕ) : Option (List D) :=
  if (find_slot_by_frame_seq_from s.slots.slots frame_seq).isSome ∨ frame_seq ∈ s.shown then
    s.complete_result frame_seq
  else none

def to_hub (s : HubsState n k D) (p : Fin k) (phase : HubPhase D) : HubsState n k D :=
  { s with hubs := Function.update s.hubs p phase }

/-- The buffer leaves the probe. -/
def leave (s : HubsState n k D) (p : Fin k) (pass : Pass D) (attached : Option (List D)) : HubsState n k D :=
  { s.to_hub p .waiting with passed := s.passed ++ [⟨p, pass.frame_seq, pass.due, attached⟩] }

/-- A buffer comes to a hub, whose probe has looked for the slot of its frame. -/
def come (s : HubsState n k D) (slots : State n k D) (p : Fin k) (frame_seq : ℕ) : HubsState n k D :=
  let pass : Pass D := { frame_seq, due := s.due frame_seq }
  { s.to_hub p (if (slots.probes p).frame = none then .fallback pass else .exact pass) with
    slots
    shown := if pass.due.isSome then frame_seq :: s.shown else s.shown }

/-- A probe has taken a step on its slot. When it is done with it the buffer leaves with what has been copied, or
the probe falls back. -/
def after_probe (s : HubsState n k D) (slots : State n k D) (p : Fin k) (pass : Pass D) : HubsState n k D :=
  let s' := { s with slots }
  if (slots.probes p).frame = none then
    match (s.slots.probes p).copied with
    | some out => s'.leave p pass (some out)
    | none => s'.to_hub p (.fallback pass)
  else s'

/-- `osd_copy_latest_result`, and `det_attached`. -/
def attach_latest (s : HubsState n k D) (frame_seq : ℕ) : Option (List D) :=
  let copied := s.latest.copy frame_seq { out := [], out_result_seq := some 0 }
  if copied.1 = true ∧ copied.2.out ≠ [] then some copied.2.out else none

/-- The slot and the result of a publication that is about to update the latest result. -/
def updating (s : HubsState n k D) : Option (Fin n × ℕ × List D) :=
  match s.slots.worker with
  | .publish .store_state i frame_seq res => if s.updated then none else some (i, frame_seq, res)
  | _ => none

end HubsState

/-- A step on the slots; the worker updates the latest result; or a probe falls back to it. -/
inductive HubsAction (n k : ℕ) (D : Type*) where
  | slots (a : Action n k D)
  | update_latest
  | fallback (p : Fin k)

variable [Inhabited D]

def HubsState.initial (k max_det : ℕ) (det_hosts : Fin n → List D) : HubsState n k D where
  slots := .initial k det_hosts
  latest := .initial max_det
  updated := false
  last_seq := 0
  hubs _ := .waiting
  shown := []
  passed := []

/-- The worker gets its results in the order of the frames, and updates the latest result before it stores the
state of the slot. -/
def hubs_step (s : HubsState n k D) : HubsAction n k D → Option (HubsState n k D)
  | .slots (.publish frame_seq res) =>
    if s.last_seq < frame_seq then
      (step s.slots (.publish frame_seq res)).map fun slots =>
        { s with slots, updated := false, last_seq := frame_seq }
    else none
  | .slots (.worker fail) =>
    if s.updating.isSome then none else (step s.slots (.worker fail)).map fun slots => { s with slots }
  | .slots (.find p frame_seq) =>
    match s.hubs p with
    | .waiting => (step s.slots (.find p frame_seq)).map fun slots => s.come slots p frame_seq
    | _ => none
  | .slots (.probe p error) =>
    match s.hubs p with
    | .exact pass => (step s.slots (.probe p error)).map fun slots => s.after_probe slots p pass
    | _ => none
  | .slots (.complete i) => (step s.slots (.complete i)).map fun slots => { s with slots }
  | .update_latest =>
    s.updating.map fun (i, frame_seq, res) =>
      let dets := (s.slots.slots i).det_host.take (detections res).length
      { s with latest := s.latest.update frame_seq (.of_slot dets), updated := true }
  | .fallback p =>
    match s.hubs p with
    | .fallback pass => some (s.leave p pass (s.attach_latest pass.frame_seq))
    | _ => none

/-- Of any two hubs that have passed buffers of one frame with the same result due, both have attached it. -/
def BothAttach (s : HubsState n k D) : Prop :=
  ∀ a ∈ s.passed, ∀ b ∈ s.passed, a.hub ≠ b.hub → a.frame_seq = b.frame_seq →
    ∀ dets, a.due = some dets → b.due = some dets → a.attached = some dets ∧ b.attached = some dets

def HubPhase.falls_back : HubPhase D → Option (Pass D)
  | .fallback pass => some pass
  | _ => none

/-- When a probe falls back for a buffer with a result due, the latest result is still that of its frame. -/
def StillLatest (s : HubsState n k D) : HubsAction n k D → Prop
  | .fallback p => ∀ pass ∈ (s.hubs p).falls_back, pass.due.isSome = true → s.latest.frame_seq = pass.frame_seq
  | .slots _ | .update_latest => True

def HubsAction.on_slots : HubsAction n k D → Option (Action n k D)
  | .slots a => some a
  | _ => none

/-- The exact results are in order, and the latest one has not been replaced. -/
def HubsInOrder (s : HubsState n k D) (action : HubsAction n k D) : Prop :=
  (∀ a ∈ action.on_slots, InOrder s.slots a) ∧ StillLatest s action

instance decidableStillLatest (s : HubsState n k D) : (action : HubsAction n k D) → Decidable (StillLatest s action)
  | .fallback p => inferInstanceAs (Decidable (∀ pass ∈ (s.hubs p).falls_back, _ → _))
  | .slots _ | .update_latest => isTrue trivial

instance (s : HubsState n k D) (action : HubsAction n k D) : Decidable (HubsInOrder s action) :=
  inferInstanceAs (Decidable ((∀ a ∈ action.on_slots, InOrder s.slots a) ∧ StillLatest s action))

end k180.osd
