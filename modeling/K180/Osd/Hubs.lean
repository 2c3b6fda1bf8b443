import K180.Rtsp.StreamKey
import K180.Schedule.Run

namespace k180.osd

/-- A slot object in memory, told apart from all others by `id`, with the CUDA buffers and the event it
owns; these are numbered in the order they are created. -/
structure SlotResources where
  id : ℕ
  det_device : Option ℕ
  det_count_device : Option ℕ
  det_host : Option ℕ
  det_count_host : Option ℕ
  ready_event : Option ℕ

namespace SlotResources

def empty (id : ℕ) : SlotResources := ⟨id, none, none, none, none, none⟩

/-- What `destroy_slot_vector` destroys of a slot, in its order. -/
def owned (s : SlotResources) : List ℕ :=
  s.ready_event.toList ++ s.det_device.toList ++ s.det_count_device.toList ++ s.det_host.toList ++
    s.det_count_host.toList

def usable (s : SlotResources) : Bool :=
  s.det_device.isSome && s.det_count_device.isSome && s.det_host.isSome && s.det_count_host.isSome &&
    s.ready_event.isSome

end SlotResources

/-- The allocations of `init_slot_vector` for one slot, up to the first that fails: the slot, the number
of the next resource, and whether all have succeeded. -/
def allocate_slot (alloc : ℕ → Bool) (s : SlotResources) (next : ℕ) : SlotResources × ℕ × Bool :=
  if alloc next = false then (s, next, false)
  else if alloc (next + 1) = false then ({ s with det_device := some next }, next + 1, false)
  else if alloc (next + 2) = false then
    ({ s with det_device := some next, det_count_device := some (next + 1) }, next + 2, false)
  else if alloc (next + 3) = false then
    ({ s with
        det_device := some next
        det_count_device := some (next + 1)
        det_host := some (next + 2) }, next + 3, false)
  else if alloc (next + 4) = false then
    ({ s with
        det_device := some next
        det_count_device := some (next + 1)
        det_host := some (next + 2)
        det_count_host := some (next + 3) }, next + 4, false)
  else
    ({ s with
        det_device := some next
        det_count_device := some (next + 1)
        det_host := some (next + 2)
        det_count_host := some (next + 3)
        ready_event := some (next + 4) }, next + 5, true)

/-- The loop of `init_slot_vector` over the new slots. -/
def allocate_slots (alloc : ℕ → Bool) : List SlotResources → ℕ → List SlotResources × ℕ × Bool
  | [], next => ([], next, true)
  | s :: rest, next =>
    match allocate_slot alloc s next with
    | (s', next', false) => (s' :: rest, next', false)
    | (s', next', true) =>
      match allocate_slots alloc rest next' with
      | (rest', next'', ok) => (s' :: rest', next'', ok)

/-- The slots that `H265Hub::create` asks `osd_init_slots` for. -/
def slot_count : ℕ := 4

/-- `init_slot_vector` with new slot objects from `next_slot` on. The vector is cleared before, which
frees the slot objects in it, but not what they own. -/
def init_slot_vector (alloc : ℕ → Bool) (next_slot next : ℕ) : List SlotResources × ℕ × Bool :=
  allocate_slots alloc ((List.range slot_count).map fun i => .empty (next_slot + i)) next

/-- The probe of a hub, or the inference worker. -/
inductive Holder where
  | probe (h : Fin kStreams)
  | worker
deriving DecidableEq

/-- The slot vectors of the `OsdShared`, the ten hubs that share it, and who holds a pointer to a
slot. -/
structure HubState where
  slots : List SlotResources
  track_slots : List SlotResources
  next_slot : ℕ
  next_resource : ℕ
  destroyed : List ℕ
  pipeline : Fin kStreams → Bool
  started : Fin kStreams → Bool
  held : List (Holder × ℕ)

namespace HubState

def initial : HubState := ⟨[], [], 0, 0, [], fun _ => false, fun _ => false, []⟩

def ids (σ : HubState) : List ℕ := (σ.slots ++ σ.track_slots).map (·.id)

/-- The resources that the slots in the vectors own. -/
def owned (σ : HubState) : List ℕ := (σ.slots ++ σ.track_slots).flatMap (·.owned)

def osd_init_slots (σ : HubState) (alloc : ℕ → Bool) : HubState × Bool :=
  match init_slot_vector alloc σ.next_slot σ.next_resource with
  | (slots, next, false) =>
    ({ σ with slots := slots, next_slot := σ.next_slot + slot_count, next_resource := next }, false)
  | (slots, next, true) =>
    match init_slot_vector alloc (σ.next_slot + slot_count) next with
    | (track_slots, next', ok) =>
      ({ σ with
          slots := slots
          track_slots := track_slots
          next_slot := σ.next_slot + slot_count + slot_count
          next_resource := next' }, ok)

def osd_destroy_slots (σ : HubState) : HubState :=
  { σ with slots := [], track_slots := [], destroyed := σ.destroyed ++ σ.owned }

end HubState

structure H265HubCreateArgs where
  enable_record : Bool
  record_mp4 : Bool
  record_prefix : String
  udp_port : ℤ

/-- What GStreamer answers to a `create`. -/
structure GstAnswers where
  parse_launch : Bool
  smux : Bool
  rawsrc : Bool
  enc : Bool

/-- The checks that `create` makes before it asks for a pipeline. -/
def H265HubCreateArgs.accepted (a : H265HubCreateArgs) : Bool :=
  !(a.enable_record && a.record_prefix.isEmpty) && decide (0 < a.udp_port)

/-- The elements that `create` looks for after it has initialised the slots. -/
def GstAnswers.complete (gst : GstAnswers) (a : H265HubCreateArgs) : Bool :=
  (!(a.enable_record && a.record_mp4) || gst.smux) && gst.rawsrc && gst.enc

namespace HubState

/-- `H265Hub::create` on a hub without a pipeline. Nobody looks at the result of `osd_init_slots`. -/
def create (σ : HubState) (h : Fin kStreams) (a : H265HubCreateArgs) (gst : GstAnswers)
    (alloc : ℕ → Bool) : HubState :=
  if a.accepted && gst.parse_launch then
    if gst.complete a then
      { (σ.osd_init_slots alloc).1 with pipeline := Function.update σ.pipeline h true }
    else (σ.osd_init_slots alloc).1
  else σ

/-- `H265Hub::cleanup_`. Taking the pipeline down waits for the hub's own probe. -/
def cleanup_ (σ : HubState) (h : Fin kStreams) : Option HubState :=
  if σ.pipeline h then
    if ∀ p ∈ σ.held, p.1 ≠ .probe h then
      some { σ.osd_destroy_slots with pipeline := Function.update σ.pipeline h false }
    else none
  else some σ

/-- `H265Hub::stop`, and `H265Hub::stop_rec` once it has waited for the recording. -/
def stop (σ : HubState) (h : Fin kStreams) : Option HubState :=
  cleanup_ { σ with started := Function.update σ.started h false } h

end HubState

/-- A call on a hub, or somebody taking or giving up a pointer to a slot. A `create` on a hub that has a
pipeline stops it first: these are two steps. -/
inductive HubAction where
  | create (h : Fin kStreams) (a : H265HubCreateArgs) (gst : GstAnswers) (alloc : ℕ → Bool)
  | start (h : Fin kStreams) (playing : Bool)
  | stop (h : Fin kStreams)
  | stop_rec (h : Fin kStreams)
  | hold (who : Holder) (id : ℕ)
  | finish (who : Holder)

/-- Only the probes of hubs with a pipeline run. -/
def HubState.running (σ : HubState) : Holder → Bool
  | .probe h => σ.pipeline h && σ.started h
  | .worker => true

def hub_step (σ : HubState) : HubAction → Option HubState
  | .create h a gst alloc => if σ.pipeline h then none else some (σ.create h a gst alloc)
  | .start h playing =>
    if σ.pipeline h && playing then some { σ with started := Function.update σ.started h true }
    else some σ
  | .stop h => σ.stop h
  | .stop_rec h => σ.stop h
  | .hold who id =>
    if id ∈ σ.ids ∧ σ.running who ∧ ∀ p ∈ σ.held, p.1 ≠ who then
      some { σ with held := (who, id) :: σ.held }
    else none
  | .finish who => some { σ with held := σ.held.filter fun p => p.1 ≠ who }

end k180.osd
