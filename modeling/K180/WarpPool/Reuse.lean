import K180.WarpPool.Streams

open schedule shared_pool

namespace k180.warp_pool

variable {s s' : State} {pool : Camera → WarpPool} {gpu gpu' : Gpu} {c : Camera} {place : Place}
  {new : Option FrameItem} {id : StreamId} {kind : Kind} {frame : FrameItem}

/-- The reference under which the kernels of a stream read a slot. -/
def StreamId.reader : StreamId → Option Place
  | .camera _ => none
  | .apply => some .apply
  | .seam _ => some .seam

theorem eq_apply_of_reader (hreader : id.reader = some .apply) : id = .apply := by
  cases id with
  | apply => rfl
  | camera | seam => cases hreader

theorem eq_seam_of_reader (hreader : id.reader = some .seam) : ∃ c, id = .seam c := by
  cases id with
  | seam c => exact ⟨c, rfl⟩
  | camera | apply => cases hreader

def NoReads (operations : List Op) : Prop := ∀ op ∈ operations, op.kind ≠ .read

/-- The thread that has enqueued a kernel still holds the frame that it reads, and the remap into a slot comes
before the kernels that read it. -/
structure Ordered (pool : Camera → WarpPool) (gpu : Gpu) : Prop where
  owned : ∀ c, Owned FrameItem.warp_pool_idx (pool c)
  read_held : ∀ id, ∀ op ∈ gpu.stream id, op.kind = .read →
    ∃ place, id.reader = some place ∧ (pool op.camera).held place = some op.frame
  seam_camera : ∀ c, ∀ op ∈ gpu.stream (.seam c), op.camera = c
  remap_first : ∀ id, ∀ w ∈ gpu.stream id, w.kind = .remap → ∀ id', ∀ r ∈ gpu.stream id', r.Reads w →
    w.ticket < r.ticket
  ticket_lt : ∀ id, ∀ op ∈ gpu.stream id, op.ticket < gpu.ticket

/-- A change of references, of which none is dropped that a kernel in a stream relies on. -/
theorem Ordered.of_pool (hordered : Ordered pool gpu) {changed : WarpPool}
    (howned : Owned FrameItem.warp_pool_idx changed)
    (hheld : ∀ id, ∀ op ∈ gpu.stream id, op.kind = .read → op.camera = c → ∀ place, id.reader = some place →
      changed.held place = (pool c).held place) : Ordered (Function.update pool c changed) gpu where
  owned c' := by
    by_cases hc : c' = c
    · subst hc
      rw [Function.update_self]
      exact howned
    · rw [Function.update_of_ne hc]
      exact hordered.owned c'
  read_held id op hop hread := by
    obtain ⟨place, hplace, hframe⟩ := hordered.read_held id op hop hread
    refine ⟨place, hplace, ?_⟩
    by_cases hc : op.camera = c
    · rw [hc, Function.update_self, hheld id op hop hread hc place hplace, ← hc]
      exact hframe
    · rw [Function.update_of_ne hc]
      exact hframe
  seam_camera := hordered.seam_camera
  remap_first := hordered.remap_first
  ticket_lt := hordered.ticket_lt

theorem Ordered.of_subset (hordered : Ordered pool gpu) (hstream : ∀ id, gpu'.stream id ⊆ gpu.stream id)
    (hticket : gpu'.ticket = gpu.ticket) : Ordered pool gpu' where
  owned := hordered.owned
  read_held id op hop := hordered.read_held id op (hstream id hop)
  seam_camera c op hop := hordered.seam_camera c op (hstream _ hop)
  remap_first id w hw hremap id' r hr := hordered.remap_first id w (hstream id hw) hremap id' r (hstream id' hr)
  ticket_lt id op hop := by
    rw [hticket]
    exact hordered.ticket_lt id op (hstream id hop)

/-- What is in a stream after an operation has been enqueued. -/
theorem mem_enqueue {id' : StreamId} {op : Op} (hop : op ∈ (gpu.enqueue id kind c frame).stream id') :
    op ∈ gpu.stream id' ∨ id' = id ∧ op = ⟨kind, c, frame, gpu.ticket⟩ := by
  by_cases hid : id' = id
  · subst hid
    rw [Gpu.stream_enqueue, Function.update_self, List.mem_append, List.mem_singleton] at hop
    exact hop.imp_right fun h => ⟨rfl, h⟩
  · rw [Gpu.stream_enqueue, Function.update_of_ne hid] at hop
    exact .inl hop

theorem Ordered.enqueue (hordered : Ordered pool gpu)
    (hread : kind = .read → ∃ place, id.reader = some place ∧ (pool c).held place = some frame)
    (hseam : ∀ c', id = .seam c' → c = c')
    (hremap : kind = .remap → ∀ id, ∀ r ∈ gpu.stream id, ∀ ticket, ¬ r.Reads ⟨kind, c, frame, ticket⟩) :
    Ordered pool (gpu.enqueue id kind c frame) where
  owned := hordered.owned
  read_held id' op hop hkind := by
    rcases mem_enqueue hop with hold | ⟨rfl, rfl⟩
    · exact hordered.read_held id' op hold hkind
    · exact hread hkind
  seam_camera c' op hop := by
    rcases mem_enqueue hop with hold | ⟨hid, rfl⟩
    · exact hordered.seam_camera c' op hold
    · exact hseam c' hid.symm
  remap_first id₁ w hw hkind id₂ r hr hreads := by
    rcases mem_enqueue hw with hw | ⟨-, rfl⟩ <;> rcases mem_enqueue hr with hr | ⟨-, rfl⟩
    · exact hordered.remap_first id₁ w hw hkind id₂ r hr hreads
    · exact hordered.ticket_lt id₁ w hw
    · exact absurd hreads (hremap hkind id₂ r hr _)
    · exact absurd (hkind.symm.trans hreads.1) nofun
  ticket_lt id' op hop := by
    rcases mem_enqueue hop with hold | ⟨-, rfl⟩
    · exact Nat.lt_succ_of_lt (hordered.ticket_lt id' op hold)
    · exact Nat.lt_succ_self _

/-- Whether the thread may have left a kernel in its stream that it has not waited for. -/
def SeamPhase.queued : SeamPhase → Bool
  | .pop queued | .mse queued => queued
  | .download => true
  | .wait_event _ | .resize _ => false

def ApplyPhase.queued : ApplyPhase → Bool
  | .launch _ | .out_s1 => true
  | .out_s2 queued _ | .reset queued _ => queued
  | .warm_up | .wait_all | .pop _ | .take_blender | .wait_event _ => false

/-- What holds in every state: the operations are ordered, a frame that is remapped into is held by nobody else,
and a thread that has not enqueued a kernel or has waited for it has none in its stream. -/
structure Inv (s : State) : Prop where
  ordered : Ordered s.pool s.gpu
  only : ∀ c, s.capture c = .remap → (s.pool c).Only .capture
  seam_done : ∀ c, (s.seam c).queued = false → NoReads (s.gpu.stream (.seam c))
  apply_done : s.apply.queued = false → NoReads (s.gpu.stream .apply)
  reset : ∀ queued rest, s.apply = .reset queued rest → ∀ c, c ∉ rest → (s.pool c).held .apply = none

theorem inv_start : Inv start where
  ordered := ⟨fun _ => owned_init List.nodup_range, nofun, nofun, nofun, nofun⟩
  only _ := nofun
  seam_done _ _ := nofun
  apply_done _ := nofun
  reset _ _ := nofun

theorem Inv.set_pool (hinv : Inv s) {changed : WarpPool} (howned : Owned FrameItem.warp_pool_idx changed)
    (honly : s.capture c = .remap → changed.Only .capture)
    (hheld : ∀ id, ∀ op ∈ s.gpu.stream id, op.kind = .read → op.camera = c → ∀ place, id.reader = some place →
      changed.held place = (s.pool c).held place)
    (hreset : ∀ queued rest, s.apply = .reset queued rest → (s.pool c).held .apply = none →
      changed.held .apply = none) : Inv (s.set_pool c changed) where
  ordered := hinv.ordered.of_pool howned hheld
  only c' hc' := by
    by_cases hc : c' = c
    · subst hc
      rw [State.pool_set_pool, Function.update_self]
      exact honly hc'
    · rw [State.pool_set_pool, Function.update_of_ne hc]
      exact hinv.only c' hc'
  seam_done := hinv.seam_done
  apply_done := hinv.apply_done
  reset queued rest happly c' hc' := by
    have hold := hinv.reset queued rest happly c' hc'
    by_cases hc : c' = c
    · subst hc
      rw [State.pool_set_pool, Function.update_self]
      exact hreset queued rest happly hold
    · rw [State.pool_set_pool, Function.update_of_ne hc]
      exact hold

/-- A place gets a reference to a frame that is held already, or loses the one that it has. -/
theorem Inv.put (hinv : Inv s) (c : Camera) (place : Place) {new : Option FrameItem}
    (hnew : ∀ y ∈ new, ∃ q, (s.pool c).held q = some y)
    (honly : s.capture c = .remap → ((s.pool c).put place new).Only .capture)
    (hread : ∀ id, ∀ op ∈ s.gpu.stream id, op.kind = .read → op.camera = c → id.reader ≠ some place)
    (hreset : ∀ queued rest, s.apply = .reset queued rest → place = .apply → new = none) :
    Inv (s.put c place new) := by
  refine hinv.set_pool ((hinv.ordered.owned c).put hnew) honly ?_ ?_
  · intro id op hop hkind hc other hother
    have hne : other ≠ place := fun h => hread id op hop hkind hc (h ▸ hother)
    exact Function.update_of_ne hne _ _
  · intro queued rest happly hnone
    by_cases hplace : Place.apply = place
    · rw [WarpPool.put, Pool.held_put, hplace, Function.update_self]
      exact hreset queued rest happly hplace.symm
    · rw [WarpPool.put, Pool.held_put, Function.update_of_ne hplace]
      exact hnone

theorem Inv.to_capture (hinv : Inv s) (phase : CapturePhase)
    (honly : phase = .remap → (s.pool c).Only .capture) : Inv (s.to_capture c phase) where
  ordered := hinv.ordered
  only c' hc' := by
    by_cases hc : c' = c
    · subst hc
      rw [State.capture_to_capture, Function.update_self] at hc'
      exact honly hc'
    · rw [State.capture_to_capture, Function.update_of_ne hc] at hc'
      exact hinv.only c' hc'
  seam_done := hinv.seam_done
  apply_done := hinv.apply_done
  reset := hinv.reset

theorem Inv.to_seam (hinv : Inv s) {phase : SeamPhase}
    (hdone : phase.queued = false → NoReads (s.gpu.stream (.seam c))) : Inv (s.to_seam c phase) where
  ordered := hinv.ordered
  only := hinv.only
  seam_done c' hc' := by
    by_cases hc : c' = c
    · subst hc
      rw [State.seam_to_seam, Function.update_self] at hc'
      exact hdone hc'
    · rw [State.seam_to_seam, Function.update_of_ne hc] at hc'
      exact hinv.seam_done c' hc'
  apply_done := hinv.apply_done
  reset := hinv.reset

theorem Inv.to_apply (hinv : Inv s) (phase : ApplyPhase)
    (hdone : phase.queued = false → NoReads (s.gpu.stream .apply))
    (hreset : ∀ queued rest, phase = .reset queued rest → ∀ c, c ∉ rest → (s.pool c).held .apply = none) :
    Inv { s with apply := phase } where
  ordered := hinv.ordered
  only := hinv.only
  seam_done := hinv.seam_done
  apply_done := hdone
  reset := hreset

theorem Inv.enqueue (hinv : Inv s) (id : StreamId) (kind : Kind) (c : Camera) (frame : FrameItem)
    (hread : kind = .read → ∃ place, id.reader = some place ∧ (s.pool c).held place = some frame)
    (hseam : ∀ c', id = .seam c' → c = c' ∧ (kind = .read → (s.seam c').queued = true))
    (happly : id = .apply → kind = .read → s.apply.queued = true)
    (hremap : kind = .remap → ∀ id, ∀ r ∈ s.gpu.stream id, ∀ ticket, ¬ r.Reads ⟨kind, c, frame, ticket⟩) :
    Inv (s.enqueue id kind c frame) where
  ordered := hinv.ordered.enqueue hread (fun c' hid => (hseam c' hid).1) hremap
  only := hinv.only
  seam_done c' hdone op hop hkind := by
    rcases mem_enqueue hop with hold | ⟨hid, rfl⟩
    · exact hinv.seam_done c' hdone op hold hkind
    · have hqueued := (hseam c' hid.symm).2 hkind
      exact Bool.false_ne_true (hdone.symm.trans hqueued)
  apply_done hdone op hop hkind := by
    rcases mem_enqueue hop with hold | ⟨hid, rfl⟩
    · exact hinv.apply_done hdone op hold hkind
    · have hqueued := happly hid.symm hkind
      exact Bool.false_ne_true (hdone.symm.trans hqueued)
  reset := hinv.reset

theorem Inv.of_subset (hinv : Inv s) (hstream : ∀ id, gpu'.stream id ⊆ s.gpu.stream id)
    (hticket : gpu'.ticket = s.gpu.ticket) : Inv { s with gpu := gpu' } where
  ordered := hinv.ordered.of_subset hstream hticket
  only := hinv.only
  seam_done c hdone op hop := hinv.seam_done c hdone op (hstream _ hop)
  apply_done hdone op hop := hinv.apply_done hdone op (hstream _ hop)
  reset := hinv.reset

/-- No kernel relies on the references that the queues, the capture thread and `bright_adjust` hold. -/
def Place.read_nowhere (place : Place) : Prop := ∀ id : StreamId, id.reader ≠ some place

theorem read_nowhere_of_ne (happly : place ≠ .apply) (hseam : place ≠ .seam) : place.read_nowhere := by
  intro id hid
  cases id with
  | camera => cases hid
  | apply => exact happly (Option.some.inj hid).symm
  | seam => exact hseam (Option.some.inj hid).symm

theorem capture_read_nowhere : Place.capture.read_nowhere := read_nowhere_of_ne nofun nofun

/-- A frame is popped from a queue, and the one that the popping thread has had before is dropped. -/
theorem Inv.pop (hinv : Inv s) (c : Camera) (queue out : Place) (hqueue : queue.read_nowhere)
    (hqueue_ne : queue ≠ .capture) (hout : out ≠ .capture)
    (hread : ∀ id, ∀ op ∈ s.gpu.stream id, op.kind = .read → op.camera = c → id.reader ≠ some out)
    (hreset : ∀ queued rest, s.apply = .reset queued rest → out ≠ .apply) : Inv (s.pop c queue out) := by
  have hmoved : Inv (s.put c out ((s.pool c).held queue)) := by
    refine hinv.put c out (fun y hy => ⟨queue, hy⟩) (fun hremap => ?_) hread
      fun queued rest happly hout => absurd hout (hreset queued rest happly)
    exact (hinv.only c hremap).put hout fun y hy => ⟨queue, hqueue_ne, hy⟩
  have hpopped : s.pop c queue out = (s.put c out ((s.pool c).held queue)).put c queue none := by
    simp only [State.pop, State.put, State.set_pool, WarpPool.pop, Function.update_self, Function.update_idem]
  rw [hpopped]
  refine hmoved.put c queue nofun (fun hremap => ?_) (fun id _ _ _ _ => hqueue id) fun _ _ _ _ => rfl
  exact (hmoved.only c hremap).put hqueue_ne nofun

/-- The capture thread hands its frame on. -/
theorem Inv.push (hinv : Inv s) (place : Place) (hcapture : s.capture c ≠ .remap) (hplace : place.read_nowhere)
    (hne : place ≠ .apply) : Inv (s.put c place ((s.pool c).held .capture)) :=
  hinv.put c place (fun _ hy => ⟨.capture, hy⟩) (fun hremap => absurd hremap hcapture) (fun id _ _ _ _ => hplace id)
    fun _ _ _ hplace => absurd hplace hne

/-- The numbers of the frames, the first frame of camera 0, the signals and the gains decide when threads go
on, and not what is held. -/
theorem Inv.progress (hinv : Inv s) (seq : Camera → ℕ) (prev_valid : Bool) (signalled : Camera → Bool)
    (gain_epoch : ℕ) : Inv { s with seq, prev_valid, signalled, gain_epoch } :=
  ⟨hinv.ordered, hinv.only, hinv.seam_done, hinv.apply_done, hinv.reset⟩

theorem NoReads.of_isEmpty {operations : List Op} (hempty : operations.isEmpty = true) : NoReads operations := by
  rw [List.isEmpty_iff.mp hempty]
  exact nofun

/-- A slot that the capture thread has taken is read by no kernel. -/
theorem Inv.not_read (hinv : Inv s) (hcapture : s.capture c = .remap)
    (hframe : (s.pool c).held .capture = some frame) :
    ∀ id, ∀ r ∈ s.gpu.stream id, ∀ ticket, ¬ r.Reads ⟨kind, c, frame, ticket⟩ := by
  rintro id r hr ticket ⟨hread, rfl, hslot⟩
  obtain ⟨place, hreader, hheld⟩ := hinv.ordered.read_held id r hr hread
  have hsame := (hinv.ordered.owned r.camera).injective place .capture r.frame frame hheld hframe hslot
  have hplace := hinv.only r.camera hcapture frame place hframe (hsame ▸ hheld)
  exact capture_read_nowhere id (hplace ▸ hreader)

theorem inv_capture_step (hinv : Inv s) (hstep : capture_step s c = some s') : Inv s' := by
  rw [capture_step] at hstep
  split at hstep
  · rename_i hcapture
    dsimp only at hstep
    split at hstep
    · obtain rfl := Option.some.inj hstep
      exact hinv.progress _ _ _ _
    · rename_i slot hslot
      obtain rfl := Option.some.inj hstep
      have honly := (hinv.ordered.owned c).only_take (p := .capture)
        (x := { seq := s.seq c + 1, warp_pool_idx := slot }) hslot
      refine ((hinv.progress _ _ _ _).set_pool ((hinv.ordered.owned c).take hslot) (fun _ => honly) ?_ ?_).to_capture
        .remap fun _ => by rwa [State.pool_set_pool, Function.update_self]
      · intro id op _ _ _ place hreader
        refine Function.update_of_ne (fun hplace => ?_) _ _
        exact capture_read_nowhere id (hplace ▸ hreader)
      · intro queued rest _ hnone
        have hne : Place.apply ≠ .capture := nofun
        rwa [Pool.held_take, Function.update_of_ne hne]
  · rename_i hcapture
    obtain ⟨frame, hframe, rfl⟩ := Option.map_eq_some_iff.mp hstep
    have hremap := hinv.enqueue (.camera c) .remap c frame nofun nofun nofun fun _ =>
      hinv.not_read hcapture hframe
    exact (hremap.enqueue (.camera c) .record c frame nofun nofun nofun nofun).to_capture .push_blend nofun
  · rename_i hcapture
    obtain rfl := Option.some.inj hstep
    have hpush := hinv.push .q_blend (by rw [hcapture]; nofun) (read_nowhere_of_ne nofun nofun) nofun
    exact hpush.to_capture .signal nofun
  · obtain rfl := Option.some.inj hstep
    exact (hinv.progress _ _ _ _).to_capture .push_seam nofun
  · rename_i hcapture
    obtain rfl := Option.some.inj hstep
    have hpush := hinv.push .q_seam (by rw [hcapture]; nofun) (read_nowhere_of_ne nofun nofun) nofun
    exact hpush.to_capture .push_bright nofun
  · rename_i hcapture
    obtain rfl := Option.some.inj hstep
    split
    · have hpush := hinv.push .cc2bright (by rw [hcapture]; nofun) (read_nowhere_of_ne nofun nofun) nofun
      exact hpush.to_capture .reset nofun
    · exact hinv.to_capture .reset nofun
  · rename_i hcapture
    obtain rfl := Option.some.inj hstep
    have hdropped : Inv (s.put c .capture none) := by
      refine hinv.put c .capture nofun (fun hremap => ?_) (fun id _ _ _ _ => ?_) fun _ _ _ _ => rfl
      · exact absurd (hcapture.symm.trans hremap) nofun
      · exact capture_read_nowhere id
    exact hdropped.to_capture .try_acquire nofun

/-- The seam thread takes its next frame, when the one that it drops is not read any more. -/
theorem Inv.seam_pop (hinv : Inv s) {queued : Bool} (hseam : s.seam c = .pop queued)
    (hcompleted : queued = true → NoReads (s.gpu.stream (.seam c))) {need : Bool} :
    Inv ((s.pop c .q_seam .seam).to_seam c (.wait_event need)) := by
  have hdone : NoReads (s.gpu.stream (.seam c)) := by
    cases queued with
    | false => exact hinv.seam_done c (by rw [hseam]; rfl)
    | true => exact hcompleted rfl
  have hpop := hinv.pop c .q_seam .seam (read_nowhere_of_ne nofun nofun) nofun nofun
  refine (hpop ?_ nofun).to_seam fun _ => hdone
  intro id op hop hread hc hreader
  obtain ⟨c', rfl⟩ := eq_seam_of_reader hreader
  obtain rfl : c' = c := (hinv.ordered.seam_camera c' op hop).symm.trans hc
  exact hdone op hop hread

/-- The seam thread enqueues the resize of its frame. -/
theorem Inv.seam_resize (hinv : Inv s) (hframe : (s.pool c).held .seam = some frame) {phase : SeamPhase}
    (hqueued : phase.queued = true) : Inv ((s.enqueue (.seam c) .read c frame).to_seam c phase) := by
  have hresize := hinv.to_seam (c := c) fun hdone => absurd (hdone.symm.trans hqueued) nofun
  refine hresize.enqueue (.seam c) .read c frame (fun _ => ⟨.seam, rfl, hframe⟩) (fun c' hid => ?_) nofun nofun
  obtain rfl := StreamId.seam.inj hid
  exact ⟨rfl, fun _ => by rwa [State.seam_to_seam, Function.update_self]⟩

theorem inv_seam_step (hinv : Inv s) (need : Bool) (hcompleted : KernelsCompleted s (.seam c need))
    (hstep : seam_step s c need = some s') : Inv s' := by
  rw [seam_step] at hstep
  split at hstep
  · rename_i queued hseam
    split at hstep
    · cases hstep
    · obtain rfl := Option.some.inj hstep
      exact hinv.seam_pop hseam fun hqueued => hcompleted (by rw [hseam]; exact hqueued)
  · rename_i hseam
    obtain ⟨frame, -, rfl⟩ := Option.map_eq_some_iff.mp hstep
    have hwait := hinv.enqueue (.seam c) .wait c frame nofun (fun c' hid => ⟨StreamId.seam.inj hid, nofun⟩)
      nofun nofun
    exact hwait.to_seam fun _ => hwait.seam_done c (by rw [State.enqueue, hseam]; rfl)
  · rename_i need hseam
    split at hstep
    · obtain ⟨frame, hframe, rfl⟩ := Option.map_eq_some_iff.mp hstep
      refine hinv.seam_resize hframe ?_
      split <;> rfl
    · obtain rfl := Option.some.inj hstep
      exact hinv.to_seam fun _ => hinv.seam_done c (by rw [hseam]; rfl)
  · split at hstep
    · rename_i hempty
      obtain rfl := Option.some.inj hstep
      exact hinv.to_seam fun _ => .of_isEmpty hempty
    · cases hstep
  · rename_i queued hseam
    split at hstep
    · split at hstep
      · rename_i hempty
        obtain rfl := Option.some.inj hstep
        exact hinv.to_seam fun _ => .of_isEmpty hempty
      · cases hstep
    · obtain rfl := Option.some.inj hstep
      exact (hinv.progress _ _ _ _).to_seam fun hqueued => hinv.seam_done c (by rw [hseam]; exact hqueued)

/-- The frame of a camera that the apply thread drops is not read any more. -/
theorem Inv.dropped_not_read (hinv : Inv s) {queued : Bool} {rest : List Camera}
    (happly : s.apply = .reset queued (c :: rest)) (hcompleted : KernelsCompleted s .apply) :
    ∀ op ∈ s.gpu.stream .apply, ¬ (op.kind = .read ∧ op.camera = c) := by
  cases queued with
  | true => exact hcompleted c (by rw [happly]; rfl)
  | false => exact fun op hop hread => hinv.apply_done (by rw [happly]; rfl) op hop hread.1

/-- An iteration of the apply thread takes the frame of a camera. -/
theorem Inv.apply_pop (hinv : Inv s) {rest : List Camera} (happly : s.apply = .pop (c :: rest)) :
    Inv { s.pop c .q_blend .apply with apply := .pop rest } := by
  have hdone := hinv.apply_done (by rw [happly]; rfl)
  have hpop := hinv.pop c .q_blend .apply (read_nowhere_of_ne nofun nofun) nofun nofun
  refine (hpop ?_ fun queued rest hreset => ?_).to_apply (.pop rest) (fun _ => hdone) nofun
  · intro id op hop hread hc hreader
    obtain rfl := eq_apply_of_reader hreader
    exact hdone op hop hread
  · exact absurd (happly.symm.trans hreset) nofun

/-- An iteration drops the frame of a camera, which is not read any more. -/
theorem Inv.apply_reset (hinv : Inv s) {queued : Bool} {rest : List Camera}
    (happly : s.apply = .reset queued (c :: rest))
    (hdropped : ∀ op ∈ s.gpu.stream .apply, ¬ (op.kind = .read ∧ op.camera = c)) :
    Inv { s.put c .apply none with apply := .reset queued rest } := by
  have hput : Inv (s.put c .apply none) := by
    refine hinv.put c .apply nofun (fun hremap => (hinv.only c hremap).put nofun nofun) ?_ fun _ _ _ _ => rfl
    intro id op hop hread hc hreader
    obtain rfl := eq_apply_of_reader hreader
    exact hdropped op hop ⟨hread, hc⟩
  refine hput.to_apply (.reset queued rest) (fun hdone => hinv.apply_done (by rwa [happly])) ?_
  rintro _ _ ⟨⟩ c' hc'
  by_cases hc : c' = c
  · subst hc
    rw [State.put, State.pool_set_pool, Function.update_self, WarpPool.put, Pool.held_put, Function.update_self]
  · exact hput.reset queued (c :: rest) happly c' fun hmem => (List.mem_cons.mp hmem).elim hc hc'

theorem mem_cameras (c : Camera) : c ∈ cameras := by
  cases c <;> decide

theorem inv_apply_step (hinv : Inv s) (hcompleted : KernelsCompleted s .apply)
    (hstep : apply_step s = some s') : Inv s' := by
  rw [apply_step] at hstep
  split at hstep
  · rename_i happly
    split at hstep
    · cases hstep
    · obtain rfl := Option.some.inj hstep
      exact hinv.to_apply .wait_all (fun _ => hinv.apply_done (by rw [happly]; rfl)) nofun
  · rename_i happly
    split at hstep
    · obtain rfl := Option.some.inj hstep
      have hdone := hinv.apply_done (by rw [happly]; rfl)
      have hsignalled := hinv.progress s.seq s.prev_valid (fun _ => false) s.gain_epoch
      exact hsignalled.to_apply (.pop cameras) (fun _ => hdone) nofun
    · cases hstep
  · rename_i happly
    obtain rfl := Option.some.inj hstep
    exact hinv.to_apply .take_blender (fun _ => hinv.apply_done (by rw [happly]; rfl)) nofun
  · rename_i c rest happly
    have hdone := hinv.apply_done (by rw [happly]; rfl)
    split at hstep
    · obtain rfl := Option.some.inj hstep
      exact hinv.to_apply (.pop rest) (fun _ => hdone) nofun
    · obtain rfl := Option.some.inj hstep
      exact hinv.apply_pop happly
  · obtain rfl := Option.some.inj hstep
    exact hinv.to_apply (.launch cameras) nofun nofun
  · rename_i c rest happly
    obtain ⟨frame, -, rfl⟩ := Option.map_eq_some_iff.mp hstep
    have hwait := hinv.enqueue .apply .wait c frame nofun nofun nofun nofun
    exact hwait.to_apply (.wait_event rest)
      (fun _ => hwait.apply_done (by rw [State.enqueue, happly]; rfl)) nofun
  · obtain rfl := Option.some.inj hstep
    exact hinv.to_apply .out_s1 nofun nofun
  · rename_i c rest happly
    obtain ⟨frame, hframe, rfl⟩ := Option.map_eq_some_iff.mp hstep
    have hlaunch := hinv.enqueue .apply .read c frame (fun _ => ⟨.apply, rfl, hframe⟩) nofun
      (fun _ _ => by rw [happly]; rfl) nofun
    exact hlaunch.to_apply (.launch rest) nofun nofun
  · rename_i queued happly
    obtain rfl := Option.some.inj hstep
    refine hinv.to_apply .wait_all (fun _ op hop hread => ?_) nofun
    -- all frames have been dropped, and a kernel in the stream would still hold one
    obtain ⟨place, hplace, hheld⟩ := hinv.ordered.read_held .apply op hop hread
    obtain rfl := Option.some.inj hplace
    exact absurd (hheld.symm.trans (hinv.reset queued [] happly op.camera List.not_mem_nil)) nofun
  · rename_i queued c rest happly
    obtain rfl := Option.some.inj hstep
    exact hinv.apply_reset happly (hinv.dropped_not_read happly hcompleted)
  all_goals cases hstep

/-- The frames of all four cameras are dropped at the end of an iteration. -/
theorem mem_reset_order (out : Bool) (c : Camera) : c ∈ if out then cameras else cameras.reverse := by
  cases out with
  | false => exact List.mem_reverse.mpr (mem_cameras c)
  | true => exact mem_cameras c

theorem inv_take_blender_step (hinv : Inv s) (available : Bool)
    (hstep : take_blender_step s available = some s') : Inv s' := by
  rw [take_blender_step] at hstep
  split at hstep
  · rename_i happly
    have hdone := hinv.apply_done (by rw [happly]; rfl)
    split at hstep
    · obtain rfl := Option.some.inj hstep
      exact hinv.to_apply (.wait_event cameras) (fun _ => hdone) nofun
    · obtain rfl := Option.some.inj hstep
      refine hinv.to_apply (.reset false cameras.reverse) (fun _ => hdone) ?_
      rintro _ _ ⟨⟩ c hc
      exact absurd (mem_reset_order false c) hc
  · cases hstep

theorem inv_make_outbuf_step (hinv : Inv s) (outcome : Outbuf)
    (hstep : make_outbuf_step s outcome = some s') : Inv s' := by
  unfold make_outbuf_step at hstep
  split at hstep
  · obtain rfl := Option.some.inj hstep
    exact hinv.to_apply (.out_s2 true false) nofun nofun
  · rename_i ok happly
    split at hstep
    · rename_i hempty
      obtain rfl := Option.some.inj hstep
      exact hinv.to_apply (.out_s2 false ok) (fun _ => .of_isEmpty hempty) nofun
    · cases hstep
  · rename_i queued out_s1 happly
    obtain rfl := Option.some.inj hstep
    refine hinv.to_apply _ (fun hdone => hinv.apply_done (by rw [happly]; exact hdone)) ?_
    rintro _ _ ⟨⟩ c hc
    exact absurd (mem_reset_order out_s1 c) hc
  · rename_i out_s1 ok happly
    split at hstep
    · rename_i hempty
      obtain rfl := Option.some.inj hstep
      refine hinv.to_apply _ (fun _ => .of_isEmpty hempty) ?_
      rintro _ _ ⟨⟩ c hc
      exact absurd (mem_reset_order (out_s1 || ok) c) hc
    · cases hstep
  · cases hstep

theorem start_stream (hstart : gpu.start id = some gpu') : gpu'.stream = gpu.stream ∧ gpu'.ticket = gpu.ticket := by
  rw [Gpu.start] at hstart
  split at hstart
  · cases hstart
  · split at hstart
    · obtain rfl := Option.some.inj hstart
      exact ⟨rfl, rfl⟩
    · cases hstart

/-- An operation that completes is the first of its stream. -/
theorem complete_stream (hcomplete : gpu.complete id = some gpu') :
    (∀ id, gpu'.stream id ⊆ gpu.stream id) ∧ gpu'.ticket = gpu.ticket := by
  rw [Gpu.complete] at hcomplete
  split at hcomplete
  · cases hcomplete
  · rename_i first rest hstream
    split at hcomplete
    · obtain rfl := Option.some.inj hcomplete
      refine ⟨fun id' => ?_, rfl⟩
      show Function.update gpu.stream id rest id' ⊆ gpu.stream id'
      by_cases hid : id' = id
      · subst hid
        rw [Function.update_self, hstream]
        exact List.subset_cons_self first rest
      · rw [Function.update_of_ne hid]
        exact List.Subset.refl _
    · cases hcomplete

theorem inv_step (action : Action) (hinv : Inv s) (hcompleted : KernelsCompleted s action)
    (hstep : step s action = some s') : Inv s' := by
  cases action with
  | capture c => exact inv_capture_step hinv hstep
  | seam c need => exact inv_seam_step hinv need hcompleted hstep
  | bright =>
    rw [step] at hstep
    split at hstep
    · cases hstep
    · obtain rfl := Option.some.inj hstep
      exact hinv.pop .cam1 .cc2bright .bright (read_nowhere_of_ne nofun nofun) nofun nofun
        (fun id _ _ _ _ => read_nowhere_of_ne (by decide) (by decide) id) nofun
  | gains =>
    obtain rfl := Option.some.inj hstep
    exact hinv.progress _ _ _ _
  | apply => exact inv_apply_step hinv hcompleted hstep
  | take_blender available => exact inv_take_blender_step hinv available hstep
  | make_outbuf outcome => exact inv_make_outbuf_step hinv outcome hstep
  | start id =>
    obtain ⟨gpu', hstart, rfl⟩ := Option.map_eq_some_iff.mp hstep
    obtain ⟨hstream, hticket⟩ := start_stream hstart
    exact hinv.of_subset (fun id => hstream ▸ List.Subset.refl _) hticket
  | complete id =>
    obtain ⟨gpu', hcomplete, rfl⟩ := Option.map_eq_some_iff.mp hstep
    obtain ⟨hstream, hticket⟩ := complete_stream hcomplete
    exact hinv.of_subset hstream hticket

theorem Inv.notReused (hinv : Inv s) : NotReused s := by
  intro id _ w hw hremap id' r hr hreads
  have hmem : w ∈ s.gpu.stream id := List.mem_of_mem_head? hw
  exact Nat.not_lt.mpr (hinv.ordered.remap_first id w hmem hremap id' r hr hreads).le

/-- In a run in which the kernels of a thread that has not synchronised its stream have completed when it drops
their frame, no remap writes a slot that an operation enqueued before it has still to read. -/
theorem not_reused (actions : List Action) (s : State) (hrun : run step start actions = some s)
    (hcompleted : Meets step KernelsCompleted start actions) : NotReused s :=
  (invariant_of_meets (fun _ action _ hinv hdone hstep => inv_step action hinv hdone hstep) inv_start hcompleted
    hrun).notReused

/-- A stream runs a number of operations. -/
def execute (n : ℕ) (id : StreamId) : List Action := (List.replicate n [.start id, .complete id]).flatten

/-- The first frames of all cameras, and an iteration of the apply thread with them up to the output buffers. -/
def first_iteration : List Action :=
  .gains :: cameras.flatMap (List.replicate 7 <| .capture ·) ++ List.replicate 7 .apply ++ [.take_blender true] ++
    List.replicate 10 .apply

/-- Camera 2 takes two more frames, and its stream, which has a number of operations before the second remap, runs
up to this. -/
def two_more_frames (before : ℕ) : List Action :=
  List.replicate 9 (.capture .cam2) ++ execute before (.camera .cam2) ++ [.start (.camera .cam2)]

/-- The iteration makes a copy for one of the streams. -/
def copied_iteration : List Action :=
  first_iteration ++ cameras.flatMap (fun c => execute 2 (.camera c)) ++ execute 8 .apply ++
    [.make_outbuf (.copied true), .make_outbuf .not_copied] ++ List.replicate 4 .apply

theorem not_reused_copied : ∃ s, run step start (copied_iteration ++ two_more_frames 2) = some s ∧ NotReused s := by
  obtain ⟨s, hrun⟩ := Option.isSome_iff_exists.mp
    (show (run step start (copied_iteration ++ two_more_frames 2)).isSome = true by decide +kernel)
  exact ⟨s, hrun, not_reused _ s hrun (by decide +kernel)⟩

/-- Nobody watches, so that the iteration makes no copy; its kernels have not run when camera 2 gets the slot of its
first frame again. -/
theorem slot_reused_while_read :
    ¬ ∀ (actions : List Action) (s : State), run step start actions = some s → NotReused s := by
  intro hclaim
  have hreused : (run step start (first_iteration ++ [.make_outbuf .not_copied, .make_outbuf .not_copied] ++
      List.replicate 4 .apply ++ two_more_frames 4)).any (fun s => s.gpu.running (.camera .cam2) ∧
        ∃ w ∈ (s.gpu.stream (.camera .cam2)).head?, w.kind = .remap ∧
          ∃ r ∈ s.gpu.stream .apply, r.Reads w ∧ r.ticket < w.ticket) = true := by decide +kernel
  obtain ⟨s, hrun, hs⟩ := (Option.any_eq_true _ _).mp hreused
  obtain ⟨hrunning, w, hw, hremap, r, hr, hreads, hbefore⟩ := of_decide_eq_true hs
  exact hclaim _ s hrun _ hrunning w hw hremap _ r hr hreads hbefore

end k180.warp_pool
