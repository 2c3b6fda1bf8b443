import K180.Osd.Slots

open schedule

namespace k180.osd

variable {n k : ℕ} {D : Type*}

/-- The slot of a probe whose first query is over: it will release the slot. -/
def Probe.holds : Probe n D → Option (Fin n)
  | .ready _ i _ | .reading _ i _ | .copying _ i _ _ | .releasing _ i _ _ => some i
  | _ => none

/-- The slot that a step claims for a new publication. -/
def State.claims (σ : State n k D) : Action n k D → Option (Fin n)
  | .worker _ =>
    match σ.worker with
    | .publish .claim i _ _ => some i
    | _ => none
  | _ => none

/-- The slot that a probe decides to release in a step, as its query succeeds or fails, and the
publication it has seen there. -/
def State.decides (σ : State n k D) : Action n k D → Option (Fin n × ℕ)
  | .probe p error =>
    match σ.probes p with
    | .found _ i seen => if error ∨ (σ.slots i).event_pending = false then some (i, seen) else none
    | _ => none
  | _ => none

/-- The worker claims no slot that a probe is about to release, and a probe only takes the event for an
answer while the publication it has seen is in the slot and completely written. -/
def InOrder (σ : State n k D) (a : Action n k D) : Prop :=
  (∀ i ∈ σ.claims a, ∀ p, (σ.probes p).holds ≠ some i) ∧
    ∀ decided ∈ σ.decides a, (σ.slots decided.1).generation = decided.2 ∧
      σ.worker.writes decided.1 = false

instance (σ : State n k D) (a : Action n k D) : Decidable (InOrder σ a) :=
  inferInstanceAs (Decidable ((∀ i ∈ σ.claims a, ∀ p, (σ.probes p).holds ≠ some i) ∧
    ∀ decided ∈ σ.decides a, (σ.slots decided.1).generation = decided.2 ∧
      σ.worker.writes decided.1 = false))

/-- A free slot has no frame, a slot in use that of its publication, and what a slot that is not being
written shows has been published. -/
structure SlotOk (published : List (ℕ × List D)) (writing : Bool) (slot : OsdDetSlot D) : Prop where
  free : slot.state = .FREE → slot.frame_seq = 0
  frame : slot.frame_seq = 0 ∨ slot.frame_seq = slot.published_seq
  shown : writing = false → slot.det_count_host = 0 ∨
    (slot.published_seq, slot.det_host.take slot.det_count_host) ∈ published

/-- What the worker has done to its slot so far. -/
def StageOk (slot : OsdDetSlot D) (frame_seq : ℕ) (res : List D) : Stage → Prop
  | .reclaim seen => slot.generation = seen
  | .claim => True
  | .set_frame_seq => slot.published_seq = frame_seq ∧ slot.state = .INFER_PENDING
  | .set_count | .give_up => slot.published_seq = frame_seq
  | .copy_detections =>
    slot.published_seq = frame_seq ∧ slot.det_count_host = (detections res).length
  | .store_state | .record_event =>
    slot.published_seq = frame_seq ∧ slot.det_count_host = (detections res).length ∧
      slot.det_host.take (detections res).length = detections res

def WorkerOk (slots : Fin n → OsdDetSlot D) : Worker n D → Prop
  | .publish stage i frame_seq res => StageOk (slots i) frame_seq res stage
  | _ => True

/-- The publication seen is still in the slot, and complete. -/
def Stable (σ : State n k D) (i : Fin n) (seen frame_seq : ℕ) : Prop :=
  (σ.slots i).generation = seen ∧ σ.worker.writes i = false ∧ (σ.slots i).published_seq = frame_seq

def ProbeOk (σ : State n k D) : Probe n D → Prop
  | .idle => True
  | .found frame_seq i seen => seen ≤ (σ.slots i).generation ∧
      ((σ.slots i).generation = seen → (σ.slots i).published_seq = frame_seq)
  | .ready frame_seq i seen | .reading frame_seq i seen => Stable σ i seen frame_seq
  | .copying frame_seq i seen count => Stable σ i seen frame_seq ∧
      (frame_seq, (σ.slots i).det_host.take count) ∈ σ.published
  | .releasing frame_seq i seen out => Stable σ i seen frame_seq ∧
      (out = [] ∨ (frame_seq, out) ∈ σ.published)

/-- Whoever frees a slot in use has seen the publication in it, and nobody else is writing it. -/
def Freed.Ok (freed : Freed) : Prop :=
  freed.in_use = true → freed.generation = freed.seen ∧ freed.writing = false

structure Inv (σ : State n k D) : Prop where
  slots : ∀ i, SlotOk σ.published (σ.worker.writes i) (σ.slots i)
  worker : WorkerOk σ.slots σ.worker
  probes : ∀ p, ProbeOk σ (σ.probes p)
  attached : ∀ result ∈ σ.attached, result ∈ σ.published
  freed : ∀ freed ∈ σ.freed, freed.Ok

theorem SlotOk.mono {published published' : List (ℕ × List D)} {writing : Bool} {slot : OsdDetSlot D}
    (hok : SlotOk published writing slot) (hpublished : published ⊆ published') :
    SlotOk published' writing slot where
  free := hok.free
  frame := hok.frame
  shown hquiet := (hok.shown hquiet).imp_right fun h => hpublished h

/-- A probe does not notice what happens to other publications than the one it holds. -/
theorem ProbeOk.frame {σ σ' : State n k D} {probe : Probe n D} (hok : ProbeOk σ probe)
    (hgeneration : ∀ i, (σ'.slots i).generation = (σ.slots i).generation)
    (hseq : ∀ i, (σ'.slots i).published_seq = (σ.slots i).published_seq)
    (hquiet : ∀ i, σ.worker.writes i = false →
      σ'.worker.writes i = false ∧ (σ'.slots i).det_host = (σ.slots i).det_host)
    (hpublished : σ.published ⊆ σ'.published) : ProbeOk σ' probe := by
  have hstable : ∀ {i seen frame_seq}, Stable σ i seen frame_seq → Stable σ' i seen frame_seq := by
    intro i seen frame_seq hstable
    rw [Stable, hgeneration, hseq]
    exact ⟨hstable.1, (hquiet i hstable.2.1).1, hstable.2.2⟩
  cases probe with
  | idle => trivial
  | found frame_seq i seen =>
    rw [ProbeOk, hgeneration, hseq]
    exact hok
  | ready frame_seq i seen => exact hstable hok
  | reading frame_seq i seen => exact hstable hok
  | copying frame_seq i seen count =>
    refine ⟨hstable hok.1, ?_⟩
    rw [(hquiet i hok.1.2.1).2]
    exact hpublished hok.2
  | releasing frame_seq i seen out =>
    exact ⟨hstable hok.1, hok.2.imp_right fun h => hpublished h⟩

/-- A slot is written to, but not claimed. -/
theorem Inv.write {σ σ' : State n k D} (hinv : Inv σ) {i : Fin n} {slot : OsdDetSlot D}
    (hslots : σ'.slots = Function.update σ.slots i slot) (hprobes : σ'.probes = σ.probes)
    (hgeneration : slot.generation = (σ.slots i).generation)
    (hseq : slot.published_seq = (σ.slots i).published_seq)
    (hquiet : σ.worker.writes i = false →
      σ'.worker.writes i = false ∧ slot.det_host = (σ.slots i).det_host)
    (hothers : ∀ j, j ≠ i → σ'.worker.writes j = σ.worker.writes j)
    (hpublished : σ.published ⊆ σ'.published)
    (hslot : SlotOk σ'.published (σ'.worker.writes i) slot) (hworker : WorkerOk σ'.slots σ'.worker)
    (hattached : ∀ result ∈ σ'.attached, result ∈ σ'.published) (hfreed : ∀ freed ∈ σ'.freed, freed.Ok) :
    Inv σ' := by
  refine ⟨fun j => ?_, hworker, fun p => ?_, hattached, hfreed⟩
  · rw [hslots]
    by_cases hj : j = i
    · rw [hj, Function.update_self]
      exact hslot
    · rw [Function.update_of_ne hj, hothers j hj]
      exact (hinv.slots j).mono hpublished
  · rw [hprobes]
    apply (hinv.probes p).frame
    · intro j
      rw [hslots]
      by_cases hj : j = i
      · rw [hj, Function.update_self, hgeneration]
      · rw [Function.update_of_ne hj]
    · intro j
      rw [hslots]
      by_cases hj : j = i
      · rw [hj, Function.update_self, hseq]
      · rw [Function.update_of_ne hj]
    · intro j hquiet'
      rw [hslots]
      by_cases hj : j = i
      · subst hj
        rw [Function.update_self]
        exact hquiet hquiet'
      · rw [Function.update_of_ne hj, hothers j hj]
        exact ⟨hquiet', rfl⟩
    · exact hpublished

theorem Inv.set_probe {σ : State n k D} (hinv : Inv σ) (p : Fin k) {probe : Probe n D}
    (hok : ProbeOk σ probe) : Inv (σ.set_probe p probe) := by
  refine ⟨hinv.slots, hinv.worker, fun q => ?_, hinv.attached, hinv.freed⟩
  have hq : ProbeOk σ (Function.update σ.probes p probe q) := by
    rw [Function.update_apply]
    split
    · exact hok
    · exact hinv.probes q
  exact hq.frame (fun _ => rfl) (fun _ => rfl) (fun _ hquiet => ⟨hquiet, rfl⟩) fun _ h => h

theorem SlotOk.release {published : List (ℕ × List D)} {writing : Bool} {slot : OsdDetSlot D} :
    SlotOk published writing (osd_release_slot slot) where
  free _ := rfl
  frame := .inl rfl
  shown _ := .inl rfl

theorem freed_ok_append {freed : List Freed} (hfreed : ∀ f ∈ freed, f.Ok) {last : Freed} (hlast : last.Ok) :
    ∀ f ∈ freed ++ [last], f.Ok := by
  intro f hf
  obtain hf | hf := List.mem_append.mp hf
  · exact hfreed f hf
  · rw [List.mem_singleton.mp hf]
    exact hlast

/-- The worker starts to look for a slot, goes on to the next one or gives its job up. -/
theorem Inv.set_worker {σ : State n k D} (hinv : Inv σ) {worker : Worker n D}
    (hworker : WorkerOk σ.slots worker) (hwrites : ∀ i, worker.writes i = σ.worker.writes i) :
    Inv { σ with worker := worker } := by
  refine ⟨fun i => ?_, hworker, fun p => ?_, hinv.attached, hinv.freed⟩
  · rw [hwrites]
    exact hinv.slots i
  · apply (hinv.probes p).frame
    · intro i
      rfl
    · intro i
      rfl
    · intro i hquiet
      exact ⟨(hwrites i).trans hquiet, rfl⟩
    · exact fun _ h => h

theorem writes_publish (stage : Stage) (i j : Fin n) (frame_seq : ℕ) (res : List D) :
    (Worker.publish stage i frame_seq res).writes j = (stage.writes && decide (i = j)) := rfl

theorem writes_scan (i frame_seq : ℕ) (res : List D) (j : Fin n) :
    (Worker.scan i frame_seq res : Worker n D).writes j = false := rfl

theorem scan_inv {σ : State n k D} {i frame_seq : ℕ} {res : List D} (hinv : Inv σ)
    (hworker : σ.worker = .scan i frame_seq res) (fail : Bool) : Inv (σ.scan fail i frame_seq res) := by
  have hquiet : ∀ j, σ.worker.writes j = false := by
    intro j
    rw [hworker, writes_scan]
  rw [State.scan]
  split
  · split
    · apply hinv.set_worker
      · trivial
      · intro j
        rw [hquiet]
        rfl
    · split
      · apply hinv.set_worker
        · trivial
        · intro j
          rw [hquiet]
          rfl
      · apply hinv.set_worker
        · exact rfl
        · intro j
          rw [hquiet]
          rfl
  · apply hinv.set_worker
    · trivial
    · intro j
      rw [hquiet]
      rfl

/-- A probe that is not about to release the slot that is claimed does not lose its publication. -/
theorem ProbeOk.claim {σ σ' : State n k D} {probe : Probe n D} {i : Fin n} (hok : ProbeOk σ probe)
    (hunheld : probe.holds ≠ some i)
    (hgeneration : (σ'.slots i).generation = (σ.slots i).generation + 1)
    (hothers : ∀ j, j ≠ i → σ'.slots j = σ.slots j) (hquiet : ∀ j, j ≠ i → σ'.worker.writes j = false)
    (hpublished : σ'.published = σ.published) : ProbeOk σ' probe := by
  have hstable : ∀ {j seen seq}, j ≠ i → Stable σ j seen seq → Stable σ' j seen seq := by
    intro j seen seq hj hstable
    rw [Stable, hothers j hj]
    exact ⟨hstable.1, hquiet j hj, hstable.2.2⟩
  have hne : ∀ {j}, probe.holds = some j → j ≠ i := by
    rintro j hholds rfl
    exact hunheld hholds
  cases probe with
  | idle => trivial
  | found seq j seen =>
    by_cases hj : j = i
    · subst hj
      obtain ⟨hle, _⟩ := hok
      rw [ProbeOk, hgeneration]
      constructor
      · omega
      · intro hseen
        omega
    · rw [ProbeOk, hothers j hj]
      exact hok
  | ready seq j seen => exact hstable (hne rfl) hok
  | reading seq j seen => exact hstable (hne rfl) hok
  | copying seq j seen count =>
    refine ⟨hstable (hne rfl) hok.1, ?_⟩
    rw [hothers j (hne rfl), hpublished]
    exact hok.2
  | releasing seq j seen out =>
    refine ⟨hstable (hne rfl) hok.1, ?_⟩
    rw [hpublished]
    exact hok.2

theorem claim_inv {σ : State n k D} {i : Fin n} {frame_seq : ℕ} {res : List D} (hinv : Inv σ)
    (hworker : σ.worker = .publish .claim i frame_seq res)
    (hunheld : ∀ p, (σ.probes p).holds ≠ some i) (hfree : (σ.slots i).state = .FREE) :
    Inv { σ.set_slot i { σ.slots i with
        state := .INFER_PENDING
        generation := (σ.slots i).generation + 1
        published_seq := frame_seq } with
      worker := .publish .set_frame_seq i frame_seq res } := by
  have hquiet : ∀ j, σ.worker.writes j = false := by
    intro j
    rw [hworker]
    rfl
  have hothers : ∀ j, j ≠ i →
      (Worker.publish .set_frame_seq i frame_seq res).writes j = false := by
    intro j hj
    rw [writes_publish, Bool.and_eq_false_iff]
    exact .inr (decide_eq_false (Ne.symm hj))
  refine ⟨fun j => ?_, ?_, fun p => ?_, hinv.attached, hinv.freed⟩
  · by_cases hj : j = i
    · subst hj
      simp only [State.set_slot, Function.update_self]
      constructor
      · intro hstate
        cases hstate
      · exact .inl ((hinv.slots j).free hfree)
      · intro hwrites
        simp [writes_publish, Stage.writes] at hwrites
    · simp only [State.set_slot, Function.update_of_ne hj, hothers j hj]
      rw [← hquiet j]
      exact hinv.slots j
  · simp [WorkerOk, StageOk, State.set_slot]
  · apply (hinv.probes p).claim (hunheld p)
    · simp [State.set_slot]
    · intro j hj
      simp [State.set_slot, hj]
    · exact hothers
    · rfl

/-- While the worker writes to a slot it is the only one to be written. -/
theorem writes_other {stage stage' : Stage} {i j : Fin n} {frame_seq : ℕ} {res : List D} (hj : j ≠ i) :
    (Worker.publish stage i frame_seq res).writes j = (Worker.publish stage' i frame_seq res).writes j := by
  rw [writes_publish, writes_publish, decide_eq_false (Ne.symm hj), Bool.and_false, Bool.and_false]

theorem writes_self {stage : Stage} {i : Fin n} {frame_seq : ℕ} {res : List D} :
    (Worker.publish stage i frame_seq res).writes i = stage.writes := by
  rw [writes_publish, decide_eq_true rfl, Bool.and_true]

/-- A step of a publication that writes to its slot and goes on. -/
theorem Inv.publish_on {σ : State n k D} {i : Fin n} {frame_seq : ℕ} {res : List D} {stage stage' : Stage}
    {slot : OsdDetSlot D} (hinv : Inv σ) (hworker : σ.worker = .publish stage i frame_seq res)
    (hwrites : stage.writes = true) (hwrites' : stage'.writes = true)
    (hgeneration : slot.generation = (σ.slots i).generation)
    (hseq : slot.published_seq = (σ.slots i).published_seq)
    (hfree : slot.state = .FREE → slot.frame_seq = 0)
    (hframe : slot.frame_seq = 0 ∨ slot.frame_seq = slot.published_seq)
    (hstage : StageOk slot frame_seq res stage') :
    Inv { σ.set_slot i slot with worker := .publish stage' i frame_seq res } := by
  refine hinv.write rfl rfl hgeneration hseq ?_ ?_ (fun _ h => h) ?_ ?_ hinv.attached hinv.freed
  · intro hquiet
    rw [hworker, writes_self, hwrites] at hquiet
    cases hquiet
  · intro j hj
    rw [hworker]
    exact writes_other hj
  · refine ⟨hfree, hframe, fun hquiet => ?_⟩
    rw [writes_self, hwrites'] at hquiet
    cases hquiet
  · simpa only [WorkerOk, State.set_slot, Function.update_self] using hstage

/-- The last step of a publication. -/
theorem Inv.publish_end {σ σ' : State n k D} {i : Fin n} {frame_seq : ℕ} {res : List D} {stage : Stage}
    {slot : OsdDetSlot D} (hinv : Inv σ) (hworker : σ.worker = .publish stage i frame_seq res)
    (hwrites : stage.writes = true) (hslots : σ'.slots = Function.update σ.slots i slot)
    (hprobes : σ'.probes = σ.probes) (hworker' : σ'.worker = .idle)
    (hgeneration : slot.generation = (σ.slots i).generation)
    (hseq : slot.published_seq = (σ.slots i).published_seq) (hpublished : σ.published ⊆ σ'.published)
    (hattached : σ'.attached = σ.attached) (hslot : SlotOk σ'.published false slot)
    (hfreed : ∀ freed ∈ σ'.freed, freed.Ok) : Inv σ' := by
  have hidle : ∀ j, σ'.worker.writes j = false := by
    intro j
    rw [hworker']
    rfl
  refine hinv.write hslots hprobes hgeneration hseq ?_ ?_ hpublished ?_ ?_ ?_ hfreed
  · intro hquiet
    rw [hworker, writes_self, hwrites] at hquiet
    cases hquiet
  · intro j hj
    rw [hidle, hworker, writes_publish, decide_eq_false (Ne.symm hj), Bool.and_false]
  · rw [hidle]
    exact hslot
  · rw [hworker']
    trivial
  · intro result hresult
    rw [hattached] at hresult
    exact hpublished (hinv.attached result hresult)

theorem publish_inv {σ : State n k D} {i : Fin n} {frame_seq : ℕ} {res : List D} {stage : Stage}
    (hinv : Inv σ) (hworker : σ.worker = .publish stage i frame_seq res)
    (hunheld : stage = .claim → ∀ p, (σ.probes p).holds ≠ some i) (fail : Bool) :
    Inv (σ.publish fail i frame_seq res stage) := by
  have hstage : StageOk (σ.slots i) frame_seq res stage := by
    have hok := hinv.worker
    rw [hworker] at hok
    exact hok
  have hslot := hinv.slots i
  cases stage with
  | reclaim seen =>
    have hslots : (σ.publish fail i frame_seq res (.reclaim seen)).slots =
        Function.update σ.slots i (osd_release_slot (σ.slots i)) := rfl
    refine hinv.write hslots rfl rfl rfl ?_ ?_ (fun _ h => h) SlotOk.release trivial hinv.attached ?_
    · intro _
      exact ⟨writes_self, rfl⟩
    · intro j hj
      rw [hworker]
      exact writes_other hj
    · apply freed_ok_append hinv.freed
      intro _
      exact ⟨hstage, rfl⟩
  | claim =>
    rw [State.publish]
    split
    · rename_i hfree
      exact claim_inv hinv hworker (hunheld rfl) hfree
    · apply hinv.set_worker
      · trivial
      · intro j
        rw [hworker]
        rfl
  | set_frame_seq =>
    obtain ⟨hseq, hstate⟩ := hstage
    refine hinv.publish_on hworker rfl rfl rfl rfl ?_ (.inr hseq.symm) hseq
    intro hfree
    rw [hstate] at hfree
    cases hfree
  | set_count =>
    exact hinv.publish_on hworker rfl rfl rfl rfl hslot.free hslot.frame ⟨hstage, rfl⟩
  | copy_detections =>
    exact hinv.publish_on hworker rfl rfl rfl rfl hslot.free hslot.frame
      ⟨hstage.1, hstage.2, List.take_left⟩
  | store_state =>
    refine hinv.publish_on hworker rfl rfl rfl rfl ?_ hslot.frame hstage
    intro hfree
    cases hfree
  | record_event =>
    rw [State.publish]
    split
    · apply hinv.set_worker
      · exact hstage.1
      · intro j
        rw [hworker]
        rfl
    · obtain ⟨hseq, hcount, hhost⟩ := hstage
      refine hinv.publish_end hworker rfl rfl rfl rfl rfl rfl ?_ rfl ?_ hinv.freed
      · exact List.subset_append_left _ _
      · refine ⟨hslot.free, hslot.frame, fun _ => .inr ?_⟩
        simp [hseq, hcount, hhost]
  | give_up =>
    refine hinv.publish_end hworker rfl rfl rfl rfl rfl rfl (fun _ h => h) rfl SlotOk.release ?_
    apply freed_ok_append hinv.freed
    intro _
    exact ⟨rfl, rfl⟩

/-- Nothing the worker relies on is lost when somebody else changes a slot that it does not write. -/
theorem WorkerOk.update {slots : Fin n → OsdDetSlot D} {worker : Worker n D} {i : Fin n}
    {slot : OsdDetSlot D} (hok : WorkerOk slots worker) (hquiet : worker.writes i = false)
    (hgeneration : slot.generation = (slots i).generation) :
    WorkerOk (Function.update slots i slot) worker := by
  cases worker with
  | idle => trivial
  | scan j frame_seq res => trivial
  | publish stage j frame_seq res =>
    rw [WorkerOk] at hok ⊢
    by_cases hj : j = i
    · subst hj
      rw [writes_self] at hquiet
      rw [Function.update_self]
      cases stage with
      | reclaim seen => exact hgeneration.trans hok
      | claim => trivial
      | _ => cases hquiet
    · rw [Function.update_of_ne hj]
      exact hok

theorem worker_step_inv {σ σ' : State n k D} (hinv : Inv σ) {fail : Bool}
    (hunheld : ∀ i ∈ σ.claims (.worker fail), ∀ p, (σ.probes p).holds ≠ some i)
    (hstep : σ.worker_step fail = some σ') : Inv σ' := by
  rw [State.worker_step] at hstep
  cases hworker : σ.worker with
  | idle =>
    rw [hworker] at hstep
    cases hstep
  | scan i frame_seq res =>
    rw [hworker] at hstep
    obtain rfl := Option.some.inj hstep
    exact scan_inv hinv hworker fail
  | publish stage i frame_seq res =>
    rw [hworker] at hstep
    obtain rfl := Option.some.inj hstep
    apply publish_inv hinv hworker
    rintro rfl
    apply hunheld
    simp [State.claims, hworker]

/-- The release of a probe frees the publication it has seen, which nobody is writing. -/
theorem Inv.release {σ : State n k D} (hinv : Inv σ) {i : Fin n} {seen frame_seq : ℕ}
    (hstable : Stable σ i seen frame_seq) : Inv (σ.release i seen (σ.worker.writes i)) := by
  obtain ⟨hseen, hquiet, _⟩ := hstable
  have hslots : (σ.release i seen (σ.worker.writes i)).slots =
      Function.update σ.slots i (osd_release_slot (σ.slots i)) := rfl
  refine hinv.write hslots rfl rfl rfl ?_ ?_ (fun _ h => h) SlotOk.release ?_ hinv.attached ?_
  · intro hquiet
    exact ⟨hquiet, rfl⟩
  · intro j hj
    rfl
  · exact hinv.worker.update hquiet rfl
  · apply freed_ok_append hinv.freed
    intro _
    exact ⟨hseen, hquiet⟩

/-- Only results that have been published are attached. -/
theorem Inv.attach {σ : State n k D} (hinv : Inv σ) {frame_seq : ℕ} {out : List D}
    (hout : out = [] ∨ (frame_seq, out) ∈ σ.published) :
    ∀ result ∈ if out = [] then σ.attached else σ.attached ++ [(frame_seq, out)],
      result ∈ σ.published := by
  split
  · exact hinv.attached
  · rename_i hne
    intro result hresult
    obtain hold | hnew := List.mem_append.mp hresult
    · exact hinv.attached result hold
    · rw [List.mem_singleton.mp hnew]
      exact hout.resolve_left hne

/-- A probe that has found its slot stays with the publication it has seen there. -/
theorem probe_step_inv {σ σ' : State n k D} (hinv : Inv σ) {p : Fin k} {error : Bool}
    (hdecides : ∀ decided ∈ σ.decides (.probe p error),
      (σ.slots decided.1).generation = decided.2 ∧ σ.worker.writes decided.1 = false)
    (hstep : σ.probe_step p error = some σ') : Inv σ' := by
  have hp := hinv.probes p
  rw [State.probe_step] at hstep
  cases hprobe : σ.probes p with
  | idle =>
    rw [hprobe] at hstep
    cases hstep
  | found frame_seq i seen =>
    simp only [hprobe] at hstep
    simp only [State.decides, hprobe] at hdecides
    rw [hprobe] at hp
    have hstable : error = true ∨ (σ.slots i).event_pending = false → Stable σ i seen frame_seq := by
      intro hdone
      rw [if_pos hdone] at hdecides
      obtain ⟨hseen, hquiet⟩ := hdecides (i, seen) rfl
      exact ⟨hseen, hquiet, hp.2 hseen⟩
    split at hstep
    · rename_i herror
      obtain rfl := Option.some.inj hstep
      exact hinv.set_probe p ⟨hstable (.inl herror), .inl rfl⟩
    · split at hstep
      · obtain rfl := Option.some.inj hstep
        exact hinv.set_probe p trivial
      · rename_i hdone
        obtain rfl := Option.some.inj hstep
        exact hinv.set_probe p (hstable (.inr (Bool.eq_false_iff.mpr hdone)))
  | ready frame_seq i seen =>
    simp only [hprobe] at hstep
    rw [hprobe] at hp
    split at hstep
    · obtain rfl := Option.some.inj hstep
      exact hinv.set_probe p ⟨hp, .inl rfl⟩
    · obtain rfl := Option.some.inj hstep
      exact hinv.set_probe p hp
  | reading frame_seq i seen =>
    simp only [hprobe] at hstep
    rw [hprobe] at hp
    split at hstep
    · obtain rfl := Option.some.inj hstep
      exact hinv.set_probe p ⟨hp, .inl rfl⟩
    · rename_i hcount
      obtain rfl := Option.some.inj hstep
      refine hinv.set_probe p ⟨hp, ?_⟩
      have hshown := ((hinv.slots i).shown hp.2.1).resolve_left hcount
      rwa [hp.2.2] at hshown
  | copying frame_seq i seen count =>
    simp only [hprobe] at hstep
    rw [hprobe] at hp
    obtain rfl := Option.some.inj hstep
    exact hinv.set_probe p ⟨hp.1, .inr hp.2⟩
  | releasing frame_seq i seen out =>
    simp only [hprobe] at hstep
    rw [hprobe] at hp
    obtain ⟨hstable, hout⟩ := hp
    obtain rfl := Option.some.inj hstep
    have hidle : ProbeOk (σ.release i seen (σ.worker.writes i)) .idle := trivial
    have hset := (hinv.release hstable).set_probe p hidle
    exact ⟨hset.slots, hset.worker, hset.probes, hinv.attach hout, hset.freed⟩

theorem complete_inv {σ : State n k D} (hinv : Inv σ) (i : Fin n) :
    Inv (σ.set_slot i { σ.slots i with event_pending := false }) := by
  have hslot := hinv.slots i
  refine hinv.write rfl rfl rfl rfl ?_ (fun _ _ => rfl) (fun _ h => h)
    ⟨hslot.free, hslot.frame, hslot.shown⟩ ?_ hinv.attached hinv.freed
  · intro hquiet
    exact ⟨hquiet, rfl⟩
  · have hworker := hinv.worker
    cases hcases : σ.worker with
    | idle => simp [WorkerOk, State.set_slot, hcases]
    | scan j frame_seq res => simp [WorkerOk, State.set_slot, hcases]
    | publish stage j frame_seq res =>
      rw [hcases] at hworker
      simp only [WorkerOk, State.set_slot, hcases] at hworker ⊢
      by_cases hj : j = i
      · subst hj
        rw [Function.update_self]
        cases stage with
        | _ => exact hworker
      · rw [Function.update_of_ne hj]
        exact hworker

/-- A slot in use that shows the frame of a probe is the slot of its publication. -/
theorem find_inv {σ : State n k D} (hinv : Inv σ) (p : Fin k) {frame_seq : ℕ} (hpos : frame_seq ≠ 0)
    {i : Fin n} (hfind : find_slot_by_frame_seq_from σ.slots frame_seq = some i) :
    Inv (σ.set_probe p (.found frame_seq i (σ.slots i).generation)) := by
  have hshown := List.find?_some hfind
  simp only [decide_eq_true_eq] at hshown
  refine hinv.set_probe p ⟨le_rfl, fun _ => ?_⟩
  rw [← hshown.2]
  refine ((hinv.slots i).frame.resolve_left ?_).symm
  rw [hshown.2]
  exact hpos

theorem step_inv {σ σ' : State n k D} {a : Action n k D} (hinv : Inv σ) (horder : InOrder σ a)
    (hstep : step σ a = some σ') : Inv σ' := by
  cases a with
  | publish frame_seq res =>
    rw [step] at hstep
    split at hstep
    · rename_i hworker
      obtain rfl := Option.some.inj hstep
      apply hinv.set_worker
      · trivial
      · intro i
        rw [hworker]
        rfl
    · cases hstep
  | worker fail => exact worker_step_inv hinv horder.1 hstep
  | find p frame_seq =>
    rw [step] at hstep
    split at hstep
    · split at hstep
      · cases hstep
      · rename_i hpos
        split at hstep
        · rename_i i hfind
          obtain rfl := Option.some.inj hstep
          exact find_inv hinv p hpos hfind
        · obtain rfl := Option.some.inj hstep
          exact hinv
    · cases hstep
  | probe p error => exact probe_step_inv hinv horder.2 hstep
  | complete i =>
    obtain rfl := Option.some.inj hstep
    exact complete_inv hinv i

theorem initial_inv (k : ℕ) (det_hosts : Fin n → List D) : Inv (State.initial k det_hosts) where
  slots i := ⟨fun _ => rfl, .inl rfl, fun _ => .inl rfl⟩
  worker := trivial
  probes p := trivial
  attached result hresult := by cases hresult
  freed freed hfreed := by cases hfreed

/-- In every run in which no slot is claimed away from a probe that will release it, and no probe acts on
the event of another or an unfinished publication, only complete results are attached, and only for
their own frames, and nobody frees a publication that it has not seen or that is being written. -/
theorem exact_results_in_order {k : ℕ} {det_hosts : Fin n → List D} {actions : List (Action n k D)}
    {σ : State n k D} (hrun : run step (State.initial k det_hosts) actions = some σ)
    (hmeets : Meets step InOrder (State.initial k det_hosts) actions) :
    (∀ result ∈ σ.attached, result ∈ σ.published) ∧
      ∀ freed ∈ σ.freed, freed.in_use = true → freed.generation = freed.seen ∧ freed.writing = false := by
  have hinv : Inv σ := by
    apply invariant_of_meets (fun _ _ _ => step_inv) _ hmeets hrun
    exact initial_inv k det_hosts
  exact ⟨hinv.attached, hinv.freed⟩

def worker_steps (count : ℕ) : List (Action 1 1 ℕ) := List.replicate count (.worker false)

def probe_steps (count : ℕ) : List (Action 1 1 ℕ) := List.replicate count (.probe 0 false)

/-- A slot and a probe that finds in it what has been published. -/
def one_slot : State 1 1 ℕ := .initial 1 fun _ => [0, 0, 0]

def first_result : List (Action 1 1 ℕ) := [.publish 1 [10, 11]] ++ worker_steps 7 ++ [.complete 0]

/-- The probe finds the slot of the second frame before its detections have been copied. -/
def torn_result : List (Action 1 1 ℕ) :=
  first_result ++ [.publish 2 [20, 21]] ++ worker_steps 5 ++ [.find 0 2] ++ probe_steps 5 ++ worker_steps 3

/-- The slot of the first frame is reused before the probe that has found it releases it. -/
def stolen_result : List (Action 1 1 ℕ) :=
  first_result ++ [.find 0 1] ++ probe_steps 1 ++ [.publish 2 [20, 21]] ++ worker_steps 8 ++ probe_steps 2

theorem exact_results_in_order_sample :
    ∃ σ, run step one_slot (first_result ++ [.find 0 1] ++ probe_steps 5) = some σ ∧
      σ.attached = [(1, [10, 11])] ∧ ∀ result ∈ σ.attached, result ∈ σ.published := by
  obtain ⟨σ, hrun, hattached⟩ : ∃ σ, run step one_slot (first_result ++ [.find 0 1] ++ probe_steps 5) =
      some σ ∧ σ.attached = [(1, [10, 11])] := ⟨_, rfl, rfl⟩
  exact ⟨σ, hrun, hattached, (exact_results_in_order hrun (by decide)).1⟩

/-- The detections of the first frame are attached to the second one, whose slot is freed while it is
being written; and the result of the second frame is freed by a probe that has seen the first one. -/
theorem torn_and_stolen :
    (∃ σ, run step one_slot torn_result = some σ ∧ (2, [10, 11]) ∈ σ.attached ∧
      (2, [10, 11]) ∉ σ.published ∧ ⟨2, 2, true, true⟩ ∈ σ.freed) ∧
      ∃ σ, run step one_slot stolen_result = some σ ∧ ⟨1, 2, true, false⟩ ∈ σ.freed := by
  refine ⟨⟨_, rfl, ?_, ?_, ?_⟩, _, rfl, ?_⟩
  · decide
  · decide
  · decide
  · decide

end k180.osd
