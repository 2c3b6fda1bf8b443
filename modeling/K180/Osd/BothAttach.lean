import K180.Osd.Fallback
import K180.Osd.Passes

open schedule

namespace k180.osd

open postprocess (kMaxNumOutputBbox)

variable {n k : ℕ} {D : Type*} {σ σ' : State n k D} {s s' : HubsState n k D} {latest : LatestResult D}
  {frame_seq other : ℕ} {dets : List D} {p : Fin k} {pass : Pass D}

/-- The latest result is that of a frame, with these detections. -/
structure Shows (latest : LatestResult D) (frame_seq : ℕ) (dets : List D) : Prop where
  seq : latest.frame_seq = frame_seq
  valid : latest.valid = true
  count : latest.det_count = dets.length
  host : latest.det_host.take dets.length = dets

/-- A frame falls back to its own result. -/
theorem Shows.copy (hshows : Shows latest frame_seq dets) (hdets : dets ≠ []) (hseq : frame_seq ≠ 0) (o : CopyOut D) :
    latest.copy frame_seq o = (true, ⟨dets, o.out_result_seq.map fun _ => frame_seq⟩) := by
  have hlength := List.length_pos_iff.mpr hdets
  have hcount := hshows.count
  rw [LatestResult.copy, if_neg (by rw [hshows.valid]; exact Bool.true_eq_false.mp), if_neg (by omega), hshows.seq,
    if_neg hseq, if_neg (lt_irrefl _), if_neg (fun h => lt_irrefl _ h.1), hcount, Int.toNat_natCast, hshows.host]

theorem DetArray.dets_of_slot (hdets : dets ≠ []) : (DetArray.of_slot dets).dets = some dets := by
  have hlength := List.length_pos_iff.mpr hdets
  rw [DetArray.dets_eq_some_iff]
  refine ⟨Int.natCast_pos.mpr hlength, dets, if_neg hdets, ?_⟩
  exact List.take_length

section Update

variable [Inhabited D]

theorem shows_update (latest : LatestResult D) (frame_seq : ℕ) (hdets : dets ≠ []) :
    Shows (latest.update frame_seq (.of_slot dets)) frame_seq dets := by
  obtain ⟨rest, hupdate⟩ := latest.update_of_dets frame_seq (DetArray.dets_of_slot hdets)
  rw [hupdate]
  exact ⟨rfl, rfl, rfl, List.take_left⟩

/-- An update for another frame replaces the latest result or leaves it alone. -/
theorem Shows.of_update (a : DetArray D) (hne : other ≠ frame_seq)
    (hold : latest.frame_seq = other → Shows latest other dets)
    (hseq : (latest.update frame_seq a).frame_seq = other) : Shows (latest.update frame_seq a) other dets := by
  cases ha : a.dets with
  | some result =>
    obtain ⟨rest, hupdate⟩ := latest.update_of_dets frame_seq ha
    rw [hupdate] at hseq
    exact absurd hseq.symm hne
  | none =>
    rw [LatestResult.update_of_none ha, LatestResult.update_empty] at hseq ⊢
    split at hseq
    · exact absurd hseq.symm hne
    · rename_i hkeep
      rw [if_neg hkeep]
      have hshows := hold hseq
      exact ⟨hshows.seq, hshows.valid, hshows.count, hshows.host⟩

end Update

/-- What a step of the worker can do: it goes on with its job or gives it up, and stores the state before it records
the event; or it publishes its result. -/
theorem worker_step_cases {fail : Bool} (hstep : σ.worker_step fail = some σ') :
    σ'.probes = σ.probes ∧
      ((σ'.published = σ.published ∧ (∀ job, σ'.worker.job = some job → σ.worker.job = some job) ∧
        ∀ i frame_seq res, σ'.worker = .publish .record_event i frame_seq res →
          σ.worker = .publish .store_state i frame_seq res) ∨
      ∃ i frame_seq res, σ.worker = .publish .record_event i frame_seq res ∧ σ'.worker = .idle ∧
        σ'.published = σ.published ++ [(frame_seq, detections res)]) := by
  rw [State.worker_step] at hstep
  split at hstep
  · cases hstep
  · rename_i i frame_seq res hworker
    obtain rfl := Option.some.inj hstep
    rw [State.scan]
    split_ifs <;> refine ⟨rfl, .inl ⟨rfl, fun job hjob => ?_, fun _ _ _ hrecord => by cases hrecord⟩⟩ <;> first
      | (rw [hworker]; exact hjob)
      | cases hjob
  · rename_i stage i frame_seq res hworker
    obtain rfl := Option.some.inj hstep
    cases stage with
    | record_event =>
      rw [State.publish]
      split
      · refine ⟨rfl, .inl ⟨rfl, fun job hjob => ?_, fun _ _ _ hrecord => by cases hrecord⟩⟩
        rw [hworker]
        exact hjob
      · exact ⟨rfl, .inr ⟨i, frame_seq, res, hworker, rfl, rfl⟩⟩
    | claim =>
      rw [State.publish]
      split <;> refine ⟨rfl, .inl ⟨rfl, fun job hjob => ?_, fun _ _ _ hrecord => by cases hrecord⟩⟩ <;>
        rw [hworker] <;> exact hjob
    | give_up =>
      refine ⟨rfl, .inl ⟨rfl, fun job hjob => ?_, fun i frame_seq res hrecord => ?_⟩⟩
      · cases hjob
      · cases hrecord
    | store_state =>
      refine ⟨rfl, .inl ⟨rfl, fun job hjob => ?_, fun i' frame_seq' res' hrecord => ?_⟩⟩
      · rw [hworker]
        exact hjob
      · cases hrecord
        exact hworker
    | reclaim seen | set_frame_seq | set_count | copy_detections =>
      refine ⟨rfl, .inl ⟨rfl, fun job hjob => ?_, fun _ _ _ hrecord => by cases hrecord⟩⟩
      rw [hworker]
      exact hjob

/-- The slot of a probe is that of one frame until the probe is done with it. -/
theorem probe_step_cases {error : Bool} (hstep : σ.probe_step p error = some σ') :
    σ'.published = σ.published ∧ σ'.worker = σ.worker ∧ (∀ q, q ≠ p → σ'.probes q = σ.probes q) ∧
      ((σ'.probes p).frame = none ∨ (σ'.probes p).frame = (σ.probes p).frame) := by
  have hset : ∀ (σ : State n k D) (probe : Probe n D) q, q ≠ p → (σ.set_probe p probe).probes q = σ.probes q :=
    fun σ probe q hq => Function.update_of_ne hq _ _
  have hself : ∀ (σ : State n k D) (probe : Probe n D), ((σ.set_probe p probe).probes p) = probe :=
    fun σ probe => Function.update_self _ _ _
  rw [State.probe_step] at hstep
  split at hstep
  · cases hstep
  · rename_i hprobe
    split_ifs at hstep <;> obtain rfl := Option.some.inj hstep <;> refine ⟨rfl, rfl, hset _ _, ?_⟩ <;>
      rw [hself, hprobe] <;> first | exact .inr rfl | exact .inl rfl
  · rename_i hprobe
    split_ifs at hstep <;> obtain rfl := Option.some.inj hstep <;> refine ⟨rfl, rfl, hset _ _, .inr ?_⟩ <;>
      rw [hself, hprobe] <;> rfl
  · rename_i hprobe
    split_ifs at hstep <;> obtain rfl := Option.some.inj hstep <;> refine ⟨rfl, rfl, hset _ _, .inr ?_⟩ <;>
      rw [hself, hprobe] <;> rfl
  · rename_i hprobe
    obtain rfl := Option.some.inj hstep
    refine ⟨rfl, rfl, hset _ _, .inr ?_⟩
    rw [hself, hprobe]
    rfl
  · obtain rfl := Option.some.inj hstep
    refine ⟨rfl, rfl, fun q hq => hset _ _ q hq, .inl ?_⟩
    exact congrArg Probe.frame (hself _ _)

/-- A probe that finds the slot of its frame starts to work on it. -/
theorem find_step_cases (hstep : step σ (.find p frame_seq) = some σ') :
    σ'.published = σ.published ∧ σ'.worker = σ.worker ∧ (∀ q, q ≠ p → σ'.probes q = σ.probes q) ∧
      ((σ'.probes p).frame = none ∨ (σ'.probes p).frame = some frame_seq) := by
  rw [step] at hstep
  split at hstep
  · rename_i hidle
    split at hstep
    · cases hstep
    · split at hstep
      · rename_i i _
        obtain rfl := Option.some.inj hstep
        refine ⟨rfl, rfl, fun q hq => Function.update_of_ne hq _ _, .inr ?_⟩
        show (Function.update σ.probes p _ p).frame = _
        rw [Function.update_self]
        rfl
      · obtain rfl := Option.some.inj hstep
        refine ⟨rfl, rfl, fun _ _ => rfl, .inl ?_⟩
        rw [hidle]
        rfl
  · cases hstep

/-- What a probe has copied is a result for its frame. -/
theorem Inv.copied (hinv : Inv σ) (hcopied : (σ.probes p).copied = some dets)
    (hframe : (σ.probes p).frame = some frame_seq) : dets ≠ [] ∧ (frame_seq, dets) ∈ σ.published := by
  have hok := hinv.probes p
  cases hprobe : σ.probes p with
  | releasing seq i seen out =>
    rw [hprobe] at hok hcopied hframe
    obtain rfl := Option.some.inj hframe
    rw [Probe.copied] at hcopied
    split at hcopied
    · cases hcopied
    · rename_i hne
      obtain rfl := Option.some.inj hcopied
      exact ⟨hne, hok.2.resolve_left hne⟩
  | _ =>
    rw [hprobe] at hcopied
    cases hcopied

/-- What is due to a buffer has been published for its frame. -/
def DueOk (published : List (ℕ × List D)) (pass : Pass D) : Prop :=
  ∀ dets, pass.due = some dets → (pass.frame_seq, dets) ∈ published ∧ dets ≠ []

/-- A probe that works on a slot does so for the frame of its buffer. -/
def HubOk (σ : State n k D) (p : Fin k) : HubPhase D → Prop
  | .waiting => True
  | .exact pass => (σ.probes p).frame = some pass.frame_seq ∧ DueOk σ.published pass
  | .fallback pass => DueOk σ.published pass

/-- What holds in every state: the results of the frames come in their order and each frame has at most one, the
latest result is that of its frame, and who has passed has what was due. -/
structure HubsInv (s : HubsState n k D) : Prop where
  slots : Inv s.slots
  numbered : ∀ r ∈ s.slots.published, 0 < r.1 ∧ r.1 ≤ s.last_seq
  job : ∀ frame_seq res, s.slots.worker.job = some (frame_seq, res) →
    0 < frame_seq ∧ frame_seq ≤ s.last_seq ∧ ∀ r ∈ s.slots.published, r.1 < frame_seq
  once : ∀ r ∈ s.slots.published, ∀ r' ∈ s.slots.published, r.1 = r'.1 → r = r'
  updated : s.updated = true → ∀ frame_seq res, s.slots.worker.job = some (frame_seq, res) →
    detections res ≠ [] → Shows s.latest frame_seq (detections res)
  recorded : ∀ i frame_seq res, s.slots.worker = .publish .record_event i frame_seq res → s.updated = true
  latest : ∀ r ∈ s.slots.published, r.2 ≠ [] → s.latest.frame_seq = r.1 → Shows s.latest r.1 r.2
  hubs : ∀ p, HubOk s.slots p (s.hubs p)
  passed : ∀ a ∈ s.passed, ∀ dets, a.due = some dets → a.attached = some dets

theorem HubOk.of_probe {phase : HubPhase D} (hok : HubOk σ p phase) (hprobe : σ'.probes p = σ.probes p)
    (hpublished : σ.published ⊆ σ'.published) : HubOk σ' p phase := by
  have hdue : ∀ {pass}, DueOk σ.published pass → DueOk σ'.published pass :=
    fun hdue dets hdets => (hdue dets hdets).imp_left (hpublished ·)
  cases phase with
  | waiting => trivial
  | exact pass =>
    refine ⟨?_, hdue hok.2⟩
    rw [hprobe]
    exact hok.1
  | fallback pass => exact hdue hok

/-- A step on the slots that leaves the worker alone. -/
theorem HubsInv.of_slots (hinv : HubsInv s) (hslots : Inv σ) (hpublished : σ.published = s.slots.published)
    (hworker : σ.worker = s.slots.worker) {hubs : Fin k → HubPhase D} (hhubs : ∀ p, HubOk σ p (hubs p))
    (shown : List ℕ) : HubsInv { s with slots := σ, hubs, shown } where
  slots := hslots
  numbered := hpublished ▸ hinv.numbered
  job := by
    rw [hworker, hpublished]
    exact hinv.job
  once := hpublished ▸ hinv.once
  updated := hworker ▸ hinv.updated
  recorded := hworker ▸ hinv.recorded
  latest := hpublished ▸ hinv.latest
  hubs := hhubs
  passed := hinv.passed

theorem HubsInv.leave (hinv : HubsInv s) (p : Fin k) (pass : Pass D) (attached : Option (List D))
    (hdue : ∀ dets, pass.due = some dets → attached = some dets) : HubsInv (s.leave p pass attached) where
  slots := hinv.slots
  numbered := hinv.numbered
  job := hinv.job
  once := hinv.once
  updated := hinv.updated
  recorded := hinv.recorded
  latest := hinv.latest
  hubs q := by
    show HubOk s.slots q (Function.update s.hubs p .waiting q)
    by_cases hq : q = p
    · rw [hq, Function.update_self]
      trivial
    · rw [Function.update_of_ne hq]
      exact hinv.hubs q
  passed a ha := by
    rcases List.mem_append.mp ha with hold | hnew
    · exact hinv.passed a hold
    · rw [List.mem_singleton.mp hnew]
      exact hdue

theorem HubsState.complete_result_ok (s : HubsState n k D) (frame_seq : ℕ) :
    DueOk s.slots.published ⟨frame_seq, s.complete_result frame_seq⟩ := by
  intro dets hdets
  obtain ⟨⟨seq, _⟩, hfind, rfl⟩ := Option.map_eq_some_iff.mp hdets
  have hshown := List.find?_some hfind
  obtain ⟨rfl, hne⟩ := decide_eq_true_eq.mp hshown
  exact ⟨List.mem_of_find?_eq_some hfind, hne⟩

theorem HubsState.due_ok (s : HubsState n k D) (frame_seq : ℕ) :
    DueOk s.slots.published ⟨frame_seq, s.due frame_seq⟩ := by
  rw [HubsState.due]
  split
  · exact s.complete_result_ok frame_seq
  · exact nofun

theorem hubs_find_inv (hinv : HubsInv s) (hslots : Inv σ) (hstep : step s.slots (.find p frame_seq) = some σ) :
    HubsInv (s.come σ p frame_seq) := by
  obtain ⟨hpublished, hworker, hothers, hframe⟩ := find_step_cases hstep
  refine hinv.of_slots hslots hpublished hworker (fun q => ?_) _
  have hdue : DueOk σ.published ⟨frame_seq, s.due frame_seq⟩ := hpublished ▸ s.due_ok frame_seq
  show HubOk σ q (Function.update s.hubs p _ q)
  by_cases hq : q = p
  · subst hq
    rw [Function.update_self]
    split
    · exact hdue
    · rename_i hnone
      exact ⟨hframe.resolve_left hnone, hdue⟩
  · rw [Function.update_of_ne hq]
    exact (hinv.hubs q).of_probe (hothers q hq) (hpublished ▸ List.Subset.refl _)

theorem hubs_probe_inv (hinv : HubsInv s) (hphase : s.hubs p = .exact pass) (hslots : Inv σ) {error : Bool}
    (hstep : step s.slots (.probe p error) = some σ) : HubsInv (s.after_probe σ p pass) := by
  obtain ⟨hpublished, hworker, hothers, hframe⟩ := probe_step_cases hstep
  have hok := hinv.hubs p
  rw [hphase] at hok
  obtain ⟨hold, hdue⟩ := hok
  have hothers_ok : ∀ q, q ≠ p → HubOk σ q (s.hubs q) := fun q hq =>
    (hinv.hubs q).of_probe (hothers q hq) (hpublished ▸ List.Subset.refl _)
  rw [HubsState.after_probe]
  split
  · -- the probe is done with the slot
    have hset : ∀ phase, HubOk σ p phase → HubsInv { s with slots := σ, hubs := Function.update s.hubs p phase } := by
      intro phase hphase
      refine hinv.of_slots hslots hpublished hworker (fun q => ?_) s.shown
      by_cases hq : q = p
      · rw [hq, Function.update_self]
        exact hphase
      · rw [Function.update_of_ne hq]
        exact hothers_ok q hq
    split
    · rename_i out hcopied
      obtain ⟨hne, hmem⟩ := hinv.slots.copied hcopied hold
      have hleft := (hset .waiting trivial).leave p pass (some out) fun dets hdets => ?_
      · simpa only [HubsState.leave, HubsState.to_hub, Function.update_idem] using hleft
      · have hsame := hinv.once _ (hdue dets hdets).1 _ hmem rfl
        rw [(Prod.mk.inj hsame).2]
    · refine hset (.fallback pass) ?_
      rw [HubOk, hpublished]
      exact hdue
  · rename_i hbusy
    refine hinv.of_slots hslots hpublished hworker (fun q => ?_) s.shown
    by_cases hq : q = p
    · rw [hq, hphase]
      exact ⟨(hframe.resolve_left hbusy).trans hold, hpublished ▸ hdue⟩
    · exact hothers_ok q hq

/-- A buffer with a result due gets it from the latest result, which is still that of its frame. -/
theorem hubs_fallback_inv (hinv : HubsInv s) (hphase : s.hubs p = .fallback pass)
    (hstill : pass.due.isSome = true → s.latest.frame_seq = pass.frame_seq) :
    HubsInv (s.leave p pass (s.attach_latest pass.frame_seq)) := by
  refine hinv.leave p pass _ fun dets hdets => ?_
  have hok := hinv.hubs p
  rw [hphase] at hok
  obtain ⟨hmem, hne⟩ := hok dets hdets
  have hseq := hstill (by rw [hdets]; rfl)
  have hshows := hinv.latest _ hmem hne hseq
  have hpos := (hinv.numbered _ hmem).1
  rw [HubsState.attach_latest, hshows.copy hne (Nat.pos_iff_ne_zero.mp hpos)]
  exact if_pos ⟨rfl, hne⟩

theorem hubs_publish_inv (hinv : HubsInv s) {res : List D} (hnext : s.last_seq < frame_seq)
    (hslots : Inv σ) (hstep : step s.slots (.publish frame_seq res) = some σ) :
    HubsInv { s with slots := σ, updated := false, last_seq := frame_seq } := by
  rw [step] at hstep
  split at hstep
  · obtain rfl := Option.some.inj hstep
    refine ⟨hslots, fun r hr => ?_, fun seq res' hjob => ?_, hinv.once, fun hupdated => ?_,
      fun i seq res' hrecord => ?_, hinv.latest, fun p => ?_, hinv.passed⟩
    · obtain ⟨hpos, hle⟩ := hinv.numbered r hr
      exact ⟨hpos, hle.trans hnext.le⟩
    · obtain ⟨rfl, rfl⟩ := Prod.mk.inj (Option.some.inj hjob)
      exact ⟨Nat.zero_lt_of_lt hnext, le_rfl, fun r hr => (hinv.numbered r hr).2.trans_lt hnext⟩
    · cases hupdated
    · cases hrecord
    · exact (hinv.hubs p).of_probe rfl (List.Subset.refl _)
  · cases hstep

theorem HubsState.updated_of_storing {i : Fin n} {res : List D}
    (hstoring : s.slots.worker = .publish .store_state i frame_seq res) (hupdating : s.updating.isSome = false) :
    s.updated = true := by
  rw [HubsState.updating, hstoring] at hupdating
  dsimp only at hupdating
  split at hupdating
  · assumption
  · cases hupdating

/-- A result that is published is the first for its frame, and the latest result has been updated with it. -/
theorem hubs_worker_inv (hinv : HubsInv s) (hupdating : s.updating.isSome = false) (hslots : Inv σ) {fail : Bool}
    (hstep : step s.slots (.worker fail) = some σ) : HubsInv { s with slots := σ } := by
  obtain ⟨hprobes, ⟨hpublished, hjob, hrecord⟩ | ⟨i, frame_seq, res, hrecording, hidle, hpublished⟩⟩ :=
    worker_step_cases hstep
  · refine ⟨hslots, hpublished ▸ hinv.numbered, fun seq res hseq => ?_, hpublished ▸ hinv.once,
      fun hupdated seq res hseq => hinv.updated hupdated seq res (hjob _ hseq), fun i seq res hseq => ?_,
      hpublished ▸ hinv.latest, fun p => ?_, hinv.passed⟩
    · rw [hpublished]
      exact hinv.job seq res (hjob _ hseq)
    · exact HubsState.updated_of_storing (s := s) (hrecord i seq res hseq) hupdating
    · exact (hinv.hubs p).of_probe (congrFun hprobes p) (hpublished ▸ List.Subset.refl _)
  · have hworking : s.slots.worker.job = some (frame_seq, res) := by
      rw [hrecording]
      rfl
    obtain ⟨hpos, hle, hfirst⟩ := hinv.job frame_seq res hworking
    have hmem : ∀ r ∈ σ.published, r ∈ s.slots.published ∨ r = (frame_seq, detections res) := by
      intro r hr
      rw [hpublished, List.mem_append, List.mem_singleton] at hr
      exact hr
    refine ⟨hslots, fun r hr => ?_, ?_, fun r hr r' hr' hseq => ?_, ?_, ?_, fun r hr hne hseq => ?_, fun p => ?_,
      hinv.passed⟩
    · rcases hmem r hr with hold | rfl
      · exact hinv.numbered r hold
      · exact ⟨hpos, hle⟩
    · rw [hidle]
      exact nofun
    · rcases hmem r hr with hold | rfl <;> rcases hmem r' hr' with hold' | rfl
      · exact hinv.once r hold r' hold' hseq
      · exact absurd hseq (hfirst r hold).ne
      · exact absurd hseq.symm (hfirst r' hold').ne
      · rfl
    · rw [hidle]
      exact nofun
    · rw [hidle]
      exact nofun
    · rcases hmem r hr with hold | rfl
      · exact hinv.latest r hold hne hseq
      · exact hinv.updated (hinv.recorded i frame_seq res hrecording) frame_seq res hworking hne
    · exact (hinv.hubs p).of_probe (congrFun hprobes p) (hpublished ▸ List.subset_append_left _ _)

variable [Inhabited D]

theorem hubs_update_inv (hinv : HubsInv s) {i : Fin n} {res : List D}
    (hupdating : s.updating = some (i, frame_seq, res)) :
    HubsInv { s with
      latest := s.latest.update frame_seq
        (.of_slot ((s.slots.slots i).det_host.take (detections res).length))
      updated := true } := by
  have hstoring : s.slots.worker = .publish .store_state i frame_seq res := by
    rw [HubsState.updating] at hupdating
    split at hupdating
    · split at hupdating
      · cases hupdating
      · obtain ⟨rfl, rfl, rfl⟩ := Option.some.inj hupdating
        assumption
    · cases hupdating
  have hworker := hinv.slots.worker
  rw [hstoring] at hworker
  obtain ⟨-, -, hcopied⟩ := hworker
  have hjob : s.slots.worker.job = some (frame_seq, res) := by
    rw [hstoring]
    rfl
  rw [hcopied]
  refine ⟨hinv.slots, hinv.numbered, hinv.job, hinv.once, fun _ seq res' hseq hne => ?_, fun _ _ _ _ => rfl,
    fun r hr hne hseq => ?_, hinv.hubs, hinv.passed⟩
  · obtain ⟨rfl, rfl⟩ := Prod.mk.inj (Option.some.inj (hjob.symm.trans hseq))
    exact shows_update s.latest frame_seq hne
  · have hbefore := (hinv.job frame_seq res hjob).2.2 r hr
    exact Shows.of_update _ hbefore.ne (hinv.latest r hr hne) hseq

theorem hubs_step_inv (hinv : HubsInv s) {action : HubsAction n k D} (horder : HubsInOrder s action)
    (hstep : hubs_step s action = some s') : HubsInv s' := by
  obtain ⟨hexact, hstill⟩ := horder
  cases action with
  | update_latest =>
    obtain ⟨⟨i, frame_seq, res⟩, hupdating, rfl⟩ := Option.map_eq_some_iff.mp hstep
    exact hubs_update_inv hinv hupdating
  | fallback p =>
    rw [hubs_step] at hstep
    split at hstep
    · rename_i pass hphase
      obtain rfl := Option.some.inj hstep
      exact hubs_fallback_inv hinv hphase (hstill pass (by rw [hphase]; rfl))
    · cases hstep
  | slots a =>
    have hslots : ∀ {σ}, step s.slots a = some σ → Inv σ := step_inv hinv.slots (hexact a rfl)
    cases a with
    | publish frame_seq res =>
      rw [hubs_step] at hstep
      split at hstep
      · rename_i hnext
        obtain ⟨σ, hσ, rfl⟩ := Option.map_eq_some_iff.mp hstep
        exact hubs_publish_inv hinv hnext (hslots hσ) hσ
      · cases hstep
    | worker fail =>
      rw [hubs_step] at hstep
      split at hstep
      · cases hstep
      · rename_i hupdating
        obtain ⟨σ, hσ, rfl⟩ := Option.map_eq_some_iff.mp hstep
        exact hubs_worker_inv hinv (Bool.eq_false_iff.mpr hupdating) (hslots hσ) hσ
    | find p frame_seq =>
      rw [hubs_step] at hstep
      split at hstep
      · obtain ⟨σ, hσ, rfl⟩ := Option.map_eq_some_iff.mp hstep
        exact hubs_find_inv hinv (hslots hσ) hσ
      · cases hstep
    | probe p error =>
      rw [hubs_step] at hstep
      split at hstep
      · rename_i pass hphase
        obtain ⟨σ, hσ, rfl⟩ := Option.map_eq_some_iff.mp hstep
        exact hubs_probe_inv hinv hphase (hslots hσ) hσ
      · cases hstep
    | complete i =>
      rw [hubs_step] at hstep
      obtain ⟨σ, hσ, rfl⟩ := Option.map_eq_some_iff.mp hstep
      have hinv' := hslots hσ
      obtain rfl := Option.some.inj hσ
      exact hinv.of_slots hinv' rfl rfl (fun p => (hinv.hubs p).of_probe rfl (List.Subset.refl _)) s.shown

theorem hubs_initial_inv (k max_det : ℕ) (det_hosts : Fin n → List D) :
    HubsInv (.initial k max_det det_hosts : HubsState n k D) where
  slots := initial_inv k det_hosts
  numbered := nofun
  job := nofun
  once := nofun
  updated := nofun
  recorded := nofun
  latest := nofun
  hubs _ := trivial
  passed := nofun

/-- In every run in which the exact results are in order and the latest result is still that of the frame of a
buffer that falls back to it, hubs that have passed buffers of one frame with its result due have all attached
this. -/
theorem both_attach {max_det : ℕ} {det_hosts : Fin n → List D} {actions : List (HubsAction n k D)}
    {s : HubsState n k D} (hrun : run hubs_step (.initial k max_det det_hosts) actions = some s)
    (hmeets : Meets hubs_step HubsInOrder (.initial k max_det det_hosts) actions) : BothAttach s := by
  have hinv : HubsInv s := invariant_of_meets (fun _ _ _ hinv horder hstep => hubs_step_inv hinv horder hstep)
    (hubs_initial_inv k max_det det_hosts) hmeets hrun
  exact fun a ha b hb _ _ dets hdue hdue' => ⟨hinv.passed a ha dets hdue, hinv.passed b hb dets hdue'⟩

/-- The worker publishes a result into the first of the four slots. -/
def published_result (frame_seq : ℕ) (res : List ℕ) : List (HubsAction 4 2 ℕ) :=
  .slots (.publish frame_seq res) :: List.replicate 5 (.slots (.worker false)) ++ [.update_latest] ++
    List.replicate 2 (.slots (.worker false)) ++ (List.finRange 4).map fun i => .slots (.complete i)

/-- A hub attaches the result in the slot of a frame and releases the slot. -/
def exact_pass (p : Fin 2) (frame_seq : ℕ) : List (HubsAction 4 2 ℕ) :=
  .slots (.find p frame_seq) :: List.replicate 5 (.slots (.probe p false))

def both_streams : HubsState 4 2 ℕ :=
  .initial 2 kMaxNumOutputBbox.toNat fun _ => List.replicate kMaxNumOutputBbox.toNat 0

theorem both_attach_one_result : ∃ s, run hubs_step both_streams
    (published_result 1 [10] ++ exact_pass 0 1 ++ [.slots (.find 1 1), .fallback 1]) = some s ∧ BothAttach s := by
  obtain ⟨s, hrun⟩ := Option.isSome_iff_exists.mp (show (run hubs_step both_streams
    (published_result 1 [10] ++ exact_pass 0 1 ++ [.slots (.find 1 1), .fallback 1])).isSome = true by decide +kernel)
  exact ⟨s, hrun, both_attach hrun (by decide +kernel)⟩

/-- The first hub has released the slot of frame 1 when the buffer of the second hub comes, and the latest result
is already that of frame 2. -/
theorem second_hub_misses : ¬ ∀ (actions : List (HubsAction 4 2 ℕ)) (s : HubsState 4 2 ℕ),
    run hubs_step both_streams actions = some s → BothAttach s := by
  intro hclaim
  have hmissed : (run hubs_step both_streams (published_result 1 [10] ++ exact_pass 0 1 ++ published_result 2 [20] ++
      [.slots (.find 1 1), .fallback 1])).any (fun s => ∃ a ∈ s.passed, ∃ b ∈ s.passed, a.hub ≠ b.hub ∧
        a.frame_seq = b.frame_seq ∧ a.due = some [10] ∧ b.due = some [10] ∧ b.attached = none) = true := by
    decide +kernel
  obtain ⟨s, hrun, hs⟩ := (Option.any_eq_true _ _).mp hmissed
  obtain ⟨a, ha, b, hb, hhub, hseq, hdue, hdue', hnone⟩ := of_decide_eq_true hs
  have hattached := (hclaim _ s hrun a ha b hb hhub hseq [10] hdue hdue').2
  exact absurd (hnone.symm.trans hattached) nofun

end k180.osd
