import K180.Frames.Pipeline
import K180.Schedule.Line

open schedule

namespace k180.frames

open infer_pool (InferJob)
open stage_queue (StageQueue)
open warp_pool (Camera cameras)

variable {s s' : State} {a : Action} {c : Camera}

/-- What a step can do. -/
inductive Steps (s : State) : Action → State → Prop where
  | pull (c : Camera) (hcapture : s.capture c = .waiting) :
    Steps s (.pull c)
      ({ s with seq := Function.update s.seq c (s.seq c + 1) }.to_capture c (.numbered (s.seq c + 1)))
  | keep (c : Camera) {seq : ℕ} (hcapture : s.capture c = .numbered seq) :
    Steps s (.warp c true) ((s.to_blend c ((s.q_blend c).try_push seq).1).to_capture c .signalling)
  | drop (c : Camera) {seq : ℕ} (hcapture : s.capture c = .numbered seq) :
    Steps s (.warp c false) (s.to_capture c .waiting)
  | signal (c : Camera) (hcapture : s.capture c = .signalling) :
    Steps s (.signal c) ({ s with signalled := Function.update s.signalled c true }.to_capture c .waiting)
  | end_capture (c : Camera) (hcapture : s.capture c = .waiting)
      (hend : s.running = false ∨ s.pipeline_sync_stop = true) : Steps s (.end_capture c) (s.to_capture c .exited)
  | gains : Steps s .gains { s with gain_epoch := s.gain_epoch + 1 }
  | warmed (happly : s.apply = .warm_up) (hend : ¬ (s.running = true ∧ s.gain_epoch = 0)) :
    Steps s .apply { s with apply := .head }
  | head (happly : s.apply = .head) : Steps s .apply { s with apply := if s.running then .wait_all else .exited }
  | end_wait (happly : s.apply = .wait_all) (hstop : s.pipeline_sync_stop = true) :
    Steps s .apply { s with apply := .exited }
  | wait_all (happly : s.apply = .wait_all) (hstop : s.pipeline_sync_stop = false)
      (hall : ∀ c ∈ cameras, s.signalled c = true) :
    Steps s .apply { s with signalled := fun _ => false, apply := .pop cameras fun _ => none }
  | popped {cur : Camera → Option ℕ} (happly : s.apply = .pop [] cur) :
    Steps s .apply { s with apply := .take_blender cur }
  | pop {c : Camera} {rest : List Camera} {cur : Camera → Option ℕ} (happly : s.apply = .pop (c :: rest) cur) :
    Steps s .apply (pop_step s c rest cur)
  | submit {slot_idx frame_seq : ℕ} (happly : s.apply = .submit slot_idx frame_seq) :
    Steps s .apply
      { s with infer_q := (s.infer_q.try_push ⟨slot_idx, frame_seq⟩).1, apply := .make_s1 frame_seq }
  | push_s1 {out_s1 out_s2 : Option Outbuf} (happly : s.apply = .push_s1 out_s1 out_s2) :
    Steps s .apply { s.push .S1 out_s1 with apply := .push_s2 out_s2 }
  | push_s2 {out_s2 : Option Outbuf} (happly : s.apply = .push_s2 out_s2) :
    Steps s .apply { s.push .S2 out_s2 with apply := .head }
  | blend {cur : Camera → Option ℕ} (happly : s.apply = .take_blender cur) (hall : ∀ c ∈ cameras, cur c ≠ none) :
    Steps s (.take_blender true)
      { s with
        panoramas := s.panoramas ++ [fun c => (cur c).getD 0]
        apply := .detect ((cur .cam0).getD 0) }
  | skip {cur : Camera → Option ℕ} (happly : s.apply = .take_blender cur) (available : Bool) :
    Steps s (.take_blender available) { s with apply := .head }
  | detect {frame_seq : ℕ} (happly : s.apply = .detect frame_seq) (slot_idx : Option ℕ) :
    Steps s (.detect slot_idx)
      { s with apply := slot_idx.elim (.make_s1 frame_seq) fun i => .submit i frame_seq }
  | make_s1 {frame_seq : ℕ} (happly : s.apply = .make_s1 frame_seq) (made : Option Bool) :
    Steps s (.make_outbuf made) { s with apply := .make_s2 (make_v1234_outbuf frame_seq made) frame_seq }
  | make_s2 {out_s1 : Option Outbuf} {frame_seq : ℕ} (happly : s.apply = .make_s2 out_s1 frame_seq)
      (made : Option Bool) :
    Steps s (.make_outbuf made) { s with apply := .push_s1 out_s1 (make_v1234_outbuf frame_seq made) }
  | worker_head (hworker : s.worker = .head) :
    Steps s .worker { s with worker := if s.running then .popping else .exited }
  | worker_pop (hworker : s.worker = .popping) (hready : s.infer_q.ready = true) :
    Steps s .worker
      { s with
        infer_q := s.infer_q.try_pop.1
        worker := s.infer_q.try_pop.2.handed.elim .exited .popped }
  | give_up {job : InferJob} (hworker : s.worker = .popped job) (ok : Bool) :
    Steps s (.synchronize ok) { s with worker := .head }
  | infer {job : InferJob} (hworker : s.worker = .popped job) :
    Steps s (.synchronize true) { s with worker := .inferred .detections job }
  | stage {stage : Stage} {job : InferJob} (hworker : s.worker = .inferred stage job) (enabled : Bool) :
    Steps s (.stage enabled)
      { if enabled then s.result stage job.frame_seq else s with worker := Worker.next job stage enabled }
  | sync_stop : Steps s .sync_stop { s with pipeline_sync_stop := true }
  | stop : Steps s .stop { s with running := false }
  | close_blend (c : Camera) : Steps s (.close_blend c) (s.to_blend c (s.q_blend c).close)
  | close_infer : Steps s .close_infer { s with infer_q := s.infer_q.close }

theorem apply_step_cases (hstep : apply_step s = some s') : Steps s .apply s' := by
  rw [apply_step] at hstep
  split at hstep
  · rename_i happly
    split at hstep
    · cases hstep
    · rename_i hend
      obtain rfl := Option.some.inj hstep
      exact .warmed happly hend
  · rename_i happly
    obtain rfl := Option.some.inj hstep
    exact .head happly
  · rename_i happly
    rw [wait_all_step] at hstep
    split at hstep
    · rename_i hstop
      obtain rfl := Option.some.inj hstep
      exact .end_wait happly hstop
    rename_i hstop
    split at hstep
    · rename_i hall
      obtain rfl := Option.some.inj hstep
      exact .wait_all happly (Bool.eq_false_of_not_eq_true hstop) hall
    · cases hstep
  · rename_i happly
    obtain rfl := Option.some.inj hstep
    exact .popped happly
  · rename_i happly
    obtain rfl := Option.some.inj hstep
    exact .pop happly
  · rename_i happly
    obtain rfl := Option.some.inj hstep
    exact .submit happly
  · rename_i happly
    obtain rfl := Option.some.inj hstep
    exact .push_s1 happly
  · rename_i happly
    obtain rfl := Option.some.inj hstep
    exact .push_s2 happly
  all_goals cases hstep

theorem worker_step_cases (hstep : worker_step s = some s') : Steps s .worker s' := by
  rw [worker_step] at hstep
  split at hstep
  · rename_i hworker
    obtain rfl := Option.some.inj hstep
    exact .worker_head hworker
  · rename_i hworker
    rw [StageQueue.pop] at hstep
    split at hstep
    · rename_i hready
      obtain rfl := Option.some.inj hstep
      exact .worker_pop hworker hready
    · cases hstep
  · cases hstep

theorem step_cases (hstep : step s a = some s') : Steps s a s' := by
  cases a with
  | pull c =>
    rw [step, pull_step] at hstep
    split at hstep
    · rename_i hcapture
      obtain rfl := Option.some.inj hstep
      exact .pull c hcapture
    · cases hstep
  | warp c ok =>
    rw [step, warp_step] at hstep
    split at hstep
    · rename_i hcapture
      cases ok with
      | true =>
        obtain rfl := Option.some.inj hstep
        exact .keep c hcapture
      | false =>
        obtain rfl := Option.some.inj hstep
        exact .drop c hcapture
    · cases hstep
  | signal c =>
    rw [step, signal_step] at hstep
    split at hstep
    · rename_i hcapture
      obtain rfl := Option.some.inj hstep
      exact .signal c hcapture
    · cases hstep
  | end_capture c =>
    rw [step, end_capture_step] at hstep
    split at hstep
    · rename_i hcapture
      split at hstep
      · rename_i hend
        obtain rfl := Option.some.inj hstep
        exact .end_capture c hcapture hend
      · cases hstep
    · cases hstep
  | gains =>
    obtain rfl := Option.some.inj hstep
    exact .gains
  | apply => exact apply_step_cases hstep
  | take_blender available =>
    rw [step, take_blender_step] at hstep
    split at hstep
    · rename_i happly
      split at hstep
      · rename_i hall
        obtain ⟨hall, rfl⟩ := hall
        obtain rfl := Option.some.inj hstep
        exact .blend happly hall
      · obtain rfl := Option.some.inj hstep
        exact .skip happly available
    · cases hstep
  | detect slot_idx =>
    rw [step, detect_step] at hstep
    split at hstep
    · rename_i happly
      obtain rfl := Option.some.inj hstep
      exact .detect happly slot_idx
    · cases hstep
  | make_outbuf made =>
    rw [step, make_outbuf_step] at hstep
    split at hstep
    · rename_i happly
      obtain rfl := Option.some.inj hstep
      exact .make_s1 happly made
    · rename_i happly
      obtain rfl := Option.some.inj hstep
      exact .make_s2 happly made
    · cases hstep
  | worker => exact worker_step_cases hstep
  | synchronize ok =>
    rw [step, synchronize_step] at hstep
    split at hstep
    · rename_i hworker
      split at hstep
      · obtain rfl := Option.some.inj hstep
        exact .give_up hworker ok
      · cases ok with
        | true =>
          obtain rfl := Option.some.inj hstep
          exact .infer hworker
        | false =>
          obtain rfl := Option.some.inj hstep
          exact .give_up hworker false
    · cases hstep
  | stage enabled =>
    rw [step, stage_step] at hstep
    split at hstep
    · rename_i hworker
      obtain rfl := Option.some.inj hstep
      exact .stage hworker enabled
    · cases hstep
  | sync_stop =>
    obtain rfl := Option.some.inj hstep
    exact .sync_stop
  | stop =>
    obtain rfl := Option.some.inj hstep
    exact .stop
  | close_blend c =>
    obtain rfl := Option.some.inj hstep
    exact .close_blend c
  | close_infer =>
    obtain rfl := Option.some.inj hstep
    exact .close_infer

/-- What an iteration has taken and not blended yet. -/
def Apply.cur : Apply → Camera → Option ℕ
  | .pop _ cur, c | .take_blender cur, c => cur c
  | _, _ => none

def Capture.frame : Capture → Option ℕ
  | .numbered seq => some seq
  | .waiting | .signalling | .exited => none

/-- The frames of a camera that can still get into a panorama, the oldest first. -/
def State.coming (s : State) (c : Camera) : List ℕ :=
  (s.apply.cur c).toList ++ ((s.q_blend c).q_ ++ (s.capture c).frame.toList)

def State.line (s : State) (c : Camera) : List ℕ := s.panoramas.map (· c) ++ s.coming c

/-- The numbers that a camera has given. -/
def State.numbers (s : State) (c : Camera) : List ℕ := List.range' 1 (s.seq c)

theorem fed_of_coming (hseq : s'.seq c = s.seq c) (hpanoramas : s'.panoramas = s.panoramas)
    (hcoming : (s'.coming c).Sublist (s.coming c)) : Fed (s.numbers c) (s.line c) (s'.numbers c) (s'.line c) := by
  rw [State.numbers, State.numbers, hseq, State.line, State.line, hpanoramas]
  exact .lose (hcoming.append_left _)

/-- A frame moves on, or is lost, in its capture thread. -/
theorem coming_to_capture (s : State) (c₀ : Camera) {phase : Capture} (hphase : phase.frame = none) (c : Camera) :
    ((s.to_capture c₀ phase).coming c).Sublist (s.coming c) := by
  refine List.Sublist.append_left (List.Sublist.append_left ?_ _) _
  obtain rfl | hne := eq_or_ne c c₀
  · rw [State.capture_to_capture, Function.update_self, hphase]
    exact List.nil_sublist _
  · rw [State.capture_to_capture, Function.update_of_ne hne]

theorem coming_push (s : State) (c₀ : Camera) {seq : ℕ} (hcapture : s.capture c₀ = .numbered seq) (c : Camera) :
    ((((s.to_blend c₀ ((s.q_blend c₀).try_push seq).1).to_capture c₀ .signalling)).coming c).Sublist (s.coming c) := by
  refine List.Sublist.append_left ?_ _
  obtain rfl | hne := eq_or_ne c c₀
  · have hpush := StageQueue.try_push_sublist (s.q_blend c) seq
    simpa [State.to_capture, State.to_blend, hcapture, Capture.frame] using hpush
  · simp [State.to_capture, State.to_blend, Function.update_of_ne hne]

theorem coming_pop (s : State) (c₀ : Camera) {rest : List Camera} {cur : Camera → Option ℕ}
    (happly : s.apply = .pop (c₀ :: rest) cur) (c : Camera) :
    ((pop_step s c₀ rest cur).coming c).Sublist (s.coming c) := by
  rw [State.coming, State.coming, ← List.append_assoc, ← List.append_assoc]
  refine List.Sublist.append_right ?_ _
  rw [happly]
  obtain rfl | hne := eq_or_ne c c₀
  · have hpop := StageQueue.try_pop_latest_sublist (s.q_blend c)
    cases hhanded : (s.q_blend c).try_pop_latest.2.handed with
    | none =>
      rw [hhanded] at hpop
      simpa [pop_step, State.to_blend, Apply.cur, hhanded] using hpop
    | some seq =>
      rw [hhanded] at hpop
      simpa [pop_step, State.to_blend, Apply.cur, hhanded] using hpop.trans (List.sublist_append_right ..)
  · simp [pop_step, State.to_blend, Apply.cur, Function.update_of_ne hne]

/-- `thread_blender_apply` drops what it has in `cur`. -/
theorem coming_apply (s : State) {apply : Apply} (happly : apply.cur c = none ∨ apply.cur c = s.apply.cur c) :
    ({ s with apply }.coming c).Sublist (s.coming c) := by
  refine List.Sublist.append_right ?_ _
  obtain hnone | hsame := happly
  · rw [hnone]
    exact List.nil_sublist _
  · rw [hsame]

theorem line_blend (s : State) {cur : Camera → Option ℕ} (happly : s.apply = .take_blender cur)
    (hall : ∀ c ∈ cameras, cur c ≠ none) (c : Camera) :
    { s with
      panoramas := s.panoramas ++ [fun c => (cur c).getD 0]
      apply := .detect ((cur .cam0).getD 0) }.line c = s.line c := by
  have hmem : c ∈ cameras := by cases c <;> simp [cameras]
  obtain ⟨seq, hseq⟩ := Option.ne_none_iff_exists'.mp (hall c hmem)
  simp [State.line, State.coming, happly, Apply.cur, hseq]

theorem line_pull (c₀ : Camera) (hcapture : s.capture c₀ = .waiting) (c : Camera) :
    let s' := { s with seq := Function.update s.seq c₀ (s.seq c₀ + 1) }.to_capture c₀ (.numbered (s.seq c₀ + 1))
    Fed (s.numbers c) (s.line c) (s'.numbers c) (s'.line c) := by
  obtain rfl | hne := eq_or_ne c c₀
  · have hnumbers : List.range' 1 (s.seq c + 1) = s.numbers c ++ [s.seq c + 1] := by
      rw [List.range'_1_concat, Nat.add_comm 1, State.numbers]
    refine ⟨[s.seq c + 1], ?_, ?_⟩
    · simpa [State.numbers, State.to_capture] using hnumbers
    · simp [State.line, State.coming, State.to_capture, Capture.frame, hcapture]
  · refine fed_of_coming (Function.update_of_ne hne ..) rfl ?_
    simp [State.coming, State.to_capture, hne]

theorem line_fed (c : Camera) (hstep : step s a = some s') :
    Fed (s.numbers c) (s.line c) (s'.numbers c) (s'.line c) := by
  cases step_cases hstep with
  | pull c₀ hcapture => exact line_pull c₀ hcapture c
  | keep c₀ hcapture => exact fed_of_coming rfl rfl (coming_push s c₀ hcapture c)
  | drop c₀ hcapture => exact fed_of_coming rfl rfl (coming_to_capture s c₀ rfl c)
  | signal c₀ hcapture => exact fed_of_coming rfl rfl (coming_to_capture s c₀ rfl c)
  | end_capture c₀ hcapture hend => exact fed_of_coming rfl rfl (coming_to_capture s c₀ rfl c)
  | warmed happly hend => exact fed_of_coming rfl rfl (coming_apply s (.inl rfl))
  | head happly => exact fed_of_coming rfl rfl (coming_apply s (.inl (by split <;> rfl)))
  | end_wait happly hstop => exact fed_of_coming rfl rfl (coming_apply s (.inl rfl))
  | wait_all happly hstop hall => exact fed_of_coming rfl rfl (coming_apply s (.inl rfl))
  | popped happly => exact fed_of_coming rfl rfl (coming_apply s (.inr (by rw [happly]; rfl)))
  | pop happly => exact fed_of_coming rfl rfl (coming_pop s _ happly c)
  | submit happly => exact fed_of_coming rfl rfl (coming_apply s (.inl rfl))
  | push_s1 happly => exact fed_of_coming rfl rfl (coming_apply s (.inl rfl))
  | push_s2 happly => exact fed_of_coming rfl rfl (coming_apply s (.inl rfl))
  | blend happly hall =>
    rw [line_blend s happly hall]
    exact .same
  | skip happly available => exact fed_of_coming rfl rfl (coming_apply s (.inl rfl))
  | detect happly slot_idx => exact fed_of_coming rfl rfl (coming_apply s (.inl (by cases slot_idx <;> rfl)))
  | make_s1 happly made => exact fed_of_coming rfl rfl (coming_apply s (.inl rfl))
  | make_s2 happly made => exact fed_of_coming rfl rfl (coming_apply s (.inl rfl))
  | stage hworker enabled =>
    cases enabled <;> exact .same
  | close_blend c₀ =>
    refine fed_of_coming rfl rfl ?_
    obtain rfl | hne := eq_or_ne c c₀
    · simp [State.coming, State.to_blend, StageQueue.close]
    · simp [State.coming, State.to_blend, hne]
  | gains | worker_head hworker | worker_pop hworker hready | give_up hworker ok | infer hworker | sync_stop | stop
  | close_infer => exact .same

/-! ### What becomes of a panorama -/

/-- The number of `cur[0]` of each panorama. -/
def State.frame_seqs (s : State) : List ℕ := s.panoramas.map (· .cam0)

/-- The number for which a job has still to be made of the panorama. -/
def Apply.job : Apply → Option ℕ
  | .detect frame_seq | .submit _ frame_seq => some frame_seq
  | _ => none

/-- The number for which a stage has still to run, of the job that the worker has. -/
def Worker.ahead : Worker → Stage → Option ℕ
  | .popped job, _ | .inferred .detections job, _ | .inferred .tracker job, .tracker | .inferred .tracker job, .tracks
  | .inferred .tracks job, .tracks => some job.frame_seq
  | _, _ => none

def State.result_line (s : State) (stage : Stage) : List ℕ :=
  s.results stage ++ ((s.worker.ahead stage).toList ++ (s.infer_q.q_.map InferJob.frame_seq ++ s.apply.job.toList))

theorem fed_of_results {stage : Stage} (hpanoramas : s'.panoramas = s.panoramas)
    (hline : (s'.result_line stage).Sublist (s.result_line stage)) :
    Fed s.frame_seqs (s.result_line stage) s'.frame_seqs (s'.result_line stage) := by
  rw [State.frame_seqs, State.frame_seqs, hpanoramas]
  exact .lose hline

theorem results_apply (s : State) (stage : Stage) {apply : Apply}
    (happly : apply.job = none ∨ apply.job = s.apply.job) :
    ({ s with apply }.result_line stage).Sublist (s.result_line stage) := by
  refine List.Sublist.append_left (List.Sublist.append_left (List.Sublist.append_left ?_ _) _) _
  obtain hnone | hsame := happly
  · rw [hnone]
    exact List.nil_sublist _
  · rw [hsame]

theorem results_submit (s : State) (stage : Stage) {slot_idx frame_seq : ℕ}
    (happly : s.apply = .submit slot_idx frame_seq) :
    ({ s with infer_q := (s.infer_q.try_push ⟨slot_idx, frame_seq⟩).1, apply := .make_s1 frame_seq }.result_line
      stage).Sublist (s.result_line stage) := by
  refine List.Sublist.append_left (List.Sublist.append_left ?_ _) _
  have hpush := (StageQueue.try_push_sublist s.infer_q ⟨slot_idx, frame_seq⟩).map InferJob.frame_seq
  simpa [happly, Apply.job] using hpush

theorem results_worker (s : State) (stage : Stage) {worker : Worker}
    (hworker : worker.ahead stage = none ∨ worker.ahead stage = s.worker.ahead stage) :
    ({ s with worker }.result_line stage).Sublist (s.result_line stage) := by
  refine List.Sublist.append_left (List.Sublist.append_right ?_ _) _
  obtain hnone | hsame := hworker
  · rw [hnone]
    exact List.nil_sublist _
  · rw [hsame]

theorem results_pop (s : State) (stage : Stage) (hworker : s.worker = .popping) :
    ({ s with
        infer_q := s.infer_q.try_pop.1
        worker := s.infer_q.try_pop.2.handed.elim .exited .popped }.result_line stage).Sublist
      (s.result_line stage) := by
  refine List.Sublist.append_left ?_ _
  rw [← List.append_assoc, ← List.append_assoc]
  refine List.Sublist.append_right ?_ _
  have hpop := (StageQueue.try_pop_sublist s.infer_q).map InferJob.frame_seq
  cases hhanded : s.infer_q.try_pop.2.handed <;>
    simpa [hworker, hhanded, Worker.ahead] using hpop

/-- A stage runs for the number that it was ahead of. -/
theorem results_stage (s : State) (i : Stage) {stage : Stage} {job : InferJob}
    (hworker : s.worker = .inferred stage job)
    (enabled : Bool) :
    ({ if enabled then s.result stage job.frame_seq else s with
        worker := Worker.next job stage enabled }.result_line i).Sublist (s.result_line i) := by
  rw [State.result_line, State.result_line, hworker]
  cases enabled <;> cases stage <;> cases i <;>
    simp [State.result, Worker.next, Worker.ahead]

theorem results_fed (stage : Stage) (hstep : step s a = some s') :
    Fed s.frame_seqs (s.result_line stage) s'.frame_seqs (s'.result_line stage) := by
  cases step_cases hstep with
  | warmed happly hend => exact fed_of_results rfl (results_apply s stage (.inl rfl))
  | head happly => exact fed_of_results rfl (results_apply s stage (.inl (by split <;> rfl)))
  | end_wait happly hstop => exact fed_of_results rfl (results_apply s stage (.inl rfl))
  | wait_all happly hstop hall => exact fed_of_results rfl (results_apply s stage (.inl rfl))
  | popped happly => exact fed_of_results rfl (results_apply s stage (.inl rfl))
  | pop happly => exact fed_of_results rfl (results_apply s stage (.inl rfl))
  | submit happly => exact fed_of_results rfl (results_submit s stage happly)
  | push_s1 happly => exact fed_of_results rfl (results_apply s stage (.inl rfl))
  | push_s2 happly => exact fed_of_results rfl (results_apply s stage (.inl rfl))
  | @blend cur happly hall =>
    refine ⟨[(cur .cam0).getD 0], ?_, ?_⟩
    · rw [State.frame_seqs, State.frame_seqs, List.map_append, List.map_singleton]
    · simp [State.result_line, happly, Apply.job]
  | skip happly available => exact fed_of_results rfl (results_apply s stage (.inl rfl))
  | detect happly slot_idx =>
    refine fed_of_results rfl (results_apply s stage ?_)
    rw [happly]
    cases slot_idx with
    | none => exact .inl rfl
    | some i => exact .inr rfl
  | make_s1 happly made => exact fed_of_results rfl (results_apply s stage (.inl rfl))
  | make_s2 happly made => exact fed_of_results rfl (results_apply s stage (.inl rfl))
  | worker_head hworker => exact fed_of_results rfl (results_worker s stage (.inl (by split <;> rfl)))
  | worker_pop hworker hready => exact fed_of_results rfl (results_pop s stage hworker)
  | give_up hworker ok => exact fed_of_results rfl (results_worker s stage (.inl rfl))
  | infer hworker => exact fed_of_results rfl (results_worker s stage (.inr (by rw [hworker]; cases stage <;> rfl)))
  | stage hworker enabled =>
    refine fed_of_results ?_ (results_stage s stage hworker enabled)
    cases enabled <;> rfl
  | pull c hcapture | keep c hcapture | drop c hcapture | signal c hcapture | end_capture c hcapture hend
  | gains | sync_stop | stop | close_blend c | close_infer => exact .same

def Outbuf.tags (out : Option Outbuf) : List ℕ := (out.bind Outbuf.frame_tag).toList

/-- The number with which a buffer for the hub of a group has still to be pushed, or made. -/
def Apply.tags : Apply → StreamGroup → List ℕ
  | .detect frame_seq, _ | .submit _ frame_seq, _ | .make_s1 frame_seq, _ | .make_s2 _ frame_seq, .S2 => [frame_seq]
  | .make_s2 out_s1 _, .S1 | .push_s1 out_s1 _, .S1 => Outbuf.tags out_s1
  | .push_s1 _ out_s2, .S2 | .push_s2 out_s2, .S2 => Outbuf.tags out_s2
  | _, _ => []

/-- The frame tags of the buffers that the hub of a group has been handed. -/
def State.frame_tags (s : State) (g : StreamGroup) : List ℕ := (s.pushed g).filterMap Outbuf.frame_tag

def State.tag_line (s : State) (g : StreamGroup) : List ℕ := s.frame_tags g ++ s.apply.tags g

theorem fed_of_tags {g : StreamGroup} (hpanoramas : s'.panoramas = s.panoramas)
    (hpushed : s'.pushed = s.pushed) (happly : (s'.apply.tags g).Sublist (s.apply.tags g)) :
    Fed s.frame_seqs (s.tag_line g) s'.frame_seqs (s'.tag_line g) := by
  have htags : s'.frame_tags g = s.frame_tags g := by rw [State.frame_tags, State.frame_tags, hpushed]
  rw [State.frame_seqs, State.frame_seqs, hpanoramas, State.tag_line, State.tag_line, htags]
  exact .lose (happly.append_left _)

theorem tags_make_v1234_outbuf (frame_seq : ℕ) (made : Option Bool) :
    (Outbuf.tags (make_v1234_outbuf frame_seq made)).Sublist [frame_seq] := by
  cases made with
  | none => exact List.nil_sublist _
  | some tagged => cases tagged <;> simp [Outbuf.tags, make_v1234_outbuf]

theorem frame_tags_push (s : State) (g g' : StreamGroup) (out : Option Outbuf) :
    (s.push g out).frame_tags g' = s.frame_tags g' ++ if g' = g then Outbuf.tags out else [] := by
  obtain rfl | hne := eq_or_ne g' g
  · cases out with
    | none => simp [State.frame_tags, State.push, Outbuf.tags]
    | some buf => cases htag : buf.frame_tag <;> simp [State.frame_tags, State.push, Outbuf.tags, htag]
  · simp [State.frame_tags, State.push, hne]

/-- A buffer that is pushed has been ahead. -/
theorem fed_of_push {g g' : StreamGroup} {out : Option Outbuf} {apply : Apply}
    (happly : (if g = g' then Outbuf.tags out else []) ++ apply.tags g = s.apply.tags g) :
    Fed s.frame_seqs (s.tag_line g) { s.push g' out with apply }.frame_seqs
      ({ s.push g' out with apply }.tag_line g) := by
  have hline : ({ s.push g' out with apply } : State).tag_line g = s.tag_line g := by
    have htags : ({ s.push g' out with apply } : State).frame_tags g = (s.push g' out).frame_tags g := rfl
    rw [State.tag_line, htags, frame_tags_push, List.append_assoc, happly, State.tag_line]
  rw [hline]
  exact .same

theorem tags_fed (g : StreamGroup) (hstep : step s a = some s') :
    Fed s.frame_seqs (s.tag_line g) s'.frame_seqs (s'.tag_line g) := by
  cases step_cases hstep with
  | warmed happly hend | end_wait happly hstop | wait_all happly hstop hall | popped happly | pop happly =>
    exact fed_of_tags rfl rfl (List.nil_sublist _)
  | head happly => exact fed_of_tags rfl rfl (by split <;> exact List.nil_sublist _)
  | submit happly => exact fed_of_tags rfl rfl (by rw [happly]; rfl)
  | push_s1 happly => exact fed_of_push (by rw [happly]; cases g <;> simp [Apply.tags])
  | push_s2 happly => exact fed_of_push (by rw [happly]; cases g <;> simp [Apply.tags])
  | @blend cur happly hall =>
    refine ⟨[(cur .cam0).getD 0], ?_, ?_⟩
    · rw [State.frame_seqs, State.frame_seqs, List.map_append, List.map_singleton]
    · simp [State.tag_line, State.frame_tags, happly, Apply.tags]
  | skip happly available => exact fed_of_tags rfl rfl (List.nil_sublist _)
  | detect happly slot_idx => exact fed_of_tags rfl rfl (by rw [happly]; cases slot_idx <;> rfl)
  | make_s1 happly made =>
    refine fed_of_tags rfl rfl ?_
    rw [happly]
    cases g with
    | S1 => exact tags_make_v1234_outbuf _ made
    | S2 => exact List.Sublist.refl _
  | make_s2 happly made =>
    refine fed_of_tags rfl rfl ?_
    rw [happly]
    cases g with
    | S1 => exact List.Sublist.refl _
    | S2 => exact tags_make_v1234_outbuf _ made
  | stage hworker enabled =>
    cases enabled <;> exact .same
  | pull c hcapture | keep c hcapture | drop c hcapture | signal c hcapture | end_capture c hcapture hend
  | gains | worker_head hworker | worker_pop hworker hready | give_up hworker ok | infer hworker | sync_stop | stop
  | close_blend c | close_infer => exact .same

/-! ### Runs -/

theorem pairwise_numbers (s : State) (c : Camera) : (s.numbers c).Pairwise (· < ·) := List.pairwise_lt_range'

/-- Every panorama takes newer frames than the one before, of each camera, and none that the camera has not captured.
A hub gets its buffers, and the worker deals with the detections, in the order of the panoramas, and with none
twice. -/
structure InOrder (s : State) : Prop where
  panoramas : ∀ c, (s.panoramas.map (· c)).Pairwise (· < ·)
  captured : ∀ p ∈ s.panoramas, ∀ c, 1 ≤ p c ∧ p c ≤ s.seq c
  pushed : ∀ g, (s.frame_tags g).Sublist s.frame_seqs
  results : ∀ stage, (s.results stage).Sublist s.frame_seqs

theorem panoramas_in_order {actions : List Action} (hrun : run step start actions = some s) : InOrder s := by
  have hline (c : Camera) : (s.panoramas.map (· c)).Sublist (s.numbers c) :=
    (List.sublist_append_left ..).trans
      (sublist_of_run (State.numbers · c) (State.line · c) (fun _ _ _ => line_fed c) (List.Sublist.refl _) hrun)
  constructor
  · exact fun c => (pairwise_numbers s c).sublist (hline c)
  · intro p hp c
    have hmem := (hline c).subset (List.mem_map_of_mem hp)
    rw [State.numbers, List.mem_range'_1] at hmem
    omega
  · exact fun g => (List.sublist_append_left ..).trans
      (sublist_of_run State.frame_seqs (State.tag_line · g) (fun _ _ _ => tags_fed g) (List.Sublist.refl _) hrun)
  · exact fun stage => (List.sublist_append_left ..).trans
      (sublist_of_run State.frame_seqs (State.result_line · stage) (fun _ _ _ => results_fed stage)
        (List.Sublist.refl _) hrun)

/-- Each camera captures a frame, and camera 0 another one while the first waits in its queue; the panorama is pushed
and tracked. -/
def one_panorama : List Action :=
  .gains :: cameras.flatMap (fun c => [.pull c, .warp c true, .signal c]) ++ [.pull .cam0, .warp .cam0 true] ++
    .replicate 8 .apply ++ [.take_blender true, .detect (some 0), .apply, .make_outbuf (some true), .make_outbuf none,
      .apply, .apply, .worker, .worker, .synchronize true, .stage true, .stage true, .stage true]

theorem panoramas_in_order_newest :
    ∃ s, run step start one_panorama = some s ∧ s.frame_tags .S1 = [2] ∧ s.results .tracks = [2] ∧ InOrder s :=
  ⟨_, rfl, rfl, rfl, panoramas_in_order (show run step start one_panorama = some _ from rfl)⟩

end k180.frames
