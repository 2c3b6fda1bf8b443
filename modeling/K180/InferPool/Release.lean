import K180.InferPool.Ownership
import K180.Schedule.Progress

open schedule

namespace k180.infer_pool

variable {s s' : State} {a : Action} {i : ℕ}

/-- The steps that the worker takes until it has released a slot. -/
def rank (i : ℕ) (s : State) : ℕ := s.worker.turns + 5 * (s.jobs.map InferJob.slot).idxOf i

/-- The worker runs, and a slot is owned by it or by an entry of the queue. -/
structure Pending (i : ℕ) (s : State) : Prop where
  owned : Owned s
  running : s.running = true
  alive : s.worker ≠ .exited
  mem : i ∈ s.jobs.map InferJob.slot

/-- The other threads may append a job to those before which the slot is released. -/
theorem Pending.step_other (hpending : Pending i s) (hstep : step s a = some s') (hworker : a.is_worker = false)
    (hstop : a ≠ .stop) : Pending i s' ∧ rank i s' = rank i s := by
  have howned := owned_step hpending.owned hstep
  obtain ⟨tail, hjobs, hrunning, hworker_eq⟩ :
      ∃ tail, s'.jobs = s.jobs ++ tail ∧ s'.running = s.running ∧ s'.worker = s.worker := by
    obtain ⟨hworker_eq, hrunning, hsame⟩ | ⟨i, -, -, -, -, rfl⟩ | ⟨i, frame_seq, -, -, rfl⟩ | ⟨i, -, -, rfl⟩ :=
      other_step_cases hpending.owned hworker hstep
    · exact ⟨[], by rw [hsame.jobs, List.append_nil], hrunning hstop, hworker_eq⟩
    · exact ⟨[], (List.append_nil _).symm, rfl, rfl⟩
    · exact ⟨[{ slot_idx := i, frame_seq }], (List.append_assoc ..).symm, rfl, rfl⟩
    · exact ⟨[], (List.append_nil _).symm, rfl, rfl⟩
  refine ⟨⟨howned, hrunning.trans hpending.running, hworker_eq ▸ hpending.alive, ?_⟩, ?_⟩
  · rw [hjobs, List.map_append]
    exact List.mem_append_left _ hpending.mem
  · rw [rank, rank, hworker_eq, hjobs, List.map_append, List.idxOf_append_of_mem hpending.mem]

/-- The worker is one step nearer to the release of the slot. -/
theorem Pending.step_worker (hpending : Pending i s) (hstep : step s a = some s') (hworker : a.is_worker = true) :
    s'.busy i = false ∨ Pending i s' ∧ rank i s' + 1 ≤ rank i s := by
  have howned := owned_step hpending.owned hstep
  obtain ⟨hsame, hrunning, hturns, hexited⟩ | ⟨job, -, hreleasing, rfl⟩ :=
    worker_step_cases hpending.owned hworker hstep
  · have halive : s'.worker ≠ .exited := by
      intro h
      obtain hstopped | hnone := hexited h
      · rw [hpending.running] at hstopped
        cases hstopped
      · have hmem := hpending.mem
        rw [hnone] at hmem
        exact absurd hmem List.not_mem_nil
    refine .inr ⟨⟨howned, hrunning.trans hpending.running, halive, hsame.jobs ▸ hpending.mem⟩, ?_⟩
    rw [rank, rank, hsame.jobs]
    omega
  · have hjobs : s.jobs = job :: s.infer_q.q_ := by rw [State.jobs, hreleasing]; rfl
    by_cases hslot : job.slot = i
    · left
      dsimp only
      rw [busy_set_busy, if_pos hslot.symm]
    · -- the slot is that of a later job, which has moved up by one
      have hmem := hpending.mem
      rw [hjobs, List.map_cons, List.mem_cons] at hmem
      have hrest := hmem.resolve_left fun h => hslot h.symm
      refine .inr ⟨⟨howned, hpending.running, by simp, hrest⟩, ?_⟩
      have hold : rank i s = 1 + 5 * ((s.infer_q.q_.map InferJob.slot).idxOf i + 1) := by
        rw [rank, hjobs, hreleasing, List.map_cons, List.idxOf_cons_ne _ hslot]
        rfl
      have hnew : rank i { s.set_busy job.slot false with worker := .top } =
          5 + 5 * (s.infer_q.q_.map InferJob.slot).idxOf i := rfl
      omega

theorem Pending.step (hpending : Pending i s) (hstop : a ≠ .stop) (hstep : step s a = some s') :
    s'.busy i = false ∨ Pending i s' ∧ rank i s' + (if a.is_worker then 1 else 0) ≤ rank i s := by
  cases hworker : a.is_worker with
  | true => exact hpending.step_worker hstep hworker
  | false =>
    obtain ⟨hnext, hrank⟩ := hpending.step_other hstep hworker hstop
    exact .inr ⟨hnext, hrank.le⟩

/-- The worker can always take a step as long as a slot waits for it. -/
theorem Pending.worker_enabled (hpending : Pending i s) :
    ∃ a s', a.is_worker = true ∧ infer_pool.step s a = some s' := by
  cases hworker : s.worker with
  | top => exact ⟨.loop, _, rfl, by rw [infer_pool.step, hworker]⟩
  | popping =>
    cases hq : s.infer_q.q_ with
    | nil =>
      have hmem := hpending.mem
      rw [State.jobs, hworker, hq] at hmem
      exact absurd hmem List.not_mem_nil
    | cons job rest =>
      have hready : s.infer_q.ready = true := by simp [stage_queue.StageQueue.ready, hq]
      exact ⟨.pop, _, rfl, by rw [infer_pool.step, hworker, stage_queue.StageQueue.pop, if_pos hready, Option.map_some]⟩
  | popped job =>
    by_cases hrange : job.slot_idx < 0 ∨ infer_pool_size ≤ job.slot_idx
    · exact ⟨.synchronize true, _, rfl, by rw [infer_pool.step, hworker]; exact if_pos hrange⟩
    · exact ⟨.synchronize true, _, rfl, by rw [infer_pool.step, hworker]; exact if_neg hrange⟩
  | inferring job => exact ⟨.infer, _, rfl, by rw [infer_pool.step, hworker]⟩
  | releasing job => exact ⟨.release, _, rfl, by rw [infer_pool.step, hworker]⟩
  | exited => exact absurd hworker hpending.alive

theorem Pending.rank_le (hpending : Pending i s) : rank i s ≤ 20 := by
  have hlength := hpending.owned.length_owners_le
  have hidx := List.idxOf_lt_length_of_mem hpending.mem
  rw [State.owners, List.length_append] at hlength
  have hturns : s.worker.turns ≤ 5 := by cases s.worker <;> simp [Worker.turns]
  rw [infer_pool_size] at hlength
  rw [rank]
  omega

/-- In every interleaving of the apply thread, the worker and the closing of the queue: a busy slot is owned by
exactly one of the apply thread, the worker and the entries of the queue, and another slot by none; while the
queue is open a submission drops no job; and while the worker runs it can go on whenever a slot waits for it,
and releases the slot before it has taken more than 20 steps. -/
theorem infer_slots_owned (actions : List Action) (s : State) (hrun : run step init actions = some s) :
    (∀ i, s.owners.count i = if s.busy i then 1 else 0) ∧
    (∀ i frame_seq s', s.apply = .recorded i → s.infer_q.closed_ = false →
      step s (.submit frame_seq) = some s' →
      s'.infer_q.q_ = s.infer_q.q_ ++ [{ slot_idx := i, frame_seq }]) ∧
    (∀ i, s.busy i = true → s.apply.slot ≠ some i → s.running = true → s.worker ≠ .exited →
      (∃ a s', a.is_worker = true ∧ step s a = some s') ∧
      ∀ more s', .stop ∉ more → run step s more = some s' → 20 < more.countP Action.is_worker →
        ∃ before after mid, more = before ++ after ∧ run step s before = some mid ∧ mid.busy i = false) := by
  have howned := owned_of_run hrun
  refine ⟨howned.count, fun i frame_seq s' hrecorded hopen hstep => ?_, fun i hbusy hother hrunning halive => ?_⟩
  · have hheld : s.apply.slot = some i := by rw [hrecorded]; rfl
    rw [step, hrecorded] at hstep
    dsimp only at hstep
    rw [howned.try_push_eq hheld hopen] at hstep
    obtain rfl := Option.some.inj hstep
    rfl
  · have hpending : Pending i s := by
      refine ⟨howned, hrunning, halive, ?_⟩
      have hcount := howned.count i
      rw [hbusy, if_pos rfl] at hcount
      have hmem : i ∈ s.owners := List.count_pos_iff.mp (by omega)
      obtain happly | hjob := List.mem_append.mp hmem
      · exact absurd (Option.mem_toList.mp happly) hother
      · exact hjob
    refine ⟨hpending.worker_enabled, fun more s' hstop hrun hcount => ?_⟩
    have hallowed : ∀ a ∈ more, a ≠ .stop := fun a ha h => hstop (h ▸ ha)
    have hkept : ∀ s a s', Pending i s → a ≠ .stop → step s a = some s' →
        s'.busy i = false ∨ Pending i s' ∧ rank i s' + (if a.is_worker then 1 else 0) ≤ rank i s :=
      fun _ _ _ hpending hstop hstep => hpending.step hstop hstep
    exact exists_goal_of_rank hkept hallowed hpending hrun (lt_of_le_of_lt hpending.rank_le hcount)

/-- A frame is submitted into the first slot. -/
def submitted : List Action := [.detect, .scan, .memcpy true, .record true, .submit 7]

theorem infer_slots_owned_submitted :
    ∃ s, run step init submitted = some s ∧ s.busy 0 = true ∧ s.owners = [0] ∧
      (∀ i, s.owners.count i = if s.busy i then 1 else 0) ∧
      (∃ a s', a.is_worker = true ∧ step s a = some s') := by
  obtain ⟨s, hs⟩ : ∃ s, run step init submitted = some s := ⟨_, rfl⟩
  obtain ⟨hcount, -, hrelease⟩ := infer_slots_owned submitted s hs
  obtain rfl := Option.some.inj hs
  exact ⟨_, hs, rfl, rfl, hcount, (hrelease 0 rfl (fun h => nomatch h) rfl (fun h => nomatch h)).1⟩

end k180.infer_pool
