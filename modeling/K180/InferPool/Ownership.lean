import K180.InferPool.Slots

open schedule

namespace k180.infer_pool

variable {s s' : State} {a : Action} {i : ℕ}

/-- A busy slot has exactly one owner and another slot none, all owners have slots of the pool, and the worker
finds the slot of every job. -/
structure Owned (s : State) : Prop where
  count : ∀ i, s.owners.count i = if s.busy i then 1 else 0
  range : ∀ i ∈ s.owners, i < infer_pool_size
  index : ∀ job ∈ s.jobs, job.slot_idx = job.slot
  max : s.infer_q.max_ = infer_pool_size

theorem owned_init : Owned init where
  count _ := rfl
  range _ h := nomatch h
  index _ h := nomatch h
  max := rfl

/-- The slots are as before, and so is who owns which. -/
structure SameSlots (s s' : State) : Prop where
  apply : s'.apply.slot = s.apply.slot
  jobs : s'.jobs = s.jobs
  busy : s'.busy = s.busy
  max : s'.infer_q.max_ = s.infer_q.max_

theorem Owned.of_same (howned : Owned s) (hsame : SameSlots s s') : Owned s' := by
  have howners : s'.owners = s.owners := by rw [State.owners, State.owners, hsame.apply, hsame.jobs]
  constructor
  · rw [howners, hsame.busy]
    exact howned.count
  · rw [howners]
    exact howned.range
  · rw [hsame.jobs]
    exact howned.index
  · rw [hsame.max]
    exact howned.max

theorem Owned.nodup (howned : Owned s) : s.owners.Nodup := by
  rw [List.nodup_iff_count_le_one]
  intro i
  rw [howned.count]
  split <;> omega

theorem Owned.length_owners_le (howned : Owned s) : s.owners.length ≤ infer_pool_size := by
  have hsubset : s.owners.toFinset ⊆ Finset.range infer_pool_size := by
    intro i hi
    exact Finset.mem_range.mpr (howned.range i (List.mem_toFinset.mp hi))
  have hcard := Finset.card_le_card hsubset
  rwa [List.toFinset_card_of_nodup howned.nodup, Finset.card_range] at hcard

/-- A thread that holds a slot finds room in the queue. -/
theorem Owned.length_q_lt (howned : Owned s) (hheld : s.apply.slot = some i) :
    s.infer_q.q_.length < s.infer_q.max_ := by
  have hlength := howned.length_owners_le
  rw [State.owners, hheld, List.length_append, List.length_map, State.jobs, List.length_append] at hlength
  rw [howned.max]
  simp only [Option.toList_some, List.length_singleton] at hlength
  omega

/-- While the queue is open a submission only appends its job. -/
theorem Owned.try_push_eq (howned : Owned s) (hheld : s.apply.slot = some i) (hopen : s.infer_q.closed_ = false)
    (job : InferJob) :
    s.infer_q.try_push job = ({ s.infer_q with q_ := s.infer_q.q_ ++ [job] }, ⟨some job, [], none⟩) := by
  rw [stage_queue.StageQueue.try_push, if_neg (by rw [hopen]; exact Bool.false_ne_true),
    stage_queue.StageQueue.pop_while_of_length_lt (howned.length_q_lt hheld)]

/-- The worker finds the slot of the job that it has taken from the queue. -/
theorem Owned.slot_of_popped {job : InferJob} (howned : Owned s) (hpopped : s.worker = .popped job) :
    ¬ (job.slot_idx < 0 ∨ infer_pool_size ≤ job.slot_idx) := by
  have hmem : job ∈ s.jobs := by
    rw [State.jobs, hpopped]
    exact List.mem_cons_self ..
  have hindex := howned.index job hmem
  have hrange := howned.range job.slot (List.mem_append_right _ (List.mem_map_of_mem hmem))
  omega

def Action.is_worker : Action → Bool
  | .loop | .pop | .synchronize _ | .infer | .release => true
  | _ => false

/-- The steps that the worker takes from here until it is back at the head of its loop. -/
def Worker.turns : Worker → ℕ
  | .top => 5
  | .popping => 4
  | .popped _ => 3
  | .inferring _ => 2
  | .releasing _ => 1
  | .exited => 0

/-- What a step of the worker can do: it goes on with the same jobs, and ends only when it is told to or has none,
or it releases a slot. -/
theorem worker_step_cases (howned : Owned s) (hworker : a.is_worker = true) (hstep : step s a = some s') :
    (SameSlots s s' ∧ s'.running = s.running ∧ s'.worker.turns + 1 ≤ s.worker.turns ∧
      (s'.worker = .exited → s.running = false ∨ s.jobs = [])) ∨
    (∃ job, a = .release ∧ s.worker = .releasing job ∧ s' = { s.set_busy job.slot false with worker := .top }) := by
  cases a with
  | loop =>
    rw [step] at hstep
    split at hstep
    · rename_i htop
      obtain rfl := Option.some.inj hstep
      refine .inl ⟨⟨rfl, ?_, rfl, rfl⟩, rfl, ?_, ?_⟩
      · rw [State.jobs, State.jobs, htop]
        cases s.running <;> rfl
      · rw [htop]
        cases s.running <;> simp [Worker.turns]
      · cases s.running <;> simp
    · cases hstep
  | pop =>
    rw [step] at hstep
    split at hstep
    · rename_i hpopping
      obtain ⟨⟨infer_q, effect⟩, hpop, rfl⟩ := Option.map_eq_some_iff.mp hstep
      have hjobs : s.jobs = s.infer_q.q_ := by rw [State.jobs, hpopping]; rfl
      rw [stage_queue.StageQueue.pop] at hpop
      split at hpop
      · rw [stage_queue.StageQueue.try_pop] at hpop
        cases hq : s.infer_q.q_ with
        | nil =>
          rw [hq] at hpop
          obtain ⟨rfl, rfl⟩ := Prod.mk.inj (Option.some.inj hpop)
          refine .inl ⟨⟨rfl, ?_, rfl, rfl⟩, rfl, ?_, fun _ => .inr (hjobs.trans hq)⟩
          · rw [hjobs]
            rfl
          · rw [hpopping]
            exact Nat.le_add_left 1 3
        | cons job rest =>
          rw [hq] at hpop
          obtain ⟨rfl, rfl⟩ := Prod.mk.inj (Option.some.inj hpop)
          refine .inl ⟨⟨rfl, ?_, rfl, rfl⟩, rfl, ?_, fun h => by cases h⟩
          · rw [hjobs, hq]
            rfl
          · rw [hpopping]
            exact le_refl 4
      · cases hpop
    · cases hstep
  | synchronize ok =>
    rw [step] at hstep
    split at hstep
    · rename_i job hpopped
      rw [if_neg (howned.slot_of_popped hpopped)] at hstep
      obtain rfl := Option.some.inj hstep
      refine .inl ⟨⟨rfl, ?_, rfl, rfl⟩, rfl, ?_, ?_⟩
      · rw [State.jobs, State.jobs, hpopped]
        cases ok <;> rfl
      · rw [hpopped]
        cases ok <;> simp [Worker.turns]
      · cases ok <;> simp
    · cases hstep
  | infer =>
    rw [step] at hstep
    split at hstep
    · rename_i job hinferring
      obtain rfl := Option.some.inj hstep
      refine .inl ⟨⟨rfl, ?_, rfl, rfl⟩, rfl, ?_, by simp⟩
      · rw [State.jobs, State.jobs, hinferring]
        rfl
      · rw [hinferring]
        exact le_refl 2
    · cases hstep
  | release =>
    rw [step] at hstep
    split at hstep
    · rename_i job hreleasing
      exact .inr ⟨job, rfl, hreleasing, (Option.some.inj hstep).symm⟩
    · cases hstep
  | _ => cases hworker

/-- What any other step can do: it leaves the worker alone, and takes a slot, submits it or gives it back. -/
theorem other_step_cases (howned : Owned s) (hworker : a.is_worker = false) (hstep : step s a = some s') :
    (s'.worker = s.worker ∧ (a ≠ .stop → s'.running = s.running) ∧ SameSlots s s') ∨
    (∃ i, a = .scan ∧ i < infer_pool_size ∧ s.busy i = false ∧ s.apply.slot = none ∧
      s' = { s.set_busy i true with apply := .acquired i }) ∨
    (∃ i frame_seq, a = .submit frame_seq ∧ s.apply = .recorded i ∧
      s' = { s with
        infer_q := { s.infer_q with q_ := s.infer_q.q_ ++ [{ slot_idx := i, frame_seq }] }
        apply := .idle }) ∨
    (∃ i, a = .give_back ∧ s.apply = .failed i ∧ s' = { s.set_busy i false with apply := .idle }) := by
  cases a with
  | detect =>
    rw [step] at hstep
    split at hstep
    · rename_i hidle
      obtain rfl := Option.some.inj hstep
      exact .inl ⟨rfl, fun _ => rfl, by rw [hidle]; rfl, rfl, rfl, rfl⟩
    · cases hstep
  | scan =>
    rw [step] at hstep
    split at hstep
    · rename_i i hscanning
      split at hstep
      · rename_i hrange
        split at hstep
        · obtain rfl := Option.some.inj hstep
          exact .inl ⟨rfl, fun _ => rfl, by rw [hscanning]; rfl, rfl, rfl, rfl⟩
        · rename_i hfree
          obtain rfl := Option.some.inj hstep
          exact .inr (.inl ⟨i, rfl, hrange, Bool.eq_false_iff.mpr hfree, by rw [hscanning]; rfl, rfl⟩)
      · obtain rfl := Option.some.inj hstep
        exact .inl ⟨rfl, fun _ => rfl, by rw [hscanning]; rfl, rfl, rfl, rfl⟩
    · cases hstep
  | memcpy ok =>
    rw [step] at hstep
    split at hstep
    · rename_i i hacquired
      obtain rfl := Option.some.inj hstep
      refine .inl ⟨rfl, fun _ => rfl, ?_, rfl, rfl, rfl⟩
      rw [hacquired]
      cases ok <;> rfl
    · cases hstep
  | record ok =>
    rw [step] at hstep
    split at hstep
    · rename_i i hcopied
      obtain rfl := Option.some.inj hstep
      refine .inl ⟨rfl, fun _ => rfl, ?_, rfl, rfl, rfl⟩
      rw [hcopied]
      cases ok <;> rfl
    · cases hstep
  | submit frame_seq =>
    rw [step] at hstep
    split at hstep
    · rename_i i hrecorded
      have hheld : s.apply.slot = some i := by rw [hrecorded]; rfl
      cases hclosed : s.infer_q.closed_ with
      | false =>
        rw [howned.try_push_eq hheld hclosed] at hstep
        obtain rfl := Option.some.inj hstep
        exact .inr (.inr (.inl ⟨i, frame_seq, rfl, hrecorded, rfl⟩))
      | true =>
        rw [stage_queue.StageQueue.try_push, hclosed, if_pos rfl] at hstep
        obtain rfl := Option.some.inj hstep
        exact .inl ⟨rfl, fun _ => rfl, by rw [hrecorded]; rfl, rfl, rfl, rfl⟩
    · cases hstep
  | give_back =>
    rw [step] at hstep
    split at hstep
    · rename_i i hfailed
      exact .inr (.inr (.inr ⟨i, rfl, hfailed, (Option.some.inj hstep).symm⟩))
    · cases hstep
  | close =>
    obtain rfl := Option.some.inj hstep
    exact .inl ⟨rfl, fun _ => rfl, rfl, rfl, rfl, rfl⟩
  | stop =>
    obtain rfl := Option.some.inj hstep
    exact .inl ⟨rfl, fun h => absurd rfl h, rfl, rfl, rfl, rfl⟩
  | _ => cases hworker

theorem busy_set_busy (s : State) (i j : ℕ) (busy : Bool) :
    (s.set_busy i busy).busy j = if j = i then busy else s.busy j := Function.update_apply ..

/-- Taking a free slot makes the apply thread its owner. -/
theorem Owned.acquire (howned : Owned s) (hrange : i < infer_pool_size) (hfree : s.busy i = false)
    (hnone : s.apply.slot = none) : Owned { s.set_busy i true with apply := .acquired i } := by
  have howners : State.owners { s.set_busy i true with apply := .acquired i } = i :: s.owners := by
    rw [State.owners, State.owners, hnone]
    rfl
  refine ⟨fun j => ?_, fun j hj => ?_, howned.index, howned.max⟩
  · rw [howners, List.count_cons, howned.count]
    dsimp only
    rw [busy_set_busy]
    by_cases hji : j = i
    · subst hji
      simp [hfree]
    · simp [hji, Ne.symm hji]
  · rw [howners, List.mem_cons] at hj
    obtain rfl | hj := hj
    · exact hrange
    · exact howned.range j hj

/-- A submitted job owns the slot instead of the apply thread. -/
theorem Owned.submit (howned : Owned s) (hrecorded : s.apply = .recorded i) (frame_seq : ℕ) :
    Owned { s with
      infer_q := { s.infer_q with q_ := s.infer_q.q_ ++ [{ slot_idx := i, frame_seq }] }
      apply := .idle } := by
  have hjobs : State.jobs { s with
      infer_q := { s.infer_q with q_ := s.infer_q.q_ ++ [{ slot_idx := i, frame_seq }] }
      apply := .idle } = s.jobs ++ [{ slot_idx := i, frame_seq }] := (List.append_assoc ..).symm
  have hslot : InferJob.slot { slot_idx := i, frame_seq } = i := Int.toNat_natCast i
  have hperm : (State.owners { s with
      infer_q := { s.infer_q with q_ := s.infer_q.q_ ++ [{ slot_idx := i, frame_seq }] }
      apply := .idle }).Perm s.owners := by
    rw [State.owners, State.owners, hjobs, hrecorded, List.map_append, List.map_singleton, hslot]
    have hcomm : (s.jobs.map InferJob.slot ++ [i]).Perm ([i] ++ s.jobs.map InferJob.slot) :=
      List.perm_append_comm
    exact hcomm
  constructor
  · intro j
    rw [hperm.count_eq]
    exact howned.count j
  · intro j hj
    exact howned.range j (hperm.mem_iff.mp hj)
  · rw [hjobs]
    intro job hjob
    obtain hjob | hjob := List.mem_append.mp hjob
    · exact howned.index job hjob
    · rw [List.mem_singleton.mp hjob, hslot]
  · exact howned.max

/-- A slot that is given up by its owner has none left. -/
theorem Owned.give_up (howned : Owned s) (howners : s.owners.Perm (i :: s'.owners))
    (hjobs : ∀ job ∈ s'.jobs, job ∈ s.jobs) (hbusy : s'.busy = (s.set_busy i false).busy)
    (hmax : s'.infer_q.max_ = s.infer_q.max_) : Owned s' := by
  refine ⟨fun j => ?_, fun j hj => ?_, fun job hjob => howned.index job (hjobs job hjob), by rw [hmax, howned.max]⟩
  · have hcount := howned.count j
    rw [howners.count_eq, List.count_cons] at hcount
    rw [hbusy, busy_set_busy]
    by_cases hji : j = i
    · subst hji
      rw [if_pos rfl, if_neg Bool.false_ne_true]
      simp only [beq_self_eq_true, if_true] at hcount
      split at hcount <;> omega
    · rw [if_neg hji]
      simpa [Ne.symm hji] using hcount
  · exact howned.range j (howners.mem_iff.mpr (List.mem_cons_of_mem _ hj))

theorem owned_step (howned : Owned s) (hstep : step s a = some s') : Owned s' := by
  cases hworker : a.is_worker with
  | true =>
    obtain ⟨hsame, -⟩ | ⟨job, -, hreleasing, rfl⟩ := worker_step_cases howned hworker hstep
    · exact howned.of_same hsame
    · have hjobs : s.jobs = job :: s.infer_q.q_ := by rw [State.jobs, hreleasing]; rfl
      refine howned.give_up (i := job.slot) ?_ (fun job' hjob' => ?_) rfl rfl
      · rw [State.owners, hjobs]
        exact List.perm_middle
      · rw [hjobs]
        exact List.mem_cons_of_mem _ hjob'
  | false =>
    obtain ⟨-, -, hsame⟩ | ⟨i, -, hrange, hfree, hnone, rfl⟩ | ⟨i, frame_seq, -, hrecorded, rfl⟩ |
      ⟨i, -, hfailed, rfl⟩ := other_step_cases howned hworker hstep
    · exact howned.of_same hsame
    · exact howned.acquire hrange hfree hnone
    · exact howned.submit hrecorded frame_seq
    · refine howned.give_up (i := i) ?_ (fun job hjob => hjob) rfl rfl
      rw [State.owners, State.owners, hfailed]
      exact .refl _

theorem owned_of_run {actions : List Action} (hrun : run step init actions = some s) : Owned s :=
  invariant_of_run (fun _ _ _ => owned_step) owned_init hrun

end k180.infer_pool
