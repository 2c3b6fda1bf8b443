import K180.Blenders.Wakeups
import K180.Schedule.Progress

open schedule

namespace k180.blenders

variable {I J F : Type*} [Fintype I] [Fintype J] {s s' : State I J F} {a : Action I J F} {j : J} {b : ℕ}

/-- The prepare thread whose step an action is. A wake-up is none. -/
def Action.thread : Action I J F → Option J
  | .loop j | .ask j | .wait j | .leave j | .prepare j | .give_back j => some j
  | _ => none

/-- The steps that a prepare thread takes until it has given back the blender that it has, or that it finds in the
queue. -/
def Prepare.turns : Prepare → ℕ
  | .top => 5
  | .locking | .blocked => 4
  | .granted => 3
  | .preparing _ => 2
  | .prepared _ => 1
  | _ => 0

def Prepare.ptrs : Prepare → List ℕ
  | .preparing ptr | .prepared ptr => [ptr]
  | _ => []

/-- The blenders that are still to come back, the next first, where there is one prepare thread. -/
def State.jobs (s : State I J F) (j : J) : List ℕ := (s.prepare j).ptrs ++ s.blender_prepare_queue

def rank (b : ℕ) (j : J) (s : State I J F) : ℕ := (s.prepare j).turns + 5 * (s.jobs j).idxOf b

theorem count_ptrs (b : ℕ) (t : Prepare) : t.ptrs.count b = t.has b := by
  cases t with
  | preparing ptr | prepared ptr =>
    rw [Prepare.ptrs, count_cons_has, List.count_nil, Nat.zero_add]
    rfl
  | _ => rfl

/-- There are no more blenders to come back than there are. -/
theorem Held.length_jobs_le (hheld : Held s) (j : J) : (s.jobs j).length ≤ blender_pool_size := by
  have hcount : ∀ b, (s.jobs j).count b ≤ s.places b := by
    intro b
    have hthread := le_total (Prepare.has b) s.prepare j
    rw [State.jobs, List.count_append, count_ptrs, State.places]
    omega
  have hnodup : (s.jobs j).Nodup := by
    rw [List.nodup_iff_count_le_one]
    exact fun b => (hcount b).trans (hheld.places_le b)
  have hsubset : s.jobs j ⊆ List.range blender_pool_size := by
    intro b hb
    have hpos := (List.count_pos_iff.mpr hb).trans_le (hcount b)
    rw [hheld b] at hpos
    split at hpos
    · rename_i hlt
      exact List.mem_range.mpr hlt
    · exact absurd hpos (lt_irrefl 0)
  have hlength := (List.subperm_of_subset hnodup hsubset).length_le
  rwa [List.length_range] at hlength

variable [DecidableEq I] [DecidableEq J]

/-- A blender is to come back, and nothing is to stop. -/
structure Pending (b : ℕ) (j : J) (s : State I J F) : Prop where
  safe : Safe s
  keep_running : s.keep_running = true
  running : s.running = true
  mem : b ∈ s.jobs j

omit [DecidableEq I] [DecidableEq J] in
theorem Pending.rank_le (hpending : Pending b j s) : rank b j s ≤ 5 * blender_pool_size := by
  have hlength := hpending.safe.held.length_jobs_le j
  have hidx := List.idxOf_lt_length_of_mem hpending.mem
  have hturns : (s.prepare j).turns ≤ 5 := by cases s.prepare j <;> simp [Prepare.turns]
  rw [rank]
  omega

variable [Subsingleton J]

/-- The prepare thread can go on, or there is a notification to come. -/
theorem Pending.enabled (hpending : Pending b j s) :
    ∃ a s', (a.thread = some j ∨ ∃ i woken, a = .notify_one i woken) ∧ step s a = some s' := by
  obtain ⟨-, -, hlocked, hwoken⟩ := hpending.safe
  have hmem := hpending.mem
  rw [State.jobs] at hmem
  cases hprepare : s.prepare j with
  | top => exact ⟨.loop j, _, .inl rfl, by rw [step, hprepare]⟩
  | locking =>
    have hmutex : s.bd_prep_mtx = none := by
      cases hmutex : s.bd_prep_mtx with
      | none => rfl
      | some j' =>
        have hlock := (hlocked.holder j').mp hmutex
        rw [Subsingleton.elim j' j, hprepare] at hlock
        cases hlock
    exact ⟨.ask j, _, .inl rfl, by rw [step, hprepare, hmutex]⟩
  | refused =>
    rw [hprepare, hlocked.refused j hprepare] at hmem
    cases hmem
  | blocked =>
    have hqueue : s.blender_prepare_queue ≠ [] := by
      intro h
      rw [hprepare, h] at hmem
      cases hmem
    obtain ⟨i, hi⟩ | ⟨j', hj'⟩ := hwoken hpending.keep_running hpending.running hqueue
    · exact ⟨.notify_one i (some j), _, .inr ⟨i, some j, rfl⟩, by rw [step, hi, hprepare]⟩
    · rw [Subsingleton.elim j' j, hprepare] at hj'
      cases hj'
  | granted =>
    cases hqueue : s.blender_prepare_queue with
    | nil =>
      rw [hprepare, hqueue] at hmem
      cases hmem
    | cons ptr rest =>
      exact ⟨.leave j, _, .inl rfl, by rw [step, hprepare]; dsimp only; rw [if_pos hpending.keep_running, hqueue]⟩
  | preparing ptr => exact ⟨.prepare j, _, .inl rfl, by rw [step, hprepare]⟩
  | prepared ptr => exact ⟨.give_back j, _, .inl rfl, by rw [step, hprepare]⟩
  | exited =>
    obtain h | h := hlocked.exited j hprepare
    · rw [hpending.keep_running] at h
      cases h
    · rw [hpending.running] at h
      cases h
  | undefined => exact absurd hprepare (hlocked.defined j)

omit [Fintype I] [Fintype J] [DecidableEq I] [DecidableEq J] [Subsingleton J] in
/-- Blenders that are added to the queue come back later. -/
theorem rank_of_append (hmem : b ∈ s.jobs j) (hprepare : s'.prepare = s.prepare) (more : List ℕ)
    (hqueue : s'.blender_prepare_queue = s.blender_prepare_queue ++ more) :
    b ∈ s'.jobs j ∧ rank b j s' + 0 ≤ rank b j s := by
  have hjobs : s'.jobs j = s.jobs j ++ more := by
    rw [State.jobs, State.jobs, hprepare, hqueue, List.append_assoc]
  rw [rank, rank, hjobs, hprepare, List.idxOf_append_of_mem hmem]
  exact ⟨List.mem_append_left _ hmem, le_refl _⟩

omit [Fintype I] [Fintype J] [DecidableEq I] [Subsingleton J] in
/-- The thread goes on with the same blenders. -/
theorem rank_of_move {u : Prepare} (hmem : b ∈ s.jobs j) (hprepare : s'.prepare = Function.update s.prepare j u)
    (hjobs : u.ptrs ++ s'.blender_prepare_queue = (s.prepare j).ptrs ++ s.blender_prepare_queue) {n : ℕ}
    (hturns : u.turns + n ≤ (s.prepare j).turns) : b ∈ s'.jobs j ∧ rank b j s' + n ≤ rank b j s := by
  have hsame : s'.jobs j = s.jobs j := by
    rw [State.jobs, State.jobs, hprepare, Function.update_self, hjobs]
  have hphase : s'.prepare j = u := by rw [hprepare, Function.update_self]
  rw [rank, rank, hsame, hphase]
  exact ⟨hmem, by omega⟩

/-- No step but the shutdown's takes a blender away from the thread, and its own steps bring it nearer. -/
theorem Pending.advance (hpending : Pending b j s) (hstop : a ≠ .stop_waiting ∧ a ≠ .stop)
    (hstep : step s a = some s') :
    b ∈ s'.blender_ptr_pool ∨
      b ∈ s'.jobs j ∧ rank b j s' + (if a.thread.isSome then 1 else 0) ≤ rank b j s := by
  have hlocked := hpending.safe.locked
  have hmem := hpending.mem
  have hempty : ∀ ptr, s.prepare j = ptr → ptr.ptrs = [] → s.blender_prepare_queue ≠ [] := by
    intro ptr hprepare hptrs hqueue
    rw [State.jobs, hprepare, hptrs, hqueue] at hmem
    cases hmem
  cases step_cases hstep with
  | skip =>
    exact .inr ⟨hmem, le_refl _⟩
  | take | feed | blend | notify_none =>
    exact .inr (rank_of_append hmem rfl [] (List.append_nil _).symm)
  | push i ptr =>
    exact .inr (rank_of_append hmem rfl [ptr] rfl)
  | notify_one i j' hpushed hblocked =>
    obtain rfl := Subsingleton.elim j j'
    exact .inr (rank_of_move hmem rfl (by rw [hblocked]; rfl) (by rw [hblocked]; rfl))
  | loop j' htop =>
    obtain rfl := Subsingleton.elim j j'
    rw [hpending.running, if_pos rfl]
    exact .inr (rank_of_move hmem rfl (by rw [htop]; rfl) (by rw [htop]; rfl))
  | refuse j' hlocking hmutex hqueue =>
    obtain rfl := Subsingleton.elim j j'
    exact absurd hqueue (hempty _ hlocking rfl)
  | grant j' hlocking =>
    obtain rfl := Subsingleton.elim j j'
    exact .inr (rank_of_move hmem rfl (by rw [hlocking]; rfl) (by rw [hlocking]; rfl))
  | wait j' hrefused =>
    obtain rfl := Subsingleton.elim j j'
    exact absurd (hlocked.refused j hrefused) (hempty _ hrefused rfl)
  | wake j' hblocked =>
    obtain rfl := Subsingleton.elim j j'
    exact .inr (rank_of_move hmem rfl (by rw [hblocked]; rfl) (by rw [hblocked]; rfl))
  | empty j' hgranted hkeep hqueue =>
    obtain rfl := Subsingleton.elim j j'
    exact absurd hqueue (hempty _ hgranted rfl)
  | pop j' ptr rest hgranted hkeep hqueue =>
    obtain rfl := Subsingleton.elim j j'
    exact .inr (rank_of_move hmem rfl (by rw [hgranted, hqueue]; rfl) (by rw [hgranted]; rfl))
  | exit j' hgranted hkeep =>
    rw [hpending.keep_running] at hkeep
    cases hkeep
  | prepare j' ptr hpreparing =>
    obtain rfl := Subsingleton.elim j j'
    exact .inr (rank_of_move hmem rfl (by rw [hpreparing]; rfl) (by rw [hpreparing]; rfl))
  | give_back j' ptr hprepared =>
    obtain rfl := Subsingleton.elim j j'
    by_cases hptr : ptr = b
    · rw [hptr]
      exact .inl (List.mem_append_right _ List.mem_cons_self)
    · -- the blender is one of the queue, and has moved up by one
      have hjobs : s.jobs j = ptr :: s.blender_prepare_queue := by rw [State.jobs, hprepared]; rfl
      rw [hjobs, List.mem_cons] at hmem
      have hrest := hmem.resolve_left fun h => hptr h.symm
      have hphase : Function.update s.prepare j .top j = .top := Function.update_self ..
      refine .inr ⟨?_, ?_⟩
      · dsimp only [State.jobs, State.set_prepare]
        rw [hphase]
        exact hrest
      · rw [rank, rank, hjobs, hprepared, List.idxOf_cons_ne _ hptr, State.jobs]
        dsimp only [State.set_prepare]
        rw [hphase]
        simp only [Prepare.ptrs, Prepare.turns, List.nil_append]
        have heffective : (if (Action.give_back (I := I) (F := F) j).thread.isSome then 1 else 0) = 1 := rfl
        omega
  | stop_waiting => exact absurd rfl hstop.1
  | stop => exact absurd rfl hstop.2
  | notify_all =>
    have hsame : ∀ t : Prepare, t.notified.ptrs = t.ptrs ∧ t.notified.turns = t.turns := by
      intro t
      cases t <;> exact ⟨rfl, rfl⟩
    have hjobs : State.jobs { s with prepare := fun j => (s.prepare j).notified } j = s.jobs j := by
      rw [State.jobs, State.jobs, (hsame _).1]
    refine .inr ⟨hjobs ▸ hmem, ?_⟩
    rw [rank, rank, hjobs, (hsame _).2]
    exact le_refl _

omit [Subsingleton J] [Fintype I] in
/-- Only the shutdown ends the running. -/
theorem running_step (hstop : a ≠ .stop_waiting ∧ a ≠ .stop) (hstep : step s a = some s') :
    s'.keep_running = s.keep_running ∧ s'.running = s.running := by
  cases step_cases hstep with
  | stop_waiting => exact absurd rfl hstop.1
  | stop => exact absurd rfl hstop.2
  | _ => exact ⟨rfl, rfl⟩

theorem Pending.step (hpending : Pending b j s) (hstop : a ≠ .stop_waiting ∧ a ≠ .stop)
    (hstep : blenders.step s a = some s') :
    b ∈ s'.blender_ptr_pool ∨
      Pending b j s' ∧ rank b j s' + (if a.thread.isSome then 1 else 0) ≤ rank b j s := by
  have : Nonempty J := ⟨j⟩
  obtain hback | ⟨hmem, hrank⟩ := hpending.advance hstop hstep
  · exact .inl hback
  · obtain ⟨hkeep, hrunning⟩ := running_step hstop hstep
    refine .inr ⟨⟨safe_step hpending.safe hstep, ?_, ?_, hmem⟩, hrank⟩
    · rw [hkeep, hpending.keep_running]
    · rw [hrunning, hpending.running]

/-- Where there is one prepare thread, as in the program: until the shutdown, a blender that is in the queue, or with
the thread, has the thread able to go on or a notification still to come, and it is back in the pool before the thread
has taken more than 15 steps. -/
theorem blender_returns (actions : List (Action I J F)) (s : State I J F) (hrun : run step init actions = some s)
    (hkeep : s.keep_running = true) (hrunning : s.running = true) (j : J) (b : ℕ)
    (hout : b ∈ s.blender_prepare_queue ∨ (s.prepare j).has b = 1) :
    (∃ a s', (a.thread = some j ∨ ∃ i woken, a = .notify_one i woken) ∧ step s a = some s') ∧
    ∀ more s', .stop_waiting ∉ more → .stop ∉ more → run step s more = some s' →
      15 < more.countP (fun a => a.thread.isSome) →
      ∃ before after mid, more = before ++ after ∧ run step s before = some mid ∧ b ∈ mid.blender_ptr_pool := by
  have : Nonempty J := ⟨j⟩
  have hmem : b ∈ s.jobs j := by
    rw [State.jobs, List.mem_append]
    refine hout.symm.imp_left fun hhas => ?_
    rw [← List.count_pos_iff, count_ptrs, hhas]
    exact Nat.one_pos
  have hpending : Pending b j s := ⟨safe_of_run hrun, hkeep, hrunning, hmem⟩
  refine ⟨hpending.enabled, fun more s' hwaiting hstop hmore hcount => ?_⟩
  have hallowed : ∀ a ∈ more, a ≠ .stop_waiting ∧ a ≠ .stop :=
    fun a ha => ⟨fun h => hwaiting (h ▸ ha), fun h => hstop (h ▸ ha)⟩
  exact exists_goal_of_rank (fun _ _ _ h hstop hstep => Pending.step h hstop hstep) hallowed hpending hmore
    (hpending.rank_le.trans_lt hcount)

theorem blender_returns_first_turn :
    ∃ s, run step init first_turn = some s ∧ s.blender_prepare_queue = [0] ∧
      ∃ a s', (a.thread = some () ∨ ∃ i woken, a = .notify_one i woken) ∧ step s a = some s' := by
  obtain ⟨s, hs⟩ : ∃ s, run step init first_turn = some s := ⟨_, rfl⟩
  have henabled := fun hkeep hrunning hout => (blender_returns first_turn s hs hkeep hrunning () 0 hout).1
  obtain rfl := Option.some.inj hs
  exact ⟨_, hs, rfl, henabled rfl rfl (.inl List.mem_cons_self)⟩

end k180.blenders
