import K180.Blenders.Returns

open schedule

namespace k180.blenders

variable {I J F : Type*} [DecidableEq I] [DecidableEq J] [Fintype J] {s s' : State I J F} {a : Action I J F} {j : J}

/-- The shutdown has told the threads to stop. -/
structure Stopped (s : State I J F) : Prop where
  keep_running : s.keep_running = false
  running : s.running = false

theorem stopped_step (hstopped : Stopped s) (hstep : step s a = some s') : Stopped s' := by
  cases step_cases hstep with
  | stop_waiting => exact ⟨rfl, hstopped.running⟩
  | stop => exact ⟨hstopped.keep_running, rfl⟩
  | _ => exact ⟨hstopped.keep_running, hstopped.running⟩

/-- A wait of the thread ends. -/
def Action.wakes (j : J) : Action I J F → Bool
  | .notify_one _ (some j') | .wake j' => j' = j
  | .notify_all => true
  | _ => false

/-- A step of another thread changes nothing for a thread but that it may wake it. -/
theorem prepare_of_other (hstep : step s a = some s') (hother : a.thread ≠ some j) :
    s'.prepare j = s.prepare j ∨ a.wakes j = true ∧ s.prepare j = .blocked ∧ s'.prepare j = .locking := by
  have hupdate : ∀ {j' : J} {u : Prepare}, j' ≠ j → Function.update s.prepare j' u j = s.prepare j :=
    fun hne => Function.update_of_ne hne.symm ..
  cases step_cases hstep with
  | skip | take | feed | blend | push | notify_none | stop_waiting | stop => exact .inl rfl
  | loop j' | refuse j' | grant j' | wait j' | empty j' | pop j' | exit j' | prepare j' | give_back j' =>
    exact .inl (hupdate fun h => hother (congrArg some h))
  | notify_one i j' hpushed hblocked =>
    by_cases hj : j' = j
    · subst hj
      exact .inr ⟨decide_eq_true rfl, hblocked, Function.update_self ..⟩
    · exact .inl (hupdate hj)
  | wake j' hblocked =>
    by_cases hj : j' = j
    · subst hj
      exact .inr ⟨decide_eq_true rfl, hblocked, Function.update_self ..⟩
    · exact .inl (hupdate hj)
  | notify_all =>
    cases hprepare : s.prepare j with
    | blocked => exact .inr ⟨rfl, rfl, by dsimp only; rw [hprepare]; rfl⟩
    | _ => exact .inl (by dsimp only; rw [hprepare]; rfl)

/-- The steps that a thread takes until the last before it ends, once it has been told to. -/
def Prepare.turns_to_exit : Prepare → ℕ
  | .preparing _ => 2
  | .prepared _ | .locking => 1
  | _ => 0

/-- The thread neither waits nor is about to. -/
def Prepare.heeds : Prepare → Bool
  | .refused | .blocked => false
  | _ => true

/-- A thread that has been told to end and does not wait goes on to its end. -/
structure Leaving (j : J) (s : State I J F) : Prop where
  stopped : Stopped s
  locked : Locked s
  heeds : (s.prepare j).heeds = true

theorem Leaving.own_step (hleaving : Leaving j s) (hstep : step s a = some s') (hown : a.thread = some j) :
    s'.prepare j = .exited ∨
      (s'.prepare j).heeds = true ∧ (s'.prepare j).turns_to_exit + 1 ≤ (s.prepare j).turns_to_exit := by
  obtain ⟨hstopped, hlocked, hheeds⟩ := hleaving
  cases step_cases hstep with
  | skip | take | feed | blend | push | notify_none | notify_one | wake | stop_waiting | stop | notify_all => cases hown
  | loop j' htop =>
    obtain rfl := Option.some.inj hown
    left
    dsimp only [State.set_prepare]
    rw [Function.update_self, hstopped.running]
    rfl
  | refuse j' hlocking hmutex hqueue hkeep =>
    rw [hstopped.keep_running] at hkeep
    cases hkeep
  | grant j' hlocking =>
    obtain rfl := Option.some.inj hown
    right
    dsimp only [State.set_prepare]
    rw [Function.update_self, hlocking]
    exact ⟨rfl, le_refl 1⟩
  | wait j' hrefused =>
    obtain rfl := Option.some.inj hown
    rw [hrefused] at hheeds
    cases hheeds
  | empty j' hgranted hkeep =>
    rw [hstopped.keep_running] at hkeep
    cases hkeep
  | pop j' ptr rest hgranted hkeep =>
    rw [hstopped.keep_running] at hkeep
    cases hkeep
  | exit j' hgranted =>
    obtain rfl := Option.some.inj hown
    exact .inl (Function.update_self ..)
  | prepare j' ptr hpreparing =>
    obtain rfl := Option.some.inj hown
    right
    dsimp only [State.set_prepare]
    rw [Function.update_self, hpreparing]
    exact ⟨rfl, le_refl 2⟩
  | give_back j' ptr hprepared =>
    obtain rfl := Option.some.inj hown
    right
    dsimp only [State.set_prepare]
    rw [Function.update_self, hprepared]
    exact ⟨rfl, le_refl 1⟩

theorem Leaving.step (hleaving : Leaving j s) (hstep : blenders.step s a = some s') :
    s'.prepare j = .exited ∨ Leaving j s' ∧
      (s'.prepare j).turns_to_exit + (if a.thread = some j then 1 else 0) ≤ (s.prepare j).turns_to_exit := by
  have hstopped := stopped_step hleaving.stopped hstep
  have hlocked := locked_step hleaving.locked hstep
  by_cases hown : a.thread = some j
  · obtain hexited | ⟨hheeds, hturns⟩ := hleaving.own_step hstep hown
    · exact .inl hexited
    · rw [if_pos hown]
      exact .inr ⟨⟨hstopped, hlocked, hheeds⟩, hturns⟩
  · rw [if_neg hown]
    have hheeds := hleaving.heeds
    obtain hsame | ⟨-, hblocked, -⟩ := prepare_of_other hstep hown
    · rw [hsame]
      exact .inr ⟨⟨hstopped, hlocked, hsame ▸ hheeds⟩, le_refl _⟩
    · rw [hblocked] at hheeds
      cases hheeds

/-- A thread that has ended stays so. -/
theorem exited_step (hexited : s.prepare j = .exited) (hstep : step s a = some s') : s'.prepare j = .exited := by
  by_cases hown : a.thread = some j
  · cases step_cases hstep with
    | skip | take | feed | blend | push | notify_none | notify_one | wake | stop_waiting | stop | notify_all =>
      cases hown
    | loop j' h | refuse j' h | grant j' h | wait j' h | empty j' h | pop j' _ _ h | exit j' h | prepare j' _ h
    | give_back j' _ h =>
      obtain rfl := Option.some.inj hown
      rw [hexited] at h
      cases h
  · obtain hsame | ⟨-, hblocked, -⟩ := prepare_of_other hstep hown
    · rw [hsame, hexited]
    · rw [hexited] at hblocked
      cases hblocked

/-- The thread waits, or is about to. -/
def Waits (j : J) (s : State I J F) : Prop := s.prepare j = .refused ∨ s.prepare j = .blocked

theorem waits_step (hwaits : Waits j s) (hwakes : a.wakes j = false) (hstep : step s a = some s') :
    Waits j s' := by
  by_cases hown : a.thread = some j
  · cases step_cases hstep with
    | skip | take | feed | blend | push | notify_none | notify_one | wake | stop_waiting | stop | notify_all =>
      cases hown
    | wait j' =>
      obtain rfl := Option.some.inj hown
      exact .inr (Function.update_self ..)
    | loop j' h | refuse j' h | grant j' h | empty j' h | pop j' _ _ h | exit j' h | prepare j' _ h
    | give_back j' _ h =>
      obtain rfl := Option.some.inj hown
      obtain hrefused | hblocked := hwaits
      · rw [hrefused] at h
        cases h
      · rw [hblocked] at h
        cases h
  · obtain hsame | ⟨hwoken, -, -⟩ := prepare_of_other hstep hown
    · rw [Waits, hsame]
      exact hwaits
    · rw [hwakes] at hwoken
      cases hwoken

variable [Fintype I] [Nonempty J]

/-- Once the shutdown has cleared both flags and then notifies all, a prepare thread ends before it has taken more
than 3 steps, whatever the other threads do, unless the notification comes between its asking the predicate and its
waiting: then it does not end until it is woken once more. -/
theorem prepare_threads_exit (actions : List (Action I J F)) (s s₁ : State I J F)
    (hrun : run step init actions = some s) (hkeep : s.keep_running = false) (hrunning : s.running = false)
    (hnotify : step s .notify_all = some s₁) (j : J) :
    (s.prepare j ≠ .refused → ∀ more s', run step s₁ more = some s' →
      3 ≤ more.countP (fun a => a.thread = some j) → s'.prepare j = .exited) ∧
    (s.prepare j = .refused → ∀ more s', run step s₁ more = some s' → (∀ a ∈ more, a.wakes j = false) →
      s'.prepare j ≠ .exited) := by
  obtain rfl := Option.some.inj hnotify
  have hlocked := locked_step (safe_of_run hrun).locked hnotify
  refine ⟨fun hrefused more s' hmore hcount => ?_, fun hrefused more s' hmore hwakes hexited => ?_⟩
  · have hheeds : (s.prepare j).notified.heeds = true := by
      cases hprepare : s.prepare j with
      | refused => exact absurd hprepare hrefused
      | _ => rfl
    have hleaving : Leaving j { s with prepare := fun j => (s.prepare j).notified } :=
      ⟨⟨hkeep, hrunning⟩, hlocked, hheeds⟩
    have hturns : (s.prepare j).notified.turns_to_exit ≤ 2 := by
      cases s.prepare j <;> simp [Prepare.turns_to_exit, Prepare.notified]
    have hstep : ∀ (s : State I J F) a s', Leaving j s → True → step s a = some s' →
        s'.prepare j = .exited ∨ Leaving j s' ∧
          (s'.prepare j).turns_to_exit + (if decide (a.thread = some j) then 1 else 0) ≤
            (s.prepare j).turns_to_exit := by
      intro s a s' hleaving _ hstep
      simpa only [decide_eq_true_eq] using hleaving.step hstep
    obtain ⟨before, after, mid, rfl, hbefore, hexited⟩ :=
      exists_goal_of_rank hstep (fun _ _ => trivial) hleaving hmore (lt_of_le_of_lt hturns hcount)
    obtain ⟨mid', hmid', hafter⟩ := run_append_eq_some_iff.mp hmore
    obtain rfl := Option.some.inj (hbefore.symm.trans hmid')
    exact invariant_of_run (fun _ _ _ => exited_step) hexited hafter
  · have hwaits : Waits j { s with prepare := fun j => (s.prepare j).notified } := by
      left
      dsimp only
      rw [hrefused]
      rfl
    have hkept : Waits j s' :=
      invariant_of_meets (fun _ _ _ h hwakes hstep => waits_step h hwakes hstep) hwaits
        (meets_of_forall hwakes _) hmore
    rw [Waits, hexited] at hkept
    obtain h | h := hkept <;> cases h

/-- The shutdown comes while the thread waits. -/
def stopped_waiting : List (Action Unit Unit ℕ) := [.loop (), .ask (), .wait (), .stop_waiting, .stop]

/-- The shutdown comes before the thread waits. -/
def stopped_asking : List (Action Unit Unit ℕ) := [.loop (), .ask (), .stop_waiting, .stop]

theorem prepare_threads_exit_stopped :
    (∃ s s₁ s' : State Unit Unit ℕ, run step init stopped_waiting = some s ∧
      step s .notify_all = some s₁ ∧ run step s₁ [.ask (), .leave ()] = some s' ∧ s'.prepare () = .exited) ∧
    ∃ s s₁ s' : State Unit Unit ℕ, run step init stopped_asking = some s ∧
      step s .notify_all = some s₁ ∧ run step s₁ [.wait ()] = some s' ∧ s'.prepare () = .blocked ∧
      s'.prepare () ≠ .exited := by
  refine ⟨⟨_, _, _, rfl, rfl, rfl, rfl⟩, ?_⟩
  obtain ⟨s, hs⟩ : ∃ s, run step init stopped_asking = some s := ⟨_, rfl⟩
  have hexit := fun hkeep hrunning => prepare_threads_exit stopped_asking s _ hs hkeep hrunning rfl ()
  obtain rfl := Option.some.inj hs
  exact ⟨_, _, _, hs, rfl, rfl, rfl, (hexit rfl rfl).2 rfl [.wait ()] _ rfl fun a ha => by
    rw [List.mem_singleton.mp ha]; rfl⟩

end k180.blenders
