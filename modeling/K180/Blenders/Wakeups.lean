import K180.Blenders.Circulation

open schedule

namespace k180.blenders

variable {I J F : Type*} {s s' : State I J F} {a : Action I J F} {i : I} {j : J} {t : Apply F} {u : Prepare}

/-- The thread has `bd_prep_mtx` between two of its steps. -/
def Prepare.locked : Prepare → Bool
  | .refused | .granted => true
  | _ => false

/-- A thread that has the mutex still finds what the predicate has told it, so none takes the front of an empty
queue; and none ends but by the shutdown. -/
structure Locked (s : State I J F) : Prop where
  holder : ∀ j, s.bd_prep_mtx = some j ↔ (s.prepare j).locked = true
  refused : ∀ j, s.prepare j = .refused → s.blender_prepare_queue = []
  granted : ∀ j, s.prepare j = .granted → s.blender_prepare_queue ≠ [] ∨ s.keep_running = false
  defined : ∀ j, s.prepare j ≠ .undefined
  exited : ∀ j, s.prepare j = .exited → s.keep_running = false ∨ s.running = false

theorem locked_init : Locked (init : State I J F) where
  holder _ := ⟨nofun, nofun⟩
  refused _ h := nomatch h
  granted _ h := nomatch h
  defined _ h := nomatch h
  exited _ h := nomatch h

/-- While the mutex is free no thread has it. -/
theorem Locked.unlocked (hlocked : Locked s) (hmutex : s.bd_prep_mtx = none) (j : J) :
    (s.prepare j).locked = false := by
  rw [Bool.eq_false_iff]
  intro h
  have hholder := (hlocked.holder j).mpr h
  rw [hmutex] at hholder
  cases hholder

/-- While a thread has the mutex no other has it. -/
theorem Locked.others (hlocked : Locked s) (hhas : (s.prepare j).locked = true) {j' : J} (hne : j' ≠ j) :
    (s.prepare j').locked = false := by
  rw [Bool.eq_false_iff]
  intro h
  have hholder := (hlocked.holder j).mpr hhas
  rw [(hlocked.holder j').mpr h, Option.some.injEq] at hholder
  exact hne hholder

/-- The apply threads and the shutdown leave the mutex, and the queue but for `push`, as they are. -/
theorem Locked.of_same (hlocked : Locked s) (hprepare : s'.prepare = s.prepare)
    (hmutex : s'.bd_prep_mtx = s.bd_prep_mtx) (hqueue : s'.blender_prepare_queue = s.blender_prepare_queue)
    (hkeep : s.keep_running = false → s'.keep_running = false) (hrunning : s.running = false → s'.running = false) :
    Locked s' := by
  constructor
  · rw [hprepare, hmutex]
    exact hlocked.holder
  · rw [hprepare, hqueue]
    exact hlocked.refused
  · intro j h
    rw [hprepare] at h
    rw [hqueue]
    exact (hlocked.granted j h).imp_right hkeep
  · rw [hprepare]
    exact hlocked.defined
  · intro j h
    rw [hprepare] at h
    exact (hlocked.exited j h).imp hkeep hrunning

/-- With the mutex free, there is nothing that a thread has been told. -/
theorem Locked.of_unlocked (hmutex : s'.bd_prep_mtx = none) (hunlocked : ∀ j, (s'.prepare j).locked = false)
    (hdefined : ∀ j, s'.prepare j ≠ .undefined)
    (hexited : ∀ j, s'.prepare j = .exited → s'.keep_running = false ∨ s'.running = false) : Locked s' := by
  refine ⟨fun j => ?_, fun j h => ?_, fun j h => ?_, hdefined, hexited⟩
  · rw [hmutex, hunlocked j]
    exact ⟨nofun, nofun⟩
  all_goals
    have hfree := hunlocked j
    rw [h] at hfree
    cases hfree

variable [DecidableEq J]

/-- A thread without the mutex moves to where it has none. -/
theorem Locked.move (hlocked : Locked s) (hprepare : s'.prepare = Function.update s.prepare j u)
    (hmutex : s'.bd_prep_mtx = s.bd_prep_mtx) (hqueue : s'.blender_prepare_queue = s.blender_prepare_queue)
    (hkeep : s'.keep_running = s.keep_running) (hrunning : s'.running = s.running)
    (hold : (s.prepare j).locked = false) (hnew : u.locked = false) (hdefined : u ≠ .undefined)
    (hexited : u = .exited → s.keep_running = false ∨ s.running = false) : Locked s' := by
  have hother : ∀ j', s'.prepare j' = u ∧ j' = j ∨ s'.prepare j' = s.prepare j' ∧ j' ≠ j := by
    intro j'
    rw [hprepare]
    by_cases hj : j' = j
    · subst hj
      exact .inl ⟨Function.update_self .., rfl⟩
    · exact .inr ⟨Function.update_of_ne hj .., hj⟩
  refine ⟨fun j' => ?_, fun j' h => ?_, fun j' h => ?_, fun j' h => ?_, fun j' h => ?_⟩
  · rw [hmutex, hlocked.holder]
    obtain ⟨hu, rfl⟩ | ⟨hsame, -⟩ := hother j'
    · rw [hu, hold, hnew]
    · rw [hsame]
  · obtain ⟨hu, -⟩ | ⟨hsame, -⟩ := hother j'
    · rw [← hu, h] at hnew
      cases hnew
    · rw [hqueue]
      exact hlocked.refused j' (hsame ▸ h)
  · obtain ⟨hu, -⟩ | ⟨hsame, -⟩ := hother j'
    · rw [← hu, h] at hnew
      cases hnew
    · rw [hqueue, hkeep]
      exact hlocked.granted j' (hsame ▸ h)
  · obtain ⟨hu, -⟩ | ⟨hsame, -⟩ := hother j'
    · exact hdefined (hu ▸ h)
    · exact hlocked.defined j' (hsame ▸ h)
  · rw [hkeep, hrunning]
    obtain ⟨hu, -⟩ | ⟨hsame, -⟩ := hother j'
    · exact hexited (hu ▸ h)
    · exact hlocked.exited j' (hsame ▸ h)

/-- A thread takes the mutex and asks the predicate. -/
theorem Locked.ask (hlocked : Locked s) (hmutex : s.bd_prep_mtx = none) (hnew : u.locked = true)
    (hrefused : u = .refused → s.blender_prepare_queue = [])
    (hgranted : u = .granted → s.blender_prepare_queue ≠ [] ∨ s.keep_running = false) :
    Locked ({ s with bd_prep_mtx := some j }.set_prepare j u) := by
  have hunlocked := hlocked.unlocked hmutex
  refine ⟨fun j' => ?_, fun j' h => ?_, fun j' h => ?_, fun j' h => ?_, fun j' h => ?_⟩ <;>
    dsimp only [State.set_prepare] at * <;> by_cases hj : j' = j
  · subst hj
    rw [Function.update_self, hnew]
    exact ⟨fun _ => rfl, fun _ => rfl⟩
  · rw [Function.update_of_ne hj, hunlocked j']
    exact ⟨fun h => absurd (Option.some.inj h).symm hj, nofun⟩
  · subst hj
    rw [Function.update_self] at h
    exact hrefused h
  · rw [Function.update_of_ne hj] at h
    exact hlocked.refused j' h
  · subst hj
    rw [Function.update_self] at h
    exact hgranted h
  · rw [Function.update_of_ne hj] at h
    exact hlocked.granted j' h
  · subst hj
    rw [Function.update_self] at h
    rw [h] at hnew
    cases hnew
  · rw [Function.update_of_ne hj] at h
    exact hlocked.defined j' h
  · subst hj
    rw [Function.update_self] at h
    rw [h] at hnew
    cases hnew
  · rw [Function.update_of_ne hj] at h
    exact hlocked.exited j' h

/-- The thread that has the mutex gives it back and moves on. -/
theorem Locked.leave (hlocked : Locked s) (hhas : (s.prepare j).locked = true)
    (hprepare : s'.prepare = Function.update s.prepare j u) (hmutex : s'.bd_prep_mtx = none)
    (hkeep : s'.keep_running = s.keep_running) (hrunning : s'.running = s.running) (hnew : u.locked = false)
    (hdefined : u ≠ .undefined) (hexited : u = .exited → s.keep_running = false) : Locked s' := by
  refine .of_unlocked hmutex (fun j' => ?_) (fun j' => ?_) fun j' h => ?_
  all_goals by_cases hj : j' = j
  · subst hj
    rw [hprepare, Function.update_self]
    exact hnew
  · rw [hprepare, Function.update_of_ne hj]
    exact hlocked.others hhas hj
  · subst hj
    rw [hprepare, Function.update_self]
    exact hdefined
  · rw [hprepare, Function.update_of_ne hj]
    exact hlocked.defined j'
  · subst hj
    rw [hprepare, Function.update_self] at h
    rw [hkeep]
    exact .inl (hexited h)
  · rw [hprepare, Function.update_of_ne hj] at h
    rw [hkeep, hrunning]
    exact hlocked.exited j' h

variable [DecidableEq I] [Fintype J]

theorem locked_step (hlocked : Locked s) (hstep : step s a = some s') : Locked s' := by
  cases step_cases hstep with
  | skip => exact hlocked
  | take | feed | blend | notify_none => exact hlocked.of_same rfl rfl rfl id id
  | stop_waiting => exact hlocked.of_same rfl rfl rfl (fun _ => rfl) id
  | stop => exact hlocked.of_same rfl rfl rfl id fun _ => rfl
  | push i ptr hblended hmutex =>
    exact .of_unlocked hmutex (hlocked.unlocked hmutex) hlocked.defined hlocked.exited
  | notify_one i j hpushed hblocked =>
    exact hlocked.move rfl rfl rfl rfl rfl (by rw [hblocked]; rfl) rfl nofun nofun
  | loop j htop =>
    refine hlocked.move rfl rfl rfl rfl rfl (by rw [htop]; rfl) ?_ ?_ ?_
    · cases s.running <;> rfl
    · cases s.running <;> exact nofun
    · cases hrunning : s.running
      · exact fun _ => .inr rfl
      · exact nofun
  | refuse j hlocking hmutex hqueue => exact hlocked.ask hmutex rfl (fun _ => hqueue) nofun
  | grant j hlocking hmutex htold => exact hlocked.ask hmutex rfl nofun fun _ => htold
  | wait j hrefused => exact hlocked.leave (by rw [hrefused]; rfl) rfl rfl rfl rfl rfl nofun nofun
  | wake j hblocked => exact hlocked.move rfl rfl rfl rfl rfl (by rw [hblocked]; rfl) rfl nofun nofun
  | empty j hgranted hkeep hqueue =>
    obtain hnonempty | hstopped := hlocked.granted j hgranted
    · exact absurd hqueue hnonempty
    · rw [hkeep] at hstopped
      cases hstopped
  | pop j ptr rest hgranted => exact hlocked.leave (by rw [hgranted]; rfl) rfl rfl rfl rfl rfl nofun nofun
  | exit j hgranted hkeep =>
    exact hlocked.leave (by rw [hgranted]; rfl) rfl rfl rfl rfl rfl nofun fun _ => hkeep
  | prepare j ptr hpreparing =>
    exact hlocked.move rfl rfl rfl rfl rfl (by rw [hpreparing]; rfl) rfl nofun nofun
  | give_back j ptr hprepared =>
    exact hlocked.move rfl rfl rfl rfl rfl (by rw [hprepared]; rfl) rfl nofun nofun
  | notify_all =>
    have hnotified : ∀ j, (s.prepare j).notified = s.prepare j ∨
        s.prepare j = .blocked ∧ (s.prepare j).notified = .locking := by
      intro j
      cases s.prepare j with
      | blocked => exact .inr ⟨rfl, rfl⟩
      | _ => exact .inl rfl
    refine ⟨fun j => ?_, fun j h => ?_, fun j h => ?_, fun j => ?_, fun j h => ?_⟩ <;> dsimp only at * <;>
      obtain hsame | ⟨hblocked, hlocking⟩ := hnotified j
    · rw [hsame]
      exact hlocked.holder j
    · rw [hlocking, hlocked.holder j, hblocked]
      exact ⟨nofun, nofun⟩
    · exact hlocked.refused j (hsame ▸ h)
    · rw [hlocking] at h
      cases h
    · exact hlocked.granted j (hsame ▸ h)
    · rw [hlocking] at h
      cases h
    · rw [hsame]
      exact hlocked.defined j
    · rw [hlocking]
      exact nofun
    · exact hlocked.exited j (hsame ▸ h)
    · rw [hlocking] at h
      cases h

/-- While nothing is to stop, a blender in the queue has a thread that will look for it, or a notification that is
still to come. -/
def Woken (s : State I J F) : Prop :=
  s.keep_running = true → s.running = true → s.blender_prepare_queue ≠ [] →
    (∃ i, s.apply i = .pushed) ∨ ∃ j, (s.prepare j).awake = true

omit [DecidableEq J] [DecidableEq I] [Fintype J] in
/-- Where no thread waits and a blender is in the queue, every thread is awake. -/
theorem Locked.awake (hlocked : Locked s) (hkeep : s.keep_running = true) (hrunning : s.running = true)
    (hqueue : s.blender_prepare_queue ≠ []) (hblocked : s.prepare j ≠ .blocked) :
    (s.prepare j).awake = true := by
  cases hprepare : s.prepare j with
  | top | locking | granted | preparing | prepared => rfl
  | refused => exact absurd (hlocked.refused j hprepare) hqueue
  | blocked => exact absurd hprepare hblocked
  | exited =>
    obtain h | h := hlocked.exited j hprepare
    · rw [hkeep] at h
      cases h
    · rw [hrunning] at h
      cases h
  | undefined => exact absurd hprepare (hlocked.defined j)

omit [DecidableEq J] [Fintype J] in
/-- An apply thread that has no notification to send moves. -/
theorem Woken.set_apply (hwoken : Woken s) (happly : s'.apply = Function.update s.apply i t)
    (hold : s.apply i ≠ .pushed) (hprepare : s'.prepare = s.prepare)
    (hqueue : s'.blender_prepare_queue = s.blender_prepare_queue) (hkeep : s'.keep_running = s.keep_running)
    (hrunning : s'.running = s.running) : Woken s' := by
  intro hkeep' hrunning' hqueue'
  rw [hkeep] at hkeep'
  rw [hrunning] at hrunning'
  rw [hqueue] at hqueue'
  obtain ⟨i', hi'⟩ | hawake := hwoken hkeep' hrunning' hqueue'
  · have hne : i' ≠ i := fun h => hold (h ▸ hi')
    refine .inl ⟨i', ?_⟩
    rw [happly, Function.update_of_ne hne]
    exact hi'
  · rw [hprepare]
    exact .inr hawake

omit [DecidableEq I] [Fintype J] in
/-- A prepare thread moves to where it is awake, or there is nothing in the queue. -/
theorem Woken.set_prepare (hprepare : s'.prepare = Function.update s.prepare j u)
    (hnew : s'.keep_running = true → s'.running = true → s'.blender_prepare_queue ≠ [] → u.awake = true) :
    Woken s' := by
  intro hkeep hrunning hqueue
  refine .inr ⟨j, ?_⟩
  rw [hprepare, Function.update_self]
  exact hnew hkeep hrunning hqueue

theorem woken_step [Nonempty J] (hlocked : Locked s) (hwoken : Woken s) (hstep : step s a = some s') : Woken s' := by
  cases step_cases hstep with
  | skip => exact hwoken
  | take i cur ptr rest htop => exact hwoken.set_apply rfl (by rw [htop]; nofun) rfl rfl rfl rfl
  | feed i ptr cur k hfeeding => exact hwoken.set_apply rfl (by rw [hfeeding]; nofun) rfl rfl rfl rfl
  | blend i ptr cur k hfeeding => exact hwoken.set_apply rfl (by rw [hfeeding]; nofun) rfl rfl rfl rfl
  | push i ptr =>
    intro _ _ _
    exact .inl ⟨i, Function.update_self ..⟩
  | notify_none i hpushed hnone =>
    intro hkeep hrunning hqueue
    obtain ⟨j⟩ := ‹Nonempty J›
    exact .inr ⟨j, hlocked.awake hkeep hrunning hqueue (hnone j)⟩
  | notify_one i j => exact .set_prepare (s := s.set_apply i .top) rfl fun _ _ _ => rfl
  | loop j htop =>
    refine .set_prepare (s := s) rfl fun _ hrunning _ => ?_
    have hrunning' : s.running = true := hrunning
    rw [hrunning']
    rfl
  | refuse j hlocking hmutex hempty => exact .set_prepare (s := s) rfl fun _ _ hqueue => absurd hempty hqueue
  | grant j => exact .set_prepare (s := s) rfl fun _ _ _ => rfl
  | wait j hrefused =>
    exact .set_prepare (s := s) rfl fun _ _ hqueue => absurd (hlocked.refused j hrefused) hqueue
  | wake j => exact .set_prepare (s := s) rfl fun _ _ _ => rfl
  | empty j hgranted hkeep hempty => exact .set_prepare (s := s) rfl fun _ _ hqueue => absurd hempty hqueue
  | pop j => exact .set_prepare (s := s) rfl fun _ _ _ => rfl
  | exit j hgranted hstopped =>
    refine .set_prepare (s := s) rfl fun hkeep => ?_
    have hkeep' : s.keep_running = true := hkeep
    rw [hstopped] at hkeep'
    cases hkeep'
  | prepare j => exact .set_prepare (s := s) rfl fun _ _ _ => rfl
  | give_back j => exact .set_prepare (s := s) rfl fun _ _ _ => rfl
  | stop_waiting => exact fun hkeep => nomatch hkeep
  | stop => exact fun _ hrunning => nomatch hrunning
  | notify_all =>
    intro hkeep hrunning hqueue
    obtain hpushed | ⟨j, hj⟩ := hwoken hkeep hrunning hqueue
    · exact .inl hpushed
    · refine .inr ⟨j, ?_⟩
      dsimp only
      cases hprepare : s.prepare j <;> rw [hprepare] at hj <;> first | rfl | cases hj

/-- The invariants of the threads together. -/
structure Safe [Fintype I] (s : State I J F) : Prop where
  held : Held s
  fresh : Fresh s
  locked : Locked s
  woken : Woken s

variable [Fintype I] [Nonempty J]

theorem safe_step (hsafe : Safe s) (hstep : step s a = some s') : Safe s' where
  held := held_step hsafe.held hstep
  fresh := fresh_step hsafe.held hsafe.fresh hstep
  locked := locked_step hsafe.locked hstep
  woken := woken_step hsafe.locked hsafe.woken hstep

theorem safe_of_run {actions : List (Action I J F)} (hrun : run step init actions = some s) : Safe s := by
  have hinit : Safe (init : State I J F) := ⟨held_init, fresh_init, locked_init, fun _ _ h => absurd rfl h⟩
  exact invariant_of_run (fun _ _ _ => safe_step) hinit hrun

/-- In every interleaving of any number of apply and prepare threads with each other and with the shutdown: every
blender is in the pool, in the queue or with one thread, and nowhere else besides; what a panorama is taken from has
been fed the four images of its own turn, in order, and nothing of an earlier one; no thread takes the front of an
empty queue; and until the shutdown no blender stays in the queue for want of a notification. -/
theorem blenders_circulate (actions : List (Action I J F)) (s : State I J F)
    (hrun : run step init actions = some s) :
    (∀ b, s.places b = if b < blender_pool_size then 1 else 0) ∧
    (∀ cur fed, (cur, fed) ∈ s.panoramas → fed = [(cur, 0), (cur, 1), (cur, 2), (cur, 3)]) ∧
    (∀ j, s.prepare j ≠ .undefined) ∧
    (s.keep_running = true → s.running = true → s.blender_prepare_queue ≠ [] →
      (∃ i, s.apply i = .pushed) ∨ ∃ j, (s.prepare j).awake = true) := by
  obtain ⟨hheld, hfresh, hlocked, hwoken⟩ := safe_of_run hrun
  exact ⟨hheld, fun cur fed hmem => hfresh.panoramas (cur, fed) hmem, hlocked.defined, hwoken⟩

/-- One apply thread and one prepare thread, each at its first turn. -/
def first_turn : List (Action Unit Unit ℕ) :=
  [.loop (), .ask (), .wait (), .take () 7, .feed (), .feed (), .feed (), .feed (), .blend (), .push ()]

theorem blenders_circulate_first_turn :
    ∃ s, run step init first_turn = some s ∧ s.blender_prepare_queue = [0] ∧ s.places 0 = 1 ∧
      s.panoramas = [(7, [(7, 0), (7, 1), (7, 2), (7, 3)])] ∧ ((∃ i, s.apply i = .pushed) ∨
        ∃ j, (s.prepare j).awake = true) := by
  obtain ⟨s, hs⟩ : ∃ s, run step init first_turn = some s := ⟨_, rfl⟩
  obtain ⟨hplaces, -, -, hwoken⟩ := blenders_circulate first_turn s hs
  obtain rfl := Option.some.inj hs
  exact ⟨_, hs, rfl, hplaces 0, rfl, hwoken rfl rfl nofun⟩

end k180.blenders
