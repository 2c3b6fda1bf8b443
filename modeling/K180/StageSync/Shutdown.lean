import K180.StageSync.Events

open schedule

namespace k180.pipeline

section Steps

variable {T : Type*} {event : T → Event} {s : State T} {t : T} {e : Event}

theorem State.phase_wake_all_ne_blocked (ht : event t = e) : (s.wake_all event e).phase t ≠ .blocked := by
  intro hblocked
  rw [State.wake_all] at hblocked
  dsimp only at hblocked
  split at hblocked
  · cases hblocked
  · rename_i hnot
    exact hnot ⟨ht, hblocked⟩

/-- Waking takes nobody to its test or to sleep. -/
theorem State.phase_of_phase_wake_all {p : Phase} (hp : p ≠ .woken)
    (hphase : (s.wake_all event e).phase t = p) : s.phase t = p := by
  rw [State.wake_all] at hphase
  dsimp only at hphase
  split at hphase
  · exact absurd hphase.symm hp
  · exact hphase

/-- Waking changes nothing for a thread that waits on another event, or is awake. -/
theorem State.phase_wake_all_of_not (hnot : ¬ (event t = e ∧ s.phase t = .blocked)) :
    (s.wake_all event e).phase t = s.phase t := if_neg hnot

/-- What holds of a step that is not one of the shutdown: it leaves the shutdown and the flag alone, a thread
fails its test only while the flag is clear, and blocks only after it has failed its test. -/
structure OtherStep (s s' : State T) : Prop where
  stopper : s'.stopper = s.stopper
  flag : s'.pipeline_sync_stop = s.pipeline_sync_stop
  tested : ∀ t, s'.phase t = .tested → s.phase t = .tested ∨ s.pipeline_sync_stop = false
  blocked : ∀ t, s'.phase t = .blocked → s.phase t = .blocked ∨ s.phase t = .tested

theorem OtherStep.of_phase_eq {s s' : State T} (hstopper : s'.stopper = s.stopper)
    (hflag : s'.pipeline_sync_stop = s.pipeline_sync_stop) (hphase : s'.phase = s.phase) : OtherStep s s' :=
  ⟨hstopper, hflag, fun _ h => .inl (hphase ▸ h), fun _ h => .inl (hphase ▸ h)⟩

end Steps

variable {T : Type*} [DecidableEq T] {event : T → Event} {s s' : State T} {a : Action T} {t : T} {e : Event}

theorem State.phase_set_phase (s : State T) (t t' : T) (p : Phase) :
    (s.set_phase t p).phase t' = if t' = t then p else s.phase t' := Function.update_apply ..

/-- A step that takes one thread to a phase in which it has not failed its test. -/
theorem OtherStep.of_set_phase {p : Phase} (hstopper : s'.stopper = s.stopper)
    (hflag : s'.pipeline_sync_stop = s.pipeline_sync_stop) (hphase : s'.phase = Function.update s.phase t p)
    (htested : p ≠ .tested) (hblocked : p ≠ .blocked) : OtherStep s s' := by
  refine ⟨hstopper, hflag, fun t' h => ?_, fun t' h => ?_⟩
  · rw [hphase, Function.update_apply] at h
    split at h
    · exact absurd h htested
    · exact .inl h
  · rw [hphase, Function.update_apply] at h
    split at h
    · exact absurd h hblocked
    · exact .inl h

variable [Fintype T]

theorem otherStep_of_step (hstep : step event s a = some s') (ha : a ≠ .stop) : OtherStep s s' := by
  cases stepTo_of_step hstep with
  | enter _ _ | test_passed _ _ | relock _ _ | finish_stopped _ _ | finish _ _ | notify_one _ _ _ =>
    exact .of_set_phase rfl rfl rfl (by simp) (by simp)
  | test_failed _ hclear _ =>
    refine ⟨rfl, rfl, fun _ _ => .inr hclear, fun t' h => ?_⟩
    rw [State.phase_set_phase] at h
    split at h
    · cases h
    · exact .inl h
  | block htested =>
    refine ⟨rfl, rfl, fun t' h => ?_, fun t' h => ?_⟩
    · rw [State.phase_set_phase] at h
      split at h
      · cases h
      · exact .inl h
    · rw [State.phase_set_phase] at h
      split at h
      · rename_i heq
        exact .inr (heq ▸ htested)
      · exact .inl h
  | advance _ _ | notify_nobody _ _ _ => exact .of_phase_eq rfl rfl rfl
  | notify_all _ _ =>
    exact ⟨rfl, rfl, fun t h => .inl (State.phase_of_phase_wake_all (by simp) h),
      fun t h => .inl (State.phase_of_phase_wake_all (by simp) h)⟩
  | stop_store _ | stop_notify _ => exact absurd rfl ha

/-- What a step of the shutdown can do. -/
theorem stop_cases (hstep : step event s .stop = some s') :
    (∃ rest, s.stopper = .store_pipeline_sync_stop :: rest ∧
      s' = { s with pipeline_sync_stop := true, stopper := rest }) ∨
    (∃ e rest, s.stopper = .notify_all e :: rest ∧ s' = { s.wake_all event e with stopper := rest }) := by
  cases stepTo_of_step hstep with
  | stop_store hstopper => exact .inl ⟨_, hstopper, rfl⟩
  | stop_notify hstopper => exact .inr ⟨_, _, hstopper, rfl⟩

/-- When the shutdown notifies an event for the last time, no thread has failed its test on that event without
having blocked yet. -/
def InTime (event : T → Event) (s : State T) : Action T → Prop
  | .stop => ∀ e rest, s.stopper = .notify_all e :: rest → .notify_all e ∉ rest →
      ∀ t, event t = e → s.phase t ≠ .tested
  | _ => True

/-- The shutdown stores the flag before it notifies anybody. -/
def Started (calls : ℕ) (s : State T) : Prop :=
  s.pipeline_sync_stop = true ∨ s.stopper = (List.replicate calls request_stop_and_wakeup_all).flatten

/-- After the last notification of an event no thread that waits on it is blocked or about to block. -/
def Awake (event : T → Event) (s : State T) : Prop :=
  s.pipeline_sync_stop = true → ∀ t, .notify_all (event t) ∉ s.stopper →
    s.phase t ≠ .tested ∧ s.phase t ≠ .blocked

theorem notify_all_mem_request (e : Event) : StopOp.notify_all e ∈ request_stop_and_wakeup_all := by
  cases e <;> simp [request_stop_and_wakeup_all]

/-- The first store of the flag comes before all of the notifications. -/
theorem notify_all_mem_of_store {calls : ℕ} {rest : List StopOp}
    (hprogram : (List.replicate calls request_stop_and_wakeup_all).flatten = .store_pipeline_sync_stop :: rest)
    (e : Event) : .notify_all e ∈ rest := by
  cases calls with
  | zero => cases hprogram
  | succ calls =>
    have hmem : StopOp.notify_all e ∈ StopOp.store_pipeline_sync_stop :: rest := by
      rw [← hprogram, List.replicate_succ, List.flatten_cons]
      exact List.mem_append_left _ (notify_all_mem_request e)
    simpa using hmem

theorem notify_ne_program {calls : ℕ} {e : Event} {rest : List StopOp} :
    (List.replicate calls request_stop_and_wakeup_all).flatten ≠ .notify_all e :: rest := by
  cases calls with
  | zero => simp
  | succ calls => simp [List.replicate_succ, request_stop_and_wakeup_all]

omit [DecidableEq T] [Fintype T] in
theorem Started.flag_of_notify {calls : ℕ} {rest : List StopOp} (hstarted : Started calls s)
    (hstopper : s.stopper = .notify_all e :: rest) : s.pipeline_sync_stop = true := by
  obtain hflag | hprogram := hstarted
  · exact hflag
  · exact absurd (hprogram.symm.trans hstopper) notify_ne_program

theorem started_step {calls : ℕ} (hstarted : Started calls s) (hstep : step event s a = some s') :
    Started calls s' := by
  by_cases ha : a = .stop
  · subst ha
    obtain ⟨rest, hstopper, rfl⟩ | ⟨e, rest, hstopper, rfl⟩ := stop_cases hstep
    · exact .inl rfl
    · exact .inl (hstarted.flag_of_notify hstopper)
  · have hother := otherStep_of_step hstep ha
    rw [Started, hother.flag, hother.stopper]
    exact hstarted

theorem awake_step {calls : ℕ} (hstarted : Started calls s) (hawake : Awake event s) (htime : InTime event s a)
    (hstep : step event s a = some s') : Awake event s' := by
  by_cases ha : a = .stop
  · subst ha
    obtain ⟨rest, hstopper, rfl⟩ | ⟨e, rest, hstopper, rfl⟩ := stop_cases hstep
    · intro _ t hnot
      obtain hflag | hprogram := hstarted
      · apply hawake hflag t
        rw [hstopper, List.mem_cons, not_or]
        exact ⟨by simp, hnot⟩
      · exact absurd (notify_all_mem_of_store (hprogram.symm.trans hstopper) (event t)) hnot
    · intro _ t hnot
      by_cases ht : event t = e
      · -- the last notification of this event: who has blocked is woken, and nobody is about to
        have hlast : .notify_all e ∉ rest := ht ▸ hnot
        refine ⟨fun h => ?_, State.phase_wake_all_ne_blocked ht⟩
        exact htime e rest hstopper hlast t ht (State.phase_of_phase_wake_all (by simp) h)
      · have hold := hawake (hstarted.flag_of_notify hstopper) t (by
          rw [hstopper, List.mem_cons, not_or]
          exact ⟨by simpa using ht, hnot⟩)
        exact ⟨fun h => hold.1 (State.phase_of_phase_wake_all (by simp) h),
          fun h => hold.2 (State.phase_of_phase_wake_all (by simp) h)⟩
  · have hother := otherStep_of_step hstep ha
    intro hflag t hnot
    rw [hother.flag] at hflag
    rw [hother.stopper] at hnot
    obtain ⟨htested, hblocked⟩ := hawake hflag t hnot
    constructor
    · intro h
      obtain h | h := hother.tested t h
      · exact htested h
      · rw [hflag] at h
        cases h
    · intro h
      obtain h | h := hother.blocked t h
      · exact hblocked h
      · exact htested h

/-- Nobody signals any more. -/
def Quiet (s : State T) : Prop := ∀ e, s.signals e = 0 ∧ s.notifying e = 0

/-- What is left of the shutdown does not wake a thread that is blocked on an event which it has notified for
the last time. -/
theorem hung_of_blocked (hflag : s.pipeline_sync_stop = true) (hquiet : Quiet s)
    (hlast : .notify_all (event t) ∉ s.stopper) (hblocked : s.phase t = .blocked) :
    ∃ s', run (step event) s (List.replicate s.stopper.length .stop) = some s' ∧ Hung s' := by
  generalize hrest : s.stopper = rest at hlast
  induction rest generalizing s with
  | nil => exact ⟨s, rfl, hflag, hrest, hquiet, t, hblocked⟩
  | cons op rest ih =>
    rw [List.mem_cons, not_or] at hlast
    cases op with
    | store_pipeline_sync_stop =>
      obtain ⟨s', hrun, hhung⟩ := ih (s := { s with pipeline_sync_stop := true, stopper := rest }) rfl hquiet
        hblocked rfl hlast.2
      refine ⟨s', ?_, hhung⟩
      rw [List.length_cons, List.replicate_succ, run_cons, step, hrest]
      exact hrun
    | notify_all e =>
      have hne : event t ≠ e := fun h => hlast.1 (by rw [h])
      obtain ⟨s', hrun, hhung⟩ := ih (s := { s.wake_all event e with stopper := rest }) hflag hquiet
        ((State.phase_wake_all_of_not fun h => hne h.1).trans hblocked) rfl hlast.2
      refine ⟨s', ?_, hhung⟩
      rw [List.length_cons, List.replicate_succ, run_cons, step, hrest]
      exact hrun

/-- A thread that has failed its test when its event is notified for the last time blocks for ever. -/
theorem hung_of_tested {calls : ℕ} (hstarted : Started calls s) (hquiet : Quiet s)
    (hlate : ¬ InTime event s .stop) : ∃ actions s', run (step event) s actions = some s' ∧ Hung s' := by
  simp only [InTime, not_forall, not_not] at hlate
  obtain ⟨e, rest, hstopper, hlast, t, rfl, htested⟩ := hlate
  have hflag := hstarted.flag_of_notify hstopper
  have htested' : (s.wake_all event (event t)).phase t = .tested := by
    rw [State.phase_wake_all_of_not, htested]
    rw [htested]
    simp
  -- the thread blocks between the test that fails and the notification that comes too early
  let late := (({ s.wake_all event (event t) with stopper := rest } : State T).set_mu (event t) none).set_phase t .blocked
  have hblocked : late.phase t = .blocked := by
    rw [State.phase_set_phase, if_pos rfl]
  obtain ⟨s', hrun, hhung⟩ :=
    hung_of_blocked (s := late) (show late.pipeline_sync_stop = true from hflag) hquiet hlast hblocked
  refine ⟨.stop :: .block t :: List.replicate rest.length .stop, s', ?_, hhung⟩
  rw [run_cons, step, hstopper, Option.bind_some, run_cons, step, if_pos htested']
  exact hrun

/-- In every interleaving of the shutdown with the threads that wait and those that signal: if the last
notification of each event is in time, no state is reached in which the shutdown is over, nobody signals any
more, and a thread is blocked. If one is not, and nobody signals any more, such a state can follow. -/
theorem shutdown_not_hung (calls : ℕ) (object : Event → StageObject) (last_seen : T → UInt32)
    (signals : Event → ℕ) (actions : List (Action T)) (s : State T)
    (hrun : run (step event) (init calls object last_seen signals) actions = some s) :
    (Meets (step event) (InTime event) (init calls object last_seen signals) actions → ¬ Hung s) ∧
    (Quiet s → ¬ InTime event s .stop → ∃ actions' s', run (step event) s actions' = some s' ∧ Hung s') := by
  have hinit : Started calls (init calls object last_seen signals : State T) := .inr rfl
  have hstarted : Started calls s := invariant_of_run (fun s a s' => started_step) hinit hrun
  refine ⟨fun htime => ?_, fun hquiet hlate => hung_of_tested hstarted hquiet hlate⟩
  have hkept : ∀ (s : State T) a s', Started calls s ∧ Awake event s → InTime event s a →
      step event s a = some s' → Started calls s' ∧ Awake event s' :=
    fun s a s' h htime hstep => ⟨started_step h.1 hstep, awake_step h.1 h.2 htime hstep⟩
  have hboth := invariant_of_meets hkept ⟨hinit, fun hflag => by cases hflag⟩ htime hrun
  rintro ⟨hflag, hdone, -, t, hblocked⟩
  have hnot : StopOp.notify_all (event t) ∉ s.stopper := by
    rw [hdone]
    exact List.not_mem_nil
  exact (hboth.2 hflag t hnot).2 hblocked

/-- A capture thread alone, which waits for a trigger that does not come. -/
def capture (calls : ℕ) : State Unit :=
  init calls (fun e => if e = .camera_trig then .event 0 else .join 0) (fun _ => 0) (fun _ => 0)

/-- The thread blocks before it is notified, is woken, and returns. -/
def woken_in_time : List (Action Unit) :=
  [.enter (), .test (), .block (), .stop, .stop, .stop, .stop, .relock (), .test (), .finish ()]

omit [DecidableEq T] [Fintype T] in
theorem inTime_stop_of_forall (hnone : ∀ t, s.phase t ≠ .tested) : InTime event s .stop :=
  fun _ _ _ _ t _ => hnone t

theorem woken_in_time_inTime : Meets (step fun _ => .camera_trig) (InTime fun _ => .camera_trig) (capture 1)
    woken_in_time := by
  refine ⟨trivial, ?_⟩
  rintro _ ⟨rfl⟩
  refine ⟨trivial, ?_⟩
  rintro _ ⟨rfl⟩
  refine ⟨trivial, ?_⟩
  rintro _ ⟨rfl⟩
  refine ⟨inTime_stop_of_forall (by decide), ?_⟩
  rintro _ ⟨rfl⟩
  refine ⟨inTime_stop_of_forall (by decide), ?_⟩
  rintro _ ⟨rfl⟩
  refine ⟨inTime_stop_of_forall (by decide), ?_⟩
  rintro _ ⟨rfl⟩
  refine ⟨inTime_stop_of_forall (by decide), ?_⟩
  rintro _ ⟨rfl⟩
  exact ⟨trivial, fun _ _ => ⟨trivial, fun _ _ => ⟨trivial, fun _ _ => trivial⟩⟩⟩

theorem shutdown_not_hung_capture :
    ∃ s, run (step fun _ => .camera_trig) (capture 1) woken_in_time = some s ∧ s.phase () = .stopped ∧ ¬ Hung s := by
  obtain ⟨s, hs⟩ : ∃ s, run (step fun _ => .camera_trig) (capture 1) woken_in_time = some s := ⟨_, rfl⟩
  have hstopped : s.phase () = .stopped := by
    rw [← Option.some.inj hs]
    rfl
  exact ⟨s, hs, hstopped, (shutdown_not_hung 1 _ _ _ woken_in_time s hs).1 woken_in_time_inTime⟩

/-- The thread tests the flag before it is stored, and blocks after both calls of the shutdown have notified
it. -/
def blocked_late : List (Action Unit) :=
  [.enter (), .test (), .stop, .stop, .stop, .stop, .stop, .stop, .stop, .stop, .block ()]

theorem capture_hung : ∃ s, run (step fun _ => .camera_trig) (capture 2) blocked_late = some s ∧ Hung s :=
  ⟨_, rfl, rfl, rfl, fun _ => ⟨rfl, rfl⟩, (), rfl⟩

end k180.pipeline
