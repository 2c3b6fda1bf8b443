import K180.StageSync.Shutdown
import K180.Schedule.History

open schedule

namespace k180.pipeline

/-- A step of the threads, or a thread that wakes up though nobody has notified it. -/
inductive Turn (T : Type*) where
  | act (a : Action T)
  | wake (t : T)
deriving DecidableEq

/-- What there is to see of the events: signals, and calls that return. -/
inductive Note (T : Type*) where
  | signalled (e : Event) (id : ℕ)
  | returned (t : T) (result : Bool)
deriving DecidableEq

/-- A call that holds the mutex of its event. -/
def Phase.holds : Phase → Bool
  | .testing | .tested | .passed => true
  | .body | .blocked | .woken | .stopped => false

/-- Who is inside of a call holds the mutex, and what has passed its test is still ready. -/
structure CallsOk {T : Type*} (event : T → Event) (s : State T) : Prop where
  holder : ∀ t, (s.phase t).holds = true → s.mu (event t) = some t
  passed : ∀ t, s.phase t = .passed → s.pipeline_sync_stop = false →
    (s.object (event t)).ready (s.last_seen t) = true

section Calls

variable {T : Type*} {event : T → Event} {s s' : State T}

/-- Threads that are woken hold nothing yet. -/
theorem CallsOk.of_woken (hcalls : CallsOk event s) (hphase : ∀ t, (s'.phase t).holds = true → s'.phase t = s.phase t)
    (hmu : s'.mu = s.mu) (hstop : s'.pipeline_sync_stop = s.pipeline_sync_stop ∨ s'.pipeline_sync_stop = true)
    (hobject : s'.object = s.object) (hseen : s'.last_seen = s.last_seen) : CallsOk event s' := by
  refine ⟨fun t h => ?_, fun t h hclear => ?_⟩
  · rw [hmu]
    exact hcalls.holder t (hphase t h ▸ h)
  · rw [hobject, hseen]
    obtain hsame | hset := hstop
    · exact hcalls.passed t ((hphase t (by rw [h]; rfl)).symm.trans h) (hsame ▸ hclear)
    · rw [hset] at hclear
      cases hclear

/-- Nobody is inside of a call on an event that changes. -/
theorem CallsOk.of_free (hcalls : CallsOk event s) {e : Event} (hfree : s.mu e = none) (hphase : s'.phase = s.phase)
    (hmu : s'.mu = s.mu) (hstop : s'.pipeline_sync_stop = s.pipeline_sync_stop)
    (hobject : ∀ e' ≠ e, s'.object e' = s.object e') (hseen : ∀ t, event t ≠ e → s'.last_seen t = s.last_seen t) :
    CallsOk event s' := by
  refine ⟨fun t h => ?_, fun t h hclear => ?_⟩
  · rw [hmu]
    exact hcalls.holder t (hphase ▸ h)
  · rw [hphase] at h
    have hmu := hcalls.holder t (by rw [h]; rfl)
    have hne : event t ≠ e := by
      rintro rfl
      rw [hfree] at hmu
      cases hmu
    rw [hobject _ hne, hseen t hne]
    exact hcalls.passed t h (hstop ▸ hclear)

theorem phase_wake_all_of_holds {e : Event} {t : T} (hholds : ((s.wake_all event e).phase t).holds = true) :
    (s.wake_all event e).phase t = s.phase t := by
  rw [State.wake_all] at hholds ⊢
  dsimp only at hholds ⊢
  split at hholds
  · cases hholds
  · rename_i hnot
    rw [if_neg hnot]

theorem State.mu_set_mu_of_holds (hcalls : CallsOk event s) {t t' : T} {holder : Option T}
    (hfree : s.mu (event t) = none ∨ s.mu (event t) = some t) (hne : t' ≠ t) (hholds : (s.phase t').holds = true) :
    (s.set_mu (event t) holder).mu (event t') = s.mu (event t') := by
  have hevent : event t' ≠ event t := by
    intro heq
    have hmu := hcalls.holder t' hholds
    rw [heq] at hmu
    obtain hnone | hsome := hfree
    · rw [hnone] at hmu
      cases hmu
    · exact hne (Option.some.inj (hmu.symm.trans hsome))
  exact Function.update_of_ne hevent _ _

end Calls

section Notes

variable {T : Type*} {s : State T} {turn : Turn T} {t : T}

def turn_note (s : State T) : Turn T → Option (Note T)
  | .act (.advance e id) => some (.signalled e id)
  | .act (.finish t) => some (.returned t !s.pipeline_sync_stop)
  | _ => none

/-- A call returns false only where the stop flag is set. -/
theorem stop_of_returned (hnote : Note.returned t false ∈ turn_note s turn) : s.pipeline_sync_stop = true := by
  cases turn with
  | wake t' => cases hnote
  | act a =>
    cases a with
    | finish t' =>
      have hresult := (Note.returned.inj (Option.some.inj hnote)).2
      rw [Bool.not_eq_false'] at hresult
      exact hresult
    | _ => cases hnote

end Notes

variable {T : Type*} [DecidableEq T]

def turn_step [Fintype T] (event : T → Event) (s : State T) : Turn T → Option (State T)
  | .act a => step event s a
  | .wake t => if s.phase t = .blocked then some (s.set_phase t .woken) else none

def Note.returns (t : T) (n : Note T) : Bool := n = .returned t true

def Note.signals (e : Event) : Note T → Bool
  | .signalled e' _ => e' = e
  | .returned _ _ => false

/-- The threads and what has been noted of them, the latest first. -/
abbrev Noted (T : Type*) := State T × List (Note T)

def noted_turn [Fintype T] (event : T → Event) : Noted T → Turn T → Option (Noted T) :=
  noted_step turn_note (turn_step event)

/-- What a turn has to do with a thread `t` and its event: it signals that, it is a successful return from it, of `t` or
another thread, or it does neither. -/
inductive TurnFor (event : T → Event) (t : T) (s s' : State T) : Turn T → Prop where
  | signal (id : ℕ) (hobject : s'.object (event t) = (s.object (event t)).advance id)
      (hseen : s'.last_seen t = s.last_seen t) : TurnFor event t s s' (.act (.advance (event t) id))
  | took (hstop : s.pipeline_sync_stop = false) (hpassed : s.phase t = .passed)
      (hobject : s'.object (event t) = ((s.object (event t)).consume (s.last_seen t)).1)
      (hseen : s'.last_seen t = ((s.object (event t)).consume (s.last_seen t)).2) :
      TurnFor event t s s' (.act (.finish t))
  | taken {t' : T} (hother : t' ≠ t) (hevent : event t' = event t)
      (hobject : s'.object (event t) = ((s.object (event t)).consume (s.last_seen t')).1)
      (hseen : s'.last_seen t = s.last_seen t) : TurnFor event t s s' (.act (.finish t'))
  | none {turn : Turn T} (hobject : s'.object (event t) = s.object (event t))
      (hseen : s'.last_seen t = s.last_seen t)
      (hnote : ∀ n ∈ turn_note s turn, n.signals (event t) = false ∧ n.returns t = false) :
      TurnFor event t s s' turn

variable {event : T → Event} {s s' : State T} {turn : Turn T}

/-- A step that takes one thread to another phase without changing what it waits for. -/
theorem CallsOk.of_phase (hcalls : CallsOk event s) {t : T} {p : Phase}
    (hphase : s'.phase = Function.update s.phase t p)
    (hmu : ∀ t' ≠ t, (s.phase t').holds = true → s'.mu (event t') = s.mu (event t'))
    (hstop : s'.pipeline_sync_stop = s.pipeline_sync_stop) (hobject : s'.object = s.object)
    (hseen : s'.last_seen = s.last_seen) (hholds : p.holds = true → s'.mu (event t) = some t)
    (hpassed : p = .passed → s.pipeline_sync_stop = false → (s.object (event t)).ready (s.last_seen t) = true) :
    CallsOk event s' := by
  refine ⟨fun t' h => ?_, fun t' h hclear => ?_⟩
  · rw [hphase, Function.update_apply] at h
    split at h
    · rename_i heq
      exact heq ▸ hholds h
    · rename_i hne
      rw [hmu t' hne h]
      exact hcalls.holder t' h
  · rw [hstop] at hclear
    rw [hobject, hseen]
    rw [hphase, Function.update_apply] at h
    split at h
    · rename_i heq
      exact heq ▸ hpassed h hclear
    · exact hcalls.passed t' h hclear

/-- The thread inside leaves the mutex. -/
theorem CallsOk.of_leave (hcalls : CallsOk event s) {t : T} {p : Phase} (hmu : s.mu (event t) = some t)
    (hoff : p.holds = false) : CallsOk event ((s.set_mu (event t) none).set_phase t p) := by
  refine hcalls.of_phase rfl (fun _ => State.mu_set_mu_of_holds hcalls (.inr hmu)) rfl rfl rfl (fun hholds => ?_)
    fun hpassed => ?_
  · rw [hoff] at hholds
    cases hholds
  · rw [hpassed] at hoff
    cases hoff

/-- A thread outside takes the mutex and is about to test. -/
theorem CallsOk.of_lock (hcalls : CallsOk event s) {t : T} (hfree : s.mu (event t) = none) :
    CallsOk event ((s.set_mu (event t) (some t)).set_phase t .testing) := by
  refine hcalls.of_phase rfl (fun _ => State.mu_set_mu_of_holds hcalls (.inl hfree)) rfl rfl rfl
    (fun _ => Function.update_self ..) fun htesting => ?_
  cases htesting

/-- A turn that shows nothing and changes neither the object nor what the thread has seen. -/
theorem TurnFor.silent {t : T} (hobject : s'.object (event t) = s.object (event t))
    (hseen : s'.last_seen t = s.last_seen t) (hsilent : turn_note s turn = Option.none) : TurnFor event t s s' turn := by
  refine TurnFor.none hobject hseen fun n hn => ?_
  rw [hsilent] at hn
  cases hn

theorem phase_set_woken_of_holds {t t' : T} (hholds : ((s.set_phase t .woken).phase t').holds = true) :
    (s.set_phase t .woken).phase t' = s.phase t' := by
  rw [State.phase_set_phase] at hholds ⊢
  split at hholds
  · cases hholds
  · rename_i hne
    rw [if_neg hne]

variable [Fintype T]

theorem turn_wake_cases {t : T} (hstep : turn_step event s (.wake t) = some s') :
    s.phase t = .blocked ∧ s' = s.set_phase t .woken := by
  rw [turn_step] at hstep
  split at hstep
  · rename_i hblocked
    exact ⟨hblocked, (Option.some.inj hstep).symm⟩
  · cases hstep

theorem callsOk_turn (hcalls : CallsOk event s) (hstep : turn_step event s turn = some s') : CallsOk event s' := by
  cases turn with
  | wake t =>
    obtain ⟨-, rfl⟩ := turn_wake_cases hstep
    exact hcalls.of_woken (fun _ => phase_set_woken_of_holds) rfl (.inl rfl) rfl rfl
  | act a =>
    cases stepTo_of_step hstep with
    | enter _ hfree | relock _ hfree => exact hcalls.of_lock hfree
    | @test_passed t htesting hready =>
      have hmu := hcalls.holder t (by rw [htesting]; rfl)
      refine hcalls.of_phase (t := t) rfl (fun _ _ _ => rfl) rfl rfl rfl (fun _ => hmu) fun _ hclear => ?_
      rw [hclear, Bool.false_or] at hready
      exact hready
    | @test_failed t htesting _ _ =>
      have hmu := hcalls.holder t (by rw [htesting]; rfl)
      refine hcalls.of_phase (t := t) rfl (fun _ _ _ => rfl) rfl rfl rfl (fun _ => hmu) fun htested => ?_
      cases htested
    | block htested => exact hcalls.of_leave (hcalls.holder _ (by rw [htested]; rfl)) rfl
    | finish_stopped hpassed _ => exact hcalls.of_leave (hcalls.holder _ (by rw [hpassed]; rfl)) rfl
    | @finish t hpassed _ =>
      have hmid : CallsOk event ((s.set_mu (event t) none).set_phase t .body) :=
        hcalls.of_leave (hcalls.holder t (by rw [hpassed]; rfl)) rfl
      refine hmid.of_free (e := event t) (Function.update_self ..) rfl rfl rfl
        (fun e' hne => Function.update_of_ne hne _ _) fun t' hne => Function.update_of_ne ?_ _ _
      rintro rfl
      exact hne rfl
    | advance _ hfree =>
      exact hcalls.of_free hfree rfl rfl rfl (fun e' hne => Function.update_of_ne hne _ _) fun _ _ => rfl
    | notify_all _ _ => exact hcalls.of_woken (fun _ => phase_wake_all_of_holds) rfl (.inl rfl) rfl rfl
    | notify_one _ _ _ => exact hcalls.of_woken (fun _ => phase_set_woken_of_holds) rfl (.inl rfl) rfl rfl
    | notify_nobody _ _ _ => exact hcalls.of_woken (fun _ _ => rfl) rfl (.inl rfl) rfl rfl
    | stop_store _ => exact hcalls.of_woken (fun _ _ => rfl) rfl (.inr rfl) rfl rfl
    | stop_notify _ => exact hcalls.of_woken (fun _ => phase_wake_all_of_holds) rfl (.inl rfl) rfl rfl

/-- The stop flag is never cleared. -/
theorem stop_of_turn (hstep : turn_step event s turn = some s') (hclear : s'.pipeline_sync_stop = false) :
    s.pipeline_sync_stop = false := by
  cases turn with
  | wake t =>
    obtain ⟨-, rfl⟩ := turn_wake_cases hstep
    exact hclear
  | act a =>
    cases stepTo_of_step hstep with
    | stop_store _ => cases hclear
    | _ => exact hclear

/-- What a turn does for a thread and its event. -/
theorem turnFor_of_step (event : T → Event) (t : T) (hstep : turn_step event s turn = some s') :
    TurnFor event t s s' turn := by
  cases turn with
  | wake t' =>
    obtain ⟨-, rfl⟩ := turn_wake_cases hstep
    exact .silent rfl rfl rfl
  | act a =>
    cases stepTo_of_step hstep with
    | @advance e id _ _ =>
      by_cases he : e = event t
      · subst he
        exact .signal id (Function.update_self ..) rfl
      · refine .none (Function.update_of_ne (Ne.symm he) _ _) rfl fun n hn => ?_
        obtain rfl := Option.some.inj hn
        exact ⟨decide_eq_false he, rfl⟩
    | finish_stopped _ hstop =>
      refine .none rfl rfl fun n hn => ?_
      obtain rfl := Option.some.inj hn
      exact ⟨rfl, decide_eq_false (by rw [hstop]; simp)⟩
    | @finish t' hpassed hclear =>
      by_cases ht : t' = t
      · subst ht
        exact .took hclear hpassed (Function.update_self ..) (Function.update_self ..)
      by_cases he : event t' = event t
      · refine .taken ht he ?_ (Function.update_of_ne (Ne.symm ht) _ _)
        rw [← he]
        exact Function.update_self ..
      · refine .none (Function.update_of_ne (Ne.symm he) _ _) (Function.update_of_ne (Ne.symm ht) _ _)
          fun n hn => ?_
        obtain rfl := Option.some.inj hn
        exact ⟨rfl, decide_eq_false (by simp [ht])⟩
    | _ => exact .silent rfl rfl rfl

end k180.pipeline
