import K180.Schedule.Run

open schedule

namespace k180.pipeline

/-- The data of a `StageEvent` or of a `StageEventJoin`, guarded by its mutex. -/
inductive StageObject where
  | event (seq : UInt32)
  | join (done_mask : UInt32)

def ALL : UInt32 := 0xF

/-- The condition that is waited for, beside the stop flag. -/
def StageObject.ready (last_seen : UInt32) : StageObject → Bool
  | .event seq => last_seen < seq
  | .join done_mask => done_mask = ALL

/-- `last_seen = seq`, or `done_mask = 0`. -/
def StageObject.consume (last_seen : UInt32) : StageObject → StageObject × UInt32
  | .event seq => (.event seq, seq)
  | .join _ => (.join 0, last_seen)

/-- `++seq`, or `done_mask |= (1u << id)`. -/
def StageObject.advance (id : ℕ) : StageObject → StageObject
  | .event seq => .event (seq + 1)
  | .join done_mask => .join (done_mask ||| ((1 : UInt32) <<< id.toUInt32))

inductive Event where
  | camera_trig
  | blender_apply_sync
  | seam_find_sync
deriving DecidableEq

/-- How far a thread has got in `wait` or `wait_all`: it holds the mutex from `testing` to `tested`, and in
`passed`. A thread whose call has returned false is `stopped`. -/
inductive Phase where
  | body
  | testing
  | tested
  | blocked
  | woken
  | passed
  | stopped
deriving DecidableEq

inductive StopOp where
  | store_pipeline_sync_stop
  | notify_all (e : Event)
deriving DecidableEq

/-- What `request_stop_and_wakeup_all` does to the events. -/
def request_stop_and_wakeup_all : List StopOp :=
  [.store_pipeline_sync_stop, .notify_all .camera_trig, .notify_all .blender_apply_sync, .notify_all .seam_find_sync]

/-- The events with their mutexes, the threads that wait, and what is still to come of the shutdown and of
the signals: `signals` have not taken the mutex yet, `notifying` have let it go and are yet to notify. -/
structure State (T : Type*) where
  pipeline_sync_stop : Bool
  stopper : List StopOp
  object : Event → StageObject
  mu : Event → Option T
  phase : T → Phase
  last_seen : T → UInt32
  signals : Event → ℕ
  notifying : Event → ℕ

/-- The start of a shutdown that calls `request_stop_and_wakeup_all` a number of times, with all threads
outside of the calls. -/
def init {T : Type*} (calls : ℕ) (object : Event → StageObject) (last_seen : T → UInt32) (signals : Event → ℕ) :
    State T where
  pipeline_sync_stop := false
  stopper := (List.replicate calls request_stop_and_wakeup_all).flatten
  object
  mu _ := none
  phase _ := .body
  last_seen
  signals
  notifying _ := 0

/-- A thread calls `wait` or `wait_all` and takes the mutex, tests the predicate, blocks, takes the mutex
again, or returns; a signal changes the data or notifies; or the shutdown goes on. -/
inductive Action (T : Type*) where
  | enter (t : T)
  | test (t : T)
  | block (t : T)
  | relock (t : T)
  | finish (t : T)
  | advance (e : Event) (id : ℕ)
  | notify (e : Event) (pick : Option T)
  | stop
deriving DecidableEq

variable {T : Type*} [DecidableEq T]

def State.set_phase (s : State T) (t : T) (phase : Phase) : State T :=
  { s with phase := Function.update s.phase t phase }

def State.set_mu (s : State T) (e : Event) (holder : Option T) : State T :=
  { s with mu := Function.update s.mu e holder }

/-- `cv.notify_all()`: the threads blocked on the event are woken, and only those. -/
def State.wake_all (s : State T) (event : T → Event) (e : Event) : State T :=
  { s with phase := fun t => if event t = e ∧ s.phase t = .blocked then .woken else s.phase t }

/-- One step, each thread `t` waiting on `event t`. A signal of a `StageEvent` notifies all, one of a
`StageEventJoin` one thread that is blocked, if there is any. -/
def step [Fintype T] (event : T → Event) (s : State T) : Action T → Option (State T)
  | .enter t =>
    if s.phase t = .body ∧ s.mu (event t) = none then some ((s.set_mu (event t) (some t)).set_phase t .testing)
    else none
  | .test t =>
    if s.phase t = .testing then
      if s.pipeline_sync_stop || (s.object (event t)).ready (s.last_seen t) then some (s.set_phase t .passed)
      else some (s.set_phase t .tested)
    else none
  | .block t =>
    if s.phase t = .tested then some ((s.set_mu (event t) none).set_phase t .blocked) else none
  | .relock t =>
    if s.phase t = .woken ∧ s.mu (event t) = none then some ((s.set_mu (event t) (some t)).set_phase t .testing)
    else none
  | .finish t =>
    if s.phase t = .passed then
      if s.pipeline_sync_stop then some ((s.set_mu (event t) none).set_phase t .stopped)
      else
        let (object, seen) := (s.object (event t)).consume (s.last_seen t)
        some { (s.set_mu (event t) none).set_phase t .body with
          object := Function.update s.object (event t) object
          last_seen := Function.update s.last_seen t seen }
    else none
  | .advance e id =>
    if 0 < s.signals e ∧ s.mu e = none then
      some { s with
        object := Function.update s.object e ((s.object e).advance id)
        signals := Function.update s.signals e (s.signals e - 1)
        notifying := Function.update s.notifying e (s.notifying e + 1) }
    else none
  | .notify e pick =>
    if 0 < s.notifying e then
      let s' := { s with notifying := Function.update s.notifying e (s.notifying e - 1) }
      match s.object e, pick with
      | .event _, _ => some (s'.wake_all event e)
      | .join _, some t => if event t = e ∧ s.phase t = .blocked then some (s'.set_phase t .woken) else none
      | .join _, none => if ∀ t, ¬ (event t = e ∧ s.phase t = .blocked) then some s' else none
    else none
  | .stop =>
    match s.stopper with
    | [] => none
    | .store_pipeline_sync_stop :: rest => some { s with pipeline_sync_stop := true, stopper := rest }
    | .notify_all e :: rest => some { s.wake_all event e with stopper := rest }

/-- What a step can do, with what it needs. -/
inductive StepTo (event : T → Event) (s : State T) : Action T → State T → Prop where
  | enter {t : T} (hbody : s.phase t = .body) (hfree : s.mu (event t) = none) :
      StepTo event s (.enter t) ((s.set_mu (event t) (some t)).set_phase t .testing)
  | test_passed {t : T} (htesting : s.phase t = .testing)
      (hready : (s.pipeline_sync_stop || (s.object (event t)).ready (s.last_seen t)) = true) :
      StepTo event s (.test t) (s.set_phase t .passed)
  | test_failed {t : T} (htesting : s.phase t = .testing) (hclear : s.pipeline_sync_stop = false)
      (hwaits : (s.object (event t)).ready (s.last_seen t) = false) : StepTo event s (.test t) (s.set_phase t .tested)
  | block {t : T} (htested : s.phase t = .tested) :
      StepTo event s (.block t) ((s.set_mu (event t) none).set_phase t .blocked)
  | relock {t : T} (hwoken : s.phase t = .woken) (hfree : s.mu (event t) = none) :
      StepTo event s (.relock t) ((s.set_mu (event t) (some t)).set_phase t .testing)
  | finish_stopped {t : T} (hpassed : s.phase t = .passed) (hstop : s.pipeline_sync_stop = true) :
      StepTo event s (.finish t) ((s.set_mu (event t) none).set_phase t .stopped)
  | finish {t : T} (hpassed : s.phase t = .passed) (hclear : s.pipeline_sync_stop = false) :
      StepTo event s (.finish t) { (s.set_mu (event t) none).set_phase t .body with
        object := Function.update s.object (event t) ((s.object (event t)).consume (s.last_seen t)).1
        last_seen := Function.update s.last_seen t ((s.object (event t)).consume (s.last_seen t)).2 }
  | advance {e : Event} {id : ℕ} (hsignals : 0 < s.signals e) (hfree : s.mu e = none) :
      StepTo event s (.advance e id) { s with
        object := Function.update s.object e ((s.object e).advance id)
        signals := Function.update s.signals e (s.signals e - 1)
        notifying := Function.update s.notifying e (s.notifying e + 1) }
  | notify_all {e : Event} {pick : Option T} {seq : UInt32} (hnotifying : 0 < s.notifying e)
      (hobject : s.object e = .event seq) :
      StepTo event s (.notify e pick)
        ({ s with notifying := Function.update s.notifying e (s.notifying e - 1) }.wake_all event e)
  | notify_one {e : Event} {t : T} {done_mask : UInt32} (hnotifying : 0 < s.notifying e)
      (hobject : s.object e = .join done_mask) (hblocked : event t = e ∧ s.phase t = .blocked) :
      StepTo event s (.notify e (some t))
        ({ s with notifying := Function.update s.notifying e (s.notifying e - 1) }.set_phase t .woken)
  | notify_nobody {e : Event} {done_mask : UInt32} (hnotifying : 0 < s.notifying e)
      (hobject : s.object e = .join done_mask) (hnobody : ∀ t, ¬ (event t = e ∧ s.phase t = .blocked)) :
      StepTo event s (.notify e none) { s with notifying := Function.update s.notifying e (s.notifying e - 1) }
  | stop_store {rest : List StopOp} (hstopper : s.stopper = .store_pipeline_sync_stop :: rest) :
      StepTo event s .stop { s with pipeline_sync_stop := true, stopper := rest }
  | stop_notify {e : Event} {rest : List StopOp} (hstopper : s.stopper = .notify_all e :: rest) :
      StepTo event s .stop { s.wake_all event e with stopper := rest }

theorem stepTo_of_step [Fintype T] {event : T → Event} {s s' : State T} {a : Action T}
    (hstep : step event s a = some s') : StepTo event s a s' := by
  cases a with
  | enter t =>
    rw [step] at hstep
    split at hstep
    · rename_i h
      exact Option.some.inj hstep ▸ .enter h.1 h.2
    · cases hstep
  | test t =>
    rw [step] at hstep
    split at hstep
    · rename_i htesting
      split at hstep
      · rename_i hready
        exact Option.some.inj hstep ▸ .test_passed htesting hready
      · rename_i hnot
        rw [Bool.or_eq_true, not_or, Bool.not_eq_true, Bool.not_eq_true] at hnot
        exact Option.some.inj hstep ▸ .test_failed htesting hnot.1 hnot.2
    · cases hstep
  | block t =>
    rw [step] at hstep
    split at hstep
    · rename_i htested
      exact Option.some.inj hstep ▸ .block htested
    · cases hstep
  | relock t =>
    rw [step] at hstep
    split at hstep
    · rename_i h
      exact Option.some.inj hstep ▸ .relock h.1 h.2
    · cases hstep
  | finish t =>
    rw [step] at hstep
    split at hstep
    · rename_i hpassed
      split at hstep
      · rename_i hstop
        exact Option.some.inj hstep ▸ .finish_stopped hpassed hstop
      · rename_i hclear
        exact Option.some.inj hstep ▸ .finish hpassed (Bool.eq_false_iff.mpr hclear)
    · cases hstep
  | advance e id =>
    rw [step] at hstep
    split at hstep
    · rename_i h
      exact Option.some.inj hstep ▸ .advance h.1 h.2
    · cases hstep
  | notify e pick =>
    rw [step] at hstep
    split at hstep
    · rename_i hnotifying
      dsimp only at hstep
      split at hstep
      · rename_i hobject
        exact Option.some.inj hstep ▸ .notify_all hnotifying hobject
      · rename_i hobject
        split at hstep
        · rename_i hblocked
          exact Option.some.inj hstep ▸ .notify_one hnotifying hobject hblocked
        · cases hstep
      · rename_i hobject
        split at hstep
        · rename_i hnobody
          exact Option.some.inj hstep ▸ .notify_nobody hnotifying hobject hnobody
        · cases hstep
    · cases hstep
  | stop =>
    rw [step] at hstep
    split at hstep
    · cases hstep
    · rename_i hstopper
      exact Option.some.inj hstep ▸ .stop_store hstopper
    · rename_i hstopper
      exact Option.some.inj hstep ▸ .stop_notify hstopper

/-- The shutdown is over, nobody signals any more, and a thread is blocked. -/
def Hung (s : State T) : Prop :=
  s.pipeline_sync_stop = true ∧ s.stopper = [] ∧ (∀ e, s.signals e = 0 ∧ s.notifying e = 0) ∧
    ∃ t, s.phase t = .blocked

end k180.pipeline
