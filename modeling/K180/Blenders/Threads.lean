import K180.Schedule.Run
import K180.Schedule.Totals

open schedule

namespace k180.blenders

def blender_pool_size : ℕ := 3

/-- Where a `thread_blender_apply` is in its loop. A blender is a number, and `cur` are the four frames that
the thread has taken for this turn. -/
inductive Apply (F : Type*)
  /-- at the head of the loop, at the barrier, or without four frames -/
  | top
  /-- the first `i` frames have been fed -/
  | feeding (ptr : ℕ) (cur : F) (i : ℕ)
  | blended (ptr : ℕ)
  /-- before `notify_one` -/
  | pushed
deriving DecidableEq

/-- Where a `thread_blender_prepare` is in its loop. -/
inductive Prepare
  | top
  /-- about to lock `bd_prep_mtx`, at first or on leaving a wait, and to ask the predicate -/
  | locking
  /-- the predicate was false: the thread has the mutex until it waits -/
  | refused
  | blocked
  /-- the predicate was true: the thread has the mutex -/
  | granted
  | preparing (ptr : ℕ)
  | prepared (ptr : ℕ)
  | exited
  /-- `front` of an empty queue -/
  | undefined
deriving DecidableEq

/-- The blenders that a thread has. -/
def Apply.has {F : Type*} (b : ℕ) : Apply F → ℕ
  | .feeding ptr .. | .blended ptr => if ptr = b then 1 else 0
  | _ => 0

def Prepare.has (b : ℕ) : Prepare → ℕ
  | .preparing ptr | .prepared ptr => if ptr = b then 1 else 0
  | _ => 0

/-- A wake-up is of no use to the thread: it will ask the predicate without one. -/
def Prepare.awake : Prepare → Bool
  | .top | .locking | .granted | .preparing _ | .prepared _ => true
  | _ => false

structure State (I J F : Type*) where
  blender_ptr_pool : List ℕ
  blender_prepare_queue : List ℕ
  /-- the thread that holds `bd_prep_mtx` from one step to the next -/
  bd_prep_mtx : Option J
  keep_running : Bool
  running : Bool
  apply : I → Apply F
  prepare : J → Prepare
  /-- the images that a blender has been fed since it was prepared, each by its frames and its camera -/
  fed : ℕ → List (F × ℕ)
  /-- the panoramas so far, by the frames that they are for and what their blender had been fed -/
  panoramas : List (F × List (F × ℕ))

inductive Action (I J F : Type*)
  | take (i : I) (cur : F)
  | feed (i : I)
  | blend (i : I)
  | push (i : I)
  /-- `notify_one`, and the thread that it wakes -/
  | notify_one (i : I) (woken : Option J)
  | loop (j : J)
  | ask (j : J)
  | wait (j : J)
  /-- a wait ends without a notification -/
  | wake (j : J)
  | leave (j : J)
  | prepare (j : J)
  | give_back (j : J)
  /-- `keep_running.store(false)` -/
  | stop_waiting
  /-- `cec.running.store(false)` -/
  | stop
  | notify_all

variable {I J F : Type*}

/-- After `init_blender`, with all threads started. -/
def init : State I J F where
  blender_ptr_pool := List.range blender_pool_size
  blender_prepare_queue := []
  bd_prep_mtx := none
  keep_running := true
  running := true
  apply _ := .top
  prepare _ := .top
  fed _ := []
  panoramas := []

variable [DecidableEq I] [DecidableEq J] [Fintype J]

def State.set_apply (s : State I J F) (i : I) (t : Apply F) : State I J F :=
  { s with apply := Function.update s.apply i t }

def State.set_prepare (s : State I J F) (j : J) (t : Prepare) : State I J F :=
  { s with prepare := Function.update s.prepare j t }

/-- A wait on `blend_prep` ends. -/
def Prepare.notified : Prepare → Prepare
  | .blocked => .locking
  | t => t

/-- One step of a thread, or of the shutdown; `none` when the thread is elsewhere in its loop, or has to wait for
the mutex. -/
def step (s : State I J F) : Action I J F → Option (State I J F)
  | .take i cur =>
    match s.apply i, s.blender_ptr_pool with
    | .top, [] => some s
    | .top, ptr :: rest => some ({ s with blender_ptr_pool := rest }.set_apply i (.feeding ptr cur 0))
    | _, _ => none
  | .feed i =>
    match s.apply i with
    | .feeding ptr cur k =>
      if k < 4 then
        some ({ s with fed := Function.update s.fed ptr (s.fed ptr ++ [(cur, k)]) }.set_apply i
          (.feeding ptr cur (k + 1)))
      else
        none
    | _ => none
  | .blend i =>
    match s.apply i with
    | .feeding ptr cur k =>
      if k < 4 then
        none
      else
        some ({ s with panoramas := s.panoramas ++ [(cur, s.fed ptr)] }.set_apply i (.blended ptr))
    | _ => none
  | .push i =>
    match s.apply i, s.bd_prep_mtx with
    | .blended ptr, none =>
      some ({ s with blender_prepare_queue := s.blender_prepare_queue ++ [ptr] }.set_apply i .pushed)
    | _, _ => none
  | .notify_one i none =>
    match s.apply i with
    -- there is no thread to wake
    | .pushed => if ∀ j, s.prepare j ≠ .blocked then some (s.set_apply i .top) else none
    | _ => none
  | .notify_one i (some j) =>
    match s.apply i, s.prepare j with
    | .pushed, .blocked => some ((s.set_apply i .top).set_prepare j .locking)
    | _, _ => none
  | .loop j =>
    match s.prepare j with
    | .top => some (s.set_prepare j (if s.running then .locking else .exited))
    | _ => none
  | .ask j =>
    match s.prepare j, s.bd_prep_mtx with
    | .locking, none =>
      some ({ s with bd_prep_mtx := some j }.set_prepare j
        (if s.blender_prepare_queue.isEmpty && s.keep_running then .refused else .granted))
    | _, _ => none
  | .wait j =>
    match s.prepare j with
    | .refused => some ({ s with bd_prep_mtx := none }.set_prepare j .blocked)
    | _ => none
  | .wake j =>
    match s.prepare j with
    | .blocked => some (s.set_prepare j .locking)
    | _ => none
  | .leave j =>
    match s.prepare j with
    | .granted =>
      if s.keep_running then
        match s.blender_prepare_queue with
        | [] => some ({ s with bd_prep_mtx := none }.set_prepare j .undefined)
        | ptr :: rest =>
          some ({ s with blender_prepare_queue := rest, bd_prep_mtx := none }.set_prepare j (.preparing ptr))
      else
        some ({ s with bd_prep_mtx := none }.set_prepare j .exited)
    | _ => none
  | .prepare j =>
    match s.prepare j with
    | .preparing ptr => some ({ s with fed := Function.update s.fed ptr [] }.set_prepare j (.prepared ptr))
    | _ => none
  | .give_back j =>
    match s.prepare j with
    | .prepared ptr => some ({ s with blender_ptr_pool := s.blender_ptr_pool ++ [ptr] }.set_prepare j .top)
    | _ => none
  | .stop_waiting => some { s with keep_running := false }
  | .stop => some { s with running := false }
  | .notify_all => some { s with prepare := fun j => (s.prepare j).notified }

/-- What the steps do, each with what it has found. -/
inductive Steps (s : State I J F) : Action I J F → State I J F → Prop
  | skip (i : I) (cur : F) : s.apply i = .top → s.blender_ptr_pool = [] → Steps s (.take i cur) s
  | take (i : I) (cur : F) (ptr : ℕ) (rest : List ℕ) : s.apply i = .top → s.blender_ptr_pool = ptr :: rest →
    Steps s (.take i cur) ({ s with blender_ptr_pool := rest }.set_apply i (.feeding ptr cur 0))
  | feed (i : I) (ptr : ℕ) (cur : F) (k : ℕ) : s.apply i = .feeding ptr cur k → k < 4 →
    Steps s (.feed i) ({ s with fed := Function.update s.fed ptr (s.fed ptr ++ [(cur, k)]) }.set_apply i
      (.feeding ptr cur (k + 1)))
  | blend (i : I) (ptr : ℕ) (cur : F) (k : ℕ) : s.apply i = .feeding ptr cur k → 4 ≤ k →
    Steps s (.blend i) ({ s with panoramas := s.panoramas ++ [(cur, s.fed ptr)] }.set_apply i (.blended ptr))
  | push (i : I) (ptr : ℕ) : s.apply i = .blended ptr → s.bd_prep_mtx = none →
    Steps s (.push i) ({ s with blender_prepare_queue := s.blender_prepare_queue ++ [ptr] }.set_apply i .pushed)
  | notify_none (i : I) : s.apply i = .pushed → (∀ j, s.prepare j ≠ .blocked) →
    Steps s (.notify_one i none) (s.set_apply i .top)
  | notify_one (i : I) (j : J) : s.apply i = .pushed → s.prepare j = .blocked →
    Steps s (.notify_one i (some j)) ((s.set_apply i .top).set_prepare j .locking)
  | loop (j : J) : s.prepare j = .top →
    Steps s (.loop j) (s.set_prepare j (if s.running then .locking else .exited))
  | refuse (j : J) : s.prepare j = .locking → s.bd_prep_mtx = none → s.blender_prepare_queue = [] →
    s.keep_running = true → Steps s (.ask j) ({ s with bd_prep_mtx := some j }.set_prepare j .refused)
  | grant (j : J) : s.prepare j = .locking → s.bd_prep_mtx = none →
    s.blender_prepare_queue ≠ [] ∨ s.keep_running = false →
    Steps s (.ask j) ({ s with bd_prep_mtx := some j }.set_prepare j .granted)
  | wait (j : J) : s.prepare j = .refused →
    Steps s (.wait j) ({ s with bd_prep_mtx := none }.set_prepare j .blocked)
  | wake (j : J) : s.prepare j = .blocked → Steps s (.wake j) (s.set_prepare j .locking)
  | empty (j : J) : s.prepare j = .granted → s.keep_running = true → s.blender_prepare_queue = [] →
    Steps s (.leave j) ({ s with bd_prep_mtx := none }.set_prepare j .undefined)
  | pop (j : J) (ptr : ℕ) (rest : List ℕ) : s.prepare j = .granted → s.keep_running = true →
    s.blender_prepare_queue = ptr :: rest → Steps s (.leave j)
      ({ s with blender_prepare_queue := rest, bd_prep_mtx := none }.set_prepare j (.preparing ptr))
  | exit (j : J) : s.prepare j = .granted → s.keep_running = false →
    Steps s (.leave j) ({ s with bd_prep_mtx := none }.set_prepare j .exited)
  | prepare (j : J) (ptr : ℕ) : s.prepare j = .preparing ptr →
    Steps s (.prepare j) ({ s with fed := Function.update s.fed ptr [] }.set_prepare j (.prepared ptr))
  | give_back (j : J) (ptr : ℕ) : s.prepare j = .prepared ptr →
    Steps s (.give_back j) ({ s with blender_ptr_pool := s.blender_ptr_pool ++ [ptr] }.set_prepare j .top)
  | stop_waiting : Steps s .stop_waiting { s with keep_running := false }
  | stop : Steps s .stop { s with running := false }
  | notify_all : Steps s .notify_all { s with prepare := fun j => (s.prepare j).notified }

variable {s s' : State I J F} {a : Action I J F}

theorem step_cases (hstep : step s a = some s') : Steps s a s' := by
  cases a with
  | take i cur =>
    rw [step] at hstep
    split at hstep
    · rename_i htop hpool
      obtain rfl := Option.some.inj hstep
      exact .skip i cur htop hpool
    · rename_i ptr rest htop hpool
      obtain rfl := Option.some.inj hstep
      exact .take i cur ptr rest htop hpool
    · cases hstep
  | feed i =>
    rw [step] at hstep
    split at hstep
    · rename_i ptr cur k hfeeding
      split at hstep
      · rename_i hk
        obtain rfl := Option.some.inj hstep
        exact .feed i ptr cur k hfeeding hk
      · cases hstep
    · cases hstep
  | blend i =>
    rw [step] at hstep
    split at hstep
    · rename_i ptr cur k hfeeding
      split at hstep
      · cases hstep
      · rename_i hk
        obtain rfl := Option.some.inj hstep
        exact .blend i ptr cur k hfeeding (Nat.le_of_not_lt hk)
    · cases hstep
  | push i =>
    rw [step] at hstep
    split at hstep
    · rename_i ptr hblended hmutex
      obtain rfl := Option.some.inj hstep
      exact .push i ptr hblended hmutex
    · cases hstep
  | notify_one i woken =>
    cases woken with
    | none =>
      rw [step] at hstep
      split at hstep
      · rename_i hpushed
        split at hstep
        · rename_i hnone
          obtain rfl := Option.some.inj hstep
          exact .notify_none i hpushed hnone
        · cases hstep
      · cases hstep
    | some j =>
      rw [step] at hstep
      split at hstep
      · rename_i hpushed hblocked
        obtain rfl := Option.some.inj hstep
        exact .notify_one i j hpushed hblocked
      · cases hstep
  | loop j =>
    rw [step] at hstep
    split at hstep
    · rename_i htop
      obtain rfl := Option.some.inj hstep
      exact .loop j htop
    · cases hstep
  | ask j =>
    rw [step] at hstep
    split at hstep
    · rename_i hlocking hmutex
      obtain rfl := Option.some.inj hstep
      split
      · rename_i hfalse
        rw [Bool.and_eq_true, List.isEmpty_iff] at hfalse
        exact .refuse j hlocking hmutex hfalse.1 hfalse.2
      · rename_i htrue
        rw [Bool.and_eq_true, List.isEmpty_iff, not_and_or, Bool.not_eq_true] at htrue
        exact .grant j hlocking hmutex htrue
    · cases hstep
  | wait j =>
    rw [step] at hstep
    split at hstep
    · rename_i hrefused
      obtain rfl := Option.some.inj hstep
      exact .wait j hrefused
    · cases hstep
  | wake j =>
    rw [step] at hstep
    split at hstep
    · rename_i hblocked
      obtain rfl := Option.some.inj hstep
      exact .wake j hblocked
    · cases hstep
  | leave j =>
    rw [step] at hstep
    split at hstep
    · rename_i hgranted
      split at hstep
      · rename_i hkeep
        split at hstep
        · rename_i hqueue
          obtain rfl := Option.some.inj hstep
          exact .empty j hgranted hkeep hqueue
        · rename_i ptr rest hqueue
          obtain rfl := Option.some.inj hstep
          exact .pop j ptr rest hgranted hkeep hqueue
      · rename_i hkeep
        obtain rfl := Option.some.inj hstep
        exact .exit j hgranted (Bool.eq_false_iff.mpr hkeep)
    · cases hstep
  | prepare j =>
    rw [step] at hstep
    split at hstep
    · rename_i ptr hpreparing
      obtain rfl := Option.some.inj hstep
      exact .prepare j ptr hpreparing
    · cases hstep
  | give_back j =>
    rw [step] at hstep
    split at hstep
    · rename_i ptr hprepared
      obtain rfl := Option.some.inj hstep
      exact .give_back j ptr hprepared
    · cases hstep
  | stop_waiting =>
    obtain rfl := Option.some.inj hstep
    exact .stop_waiting
  | stop =>
    obtain rfl := Option.some.inj hstep
    exact .stop
  | notify_all =>
    obtain rfl := Option.some.inj hstep
    exact .notify_all

end k180.blenders
