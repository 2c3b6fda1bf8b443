import K180.Schedule.Progress

open schedule

namespace k180.record_cleanup

/-- Where a `cleanup_thread_main` is in its loop. -/
inductive Worker where
  /-- about to lock `g_thread_mtx`, at first or on leaving a wait, which may have timed out, and to ask the predicate -/
  | locking (timed_out : Bool)
  /-- the predicate was false: the thread has the mutex until it waits -/
  | refused
  | blocked
  /-- in `cleanup_once`, with so many removals still to come -/
  | cleaning (left : ℕ)
  | exited
deriving DecidableEq

/-- Where the thread that calls `start_runtime_cleanup` and `stop_runtime_cleanup` is. -/
inductive Controller where
  | idle
  /-- before `notify_all` -/
  | stopping
  | joining
  | resetting
deriving DecidableEq

structure Runtime where
  g_started : Bool
  g_stop : Bool
  /-- the thread that `g_thread` stands for, where it is joinable -/
  g_thread : Option ℕ
  /-- the thread that holds `g_thread_mtx` from one step to the next -/
  g_thread_mtx : Option ℕ
  worker : ℕ → Option Worker
  threads : ℕ
  controller : Controller
  /-- a joinable `g_thread` has been assigned to -/
  terminated : Bool

inductive Action where
  | start
  | stop
  | notify_all
  | join
  | reset
  /-- lock and ask the predicate; a cleanup that begins has `left` removals to make -/
  | ask (j left : ℕ)
  | wait (j : ℕ)
  | wake (j : ℕ) (timed_out : Bool)
  | remove (j : ℕ)
  | cleaned (j : ℕ)

def init : Runtime where
  g_started := false
  g_stop := false
  g_thread := none
  g_thread_mtx := none
  worker _ := none
  threads := 0
  controller := .idle
  terminated := false

def Runtime.set_worker (s : Runtime) (j : ℕ) (w : Worker) : Runtime :=
  { s with worker := Function.update s.worker j (some w) }

/-- A wait on `g_thread_cv` ends. -/
def Worker.notified : Worker → Worker
  | .blocked => .locking false
  | w => w

/-- One step of the controller or of a worker; `none` when it is elsewhere, or has to wait. -/
def step (s : Runtime) : Action → Option Runtime
  | .start =>
    match s.controller, s.g_thread_mtx with
    | .idle, none =>
      if s.g_started then some s
      else
        some { s with
          g_stop := false
          g_thread := some s.threads
          worker := Function.update s.worker s.threads (some (.locking false))
          threads := s.threads + 1
          g_started := true
          terminated := s.terminated || s.g_thread.isSome }
    | _, _ => none
  | .stop =>
    match s.controller, s.g_thread_mtx with
    | .idle, none => if s.g_started then some { s with g_stop := true, controller := .stopping } else some s
    | _, _ => none
  | .notify_all =>
    match s.controller with
    | .stopping => some { s with worker := fun j => (s.worker j).map Worker.notified, controller := .joining }
    | _ => none
  | .join =>
    match s.controller with
    | .joining =>
      match s.g_thread with
      | none => some { s with controller := .resetting }
      | some j =>
        if s.worker j = some .exited then some { s with g_thread := none, controller := .resetting } else none
    | _ => none
  | .reset =>
    match s.controller, s.g_thread_mtx with
    | .resetting, none => some { s with g_started := false, g_stop := false, controller := .idle }
    | _, _ => none
  | .ask j left =>
    match s.worker j, s.g_thread_mtx with
    | some (.locking timed_out), none =>
      if s.g_stop then some (s.set_worker j .exited)
      else if timed_out then some (s.set_worker j (.cleaning left))
      else some ({ s with g_thread_mtx := some j }.set_worker j .refused)
    | _, _ => none
  | .wait j =>
    match s.worker j with
    | some .refused => some ({ s with g_thread_mtx := none }.set_worker j .blocked)
    | _ => none
  | .wake j timed_out =>
    match s.worker j with
    | some .blocked => some (s.set_worker j (.locking timed_out))
    | _ => none
  | .remove j =>
    match s.worker j with
    | some (.cleaning (left + 1)) => some (s.set_worker j (.cleaning left))
    | _ => none
  | .cleaned j =>
    match s.worker j with
    | some (.cleaning 0) => some (s.set_worker j (.locking false))
    | _ => none

/-- What the steps do, each with what it has found. -/
inductive Steps (s : Runtime) : Action → Runtime → Prop
  | skip_start : s.controller = .idle → s.g_started = true → Steps s .start s
  | start : s.controller = .idle → s.g_started = false → Steps s .start
      { s with
        g_stop := false
        g_thread := some s.threads
        worker := Function.update s.worker s.threads (some (.locking false))
        threads := s.threads + 1
        g_started := true
        terminated := s.terminated || s.g_thread.isSome }
  | skip_stop : s.controller = .idle → s.g_started = false → Steps s .stop s
  | stop : s.controller = .idle → s.g_started = true → s.g_thread_mtx = none →
    Steps s .stop { s with g_stop := true, controller := .stopping }
  | notify_all : s.controller = .stopping →
    Steps s .notify_all { s with worker := fun j => (s.worker j).map Worker.notified, controller := .joining }
  | skip_join : s.controller = .joining → s.g_thread = none → Steps s .join { s with controller := .resetting }
  | join (j : ℕ) : s.controller = .joining → s.g_thread = some j → s.worker j = some .exited →
    Steps s .join { s with g_thread := none, controller := .resetting }
  | reset : s.controller = .resetting →
    Steps s .reset { s with g_started := false, g_stop := false, controller := .idle }
  | exit (j left : ℕ) (timed_out : Bool) : s.worker j = some (.locking timed_out) → s.g_stop = true →
    Steps s (.ask j left) (s.set_worker j .exited)
  | clean (j left : ℕ) : s.worker j = some (.locking true) → s.g_stop = false →
    Steps s (.ask j left) (s.set_worker j (.cleaning left))
  | refuse (j left : ℕ) : s.worker j = some (.locking false) → s.g_stop = false → s.g_thread_mtx = none →
    Steps s (.ask j left) ({ s with g_thread_mtx := some j }.set_worker j .refused)
  | wait (j : ℕ) : s.worker j = some .refused →
    Steps s (.wait j) ({ s with g_thread_mtx := none }.set_worker j .blocked)
  | wake (j : ℕ) (timed_out : Bool) : s.worker j = some .blocked →
    Steps s (.wake j timed_out) (s.set_worker j (.locking timed_out))
  | remove (j left : ℕ) : s.worker j = some (.cleaning (left + 1)) →
    Steps s (.remove j) (s.set_worker j (.cleaning left))
  | cleaned (j : ℕ) : s.worker j = some (.cleaning 0) → Steps s (.cleaned j) (s.set_worker j (.locking false))

variable {s s' : Runtime} {a : Action}

theorem step_cases (hstep : step s a = some s') : Steps s a s' := by
  cases a with
  | start =>
    simp only [step] at hstep
    split at hstep
    · rename_i hcontroller _
      split at hstep <;> cases hstep
      · exact .skip_start hcontroller ‹_›
      · exact .start hcontroller (Bool.eq_false_iff.mpr ‹_›)
    · cases hstep
  | stop =>
    simp only [step] at hstep
    split at hstep
    · rename_i hcontroller hmtx
      split at hstep <;> cases hstep
      · exact .stop hcontroller ‹_› hmtx
      · exact .skip_stop hcontroller (Bool.eq_false_iff.mpr ‹_›)
    · cases hstep
  | notify_all =>
    simp only [step] at hstep
    split at hstep <;> cases hstep
    exact .notify_all ‹_›
  | join =>
    simp only [step] at hstep
    split at hstep
    · rename_i hcontroller
      split at hstep
      · cases hstep
        exact .skip_join hcontroller ‹_›
      · rename_i j hthread
        split at hstep <;> cases hstep
        exact .join j hcontroller hthread ‹_›
    · cases hstep
  | reset =>
    simp only [step] at hstep
    split at hstep <;> cases hstep
    exact .reset ‹_›
  | ask j left =>
    simp only [step] at hstep
    split at hstep
    · rename_i timed_out hworker hmtx
      split at hstep
      · cases hstep
        exact .exit j left timed_out hworker ‹_›
      rename_i hstop
      have hstop := Bool.eq_false_iff.mpr hstop
      split at hstep <;> cases hstep
      · rename_i htimed
        exact .clean j left (htimed ▸ hworker) hstop
      · rename_i htimed
        exact .refuse j left (Bool.eq_false_iff.mpr htimed ▸ hworker) hstop hmtx
    · cases hstep
  | wait j =>
    simp only [step] at hstep
    split at hstep <;> cases hstep
    exact .wait j ‹_›
  | wake j timed_out =>
    simp only [step] at hstep
    split at hstep <;> cases hstep
    exact .wake j timed_out ‹_›
  | remove j =>
    simp only [step] at hstep
    split at hstep <;> cases hstep
    exact .remove j _ ‹_›
  | cleaned j =>
    simp only [step] at hstep
    split at hstep <;> cases hstep
    exact .cleaned j ‹_›

/-- Where the thread is that `g_thread` stands for. -/
def Runtime.current (s : Runtime) : Option Worker := s.g_thread.bind s.worker

def Runtime.Alive (s : Runtime) (j : ℕ) : Prop := ∃ w, s.worker j = some w ∧ w ≠ .exited

/-- The thread is there where it has been started, and one that is being stopped does not wait again. -/
def Runtime.Settled (s : Runtime) : Prop :=
  match s.controller with
  | .idle => s.g_stop = false ∧
      if s.g_started then ∃ w, s.current = some w ∧ w ≠ .exited else s.g_thread = none
  | .stopping => s.g_stop = true ∧ ∃ w, s.current = some w ∧ w ≠ .refused
  | .joining => s.g_stop = true ∧ ∃ w, s.current = some w ∧ w ≠ .refused ∧ w ≠ .blocked
  | .resetting => s.g_thread = none

structure Ok (s : Runtime) : Prop where
  terminated : s.terminated = false
  fresh : ∀ j, s.threads ≤ j → s.worker j = none
  alive : ∀ j, s.Alive j → s.g_thread = some j
  mtx : ∀ j, s.g_thread_mtx = some j ↔ s.worker j = some .refused
  settled : s.Settled

theorem ok_init : Ok init where
  terminated := rfl
  fresh _ _ := rfl
  alive j h := by
    obtain ⟨w, hw, -⟩ := h
    cases hw
  mtx j := by simp [init]
  settled := ⟨rfl, rfl⟩

/-- The state after a turn of the thread. -/
def Runtime.turned (s : Runtime) (j : ℕ) (w : Worker) : Runtime :=
  { s with g_thread_mtx := if w = Worker.refused then some j else none }.set_worker j w

namespace Ok

variable {j : ℕ} {w v : Worker}

theorem g_thread (h : Ok s) (hj : s.worker j = some w) (hw : w ≠ .exited) : s.g_thread = some j := h.alive j ⟨w, hj, hw⟩

theorem current (h : Ok s) (hj : s.worker j = some w) (hw : w ≠ .exited) : s.current = some w := by
  rw [Runtime.current, h.g_thread hj hw, Option.bind_some, hj]

/-- Only the thread can hold the mutex. -/
theorem mtx_none (h : Ok s) (hcurrent : s.current ≠ some .refused) : s.g_thread_mtx = none := by
  cases hmtx : s.g_thread_mtx with
  | none => rfl
  | some i => exact absurd (h.current ((h.mtx i).mp hmtx) nofun) hcurrent

/-- The thread moves on. -/
theorem turn (h : Ok s) (hj : s.worker j = some w) (hw : w ≠ .exited) (hexit : v = .exited → s.g_stop = true)
    (hstop : s.g_stop = true → v ≠ .refused ∧ (v = .blocked → w = .refused)) :
    Ok (s.turned j v) := by
  have hthread := h.g_thread hj hw
  have hcurrent := h.current hj hw
  have hself : (s.turned j v).worker j = some v := Function.update_self ..
  have hother : ∀ i, i ≠ j → (s.turned j v).worker i = s.worker i := fun i hne => Function.update_of_ne hne ..
  have hothers : ∀ i, i ≠ j → ¬ s.Alive i := fun i hne halive =>
    hne (Option.some.inj ((h.alive i halive).symm.trans hthread))
  refine ⟨h.terminated, fun i hi => ?_, fun i hi => ?_, fun i => ?_, ?_⟩
  · have hne : i ≠ j := by
      rintro rfl
      exact absurd (hj.symm.trans (h.fresh i hi)) nofun
    exact (hother i hne).trans (h.fresh i hi)
  · obtain rfl | hne := eq_or_ne i j
    · exact hthread
    · obtain ⟨u, hu, hexited⟩ := hi
      exact absurd ⟨u, (hother i hne).symm.trans hu, hexited⟩ (hothers i hne)
  · have hmtx : (s.turned j v).g_thread_mtx = if v = .refused then some j else none := rfl
    obtain rfl | hne := eq_or_ne i j
    · rw [hself, hmtx]
      by_cases hrefused : v = .refused <;> simp [hrefused]
    · have hrefused : s.worker i ≠ some .refused := fun hi => hothers i hne ⟨.refused, hi, nofun⟩
      rw [hother i hne, hmtx]
      refine iff_of_false ?_ hrefused
      by_cases hrefused : v = .refused <;> simp [hrefused, hne.symm]
  · have hsettled := h.settled
    have hnow : (s.turned j v).current = some v := by
      rw [Runtime.current, show (s.turned j v).g_thread = some j from hthread, Option.bind_some, hself]
    have hsame : (s.turned j v).controller = s.controller := rfl
    rw [Runtime.Settled] at hsettled ⊢
    rw [hnow, hsame]
    cases hcontroller : s.controller with
    | idle =>
      rw [hcontroller] at hsettled
      obtain ⟨hidle, hstarted⟩ := hsettled
      have hthere : s.g_started = true := by
        by_contra hnot
        rw [if_neg hnot] at hstarted
        exact absurd (hthread.symm.trans hstarted) nofun
      refine ⟨hidle, ?_⟩
      rw [show (s.turned j v).g_started = true from hthere, if_pos rfl]
      exact ⟨v, rfl, fun heq => absurd (hidle.symm.trans (hexit heq)) Bool.false_ne_true⟩
    | stopping =>
      rw [hcontroller] at hsettled
      exact ⟨hsettled.1, v, rfl, (hstop hsettled.1).1⟩
    | joining =>
      rw [hcontroller] at hsettled
      obtain ⟨hstopped, u, hu, hrefused, -⟩ := hsettled
      obtain rfl := Option.some.inj (hcurrent.symm.trans hu)
      exact ⟨hstopped, v, rfl, (hstop hstopped).1, fun heq => hrefused ((hstop hstopped).2 heq)⟩
    | resetting =>
      rw [hcontroller] at hsettled
      exact absurd (hthread.symm.trans hsettled) nofun

/-- The thread moves on without the mutex. -/
theorem turn_unlocked (h : Ok s) (hj : s.worker j = some w) (hw : w ≠ .exited) (hrefused : w ≠ .refused)
    (hrefused' : v ≠ .refused) (hblocked : v ≠ .blocked) (hexit : v = .exited → s.g_stop = true) :
    Ok (s.set_worker j v) := by
  have hmtx := h.mtx_none fun hcurrent => hrefused (Option.some.inj ((h.current hj hw).symm.trans hcurrent))
  have hturn := h.turn hj hw hexit fun _ => ⟨hrefused', fun heq => absurd heq hblocked⟩
  rwa [Runtime.turned, if_neg hrefused', ← hmtx] at hturn

theorem not_alive_of_none (h : Ok s) (hthread : s.g_thread = none) (j : ℕ) : ¬ s.Alive j :=
  fun halive => absurd ((h.alive j halive).symm.trans hthread) nofun

theorem step (h : Ok s) (hstep : record_cleanup.step s a = some s') : Ok s' := by
  have hsettled := h.settled
  rw [Runtime.Settled] at hsettled
  cases step_cases hstep with
  | skip_start | skip_stop => exact h
  | start hcontroller hstarted =>
    rw [hcontroller, hstarted] at hsettled
    have hnone : s.g_thread = none := hsettled.2
    have hfresh := h.fresh s.threads le_rfl
    refine ⟨?_, fun j hj => ?_, fun j hj => ?_, fun j => ?_, ?_⟩
    · simp only [h.terminated, hnone, Option.isSome_none, Bool.or_false]
    · exact (Function.update_of_ne (Nat.ne_of_gt hj) ..).trans (h.fresh j (Nat.le_of_succ_le hj))
    · obtain rfl | hne := eq_or_ne j s.threads
      · rfl
      · obtain ⟨w, hw, hexited⟩ := hj
        exact absurd ⟨w, (Function.update_of_ne hne ..).symm.trans hw, hexited⟩ (h.not_alive_of_none hnone j)
    · obtain rfl | hne := eq_or_ne j s.threads
      · simp only [Function.update_self, h.mtx, hfresh]
        simp
      · simp only [Function.update_of_ne hne, h.mtx]
    · simp only [Runtime.Settled, hcontroller, if_true, Runtime.current, Option.bind_some, Function.update_self]
      exact ⟨trivial, .locking false, rfl, nofun⟩
  | stop hcontroller hstarted hmtx =>
    rw [hcontroller, hstarted] at hsettled
    obtain ⟨-, w, hcurrent, -⟩ := hsettled
    refine ⟨h.terminated, h.fresh, h.alive, h.mtx, rfl, w, hcurrent, ?_⟩
    rintro rfl
    obtain ⟨j, -, hj⟩ := Option.bind_eq_some_iff.mp hcurrent
    exact absurd (hmtx.symm.trans ((h.mtx j).mpr hj)) nofun
  | notify_all hcontroller =>
    rw [hcontroller] at hsettled
    obtain ⟨hstop, w, hcurrent, hrefused⟩ := hsettled
    obtain ⟨i, hi, hw⟩ := Option.bind_eq_some_iff.mp hcurrent
    have hmap : ∀ j v, (s.worker j).map Worker.notified = some v → ∃ u, s.worker j = some u ∧ u.notified = v :=
      fun j v hv => Option.map_eq_some_iff.mp hv
    refine ⟨h.terminated, fun j hj => ?_, fun j hj => ?_, fun j => ?_, hstop, w.notified, ?_, ?_⟩
    · simp only [h.fresh j hj, Option.map_none]
    · obtain ⟨v, hv, hexited⟩ := hj
      obtain ⟨u, hu, rfl⟩ := hmap j v hv
      refine h.alive j ⟨u, hu, ?_⟩
      rintro rfl
      exact hexited rfl
    · rw [h.mtx]
      refine ⟨fun hj => by simp only [hj, Option.map_some, Worker.notified], fun hj => ?_⟩
      obtain ⟨u, hu, hnotified⟩ := hmap j _ hj
      cases u with
      | refused => exact hu
      | _ => cases hnotified
    · simp only [Runtime.current, hi, Option.bind_some, hw, Option.map_some]
    · cases w with
      | refused => exact absurd rfl hrefused
      | _ => exact ⟨nofun, nofun⟩
  | skip_join hcontroller hnone => exact ⟨h.terminated, h.fresh, h.alive, h.mtx, hnone⟩
  | join j hcontroller hthread hexited =>
    refine ⟨h.terminated, h.fresh, fun i hi => ?_, h.mtx, rfl⟩
    obtain rfl := Option.some.inj ((h.alive i hi).symm.trans hthread)
    obtain ⟨w, hw, hne⟩ := hi
    exact absurd (Option.some.inj (hw.symm.trans hexited)) hne
  | reset hcontroller =>
    rw [hcontroller] at hsettled
    exact ⟨h.terminated, h.fresh, h.alive, h.mtx, rfl, hsettled⟩
  | exit j left timed_out hj hstop => exact h.turn_unlocked hj nofun nofun nofun nofun fun _ => hstop
  | clean j left hj hstop => exact h.turn_unlocked hj nofun nofun nofun nofun nofun
  | refuse j left hj hstop hmtx =>
    exact h.turn (v := .refused) hj nofun nofun fun hstopped => absurd (hstop.symm.trans hstopped) Bool.false_ne_true
  | wait j hj => exact h.turn (v := .blocked) hj nofun nofun fun _ => ⟨nofun, fun _ => rfl⟩
  | wake j timed_out hj => exact h.turn_unlocked hj nofun nofun nofun nofun nofun
  | remove j left hj => exact h.turn_unlocked hj nofun nofun nofun nofun nofun
  | cleaned j hj => exact h.turn_unlocked hj nofun nofun nofun nofun nofun

end Ok

theorem ok_of_run {actions : List Action} (hrun : run step init actions = some s) : Ok s :=
  invariant_of_run (fun _ _ _ h hstep => h.step hstep) ok_init hrun

/-- The steps that a thread may take until it has come to its end, once it is to stop. -/
def Worker.rank : Worker → ℕ
  | .locking _ => 1
  | .refused => 3
  | .blocked => 2
  | .cleaning left => left + 2
  | .exited => 0

def Controller.rank : Controller → ℕ
  | .idle => 0
  | .stopping => 3
  | .joining => 2
  | .resetting => 1

def rank (s : Runtime) : ℕ := s.controller.rank + s.current.elim 0 Worker.rank

/-- The removals that a cleanup under way has still to make. -/
def Runtime.left (s : Runtime) : ℕ :=
  match s.current with
  | some (.cleaning left) => left
  | _ => 0

theorem rank_le (s : Runtime) : rank s ≤ s.left + 6 := by
  have hcontroller : s.controller.rank ≤ 3 := by cases s.controller <;> simp [Controller.rank]
  rw [rank, Runtime.left]
  cases s.current with
  | none => exact le_trans hcontroller (by omega)
  | some w => cases w <;> simp only [Option.elim_some, Worker.rank] <;> omega

theorem rank_set_worker {j : ℕ} {w : Worker} (hthread : s.g_thread = some j) :
    rank (s.set_worker j w) = s.controller.rank + w.rank := by
  simp [rank, Runtime.current, Runtime.set_worker, hthread]

theorem Ok.rank_eq (h : Ok s) {j : ℕ} {w : Worker} (hj : s.worker j = some w) (hw : w ≠ .exited) :
    rank s = s.controller.rank + w.rank := by
  rw [rank, h.current hj hw, Option.elim_some]

/-- The flag is up while there is a thread to be stopped. -/
theorem Ok.g_stop (h : Ok s) (hbusy : s.controller ≠ .idle) {j : ℕ} (hthread : s.g_thread = some j) :
    s.g_stop = true := by
  have hsettled := h.settled
  rw [Runtime.Settled] at hsettled
  cases hcontroller : s.controller with
  | idle => exact absurd hcontroller hbusy
  | stopping | joining =>
    rw [hcontroller] at hsettled
    exact hsettled.1
  | resetting =>
    rw [hcontroller] at hsettled
    exact absurd (hthread.symm.trans hsettled) nofun

/-- While a stop is under way, each step brings its end nearer. -/
theorem Ok.rank_lt (h : Ok s) (hbusy : s.controller ≠ .idle) (hstep : record_cleanup.step s a = some s') :
    rank s' < rank s := by
  have hturn : ∀ {j : ℕ} {w w' : Worker}, s.worker j = some w → w ≠ .exited → w'.rank < w.rank →
      rank (s.set_worker j w') < rank s := by
    intro j w w' hj hw hlt
    rw [rank_set_worker (h.g_thread hj hw), h.rank_eq hj hw]
    exact Nat.add_lt_add_left hlt _
  cases step_cases hstep with
  | skip_start hidle | start hidle | skip_stop hidle | stop hidle => exact absurd hidle hbusy
  | notify_all hcontroller =>
    have hle : ∀ w : Worker, w.notified.rank ≤ w.rank := fun w => by cases w <;> simp [Worker.notified, Worker.rank]
    simp only [rank, hcontroller, Controller.rank, Runtime.current]
    cases s.g_thread with
    | none => exact Nat.lt_succ_self _
    | some j =>
      cases hw : s.worker j with
      | none => simp [hw]
      | some w =>
        have hlew := hle w
        simp only [Option.bind_some, hw, Option.map_some, Option.elim_some]
        omega
  | skip_join hcontroller | reset hcontroller =>
    rw [rank, rank, hcontroller]
    exact Nat.add_lt_add_right (Nat.lt_succ_self _) _
  | join j hcontroller =>
    simp only [rank, hcontroller, Controller.rank, Runtime.current, Option.bind_none, Option.elim_none]
    omega
  | exit j left timed_out hj => exact hturn hj nofun Nat.one_pos
  | clean j left hj hstop | refuse j left hj hstop =>
    exact absurd (hstop.symm.trans (h.g_stop hbusy (h.g_thread hj nofun))) Bool.false_ne_true
  | wait j hj =>
    have hthread := h.g_thread hj nofun
    rw [rank_set_worker (by exact hthread), h.rank_eq hj nofun]
    exact Nat.add_lt_add_left (Nat.lt_succ_self 2) _
  | wake j timed_out hj => exact hturn hj nofun Nat.one_lt_two
  | remove j left hj => exact hturn hj nofun (Nat.lt_succ_self _)
  | cleaned j hj => exact hturn hj nofun Nat.one_lt_two

/-- While a stop is under way, something can go on. -/
theorem Ok.enabled (h : Ok s) (hbusy : s.controller ≠ .idle) : ∃ a s', record_cleanup.step s a = some s' := by
  have hsettled := h.settled
  rw [Runtime.Settled] at hsettled
  suffices hsome : ∃ a, (record_cleanup.step s a).isSome by
    obtain ⟨a, ha⟩ := hsome
    exact ⟨a, Option.isSome_iff_exists.mp ha⟩
  cases hcontroller : s.controller with
  | idle => exact absurd hcontroller hbusy
  | stopping => exact ⟨.notify_all, by simp [record_cleanup.step, hcontroller]⟩
  | joining =>
    rw [hcontroller] at hsettled
    obtain ⟨hstop, w, hcurrent, hrefused, hblocked⟩ := hsettled
    have hmtx := h.mtx_none fun heq => hrefused (Option.some.inj (hcurrent.symm.trans heq))
    obtain ⟨j, hthread, hj⟩ := Option.bind_eq_some_iff.mp hcurrent
    cases w with
    | locking timed_out => exact ⟨.ask j 0, by simp [record_cleanup.step, hj, hmtx, hstop]⟩
    | refused => exact absurd rfl hrefused
    | blocked => exact absurd rfl hblocked
    | cleaning left =>
      cases left with
      | zero => exact ⟨.cleaned j, by simp [record_cleanup.step, hj]⟩
      | succ left => exact ⟨.remove j, by simp [record_cleanup.step, hj]⟩
    | exited => exact ⟨.join, by simp [record_cleanup.step, hcontroller, hthread, hj]⟩
  | resetting =>
    rw [hcontroller] at hsettled
    have hmtx := h.mtx_none (by simp [Runtime.current, hsettled])
    exact ⟨.reset, by simp [record_cleanup.step, hcontroller, hmtx]⟩

/-- For any calls of `start_runtime_cleanup` and `stop_runtime_cleanup` one after another, and any order of the steps:
there is never more than one cleanup thread, nor one without a start or after a stop, and no joinable thread is
assigned to. A stop under way can always go on, no cleanup begins any more, and it ends within 6 steps and those of
the cleanup that it has found. -/
theorem cleanup_stops (actions : List Action) (s : Runtime) (hrun : run step init actions = some s) :
    s.terminated = false ∧ (∀ i j, s.Alive i → s.Alive j → i = j) ∧
    (s.controller = .idle → s.g_started = false → ∀ j, ¬ s.Alive j) ∧
    (s.controller ≠ .idle → (∃ a s', step s a = some s') ∧
      (∀ j left s', step s (.ask j left) = some s' → s'.worker j = some .exited) ∧
      ∀ more s', run step s more = some s' → s.left + 6 < more.length →
        ∃ before after mid, more = before ++ after ∧ run step s before = some mid ∧ mid.controller = .idle) := by
  have hok := ok_of_run hrun
  have hsettled := hok.settled
  rw [Runtime.Settled] at hsettled
  refine ⟨hok.terminated, fun i j hi hj => ?_, fun hidle hstarted => ?_, fun hbusy => ⟨hok.enabled hbusy, ?_, ?_⟩⟩
  · exact Option.some.inj ((hok.alive i hi).symm.trans (hok.alive j hj))
  · rw [hidle, hstarted] at hsettled
    exact hok.not_alive_of_none hsettled.2
  · intro j left s' hask
    cases step_cases hask with
    | exit => exact Function.update_self ..
    | clean _ _ hj hstop | refuse _ _ hj hstop =>
      exact absurd (hstop.symm.trans (hok.g_stop hbusy (hok.g_thread hj nofun))) Bool.false_ne_true
  · intro more s' hmore hlength
    refine @exists_goal_of_rank _ _ step (fun s => Ok s ∧ s.controller ≠ .idle) (fun s => s.controller = .idle)
      (fun _ => True) (fun _ => true) rank ?_ _ _ _ (fun _ _ => trivial) ⟨hok, hbusy⟩ hmore ?_
    · rintro s a s' ⟨h, hbusy⟩ - hstep
      by_cases hidle : s'.controller = .idle
      · exact .inl hidle
      · exact .inr ⟨⟨h.step hstep, hidle⟩, h.rank_lt hbusy hstep⟩
    · rw [List.countP_true]
      exact lt_of_le_of_lt (rank_le s) hlength

/-- The stop comes while a cleanup has two removals to make. -/
def stopped_cleaning : List Action := [.start, .ask 0 0, .wait 0, .wake 0 true, .ask 0 2, .stop]

theorem cleanup_stops_cleaning :
    ∃ s, run step init stopped_cleaning = some s ∧ s.left = 2 ∧ (∃ a s', step s a = some s') ∧
      ∀ more s', run step s more = some s' → 8 < more.length →
        ∃ before after mid, more = before ++ after ∧ run step s before = some mid ∧ mid.controller = .idle := by
  obtain ⟨s, hs⟩ : ∃ s, run step init stopped_cleaning = some s := ⟨_, rfl⟩
  obtain ⟨-, -, -, hstops⟩ := cleanup_stops stopped_cleaning s hs
  obtain rfl := Option.some.inj hs
  obtain ⟨henabled, -, hends⟩ := hstops nofun
  exact ⟨_, hs, rfl, henabled, hends⟩

end k180.record_cleanup
