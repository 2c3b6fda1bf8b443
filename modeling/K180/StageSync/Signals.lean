import K180.StageSync.Turns
import K180.Schedule.Monitor

open schedule

namespace k180.pipeline

theorem lt_of_ready {seq last_seen : UInt32} (hready : (StageObject.event seq).ready last_seen = true) :
    last_seen < seq := of_decide_eq_true hready

section Notes

variable {T : Type*} {event : T → Event} {t : T} {s : State T} {turn : Turn T}

/-- Only signals of the event count. -/
theorem countP_note_of_not_signal (hnot : ∀ id, turn ≠ .act (.advance (event t) id)) :
    (turn_note s turn).toList.countP (Note.signals (event t)) = 0 := by
  rw [List.countP_eq_zero]
  intro n hn hsignals
  cases turn with
  | wake t' => cases hn
  | act a =>
    cases a with
    | advance e id =>
      obtain rfl := List.mem_singleton.mp hn
      exact hnot id (by rw [of_decide_eq_true hsignals])
    | finish t' =>
      obtain rfl := List.mem_singleton.mp hn
      cases hsignals
    | _ => cases hn

end Notes

variable {T : Type*} [DecidableEq T]

/-- The signals of its event since the last successful return of a thread. -/
def unseen (event : T → Event) (t : T) (history : List (Note T)) : ℕ :=
  (since (Note.returns t) history).countP (Note.signals (event t))

/-- With a signal that the thread has not seen, and without a stop, it does not wait. -/
def NotLost (event : T → Event) (t : T) (x : Noted T) : Prop :=
  x.1.pipeline_sync_stop = false → 0 < unseen event t x.2 →
    (x.1.object (event t)).ready (x.1.last_seen t) = true

/-- No signal of the event of a thread takes its counter round to zero before the stop. -/
def NoWrap (event : T → Event) (t : T) (x : Noted T) : Turn T → Prop
  | .act (.advance e _) =>
    e = event t → x.1.pipeline_sync_stop = false → ∀ seq, x.1.object (event t) = .event seq → seq ≠ 0xFFFFFFFF
  | _ => True

/-- The counter and what the thread has seen of it, modulo `2 ^ 32`. -/
structure Counts (event : T → Event) (t : T) (x : Noted T) : Prop where
  calls : CallsOk event x.1
  counts : ∃ seen, x.1.last_seen t = UInt32.ofNat seen ∧
    x.2.countP (Note.signals (event t)) = seen + unseen event t x.2 ∧
    x.1.object (event t) = .event (UInt32.ofNat (x.2.countP (Note.signals (event t))))
  consumed : Preceded (Note.returns t) (Note.signals (event t)) x.2

/-- As long as the counter has not gone round, it is the number of signals. -/
structure Exact (event : T → Event) (t : T) (x : Noted T) : Prop extends Counts event t x where
  few : x.1.pipeline_sync_stop = false → x.2.countP (Note.signals (event t)) < 2 ^ 32

variable {event : T → Event} {t : T} {x x' : Noted T} {turn : Turn T}

/-- A note that is no signal of the event and no return of the thread changes no count. -/
theorem Counts.of_irrelevant {note : Option (Note T)} (hcounts : Counts event t x) (hcalls : CallsOk event x'.1)
    (hobject : x'.1.object (event t) = x.1.object (event t)) (hseen : x'.1.last_seen t = x.1.last_seen t)
    (hhistory : x'.2 = note.toList ++ x.2)
    (hnote : ∀ n ∈ note, n.signals (event t) = false ∧ n.returns t = false) : Counts event t x' := by
  obtain ⟨-, ⟨seen, hlast, htotal, hcounter⟩, hconsumed⟩ := hcounts
  have hsame : x'.2.countP (Note.signals (event t)) = x.2.countP (Note.signals (event t)) ∧
      unseen event t x'.2 = unseen event t x.2 ∧ Preceded (Note.returns t) (Note.signals (event t)) x'.2 := by
    rw [hhistory]
    cases note with
    | none => exact ⟨rfl, rfl, hconsumed⟩
    | some n =>
      obtain ⟨hsignals, hreturns⟩ := hnote n rfl
      have hcount : ∀ notes : List (Note T), (n :: notes).countP (Note.signals (event t)) =
          notes.countP (Note.signals (event t)) := fun notes =>
        List.countP_cons_of_neg (by rw [hsignals]; exact Bool.false_ne_true)
      refine ⟨hcount x.2, ?_, fun hreturn => ?_, hconsumed⟩
      · rw [Option.toList_some, List.singleton_append, unseen, since_cons_of_not hreturns, hcount, unseen]
      · rw [hreturns] at hreturn
        cases hreturn
  obtain ⟨hcount, hunseen, hpreceded⟩ := hsame
  refine ⟨hcalls, ⟨seen, hseen.trans hlast, ?_, ?_⟩, hpreceded⟩
  · rw [hcount, hunseen, htotal]
  · rw [hobject, hcount, hcounter]

theorem notLost_of_exact (hexact : Exact event t x) : NotLost event t x := by
  intro hclear hnew
  obtain ⟨seen, hlast, htotal, hcounter⟩ := hexact.counts
  have hfew : x.2.countP (Note.signals (event t)) < UInt32.size := hexact.few hclear
  have hseen : seen < UInt32.size := by omega
  rw [hcounter, hlast, StageObject.ready, decide_eq_true_eq, UInt32.lt_iff_toNat_lt,
    UInt32.toNat_ofNat_of_lt' hseen, UInt32.toNat_ofNat_of_lt' hfew]
  omega

theorem exact_init {calls : ℕ} {object : Event → StageObject} {last_seen : T → UInt32} {signals : Event → ℕ}
    (hcounter : object (event t) = .event 0) (hseen : last_seen t = 0) :
    Exact event t (init calls object last_seen signals, []) where
  calls := ⟨nofun, nofun⟩
  counts := ⟨0, hseen, rfl, hcounter⟩
  consumed := trivial
  few _ := Nat.two_pow_pos 32

variable [Fintype T]

theorem counts_turn (hcounts : Counts event t x) (hstep : noted_turn event x turn = some x') : Counts event t x' := by
  obtain ⟨hturn, hhistory⟩ := noted_step_eq_some hstep
  have hcalls := callsOk_turn hcounts.calls hturn
  cases turnFor_of_step event t hturn with
  | signal id hobject hseen =>
    obtain ⟨-, ⟨seen, hlast, htotal, hcounter⟩, hconsumed⟩ := hcounts
    have hnote : x'.2 = .signalled (event t) id :: x.2 := hhistory
    have hsignals : Note.signals (event t) (.signalled (event t) id : Note T) = true := decide_eq_true rfl
    have hreturns : Note.returns t (.signalled (event t) id : Note T) = false := rfl
    have hunseen : unseen event t x'.2 = unseen event t x.2 + 1 := by
      rw [hnote, unseen, since_cons_of_not hreturns, List.countP_cons_of_pos hsignals, unseen]
    have hcount : x'.2.countP (Note.signals (event t)) = x.2.countP (Note.signals (event t)) + 1 := by
      rw [hnote, List.countP_cons_of_pos hsignals]
    refine ⟨hcalls, ⟨seen, hseen.trans hlast, ?_, ?_⟩, hnote ▸ ⟨nofun, hconsumed⟩⟩
    · rw [hcount, hunseen, htotal, Nat.add_assoc]
    · rw [hobject, hcounter, hcount, UInt32.ofNat_add]
      rfl
  | took hstop hpassed hobject hseen =>
    obtain ⟨hcallsBefore, ⟨seen, hlast, htotal, hcounter⟩, hconsumed⟩ := hcounts
    have hnote : x'.2 = .returned t true :: x.2 := by
      rw [hhistory, turn_note, hstop]
      rfl
    have hreturns : Note.returns t (.returned t true : Note T) = true := decide_eq_true rfl
    have hready := hcallsBefore.passed t hpassed hstop
    rw [hcounter, hlast] at hready
    have hnew : unseen event t x.2 ≠ 0 := by
      intro hzero
      rw [htotal, hzero, Nat.add_zero] at hready
      exact absurd (lt_of_ready hready) (UInt32.lt_irrefl _)
    have hunseen : unseen event t x'.2 = 0 := by
      rw [hnote, unseen, since_cons_of_last hreturns, List.countP_nil]
    have hcount : x'.2.countP (Note.signals (event t)) = x.2.countP (Note.signals (event t)) := by
      rw [hnote]
      exact List.countP_cons_of_neg Bool.false_ne_true
    rw [hcounter] at hobject hseen
    refine ⟨hcalls, ⟨x.2.countP (Note.signals (event t)), hseen, ?_, ?_⟩, hnote ▸ ⟨fun _ => ?_, hconsumed⟩⟩
    · rw [hcount, hunseen, Nat.add_zero]
    · rw [hobject, hcount]
      rfl
    · exact List.countP_pos_iff.mp (Nat.pos_of_ne_zero hnew)
  | taken hother hevent hobject hseen =>
    obtain ⟨seen, hlast, htotal, hcounter⟩ := hcounts.counts
    refine hcounts.of_irrelevant hcalls ?_ hseen hhistory fun n hn => ?_
    · rw [hobject, hcounter]
      rfl
    · obtain rfl := Option.some.inj hn
      exact ⟨rfl, decide_eq_false (by simp [hother])⟩
  | none hobject hseen hnote => exact hcounts.of_irrelevant hcalls hobject hseen hhistory hnote

theorem exact_turn (hexact : Exact event t x) (hwrap : NoWrap event t x turn)
    (hstep : noted_turn event x turn = some x') : Exact event t x' := by
  refine ⟨counts_turn hexact.toCounts hstep, fun hclear => ?_⟩
  obtain ⟨hturn, hhistory⟩ := noted_step_eq_some hstep
  have hclearBefore := stop_of_turn hturn hclear
  have hfew := hexact.few hclearBefore
  rw [hhistory, List.countP_append]
  by_cases hsignal : ∃ id, turn = .act (.advance (event t) id)
  · obtain ⟨id, rfl⟩ := hsignal
    obtain ⟨seen, -, -, hcounter⟩ := hexact.counts
    have hne : x.2.countP (Note.signals (event t)) ≠ 2 ^ 32 - 1 := by
      intro heq
      rw [heq] at hcounter
      exact hwrap rfl hclearBefore _ hcounter rfl
    have hone : (turn_note x.1 (.act (.advance (event t) id))).toList.countP (Note.signals (event t)) ≤ 1 :=
      List.countP_le_length
    omega
  · rw [countP_note_of_not_signal fun id h => hsignal ⟨id, h⟩]
    omega

/-- Right after the counter has gone round, no thread sees the signal that did it. -/
theorem noWrap_iff_notLost (hexact : Exact event t x) (hstep : noted_turn event x turn = some x') :
    NoWrap event t x turn ↔ NotLost event t x' := by
  refine ⟨fun hwrap => notLost_of_exact (exact_turn hexact hwrap hstep), fun hkept => ?_⟩
  obtain ⟨hturn, hhistory⟩ := noted_step_eq_some hstep
  cases turn with
  | wake t' => trivial
  | act a =>
    cases a with
    | advance e id =>
      rintro rfl hclear seq hcounter rfl
      rw [turn_step, step] at hturn
      split at hturn
      · have hafter := Option.some.inj hturn
        have hobject : x'.1.object (event t) = .event 0 := by
          rw [← hafter]
          dsimp only
          rw [Function.update_self, hcounter]
          rfl
        have hnew : 0 < unseen event t x'.2 := by
          rw [hhistory, unseen]
          exact List.countP_pos_iff.mpr ⟨_, List.mem_cons_self .., decide_eq_true rfl⟩
        have hready := hkept (by rw [← hafter]; exact hclear) hnew
        rw [hobject] at hready
        exact absurd (lt_of_ready hready) UInt32.not_lt_zero
      · cases hturn
    | _ => trivial

/-- A thread that waits on a `StageEvent` sees each of its signals, unless a signal takes the counter round before the
stop: in every run every successful return has a signal between it and the one before, and no signal is lost in
any state of the run exactly when none of its signals does that. -/
theorem no_signal_lost (event : T → Event) (t : T) (calls : ℕ) (object : Event → StageObject)
    (last_seen : T → UInt32) (signals : Event → ℕ) (hcounter : object (event t) = .event 0)
    (hseen : last_seen t = 0) (turns : List (Turn T)) (x : Noted T)
    (hrun : run (noted_turn event) (init calls object last_seen signals, []) turns = some x) :
    Preceded (Note.returns t) (Note.signals (event t)) x.2 ∧
      (Meets (noted_turn event) (NoWrap event t) (init calls object last_seen signals, []) turns ↔
        GoodAlong (noted_turn event) (NotLost event t) (init calls object last_seen signals, []) turns) := by
  have hinit : Exact event t (init calls object last_seen signals, []) := exact_init hcounter hseen
  constructor
  · exact (invariant_of_run (fun _ _ _ => counts_turn) hinit.toCounts hrun).consumed
  · exact meets_iff_goodAlong (fun _ _ _ => exact_turn) (fun _ _ _ => noWrap_iff_notLost) hinit hrun

/-- The trigger thread and a capture thread that waits for it. -/
def trigger_start : State Unit := init 0 (fun _ => .event 0) (fun _ => 0) (fun _ => 2 ^ 32)

def trigger : Turn Unit := .act (.advance .camera_trig 0)

def capture_wait : List (Turn Unit) := [.act (.enter ()), .act (.test ()), .act (.finish ())]

def trigger_turn : Noted Unit → Turn Unit → Option (Noted Unit) := noted_turn fun _ => .camera_trig

theorem no_signal_lost_once : ∃ x, run trigger_turn (trigger_start, []) (trigger :: capture_wait) = some x ∧
    Preceded (Note.returns ()) (Note.signals .camera_trig) x.2 ∧
      (Meets trigger_turn (NoWrap (fun _ => .camera_trig) ()) (trigger_start, []) (trigger :: capture_wait) ↔
        GoodAlong trigger_turn (NotLost (fun _ => .camera_trig) ()) (trigger_start, []) (trigger :: capture_wait)) := by
  obtain ⟨x, hrun⟩ := Option.isSome_iff_exists.mp
    (show (run trigger_turn (trigger_start, []) (trigger :: capture_wait)).isSome = true by rfl)
  exact ⟨x, hrun, no_signal_lost (fun _ => .camera_trig) () 0 (fun _ => .event 0) (fun _ => 0) (fun _ => 2 ^ 32) rfl rfl
    (trigger :: capture_wait) x hrun⟩

/-- After a number of signals, nobody having waited. -/
def triggered (n : ℕ) (history : List (Note Unit)) : Noted Unit :=
  ({ trigger_start with
      object := Function.update (fun _ => .event 0) .camera_trig (.event (UInt32.ofNat n))
      signals := Function.update (fun _ => 2 ^ 32) .camera_trig (2 ^ 32 - n)
      notifying := Function.update (fun _ => 0) .camera_trig n }, history)

theorem triggered_zero (history : List (Note Unit)) : triggered 0 history = (trigger_start, history) := by
  have hobject : Function.update (fun _ => .event 0) Event.camera_trig (.event (UInt32.ofNat 0)) =
      trigger_start.object := Function.update_eq_self _ _
  have hsignals : Function.update (fun _ => 2 ^ 32) Event.camera_trig (2 ^ 32 - 0) = trigger_start.signals :=
    Function.update_eq_self _ _
  have hnotifying : Function.update (fun _ => 0) Event.camera_trig 0 = trigger_start.notifying :=
    Function.update_eq_self _ _
  rw [triggered, hobject, hsignals, hnotifying]

theorem trigger_triggered {n : ℕ} (hn : n < 2 ^ 32) (history : List (Note Unit)) :
    trigger_turn (triggered n history) trigger =
      some (triggered (n + 1) (.signalled .camera_trig 0 :: history)) := by
  have hsignals : (triggered n history).1.signals .camera_trig = 2 ^ 32 - n := by
    simp only [triggered, Function.update_self]
  have hleft : 0 < (triggered n history).1.signals .camera_trig := by omega
  have hfree : (triggered n history).1.mu .camera_trig = none := rfl
  have hcounter : (.event (UInt32.ofNat n) : StageObject).advance 0 = .event (UInt32.ofNat (n + 1)) := by
    rw [UInt32.ofNat_add]
    rfl
  have hremain : 2 ^ 32 - n - 1 = 2 ^ 32 - (n + 1) := by omega
  rw [trigger_turn, noted_turn, noted_step, trigger, turn_step, step, if_pos ⟨hleft, hfree⟩]
  simp only [triggered, Function.update_self, Function.update_idem, hcounter, hremain, Option.map_some]
  rfl

theorem run_triggers {m n : ℕ} (hn : m + n ≤ 2 ^ 32) (history : List (Note Unit)) (rest : List (Turn Unit)) :
    ∃ history', run trigger_turn (triggered m history) (List.replicate n trigger ++ rest) =
      run trigger_turn (triggered (m + n) history') rest := by
  induction n generalizing m history with
  | zero => exact ⟨history, rfl⟩
  | succ n ih =>
    obtain ⟨history', hrun⟩ := ih (m := m + 1) (by omega) (.signalled .camera_trig 0 :: history)
    refine ⟨history', ?_⟩
    rw [List.replicate_succ, List.cons_append, run_cons, trigger_triggered (by omega), Option.bind_some, hrun,
      Nat.add_right_comm, Nat.add_assoc]

/-- The capture thread has seen signal number `2 ^ 32 - 1`; the next one takes the counter to zero. -/
theorem signal_lost : ¬ ∀ turns x, run trigger_turn (trigger_start, []) turns = some x →
    NotLost (fun _ => .camera_trig) () x := by
  intro hclaim
  obtain ⟨history, hrun⟩ := run_triggers (m := 0) (n := 2 ^ 32 - 1) (by omega) [] (capture_wait ++ [trigger])
  rw [triggered_zero] at hrun
  obtain ⟨x, hx, hclear, hseen, hcounter, hnew⟩ : ∃ x,
      run trigger_turn (triggered (0 + (2 ^ 32 - 1)) history) (capture_wait ++ [trigger]) = some x ∧
        x.1.pipeline_sync_stop = false ∧ x.1.last_seen () = 0xFFFFFFFF ∧ x.1.object .camera_trig = .event 0 ∧
        0 < unseen (fun _ => .camera_trig) () x.2 := by
    refine ⟨_, rfl, rfl, rfl, rfl, ?_⟩
    exact List.countP_pos_iff.mpr ⟨_, List.mem_cons_self .., rfl⟩
  have hready := hclaim _ x (hrun.trans hx) hclear hnew
  rw [hcounter, hseen] at hready
  exact absurd (lt_of_ready hready) UInt32.not_lt_zero

end k180.pipeline
