import K180.StageSync.Turns

open schedule

namespace k180.pipeline

section Mask

variable {T : Type*} {t : T} {e : Event}

/-- The signal of one of the producers. -/
def Note.signals_id (e : Event) (id : ℕ) : Note T → Bool
  | .signalled e' id' => e' = e && id' = id
  | .returned _ _ => false

theorem Note.signals_id_of_returns [DecidableEq T] (e : Event) (id : ℕ) {n : Note T} (hn : n.returns t = true) :
    n.signals_id e id = false := by
  obtain rfl : n = .returned t true := of_decide_eq_true hn
  rfl

theorem Note.signals_id_of_not_signals {n : Note T} (hn : n.signals e = false) (id : ℕ) :
    n.signals_id e id = false := by
  cases n with
  | signalled e' id' =>
    have hne : e' ≠ e := of_decide_eq_false hn
    rw [Note.signals_id, decide_eq_false hne, Bool.false_and]
  | returned t' result => rfl

theorem toNat_id_bit {id : ℕ} (hid : id < 4) : ((1 : UInt32) <<< id.toUInt32).toNat = 2 ^ id := by
  interval_cases id <;> rfl

/-- The mask has the bits of the ids that have signalled. -/
def MaskOf (done_mask : UInt32) (signalled : ℕ → Prop) : Prop :=
  ∀ i, done_mask.toNat.testBit i = true ↔ i < 4 ∧ signalled i

theorem maskOf_zero : MaskOf 0 fun _ => False := fun i => by simp

theorem MaskOf.advance {done_mask : UInt32} {signalled : ℕ → Prop} (hmask : MaskOf done_mask signalled) {id : ℕ}
    (hid : id < 4) : MaskOf (done_mask ||| (1 <<< id.toUInt32)) fun i => i = id ∨ signalled i := by
  intro i
  rw [UInt32.toNat_or, Nat.testBit_or, Bool.or_eq_true, hmask i, toNat_id_bit hid, Nat.testBit_two_pow,
    decide_eq_true_eq]
  constructor
  · rintro (⟨hlt, hi⟩ | rfl)
    · exact ⟨hlt, .inr hi⟩
    · exact ⟨hid, .inl rfl⟩
  · rintro ⟨hlt, rfl | hi⟩
    · exact .inr rfl
    · exact .inl ⟨hlt, hi⟩

/-- The mask is full when all four ids have signalled. -/
theorem MaskOf.eq_all_iff {done_mask : UInt32} {signalled : ℕ → Prop} (hmask : MaskOf done_mask signalled) :
    done_mask = ALL ↔ ∀ id < 4, signalled id := by
  have hall : ∀ i, ALL.toNat.testBit i = decide (i < 4) := Nat.testBit_two_pow_sub_one 4
  rw [← UInt32.toNat_inj]
  constructor
  · intro heq id hid
    refine ((hmask id).mp ?_).2
    rw [heq, hall, decide_eq_true hid]
  · intro hsignalled
    refine Nat.eq_of_testBit_eq fun i => ?_
    rw [hall, Bool.eq_iff_iff, hmask i, decide_eq_true_eq]
    exact ⟨fun h => h.1, fun hlt => ⟨hlt, hsignalled i hlt⟩⟩

end Mask

variable {T : Type*} [DecidableEq T]

/-- The producer has signalled since the last successful return. -/
def SignalledSince (event : T → Event) (t : T) (history : List (Note T)) (id : ℕ) : Prop :=
  ∃ n ∈ since (Note.returns t) history, n.signals_id (event t) id = true

/-- What holds of a `StageEventJoin` and its history. -/
structure BarrierOk (event : T → Event) (t : T) (x : Noted T) : Prop where
  calls : CallsOk event x.1
  mask : ∃ done_mask, x.1.object (event t) = .join done_mask ∧ MaskOf done_mask (SignalledSince event t x.2)
  preceded : ∀ id < 4, Preceded (Note.returns t) (Note.signals_id (event t) id) x.2
  stopped : .returned t false ∈ x.2 → x.1.pipeline_sync_stop = true

variable {event : T → Event} {t : T} {x x' : Noted T} {turn : Turn T}

theorem signalledSince_cons_of_not {n : Note T} {history : List (Note T)} (hreturns : n.returns t = false) (id : ℕ) :
    SignalledSince event t (n :: history) id ↔
      n.signals_id (event t) id = true ∨ SignalledSince event t history id := by
  rw [SignalledSince, since_cons_of_not hreturns, List.exists_mem_cons_iff, SignalledSince]

variable [Fintype T]

/-- The mask after a turn, when the event has one waiter and its signals come from the four producers. -/
theorem barrier_turn (hsole : ∀ t', event t' = event t → t' = t)
    (hids : ∀ id, turn = .act (.advance (event t) id) → id < 4) (hok : BarrierOk event t x)
    (hstep : noted_turn event x turn = some x') : BarrierOk event t x' := by
  obtain ⟨hturn, hhistory⟩ := noted_step_eq_some hstep
  obtain ⟨hcalls, ⟨done_mask, hobject, hmask⟩, hpreceded, hstopped⟩ := hok
  have hcalls' := callsOk_turn hcalls hturn
  have hstopped' : .returned t false ∈ x'.2 → x'.1.pipeline_sync_stop = true := by
    intro hmem
    by_contra hclear
    have hclearBefore := stop_of_turn hturn (Bool.eq_false_iff.mpr hclear)
    rw [hhistory, List.mem_append] at hmem
    obtain hnew | hold := hmem
    · rw [stop_of_returned (Option.mem_toList.mp hnew)] at hclearBefore
      cases hclearBefore
    · rw [hstopped hold] at hclearBefore
      cases hclearBefore
  cases turnFor_of_step event t hturn with
  | signal id hobject' hseen' =>
    have hnote : x'.2 = .signalled (event t) id :: x.2 := hhistory
    have hreturns : Note.returns t (.signalled (event t) id : Note T) = false := rfl
    refine ⟨hcalls', ⟨_, hobject'.trans (congrArg (·.advance id) hobject), ?_⟩, fun i hi => ?_, hstopped'⟩
    · intro i
      rw [hmask.advance (hids id rfl) i, hnote, signalledSince_cons_of_not hreturns]
      simp [Note.signals_id, eq_comm]
    · rw [hnote]
      exact ⟨nofun, hpreceded i hi⟩
  | took hstop hpassed hobject' hseen' =>
    have hnote : x'.2 = .returned t true :: x.2 := by
      rw [hhistory, turn_note, hstop]
      rfl
    have hreturns : Note.returns t (.returned t true : Note T) = true := decide_eq_true rfl
    have hready := hcalls.passed t hpassed hstop
    rw [hobject] at hready hobject'
    have hall := hmask.eq_all_iff.mp (of_decide_eq_true hready)
    refine ⟨hcalls', ⟨0, hobject', ?_⟩, fun i hi => ?_, hstopped'⟩
    · intro i
      rw [maskOf_zero i, hnote, SignalledSince, since_cons_of_last hreturns]
      simp
    · rw [hnote]
      exact ⟨fun _ => hall i hi, hpreceded i hi⟩
  | taken hother hevent hobject' hseen' => exact absurd (hsole _ hevent) hother
  | none hobject' hseen' hnote =>
    have hsame : (∀ i, SignalledSince event t x'.2 i ↔ SignalledSince event t x.2 i) ∧
        ∀ i < 4, Preceded (Note.returns t) (Note.signals_id (event t) i) x'.2 := by
      rw [hhistory]
      cases hn : turn_note x.1 turn with
      | none => exact ⟨fun _ => Iff.rfl, hpreceded⟩
      | some n =>
        obtain ⟨hsignals, hreturns⟩ := hnote n hn
        refine ⟨fun i => ?_, fun i hi => ⟨fun hreturn => ?_, hpreceded i hi⟩⟩
        · rw [Option.toList_some, List.singleton_append, signalledSince_cons_of_not hreturns,
            Note.signals_id_of_not_signals hsignals]
          simp
        · rw [hreturns] at hreturn
          cases hreturn
    refine ⟨hcalls', ⟨done_mask, hobject'.trans hobject, fun i => ?_⟩, hsame.2, hstopped'⟩
    rw [hmask i, hsame.1 i]

/-- A `StageEventJoin` is a barrier: with one thread that waits and signals from the four producers, in every run there
is a signal of each producer before the first successful return and between any two, so that there are no more
returns than signals of any of them; once each has signalled since the last return, and without a stop, the
waiter's predicate holds; and a wait returns false only where the stop flag is set. -/
theorem barrier_law (event : T → Event) (t : T) (hsole : ∀ t', event t' = event t → t' = t) (calls : ℕ)
    (object : Event → StageObject) (last_seen : T → UInt32) (signals : Event → ℕ)
    (hstart : object (event t) = .join 0) (turns : List (Turn T))
    (hids : ∀ id, .act (.advance (event t) id) ∈ turns → id < 4) (x : Noted T)
    (hrun : run (noted_turn event) (init calls object last_seen signals, []) turns = some x) :
    (∀ id < 4, Preceded (Note.returns t) (Note.signals_id (event t) id) x.2) ∧
      (∀ id < 4, x.2.countP (Note.returns t) ≤ x.2.countP (Note.signals_id (event t) id)) ∧
      (x.1.pipeline_sync_stop = false → (∀ id < 4, SignalledSince event t x.2 id) →
        (x.1.object (event t)).ready (x.1.last_seen t) = true) ∧
      (.returned t false ∈ x.2 → x.1.pipeline_sync_stop = true) := by
  have hinit : BarrierOk event t (init calls object last_seen signals, []) := by
    refine ⟨⟨nofun, nofun⟩, ⟨0, hstart, fun i => ?_⟩, fun _ _ => trivial, nofun⟩
    rw [maskOf_zero i, SignalledSince]
    simp
  have hmeets : Meets (noted_turn event) (fun _ turn => ∀ id, turn = .act (.advance (event t) id) → id < 4)
      (init calls object last_seen signals, []) turns :=
    meets_of_forall (fun turn hturn id heq => hids id (by rw [← heq]; exact hturn)) _
  have hok := invariant_of_meets (fun _ _ _ hok hids hstep => barrier_turn hsole hids hok hstep) hinit hmeets hrun
  obtain ⟨done_mask, hobject, hmask⟩ := hok.mask
  refine ⟨hok.preceded, fun id hid => ?_, fun _ hall => ?_, hok.stopped⟩
  · have hle := (hok.preceded id hid).countP_add_le fun _ => Note.signals_id_of_returns (event t) id
    exact (Nat.le_add_right _ _).trans hle
  · rw [hobject]
    exact decide_eq_true (hmask.eq_all_iff.mpr hall)

/-- The blender thread and the four warp threads, each of which signals once. -/
def blender_start : State Unit := init 0 (fun _ => .join 0) (fun _ => 0) (fun _ => 4)

def one_round : List (Turn Unit) :=
  (List.range 4).map (fun id => .act (.advance .blender_apply_sync id)) ++
    [.act (.enter ()), .act (.test ()), .act (.finish ())]

theorem barrier_law_one_round :
    ∃ x, run (noted_turn fun _ => .blender_apply_sync) (blender_start, []) one_round = some x ∧
      ∀ id < 4, x.2.countP (Note.returns ()) ≤ x.2.countP (Note.signals_id .blender_apply_sync id) := by
  obtain ⟨x, hrun⟩ := Option.isSome_iff_exists.mp
    (show (run (noted_turn fun _ => .blender_apply_sync) (blender_start, []) one_round).isSome = true by rfl)
  have hids : ∀ id, .act (.advance .blender_apply_sync id) ∈ one_round → id < 4 := by
    intro id hmem
    simpa [one_round] using hmem
  exact ⟨x, hrun, (barrier_law (fun _ => .blender_apply_sync) () (fun _ _ => rfl) 0 (fun _ => .join 0) (fun _ => 0)
    (fun _ => 4) rfl one_round hids x hrun).2.1⟩

end k180.pipeline
