import K180.Rtsp.PtsDrift

open schedule

namespace k180.h265_hub

structure StreamFpsGate where
  fps : ℤ
  last_ns : ℕ
  credit_ns : ℕ
deriving DecidableEq

def StreamFpsGate.reset (gate : StreamFpsGate) : StreamFpsGate := { gate with last_ns := 0, credit_ns := 0 }

def StreamFpsGate.configure (gate : StreamFpsGate) (f : ℤ) : StreamFpsGate := { gate with fps := f }.reset

/-- `allow` with no other access in between: whether the frame passes, and the gate afterwards. -/
def StreamFpsGate.allow (gate : StreamFpsGate) (now_ns : ℕ) : Bool × StreamFpsGate :=
  if gate.fps ≤ 0 then (false, gate)
  else if 60 ≤ gate.fps then (true, gate)
  else
    let period := period_ns gate.fps.toNat
    if gate.last_ns = 0 ∨ now_ns < gate.last_ns then
      (true, { gate with last_ns := now_ns, credit_ns := period })
    else
      let credit := min (wrap (gate.credit_ns + (now_ns - gate.last_ns))) (period * 2)
      if period ≤ credit then (true, { gate with last_ns := now_ns, credit_ns := credit - period })
      else (false, { gate with last_ns := now_ns, credit_ns := credit })

/-- The gate after a call at each of the times. -/
def StreamFpsGate.after (gate : StreamFpsGate) (times : List ℕ) : StreamFpsGate :=
  times.foldl (fun gate now_ns => (gate.allow now_ns).2) gate

/-- The times of the calls, each with its answer. -/
def StreamFpsGate.calls (gate : StreamFpsGate) : List ℕ → List (ℕ × Bool)
  | [] => []
  | now_ns :: rest => (now_ns, (gate.allow now_ns).1) :: (gate.allow now_ns).2.calls rest

/-- How many calls were allowed in the window from `s` to `t`. -/
def allowed_in (s t : ℕ) (calls : List (ℕ × Bool)) : ℕ :=
  calls.countP fun call => decide (s ≤ call.1 ∧ call.1 ≤ t) && call.2

def allowed (calls : List (ℕ × Bool)) : ℕ := calls.countP fun call => call.2

/-- The gate as the accesses of the capture thread see it. -/
def StreamState.gate (fps : ℕ) (s : StreamState) : StreamFpsGate := ⟨fps, s.last_ns, s.credit_ns⟩

variable {gate : StreamFpsGate} {times : List ℕ} {now_ns s t : ℕ}

/-- A gate that limits the rate, after at least one call. -/
structure StreamFpsGate.Opened (gate : StreamFpsGate) (period : ℕ) : Prop where
  fps_range : 1 ≤ gate.fps ∧ gate.fps ≤ 59
  period_eq : period_ns gate.fps.toNat = period
  last_ne_zero : gate.last_ns ≠ 0
  credit_le : gate.credit_ns ≤ period

/-- The call that finds the gate reset is allowed, and leaves the credit of one more frame. -/
theorem StreamFpsGate.allow_of_reset (hfps : 1 ≤ gate.fps ∧ gate.fps ≤ 59) (hreset : gate.last_ns = 0) :
    gate.allow now_ns =
      (true, { gate with last_ns := now_ns, credit_ns := period_ns gate.fps.toNat }) := by
  rw [allow, if_neg (by omega), if_neg (by omega)]
  exact if_pos (.inl hreset)

theorem StreamFpsGate.after_cons {answer : Bool} {next : StreamFpsGate}
    (hallow : gate.allow now_ns = (answer, next)) : gate.after (now_ns :: times) = next.after times := by
  rw [after, List.foldl_cons, hallow, after]

theorem StreamFpsGate.calls_cons {answer : Bool} {next : StreamFpsGate}
    (hallow : gate.allow now_ns = (answer, next)) :
    gate.calls (now_ns :: times) = (now_ns, answer) :: next.calls times := by
  rw [calls, hallow]

/-- The accesses of `allow`, with none of another thread in between, come to what `allow` computes. -/
theorem StreamState.gate_allow {fps : ℕ} {st : StreamState} (hload : st.capture = .load_last) :
    ∃ accesses : List Unit, ∃ st', run (fun st () => allow_step fps st) st accesses = some st' ∧
      st'.gate fps = ((st.gate fps).allow st.now_ns).2 ∧
      st'.capture = if ((st.gate fps).allow st.now_ns).1 = true then .push else .idle := by
  by_cases hoff : fps = 0
  · exact ⟨[()], { st with capture := .idle }, by simp [run, allow_step, hload, hoff],
      by simp [gate, StreamFpsGate.allow, hoff], by simp [gate, StreamFpsGate.allow, hoff]⟩
  by_cases hfull : 60 ≤ fps
  · have hfull' : (60 : ℤ) ≤ fps := by omega
    exact ⟨[()], { st with capture := .push }, by simp [run, allow_step, hload, hoff, hfull],
      by simp [gate, StreamFpsGate.allow, hoff, hfull'], by simp [gate, StreamFpsGate.allow, hoff, hfull']⟩
  have hfps : ¬ (60 : ℤ) ≤ fps := by omega
  have hon : ¬ (fps : ℤ) ≤ 0 := by omega
  by_cases hopens : st.last_ns = 0 ∨ st.now_ns < st.last_ns
  · refine ⟨[(), (), ()], { st with last_ns := st.now_ns, credit_ns := period_ns fps, capture := .push },
      ?_, ?_, ?_⟩
    · simp [run, allow_step, hload, hoff, hfull, hopens]
    · simp [gate, StreamFpsGate.allow, hoff, hfps, hopens]
    · simp [gate, StreamFpsGate.allow, hoff, hfps, hopens]
  · let credit := min (wrap (st.credit_ns + (st.now_ns - st.last_ns))) (period_ns fps * 2)
    have hallow : (st.gate fps).allow st.now_ns =
        if period_ns fps ≤ credit then (true, ⟨fps, st.now_ns, credit - period_ns fps⟩)
        else (false, ⟨fps, st.now_ns, credit⟩) := by
      rw [gate, StreamFpsGate.allow, if_neg hon, if_neg hfps, if_neg hopens]
      rfl
    by_cases hpasses : period_ns fps ≤ credit
    · rw [hallow, if_pos hpasses]
      refine ⟨[(), (), (), ()],
        { st with last_ns := st.now_ns, credit_ns := credit - period_ns fps, capture := .push }, ?_, rfl, rfl⟩
      simp only [run, allow_step, hload, hoff, hfull, hopens, if_false, Option.bind_some]
      exact congrArg (Option.bind · some) (if_pos hpasses)
    · rw [hallow, if_neg hpasses]
      refine ⟨[(), (), (), ()],
        { st with last_ns := st.now_ns, credit_ns := credit, capture := .idle }, ?_, rfl, rfl⟩
      simp only [run, allow_step, hload, hoff, hfull, hopens, if_false, Option.bind_some]
      exact congrArg (Option.bind · some) (if_neg hpasses)

/-- What one call does to the credit: a frame that passes costs a period, and the time since the last
call is the most that is earned. -/
structure StreamFpsGate.Spent (gate : StreamFpsGate) (period now_ns : ℕ) (answer : Bool × StreamFpsGate) :
    Prop where
  opened : answer.2.Opened period
  last_eq : answer.2.last_ns = now_ns
  spent_le : answer.1.toNat * period + answer.2.credit_ns ≤ gate.credit_ns + (now_ns - gate.last_ns)
  spent_eq : now_ns - gate.last_ns ≤ period →
    answer.1.toNat * period + answer.2.credit_ns = gate.credit_ns + (now_ns - gate.last_ns)

theorem StreamFpsGate.Opened.allow {period : ℕ} (hopened : gate.Opened period)
    (hclock : gate.last_ns ≤ now_ns) : gate.Spent period now_ns (gate.allow now_ns) := by
  obtain ⟨hfps, hperiod, hlast, hcredit⟩ := hopened
  have hbound : period ≤ 1000000000 := by
    rw [← hperiod, period_ns_eq]
    exact frame_dur_le _
  have hwrap := Nat.mod_le (gate.credit_ns + (now_ns - gate.last_ns)) (2 ^ 64)
  -- a gap of at most a period neither wraps nor reaches the maximum
  have hexact (hgap : now_ns - gate.last_ns ≤ period) :
      min (wrap (gate.credit_ns + (now_ns - gate.last_ns))) (period * 2) =
        gate.credit_ns + (now_ns - gate.last_ns) := by
    rw [wrap_of_lt (by omega)]
    omega
  rw [StreamFpsGate.allow, if_neg (by omega), if_neg (by omega), if_neg (by omega), hperiod]
  by_cases hpasses : period ≤ min (wrap (gate.credit_ns + (now_ns - gate.last_ns))) (period * 2)
  · rw [if_pos hpasses]
    exact {
      opened := ⟨hfps, hperiod, by simp only; omega, by simp only; omega⟩
      last_eq := rfl
      spent_le := by simp only [wrap, Bool.toNat_true] at *; omega
      spent_eq := fun hgap => by
        simp only [Bool.toNat_true]
        have := hexact hgap
        omega }
  · rw [if_neg hpasses]
    exact {
      opened := ⟨hfps, hperiod, by simp only; omega, by simp only; omega⟩
      last_eq := rfl
      spent_le := by simp only [wrap, Bool.toNat_false] at *; omega
      spent_eq := fun hgap => by
        simp only [Bool.toNat_false]
        have := hexact hgap
        omega }

theorem StreamFpsGate.calls_fst_mem {gate : StreamFpsGate} {call : ℕ × Bool}
    (hcall : call ∈ gate.calls times) : call.1 ∈ times := by
  induction times generalizing gate with
  | nil => cases hcall
  | cons now_ns rest ih =>
    rcases List.mem_cons.mp hcall with rfl | hrest
    · exact List.mem_cons_self
    · exact List.mem_cons_of_mem _ (ih hrest)

/-- No call of the window is left once the clock is past its end. -/
theorem allowed_in_eq_zero (gate : StreamFpsGate) (hpast : ∀ now_ns ∈ times, t < now_ns) :
    allowed_in s t (gate.calls times) = 0 := by
  refine List.countP_eq_zero.mpr fun call hcall hin => ?_
  have hlate := hpast call.1 (StreamFpsGate.calls_fst_mem hcall)
  simp only [Bool.and_eq_true, decide_eq_true_eq] at hin
  omega

theorem allowed_in_cons (hin : s ≤ now_ns ∧ now_ns ≤ t) (answer : Bool) (calls : List (ℕ × Bool)) :
    allowed_in s t ((now_ns, answer) :: calls) = allowed_in s t calls + answer.toNat := by
  rw [allowed_in, List.countP_cons, ← allowed_in]
  cases answer <;> simp [hin]

/-- Whatever is allowed until `t` is paid from the credit and the time up to `t`. -/
theorem StreamFpsGate.Opened.spent_until {gate : StreamFpsGate} {period : ℕ}
    (hopened : gate.Opened period) (hsorted : times.Pairwise (· ≤ ·))
    (hclock : ∀ now_ns ∈ times, gate.last_ns ≤ now_ns) (hstart : s ≤ gate.last_ns) :
    allowed_in s t (gate.calls times) * period ≤ gate.credit_ns + (t - gate.last_ns) := by
  induction times generalizing gate with
  | nil => exact (Nat.zero_mul period).le.trans (Nat.zero_le _)
  | cons now_ns rest ih =>
    obtain ⟨hfirst, hrest⟩ := List.pairwise_cons.mp hsorted
    have hnow := hclock now_ns List.mem_cons_self
    have hspent := hopened.allow hnow
    by_cases hin : now_ns ≤ t
    · have hlater := ih hspent.opened hrest (by rwa [hspent.last_eq]) (by rw [hspent.last_eq]; omega)
      have hpaid := hspent.spent_le
      rw [hspent.last_eq] at hlater
      rw [calls, allowed_in_cons ⟨by omega, hin⟩, Nat.add_mul]
      omega
    · rw [allowed_in_eq_zero gate, Nat.zero_mul]
      · exact Nat.zero_le _
      · intro later hlater
        rcases List.mem_cons.mp hlater with rfl | htail
        · omega
        · exact (Nat.lt_of_not_le hin).trans_le (hfirst later htail)

/-- A gate that limits the rate, between two calls. -/
structure StreamFpsGate.Limits (gate : StreamFpsGate) (period : ℕ) : Prop where
  fps_range : 1 ≤ gate.fps ∧ gate.fps ≤ 59
  period_eq : period_ns gate.fps.toNat = period
  credit_le : gate.credit_ns ≤ period

theorem StreamFpsGate.Limits.allow {period : ℕ} (hlimits : gate.Limits period) (hpositive : 0 < now_ns)
    (hclock : gate.last_ns ≤ now_ns) :
    (gate.allow now_ns).2.Opened period ∧ (gate.allow now_ns).2.last_ns = now_ns := by
  obtain ⟨hfps, hperiod, hcredit⟩ := hlimits
  by_cases hlast : gate.last_ns = 0
  · rw [StreamFpsGate.allow_of_reset hfps hlast]
    exact ⟨⟨hfps, hperiod, hpositive.ne', hperiod.le⟩, rfl⟩
  · have hspent := StreamFpsGate.Opened.allow ⟨hfps, hperiod, hlast, hcredit⟩ hclock
    exact ⟨hspent.opened, hspent.last_eq⟩

theorem StreamFpsGate.Opened.limits {period : ℕ} (hopened : gate.Opened period) : gate.Limits period :=
  ⟨hopened.fps_range, hopened.period_eq, hopened.credit_le⟩

theorem StreamFpsGate.Limits.after {gate : StreamFpsGate} {period : ℕ} (hlimits : gate.Limits period)
    (hpositive : ∀ now_ns ∈ times, 0 < now_ns) (hsorted : times.Pairwise (· ≤ ·))
    (hclock : ∀ now_ns ∈ times, gate.last_ns ≤ now_ns) : (gate.after times).Limits period := by
  induction times generalizing gate with
  | nil => exact hlimits
  | cons now_ns rest ih =>
    obtain ⟨hfirst, hrest⟩ := List.pairwise_cons.mp hsorted
    obtain ⟨hopened, hlast⟩ :=
      hlimits.allow (hpositive now_ns List.mem_cons_self) (hclock now_ns List.mem_cons_self)
    exact ih hopened.limits (fun later hlater => hpositive later (List.mem_cons_of_mem _ hlater)) hrest
      (by rwa [hlast])

/-- The first call of a window may pass on credit from before, and every later one is paid for by the
period that was left and the length of the window. -/
theorem StreamFpsGate.Limits.allowed_in_le {gate : StreamFpsGate} {period : ℕ}
    (hlimits : gate.Limits period) (hpositive : ∀ now_ns ∈ times, 0 < now_ns)
    (hsorted : times.Pairwise (· ≤ ·)) (hclock : ∀ now_ns ∈ times, gate.last_ns ≤ now_ns)
    (hperiod : 0 < period) (s t : ℕ) : allowed_in s t (gate.calls times) ≤ 2 + (t - s) / period := by
  induction times generalizing gate with
  | nil => exact Nat.zero_le _
  | cons now_ns rest ih =>
    obtain ⟨hfirst, hrest⟩ := List.pairwise_cons.mp hsorted
    obtain ⟨hopened, hlast⟩ :=
      hlimits.allow (hpositive now_ns List.mem_cons_self) (hclock now_ns List.mem_cons_self)
    have hclockRest : ∀ later ∈ rest, (gate.allow now_ns).2.last_ns ≤ later := by rwa [hlast]
    by_cases hin : s ≤ now_ns ∧ now_ns ≤ t
    · have hspent := hopened.spent_until (s := s) (t := t) hrest hclockRest (by omega)
      have hcredit := hopened.credit_le
      have hlater : allowed_in s t ((gate.allow now_ns).2.calls rest) ≤ (t - s) / period + 1 := by
        rw [← Nat.add_div_right _ hperiod, Nat.le_div_iff_mul_le hperiod]
        omega
      have hone := Bool.toNat_le (gate.allow now_ns).1
      rw [calls, allowed_in_cons hin]
      omega
    · have hskip : allowed_in s t (gate.calls (now_ns :: rest)) =
          allowed_in s t ((gate.allow now_ns).2.calls rest) := by
        rw [calls, allowed_in, List.countP_cons, ← allowed_in]
        simp [hin]
      rw [hskip]
      exact ih hopened.limits (fun later hlater => hpositive later (List.mem_cons_of_mem _ hlater)) hrest
        hclockRest

theorem allowed_cons (answer : Bool) (calls : List (ℕ × Bool)) :
    allowed ((now_ns, answer) :: calls) = allowed calls + answer.toNat := by
  rw [allowed, List.countP_cons, ← allowed]
  cases answer <;> rfl

/-- With gaps of at most a period nothing that is earned is lost: the elapsed time is in the frames
that passed and in the credit. -/
theorem StreamFpsGate.Opened.spent_all {gate : StreamFpsGate} {period : ℕ} (hopened : gate.Opened period)
    (hsorted : (gate.last_ns :: times).Pairwise (· ≤ ·))
    (hgaps : (gate.last_ns :: times).IsChain fun now later => later ≤ now + period) :
    allowed (gate.calls times) * period + (gate.after times).credit_ns + gate.last_ns =
      gate.credit_ns + (gate.after times).last_ns := by
  induction times generalizing gate with
  | nil => simp [allowed, calls, after]
  | cons now_ns rest ih =>
    obtain ⟨hfirst, hrest⟩ := List.pairwise_cons.mp hsorted
    obtain ⟨hgap, hgapsRest⟩ := List.isChain_cons_cons.mp hgaps
    have hnow := hfirst now_ns List.mem_cons_self
    have hspent := hopened.allow hnow
    have hpaid := hspent.spent_eq (by omega)
    have hlater := ih hspent.opened (by rwa [hspent.last_eq]) (by rwa [hspent.last_eq])
    rw [hspent.last_eq] at hlater
    have hafter : gate.after (now_ns :: rest) = (gate.allow now_ns).2.after rest := rfl
    rw [calls, allowed_cons, Nat.add_mul, hafter]
    omega

theorem StreamFpsGate.configure_limits (gate : StreamFpsGate) {fps : ℤ} (hfps : 1 ≤ fps ∧ fps ≤ 59) :
    (gate.configure fps).Limits (period_ns fps.toNat) :=
  ⟨hfps, rfl, Nat.zero_le _⟩

theorem period_ns_pos {fps : ℤ} (hfps : 1 ≤ fps ∧ fps ≤ 59) : 0 < period_ns fps.toNat :=
  Nat.div_pos (by omega) (by omega)

theorem StreamFpsGate.after_last {gate : StreamFpsGate} {period : ℕ} {before : List ℕ}
    (hlimits : gate.Limits period) (hpositive : ∀ now_ns ∈ before ++ [t], 0 < now_ns)
    (hsorted : (before ++ [t]).Pairwise (· ≤ ·))
    (hclock : ∀ now_ns ∈ before ++ [t], gate.last_ns ≤ now_ns) :
    (gate.after (before ++ [t])).last_ns = t := by
  induction before generalizing gate with
  | nil => exact (hlimits.allow (hpositive t List.mem_cons_self) (hclock t List.mem_cons_self)).2
  | cons now_ns rest ih =>
    obtain ⟨hfirst, hrest⟩ := List.pairwise_cons.mp hsorted
    obtain ⟨hopened, hlast⟩ :=
      hlimits.allow (hpositive now_ns List.mem_cons_self) (hclock now_ns List.mem_cons_self)
    exact ih hopened.limits (fun later hlater => hpositive later (List.mem_cons_of_mem _ hlater)) hrest
      (by rwa [hlast])

/-- From the first call on, the frames that passed pay for a period and all of the elapsed time. -/
theorem StreamFpsGate.keeps_up {fps : ℤ} {before : List ℕ} {t0 : ℕ} (hfps : 1 ≤ fps ∧ fps ≤ 59)
    (hpositive : ∀ now_ns ∈ before ++ [t], 0 < now_ns) (hsorted : (before ++ [t]).Pairwise (· ≤ ·))
    (hgaps : (before ++ [t]).IsChain fun now later => later ≤ now + period_ns fps.toNat)
    (hhead : t0 ∈ (before ++ [t]).head?) :
    period_ns fps.toNat + (t - t0) ≤
      allowed ((gate.configure fps).calls (before ++ [t])) * period_ns fps.toNat := by
  have hlimits := StreamFpsGate.configure_limits gate hfps
  have hopening : (gate.configure fps).allow t0 = (true, ⟨fps, t0, period_ns fps.toNat⟩) :=
    StreamFpsGate.allow_of_reset hfps rfl
  have hlast := after_last hlimits hpositive hsorted fun _ _ => Nat.zero_le _
  have hcredit := (hlimits.after hpositive hsorted fun _ _ => Nat.zero_le _).credit_le
  obtain ⟨tail, htail⟩ := List.head?_eq_some_iff.mp hhead
  rw [htail] at hpositive hsorted hgaps hlast hcredit ⊢
  rw [after_cons hopening] at hlast hcredit
  have hopened : StreamFpsGate.Opened ⟨fps, t0, period_ns fps.toNat⟩ (period_ns fps.toNat) :=
    ⟨hfps, rfl, (hpositive t0 List.mem_cons_self).ne', le_rfl⟩
  have hspent := hopened.spent_all hsorted hgaps
  rw [hlast] at hspent
  rw [calls_cons hopening, allowed_cons, Bool.toNat_true, Nat.add_mul]
  -- the credit that is left at the end is at most the one that the first call has given
  simp only at hspent
  omega

/-- The rate of a gate that was configured, over all calls at times that do not go back: a window has
at most two frames beyond its length, the credit stays within a period, and when no gap is longer than
a period the frames keep up with the clock: they are at least one more than the elapsed time has periods,
without rounding. -/
theorem rate_law (gate : StreamFpsGate) (fps : ℤ) (times : List ℕ) (hfps : 1 ≤ fps ∧ fps ≤ 59)
    (hpositive : ∀ now_ns ∈ times, 0 < now_ns) (hsorted : times.Pairwise (· ≤ ·)) :
    (∀ s t, s ≤ t → allowed_in s t ((gate.configure fps).calls times) ≤
      2 + (t - s) / period_ns fps.toNat) ∧
    (∀ before after, times = before ++ after →
      ((gate.configure fps).after before).credit_ns ≤ period_ns fps.toNat) ∧
    ((times.IsChain fun now later => later ≤ now + period_ns fps.toNat) →
      ∀ before t after, times = before ++ t :: after → ∀ t0 ∈ times.head?,
        period_ns fps.toNat + (t - t0) ≤
          allowed ((gate.configure fps).calls (before ++ [t])) * period_ns fps.toNat) := by
  have hlimits := StreamFpsGate.configure_limits gate hfps
  refine ⟨fun s t _ => ?_, fun before after hsplit => ?_, fun hgaps before t after hsplit t0 hhead => ?_⟩
  · exact hlimits.allowed_in_le hpositive hsorted (fun _ _ => Nat.zero_le _) (period_ns_pos hfps) s t
  · subst hsplit
    exact (hlimits.after (fun now_ns hnow => hpositive now_ns (List.mem_append_left _ hnow))
      (List.pairwise_append.mp hsorted).1 fun _ _ => Nat.zero_le _).credit_le
  · have hsplit' : times = (before ++ [t]) ++ after := by
      rw [hsplit, List.append_assoc, List.singleton_append]
    subst hsplit'
    refine StreamFpsGate.keeps_up hfps (fun now_ns hnow => hpositive now_ns (List.mem_append_left _ hnow))
      (List.pairwise_append.mp hsorted).1 (List.isChain_append.mp hgaps).1 ?_
    rwa [List.head?_append_of_ne_nil _ (by simp)] at hhead

theorem rate_law_thirty :
    allowed_in 1000000000 1050000000
      ((StreamFpsGate.configure ⟨60, 0, 0⟩ 30).calls [1000000000, 1020000000, 1050000000]) ≤ 3 ∧
    period_ns 30 + 50000000 ≤
      allowed ((StreamFpsGate.configure ⟨60, 0, 0⟩ 30).calls [1000000000, 1020000000, 1050000000]) *
        period_ns 30 := by
  have hlaw := rate_law ⟨60, 0, 0⟩ 30 [1000000000, 1020000000, 1050000000] (by decide) (by decide) (by decide)
  exact ⟨hlaw.1 1000000000 1050000000 (by decide), hlaw.2.2
    (.cons_cons (by decide) (.cons_cons (by decide) (.singleton _))) [1000000000, 1020000000] 1050000000 []
    rfl 1000000000 rfl⟩

end k180.h265_hub
