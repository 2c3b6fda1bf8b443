import K180.BrightTuner.Tuner
import K180.Schedule.Family

open schedule

namespace k180.brighttuner

/-- The two halves of `PendingCtrl`, which are handled alike. -/
inductive Control where
  | exposure
  | gain
deriving DecidableEq

def valid_idx (cam_idx : ℤ) : Bool := decide (0 ≤ cam_idx ∧ cam_idx < CAM_NUMBER)

/-- `g_pending` of a camera, with the control whose flag the producer still has to set and the control
whose value the consumer still has to load. `requested` has the values that were stored, `returned`
each value that a consume returned with its place among them. -/
structure Mailbox where
  val : Control → ℤ
  dirty : Control → Bool
  setting : Option Control
  loading : Option Control
  requested : Control → List ℤ
  returned : Control → List (ℕ × ℤ)

def mailbox_start : Mailbox where
  val _ := 0
  dirty _ := false
  setting := none
  loading := none
  requested _ := []
  returned _ := []

/-- The accesses of `request_exposure` and `request_gain`, then those of `consume_exposure` and
`consume_gain`. -/
inductive MailAction where
  | store (k : Control) (val : ℤ)
  | set_dirty
  | exchange (k : Control)
  | load
deriving DecidableEq

/-- One access to the mailbox of a camera; the calls return at once where there is no such camera. -/
def mail_step (cam_idx : ℤ) (m : Mailbox) (action : MailAction) : Option Mailbox :=
  if valid_idx cam_idx = false then some m
  else match action with
  | .store k val =>
    if m.setting = none then
      some { m with
        val := Function.update m.val k val, setting := some k,
        requested := Function.update m.requested k (m.requested k ++ [val]) }
    else none
  | .set_dirty => m.setting.map fun k => { m with dirty := Function.update m.dirty k true, setting := none }
  | .exchange k =>
    if m.loading = none then
      some { m with
        dirty := Function.update m.dirty k false, loading := if m.dirty k = true then some k else none }
    else none
  | .load =>
    m.loading.map fun k => { m with
      loading := none,
      returned := Function.update m.returned k (m.returned k ++ [((m.requested k).length - 1, m.val k)]) }

/-- What the consumer has left of its call, and then a consume of `k`; a call for `k` that has cleared
the flag is that consume. -/
def next_consume (m : Mailbox) (k : Control) : List MailAction :=
  match m.loading with
  | none => [.exchange k, .load]
  | some k' => if k' = k then [.load] else [.load, .exchange k, .load]

/-- The next consume of `k` returns `entry`. -/
def Returns (cam_idx : ℤ) (m : Mailbox) (k : Control) (entry : ℕ × ℤ) : Prop :=
  ∃ m', run (mail_step cam_idx) m (next_consume m k) = some m' ∧ m'.returned k = m.returned k ++ [entry]

/-- Each value that was returned was requested, and not before the value returned before it. -/
def Fresh (requested : List ℤ) (returned : List (ℕ × ℤ)) : Prop :=
  (∀ entry ∈ returned, requested[entry.1]? = some entry.2) ∧ (returned.map Prod.fst).Pairwise (· ≤ ·)

/-- The last value requested was the last one returned, or the flag is set and it is returned next. -/
def Kept (cam_idx : ℤ) (m : Mailbox) (k : Control) : Prop :=
  ∀ last ∈ (m.requested k).getLast?,
    (m.returned k).getLast? = some ((m.requested k).length - 1, last) ∨
    m.dirty k = true ∧ Returns cam_idx m k ((m.requested k).length - 1, last)

/-- The same, or a consume that has cleared the flag is about to return it. -/
def KeptOrTaken (cam_idx : ℤ) (m : Mailbox) (k : Control) : Prop :=
  ∀ last ∈ (m.requested k).getLast?,
    (m.returned k).getLast? = some ((m.requested k).length - 1, last) ∨
    (m.dirty k = true ∨ m.loading = some k) ∧ Returns cam_idx m k ((m.requested k).length - 1, last)

variable {cam_idx : ℤ} {m m' : Mailbox} {k : Control} {action : MailAction}

/-- What is known of one control between any two accesses. -/
structure Carries (m : Mailbox) (k : Control) : Prop where
  unused : m.requested k = [] → m.dirty k = false ∧ m.setting ≠ some k ∧ m.loading ≠ some k
  newest : ∀ last ∈ (m.requested k).getLast?, m.val k = last
  requested : ∀ entry ∈ m.returned k, (m.requested k)[entry.1]? = some entry.2
  sorted : ((m.returned k).map Prod.fst).Pairwise (· ≤ ·)
  kept : m.requested k ≠ [] → m.setting = some k ∨ m.dirty k = true ∨ m.loading = some k ∨
    (m.returned k).getLast? = some ((m.requested k).length - 1, m.val k)

theorem carries_start (k : Control) : Carries mailbox_start k where
  unused _ := ⟨rfl, nofun, nofun⟩
  newest _ h := nomatch h
  requested _ h := nomatch h
  sorted := .nil
  kept h := absurd rfl h

/-- A step leaves the other control as it is. -/
theorem Carries.frame {m m' : Mailbox} (hcarries : Carries m k) (hval : m'.val k = m.val k)
    (hdirty : m'.dirty k = m.dirty k) (hsetting : m'.setting = some k ↔ m.setting = some k)
    (hloading : m'.loading = some k ↔ m.loading = some k) (hrequested : m'.requested k = m.requested k)
    (hreturned : m'.returned k = m.returned k) : Carries m' k := by
  obtain ⟨hunused, hnewest, hentries, hsorted, hkept⟩ := hcarries
  refine ⟨?_, ?_, ?_, ?_, ?_⟩
  · rwa [hrequested, hdirty, Ne, Ne, hsetting, hloading]
  · rwa [hrequested, hval]
  · rwa [hrequested, hreturned]
  · rwa [hreturned]
  · rwa [hrequested, hreturned, hsetting, hdirty, hloading, hval]

theorem Carries.store (hcarries : Carries m k) (hsetting : m.setting = none) (on : Control) (val : ℤ) :
    Carries { m with
      val := Function.update m.val on val, setting := some on,
      requested := Function.update m.requested on (m.requested on ++ [val]) } k := by
  by_cases hon : on = k
  · subst hon
    exact {
      unused := fun h => by simp at h
      newest := fun last hlast => by simpa using hlast
      requested := fun entry hentry => by
        have hget := hcarries.requested entry hentry
        have hlt := (List.getElem?_eq_some_iff.mp hget).1
        simpa [List.getElem?_append_left hlt] using hget
      sorted := hcarries.sorted
      kept := fun _ => .inl rfl }
  · refine hcarries.frame ?_ rfl ?_ .rfl ?_ rfl
    · exact Function.update_of_ne (Ne.symm hon) _ _
    · simp [hsetting, hon]
    · exact Function.update_of_ne (Ne.symm hon) _ _

theorem Carries.set_dirty (hcarries : Carries m k) {on : Control} (hsetting : m.setting = some on) :
    Carries { m with dirty := Function.update m.dirty on true, setting := none } k := by
  by_cases hon : on = k
  · subst hon
    exact {
      unused := fun h => absurd hsetting (hcarries.unused h).2.1
      newest := hcarries.newest
      requested := hcarries.requested
      sorted := hcarries.sorted
      kept := fun _ => .inr (.inl (Function.update_self _ _ _)) }
  · refine hcarries.frame rfl ?_ ?_ .rfl rfl rfl
    · exact Function.update_of_ne (Ne.symm hon) _ _
    · simp [hsetting, hon]

theorem Carries.exchange (hcarries : Carries m k) (hloading : m.loading = none) (on : Control) :
    Carries { m with
      dirty := Function.update m.dirty on false,
      loading := if m.dirty on = true then some on else none } k := by
  by_cases hon : on = k
  · subst hon
    exact {
      unused := fun h => by
        obtain ⟨hdirty, hsetting, -⟩ := hcarries.unused h
        simp [hdirty, hsetting]
      newest := hcarries.newest
      requested := hcarries.requested
      sorted := hcarries.sorted
      kept := fun h => by
        rcases hcarries.kept h with hset | hdirty | hload | hlast
        · exact .inl hset
        · exact .inr (.inr (.inl (if_pos hdirty)))
        · exact absurd (hloading.symm.trans hload) nofun
        · exact .inr (.inr (.inr hlast)) }
  · refine hcarries.frame rfl ?_ .rfl ?_ rfl rfl
    · exact Function.update_of_ne (Ne.symm hon) _ _
    · rw [hloading]
      split <;> simp [hon]

theorem Carries.load (hcarries : Carries m k) {on : Control} (hloading : m.loading = some on) :
    Carries { m with
      loading := none,
      returned := Function.update m.returned on
        (m.returned on ++ [((m.requested on).length - 1, m.val on)]) } k := by
  by_cases hon : on = k
  · subst hon
    have hused : m.requested on ≠ [] := fun h => (hcarries.unused h).2.2 hloading
    have hlast : (m.requested on)[(m.requested on).length - 1]? = some (m.val on) := by
      rw [← List.getLast?_eq_getElem?]
      have hget := List.getLast?_eq_some_getLast hused
      rw [hget, hcarries.newest _ hget]
    exact {
      unused := fun h => absurd h hused
      newest := hcarries.newest
      requested := fun entry hentry => by
        simp only [Function.update_self] at hentry
        rcases List.mem_append.mp hentry with hold | hnew
        · exact hcarries.requested entry hold
        · rw [List.mem_singleton.mp hnew]
          exact hlast
      sorted := by
        simp only [Function.update_self, List.map_append, List.pairwise_append]
        refine ⟨hcarries.sorted, List.pairwise_singleton _ _, fun n hn n' hn' => ?_⟩
        obtain ⟨entry, hentry, rfl⟩ := List.mem_map.mp hn
        have hlt := (List.getElem?_eq_some_iff.mp (hcarries.requested entry hentry)).1
        rw [List.mem_singleton.mp hn']
        exact Nat.le_sub_one_of_lt hlt
      kept := fun _ => .inr (.inr (.inr (by simp))) }
  · refine hcarries.frame rfl rfl .rfl ?_ rfl ?_
    · simp [hloading, hon]
    · exact Function.update_of_ne (Ne.symm hon) _ _

theorem carries_step (hcarries : Carries m k) (hstep : mail_step cam_idx m action = some m') :
    Carries m' k := by
  unfold mail_step at hstep
  split at hstep
  · exact Option.some.inj hstep ▸ hcarries
  cases action with
  | store on val =>
    obtain ⟨hsetting, heq⟩ := Option.ite_none_right_eq_some.mp hstep
    exact Option.some.inj heq ▸ hcarries.store hsetting on val
  | set_dirty =>
    obtain ⟨on, hsetting, rfl⟩ := Option.map_eq_some_iff.mp hstep
    exact hcarries.set_dirty hsetting
  | exchange on =>
    obtain ⟨hloading, heq⟩ := Option.ite_none_right_eq_some.mp hstep
    exact Option.some.inj heq ▸ hcarries.exchange hloading on
  | load =>
    obtain ⟨on, hloading, rfl⟩ := Option.map_eq_some_iff.mp hstep
    exact hcarries.load hloading

/-- A flag that is set, or was cleared by a consume that has not loaded the value yet, brings the value
that is stored to the consumer. -/
theorem returns_val (hvalid : valid_idx cam_idx = true) (htaken : m.dirty k = true ∨ m.loading = some k) :
    Returns cam_idx m k ((m.requested k).length - 1, m.val k) := by
  cases hloading : m.loading with
  | none =>
    have hdirty : m.dirty k = true := htaken.resolve_right (by rw [hloading]; exact nofun)
    exact ⟨_, by simp [next_consume, hloading, run, mail_step, hvalid, hdirty]; rfl, by simp⟩
  | some on =>
    by_cases hon : on = k
    · subst hon
      exact ⟨_, by simp [next_consume, hloading, run, mail_step, hvalid]; rfl, by simp⟩
    · have hdirty : m.dirty k = true := htaken.resolve_right (by rw [hloading]; simpa using hon)
      exact ⟨_, by simp [next_consume, hloading, hon, run, mail_step, hvalid, hdirty]; rfl,
        by simp [Function.update_of_ne (Ne.symm hon)]⟩

theorem Carries.fresh (hcarries : Carries m k) : Fresh (m.requested k) (m.returned k) :=
  ⟨hcarries.requested, hcarries.sorted⟩

theorem Carries.keptOrTaken (hcarries : Carries m k) (hvalid : valid_idx cam_idx = true)
    (hidle : m.setting ≠ some k) : KeptOrTaken cam_idx m k := by
  intro last hlast
  obtain rfl := hcarries.newest last hlast
  have hused : m.requested k ≠ [] := fun h => by simp [h] at hlast
  rcases hcarries.kept hused with hsetting | hdirty | hloading | hreturned
  · exact absurd hsetting hidle
  · exact .inr ⟨.inl hdirty, returns_val hvalid (.inl hdirty)⟩
  · exact .inr ⟨.inr hloading, returns_val hvalid (.inr hloading)⟩
  · exact .inl hreturned

/-- The mailboxes of all cameras, each with one producer and one consumer, after any interleaving of
their accesses. -/
theorem mailbox_keeps_last (actions : List (ℤ × MailAction)) (g_pending : ℤ → Mailbox)
    (hrun : run (family_step mail_step) (fun _ => mailbox_start) actions = some g_pending) (cam_idx : ℤ)
    (k : Control) :
    Fresh ((g_pending cam_idx).requested k) ((g_pending cam_idx).returned k) ∧
    ((g_pending cam_idx).setting ≠ some k → valid_idx cam_idx = true →
      KeptOrTaken cam_idx (g_pending cam_idx) k) := by
  have hcarries : Carries (g_pending cam_idx) k :=
    invariant_of_run (fun m action m' hm hstep => carries_step hm hstep) (carries_start k)
      (run_component hrun cam_idx)
  exact ⟨hcarries.fresh, fun hidle hvalid => hcarries.keptOrTaken hvalid hidle⟩

/-- A request of exposure 7 for camera 0, and the exchange of the consume that returns it. -/
def half_consumed : List (ℤ × MailAction) :=
  [(0, .store .exposure 7), (0, .set_dirty), (0, .exchange .exposure)]

/-- Between the two accesses of a consume the flag is clear and the value not returned yet. -/
theorem mailbox_flag_cleared_early :
    ¬ ∀ (actions : List (ℤ × MailAction)) (g_pending : ℤ → Mailbox),
      run (family_step mail_step) (fun _ => mailbox_start) actions = some g_pending →
      ∀ cam_idx k, (g_pending cam_idx).setting ≠ some k → valid_idx cam_idx = true →
        Kept cam_idx (g_pending cam_idx) k := by
  intro hclaim
  have hkept := hclaim half_consumed _ rfl 0 .exposure (by decide) (by decide) 7 rfl
  simp [mailbox_start] at hkept

/-- The same accesses followed by the load, then a request for a camera that is not there. -/
theorem mailbox_keeps_last_sample : ∃ g_pending,
    run (family_step mail_step) (fun _ => mailbox_start)
      (half_consumed ++ [(0, .load), (9, .store .gain 1)]) = some g_pending ∧
    Fresh ((g_pending 0).requested .exposure) ((g_pending 0).returned .exposure) :=
  ⟨_, rfl, (mailbox_keeps_last (half_consumed ++ [(0, .load), (9, .store .gain 1)]) _ rfl 0 .exposure).1⟩

end k180.brighttuner
