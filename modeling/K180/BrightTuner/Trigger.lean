import K180.BrightTuner.Mailbox

open schedule

namespace k180.brighttuner

def trigger_interval_us : ℤ := 16667

/-- Where the trigger thread is in `cam_do_trigger` for a camera: outside of it, at an access of
`apply_pending` for a control, at an ioctl with a value and its place among the requests, or at the
store of the exposure that the driver took. -/
inductive TriggerPhase where
  | idle
  | exchange (k : Control)
  | load (k : Control)
  | ioctl (k : Control) (entry : ℕ × ℤ)
  | store_applied (val : ℤ)
deriving DecidableEq

/-- A camera: its descriptor, its mailbox, what the sensor has been set to, and the variables of
`cam_do_trigger`. `ioctls` has the value of each set-control ioctl and whether the driver took it. -/
structure Camera where
  fd : ℤ
  mail : Mailbox
  sensor : Control → ℤ
  applied_trigger_shutter_us : ℤ
  shutter_used_us : ℤ
  phase : TriggerPhase
  ioctls : Control → List ((ℕ × ℤ) × Bool)

/-- A camera after `single_mipi_camera_init`, with these values set. -/
def camera_start (fd exposure gain : ℤ) : Camera where
  fd := fd
  mail := mailbox_start
  sensor k := match k with
    | .exposure => exposure
    | .gain => gain
  applied_trigger_shutter_us := exposure
  shutter_used_us := trigger_interval_us
  phase := .idle
  ioctls _ := []

/-- The accesses of a request, the part of `cam_do_trigger` before `apply_pending`, and the steps of
`apply_pending` with the answer of the driver where one is an ioctl. -/
inductive TriggerAction where
  | request (k : Control) (val : ℤ)
  | set_dirty
  | trigger
  | access
  | ioctl (ok : Bool)
deriving DecidableEq

/-- What follows in `apply_pending` when there is nothing left to do for a control. -/
def phase_after : Control → TriggerPhase
  | .exposure => .exchange .gain
  | .gain => .idle

/-- `set_control_nolock`, and what `apply_pending` does with its answer: only the exposure that was
taken is kept, and a refused value is logged. -/
def Camera.set_control (c : Camera) (k : Control) (entry : ℕ × ℤ) (ok : Bool) : Camera :=
  { c with
    sensor := if ok = true then Function.update c.sensor k entry.2 else c.sensor,
    phase := if ok = true ∧ k = .exposure then .store_applied entry.2 else phase_after k,
    ioctls := Function.update c.ioctls k (c.ioctls k ++ [(entry, ok)]) }

def trigger_step (cam_idx : ℤ) (c : Camera) : TriggerAction → Option Camera
  | .request k val => (mail_step cam_idx c.mail (.store k val)).map fun mail => { c with mail }
  | .set_dirty => (mail_step cam_idx c.mail .set_dirty).map fun mail => { c with mail }
  | .trigger =>
    if c.phase ≠ .idle then none
    else if c.fd < 0 then some c
    else some { c with
      shutter_used_us :=
        if c.applied_trigger_shutter_us ≤ 0 then trigger_interval_us else c.applied_trigger_shutter_us,
      phase := .exchange .exposure }
  | .access =>
    match c.phase with
    | .exchange k =>
      (mail_step cam_idx c.mail (.exchange k)).map fun mail =>
        { c with mail, phase := if mail.loading = some k then .load k else phase_after k }
    | .load k =>
      (mail_step cam_idx c.mail .load).map fun mail =>
        { c with mail, phase := .ioctl k ((c.mail.requested k).length - 1, c.mail.val k) }
    | .store_applied val => some { c with applied_trigger_shutter_us := val, phase := phase_after .exposure }
    | .idle | .ioctl _ _ => none
  | .ioctl ok =>
    match c.phase with
    | .ioctl k entry => some (c.set_control k entry ok)
    | .idle | .exchange _ | .load _ | .store_applied _ => none

/-- The value of the last ioctl that the driver took, or what the sensor was set to at first. -/
def last_accepted (initial : ℤ) (ioctls : List ((ℕ × ℤ) × Bool)) : ℤ :=
  ioctls.foldl (fun val ioctl => if ioctl.2 = true then ioctl.1.2 else val) initial

/-- A request carrying the newest value is in the mailbox, or on its way there. -/
def Pending (m : Mailbox) (k : Control) (last : ℤ) : Prop :=
  m.val k = last ∧ (m.dirty k = true ∨ m.setting = some k)

/-- The sensor has the last value that was requested, or a request carrying it is pending. -/
def NotLost (c : Camera) (k : Control) : Prop :=
  ∀ last ∈ (c.mail.requested k).getLast?, c.sensor k = last ∨ Pending c.mail k last

/-- The same, or the driver has refused the ioctl that carried the value. -/
def NotLostOrRefused (c : Camera) (k : Control) : Prop :=
  ∀ last ∈ (c.mail.requested k).getLast?, c.sensor k = last ∨ Pending c.mail k last ∨
    (c.ioctls k).getLast? = some (((c.mail.requested k).length - 1, last), false)

/-- The entry of `k` that is at the driver. -/
def in_flight (k : Control) : TriggerPhase → List (ℕ × ℤ)
  | .ioctl on entry => if on = k then [entry] else []
  | .idle | .exchange _ | .load _ | .store_applied _ => []

/-- What is known of a camera between any two steps. -/
structure Consistent (initial : Control → ℤ) (c : Camera) : Prop where
  carries : ∀ k, Carries c.mail k
  loading : ∀ k, c.mail.loading = some k ↔ c.phase = .load k
  answered : ∀ k, c.mail.returned k = (c.ioctls k).map Prod.fst ++ in_flight k c.phase
  accepted : ∀ k, c.sensor k = last_accepted (initial k) (c.ioctls k)
  storing : ∀ val, c.phase = .store_applied val → c.sensor .exposure = val
  applied : (∀ val, c.phase ≠ .store_applied val) → c.applied_trigger_shutter_us = c.sensor .exposure

variable {cam_idx : ℤ} {c c' : Camera} {k : Control} {initial : Control → ℤ} {m m' : Mailbox}

theorem consistent_start (fd exposure gain : ℤ) :
    Consistent (camera_start fd exposure gain).sensor (camera_start fd exposure gain) where
  carries := carries_start
  loading _ := ⟨nofun, nofun⟩
  answered _ := rfl
  accepted _ := rfl
  storing _ := nofun
  applied _ := rfl

/-- A request leaves the side of the consumer as it is. -/
theorem mail_step_request {action : MailAction} (hrequest : (∃ k val, action = .store k val) ∨ action = .set_dirty)
    (hstep : mail_step cam_idx m action = some m') : m'.loading = m.loading ∧ m'.returned = m.returned := by
  unfold mail_step at hstep
  split at hstep
  · exact Option.some.inj hstep ▸ ⟨rfl, rfl⟩
  rcases hrequest with ⟨k, val, rfl⟩ | rfl
  · obtain ⟨-, heq⟩ := Option.ite_none_right_eq_some.mp hstep
    exact Option.some.inj heq ▸ ⟨rfl, rfl⟩
  · obtain ⟨on, -, rfl⟩ := Option.map_eq_some_iff.mp hstep
    exact ⟨rfl, rfl⟩

theorem Consistent.request (hconsistent : Consistent initial c) {action : MailAction}
    (hrequest : (∃ k val, action = .store k val) ∨ action = .set_dirty)
    (hstep : mail_step cam_idx c.mail action = some m') : Consistent initial { c with mail := m' } := by
  obtain ⟨hloading, hreturned⟩ := mail_step_request hrequest hstep
  exact { hconsistent with
    carries := fun k => carries_step (hconsistent.carries k) hstep
    loading := fun k => hloading ▸ hconsistent.loading k
    answered := fun k => hreturned ▸ hconsistent.answered k }

theorem Consistent.trigger (hconsistent : Consistent initial c) (hidle : c.phase = .idle)
    (shutter_used_us : ℤ) :
    Consistent initial { c with shutter_used_us, phase := .exchange .exposure } := by
  obtain ⟨hcarries, hloading, hanswered, haccepted, -, happlied⟩ := hconsistent
  rw [hidle] at hanswered happlied
  exact {
    carries := hcarries
    loading := fun k => by simp [hloading k, hidle]
    answered := hanswered
    accepted := haccepted
    storing := nofun
    applied := fun _ => happlied nofun }

theorem phase_after_ne (k on : Control) (entry : ℕ × ℤ) (val : ℤ) :
    phase_after k ≠ .load on ∧ phase_after k ≠ .ioctl on entry ∧ phase_after k ≠ .store_applied val := by
  cases k <;> exact ⟨nofun, nofun, nofun⟩

theorem in_flight_phase_after (k on : Control) : in_flight k (phase_after on) = [] := by
  cases on <;> rfl

theorem mail_step_exchange (hvalid : valid_idx cam_idx = true) :
    mail_step cam_idx m (.exchange k) = some m' ↔ m.loading = none ∧ { m with
      dirty := Function.update m.dirty k false,
      loading := if m.dirty k = true then some k else none } = m' := by
  simp only [mail_step, hvalid, Bool.true_eq_false, if_false, Option.ite_none_right_eq_some,
    Option.some.injEq]

theorem mail_step_load (hvalid : valid_idx cam_idx = true) :
    mail_step cam_idx m .load = some m' ↔ ∃ k, m.loading = some k ∧ { m with
      loading := none,
      returned := Function.update m.returned k (m.returned k ++ [((m.requested k).length - 1, m.val k)]) } =
        m' := by
  simp only [mail_step, hvalid, Bool.true_eq_false, if_false, Option.map_eq_some_iff]

theorem Consistent.exchange (hconsistent : Consistent initial c) (hvalid : valid_idx cam_idx = true)
    {on : Control} (hphase : c.phase = .exchange on)
    (hstep : mail_step cam_idx c.mail (.exchange on) = some m') :
    Consistent initial { c with
      mail := m', phase := if m'.loading = some on then .load on else phase_after on } := by
  obtain ⟨hcarries, -, hanswered, haccepted, -, happlied⟩ := hconsistent
  have hcarries' (k : Control) := carries_step (hcarries k) hstep
  obtain ⟨-, rfl⟩ := (mail_step_exchange hvalid).mp hstep
  rw [hphase] at hanswered happlied
  have happlied' := happlied nofun
  by_cases hdirty : c.mail.dirty on = true
  · simp only [hdirty, if_true] at hcarries' ⊢
    exact {
      carries := hcarries'
      loading := fun k => by simp
      answered := hanswered
      accepted := haccepted
      storing := nofun
      applied := fun _ => happlied' }
  · simp only [hdirty, Bool.false_eq_true, if_false, reduceCtorEq] at hcarries' ⊢
    exact {
      carries := hcarries'
      loading := fun k => ⟨nofun, fun h => absurd h (phase_after_ne on k (0, 0) 0).1⟩
      answered := fun k => by rw [in_flight_phase_after]; exact hanswered k
      accepted := haccepted
      storing := fun val hval => absurd hval (phase_after_ne on on (0, 0) val).2.2
      applied := fun _ => happlied' }

theorem Consistent.load (hconsistent : Consistent initial c) (hvalid : valid_idx cam_idx = true)
    {on : Control} (hphase : c.phase = .load on) (hstep : mail_step cam_idx c.mail .load = some m') :
    Consistent initial { c with
      mail := m', phase := .ioctl on ((c.mail.requested on).length - 1, c.mail.val on) } := by
  obtain ⟨hcarries, hloading, hanswered, haccepted, -, happlied⟩ := hconsistent
  have hcarries' (k : Control) := carries_step (hcarries k) hstep
  obtain ⟨on', hon', rfl⟩ := (mail_step_load hvalid).mp hstep
  obtain rfl : on' = on := Option.some.inj (hon'.symm.trans ((hloading on).mpr hphase))
  rw [hphase] at hanswered happlied
  exact {
    carries := hcarries'
    loading := fun k => ⟨nofun, nofun⟩
    answered := fun k => by
      by_cases hk : k = on'
      · subst hk
        simp [hanswered k, in_flight]
      · simp [hanswered k, in_flight, Function.update_of_ne hk, Ne.symm hk]
    accepted := haccepted
    storing := nofun
    applied := fun _ => happlied nofun }

theorem last_accepted_append (initial : ℤ) (ioctls : List ((ℕ × ℤ) × Bool)) (entry : ℕ × ℤ) (ok : Bool) :
    last_accepted initial (ioctls ++ [(entry, ok)]) =
      if ok = true then entry.2 else last_accepted initial ioctls := by
  rw [last_accepted, List.foldl_append]
  rfl

theorem Consistent.set_control (hconsistent : Consistent initial c) {on : Control} {entry : ℕ × ℤ}
    (hphase : c.phase = .ioctl on entry) (ok : Bool) : Consistent initial (c.set_control on entry ok) := by
  obtain ⟨hcarries, hloading, hanswered, haccepted, -, happlied⟩ := hconsistent
  rw [hphase] at hloading hanswered happlied
  have happlied' := happlied nofun
  have hioctls (k : Control) :
      c.mail.returned k = (Function.update c.ioctls on (c.ioctls on ++ [(entry, ok)]) k).map Prod.fst := by
    by_cases hk : k = on
    · subst hk
      simp [hanswered k, in_flight]
    · simp [hanswered k, in_flight, Function.update_of_ne hk, Ne.symm hk]
  have haccepted' (k : Control) : (c.set_control on entry ok).sensor k =
      last_accepted (initial k) ((c.set_control on entry ok).ioctls k) := by
    by_cases hk : k = on
    · subst hk
      cases ok <;> simp [Camera.set_control, last_accepted_append, haccepted k]
    · cases ok <;> simp [Camera.set_control, Function.update_of_ne hk, haccepted k]
  by_cases htaken : ok = true ∧ on = .exposure
  · have hnext : (c.set_control on entry ok).phase = .store_applied entry.2 := if_pos htaken
    obtain ⟨rfl, rfl⟩ := htaken
    exact {
      carries := hcarries
      loading := fun k => ⟨fun h => absurd ((hloading k).mp h) nofun, fun h => absurd (hnext ▸ h) nofun⟩
      answered := fun k => by
        rw [hnext]
        exact (hioctls k).trans (List.append_nil _).symm
      accepted := haccepted'
      storing := fun val hval => by
        rw [hnext, TriggerPhase.store_applied.injEq] at hval
        simp [Camera.set_control, hval]
      applied := fun h => absurd hnext (h entry.2) }
  · have hnext : (c.set_control on entry ok).phase = phase_after on := if_neg htaken
    exact {
      carries := hcarries
      loading := fun k => ⟨fun h => absurd ((hloading k).mp h) nofun,
        fun h => absurd (hnext ▸ h) (phase_after_ne on k entry 0).1⟩
      answered := fun k => by
        rw [hnext, in_flight_phase_after]
        exact (hioctls k).trans (List.append_nil _).symm
      accepted := haccepted'
      storing := fun val hval => absurd (hnext ▸ hval) (phase_after_ne on on entry val).2.2
      applied := fun _ => by
        have hsensor : (c.set_control on entry ok).sensor .exposure = c.sensor .exposure := by
          cases ok with
          | false => rfl
          | true => exact Function.update_of_ne (fun h => htaken ⟨rfl, h.symm⟩) _ _
        exact happlied'.trans hsensor.symm }

theorem Consistent.store_applied (hconsistent : Consistent initial c) {val : ℤ}
    (hphase : c.phase = .store_applied val) :
    Consistent initial { c with applied_trigger_shutter_us := val, phase := phase_after .exposure } := by
  obtain ⟨hcarries, hloading, hanswered, haccepted, hstoring, -⟩ := hconsistent
  rw [hphase] at hanswered
  exact {
    carries := hcarries
    loading := fun k => by simp [hloading k, hphase, phase_after]
    answered := hanswered
    accepted := haccepted
    storing := nofun
    applied := fun _ => (hstoring val hphase).symm }

theorem consistent_step (hvalid : valid_idx cam_idx = true) (hconsistent : Consistent initial c)
    {action : TriggerAction} (hstep : trigger_step cam_idx c action = some c') : Consistent initial c' := by
  cases action with
  | request k val =>
    obtain ⟨mail, hmail, rfl⟩ := Option.map_eq_some_iff.mp hstep
    exact hconsistent.request (.inl ⟨k, val, rfl⟩) hmail
  | set_dirty =>
    obtain ⟨mail, hmail, rfl⟩ := Option.map_eq_some_iff.mp hstep
    exact hconsistent.request (.inr rfl) hmail
  | trigger =>
    rw [trigger_step, Option.ite_none_left_eq_some, ne_eq, not_not] at hstep
    obtain ⟨hidle, hstep⟩ := hstep
    split at hstep
    · exact Option.some.inj hstep ▸ hconsistent
    · exact Option.some.inj hstep ▸ hconsistent.trigger hidle _
  | access =>
    rw [trigger_step] at hstep
    split at hstep
    · rename_i k hphase
      obtain ⟨mail, hmail, rfl⟩ := Option.map_eq_some_iff.mp hstep
      exact hconsistent.exchange hvalid hphase hmail
    · rename_i k hphase
      obtain ⟨mail, hmail, rfl⟩ := Option.map_eq_some_iff.mp hstep
      exact hconsistent.load hvalid hphase hmail
    · rename_i val hphase
      exact Option.some.inj hstep ▸ hconsistent.store_applied hphase
    · cases hstep
    · cases hstep
  | ioctl ok =>
    rw [trigger_step] at hstep
    split at hstep
    · rename_i k entry hphase
      exact Option.some.inj hstep ▸ hconsistent.set_control hphase ok
    all_goals cases hstep

/-- Between two iterations each value that was consumed has had its ioctl. -/
theorem Consistent.notLostOrRefused (hconsistent : Consistent initial c) (hidle : c.phase = .idle)
    (k : Control) : NotLostOrRefused c k := by
  obtain ⟨hcarries, hloading, hanswered, haccepted, -, -⟩ := hconsistent
  intro last hlast
  have hnewest := (hcarries k).newest last hlast
  have hused : c.mail.requested k ≠ [] := fun h => by simp [h] at hlast
  rcases (hcarries k).kept hused with hsetting | hdirty | htaken | hreturned
  · exact .inr (.inl ⟨hnewest, .inr hsetting⟩)
  · exact .inr (.inl ⟨hnewest, .inl hdirty⟩)
  · exact absurd ((hloading k).mp htaken) (by rw [hidle]; exact nofun)
  · rw [hanswered k, hidle, in_flight, List.append_nil, List.getLast?_map, hnewest,
      Option.map_eq_some_iff] at hreturned
    obtain ⟨⟨entry, ok⟩, hget, rfl⟩ := hreturned
    cases ok with
    | false => exact .inr (.inr hget)
    | true =>
      obtain ⟨earlier, hsplit⟩ := List.getLast?_eq_some_iff.mp hget
      refine .inl ?_
      rw [haccepted k, hsplit, last_accepted_append, if_pos rfl]

/-- Whatever is requested and whatever the driver answers: between two iterations the newest value is
set, pending or was refused, the sensor has the last value that the driver took, and
`applied_trigger_shutter_us` is the exposure of the sensor. -/
theorem controls_set_or_refused (fd exposure gain : ℤ → ℤ) (actions : List (ℤ × TriggerAction))
    (cams : ℤ → Camera)
    (hrun : run (family_step trigger_step) (fun i => camera_start (fd i) (exposure i) (gain i)) actions =
      some cams) (cam_idx : ℤ) (hvalid : valid_idx cam_idx = true) (hidle : (cams cam_idx).phase = .idle) :
    (∀ k, NotLostOrRefused (cams cam_idx) k ∧ (cams cam_idx).sensor k =
      last_accepted ((camera_start (fd cam_idx) (exposure cam_idx) (gain cam_idx)).sensor k)
        ((cams cam_idx).ioctls k)) ∧
    (cams cam_idx).applied_trigger_shutter_us = (cams cam_idx).sensor .exposure := by
  have hconsistent := invariant_of_run (fun c action c' hc hstep => consistent_step hvalid hc hstep)
    (consistent_start (fd cam_idx) (exposure cam_idx) (gain cam_idx)) (run_component hrun cam_idx)
  refine ⟨fun k => ⟨hconsistent.notLostOrRefused hidle k, hconsistent.accepted k⟩,
    hconsistent.applied fun val => ?_⟩
  rw [hidle]
  exact nofun

/-- A request of exposure 7 for camera 0 and the iteration that consumes it. -/
def requested_seven (ok : Bool) : List (ℤ × TriggerAction) :=
  [(0, .request .exposure 7), (0, .set_dirty), (0, .trigger), (0, .access), (0, .access), (0, .ioctl ok)]

/-- The driver takes the exposure, and the iteration goes on to its end. -/
theorem controls_set_or_refused_taken : ∃ cams,
    run (family_step trigger_step) (fun _ => camera_start 3 5000 29000)
      (requested_seven true ++ [(0, .access), (0, .access)]) = some cams ∧
    NotLostOrRefused (cams 0) .exposure ∧
    (cams 0).applied_trigger_shutter_us = (cams 0).sensor .exposure := by
  refine ⟨_, rfl, ?_⟩
  have hlaw := controls_set_or_refused (fun _ => 3) (fun _ => 5000) (fun _ => 29000)
    (requested_seven true ++ [(0, .access), (0, .access)]) _ rfl 0 (by decide) rfl
  exact ⟨(hlaw.1 .exposure).1, hlaw.2⟩

/-- The driver refuses it: the value is neither set nor pending after the iteration. -/
theorem refused_exposure_is_lost :
    ¬ ∀ (fd exposure gain : ℤ → ℤ) (actions : List (ℤ × TriggerAction)) (cams : ℤ → Camera),
      run (family_step trigger_step) (fun i => camera_start (fd i) (exposure i) (gain i)) actions =
        some cams →
      ∀ cam_idx, valid_idx cam_idx = true → (cams cam_idx).phase = .idle →
        (∀ k, NotLost (cams cam_idx) k) ∧
        (cams cam_idx).applied_trigger_shutter_us = (cams cam_idx).sensor .exposure := by
  intro hclaim
  have hkept := (hclaim (fun _ => 3) (fun _ => 5000) (fun _ => 29000)
    (requested_seven false ++ [(0, .access)]) _ rfl 0 (by decide) rfl).1 .exposure 7 rfl
  rcases hkept with hset | ⟨-, hdirty | hsetting⟩
  · cases hset
  · cases hdirty
  · cases hsetting

end k180.brighttuner
