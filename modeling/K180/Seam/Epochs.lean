import K180.Schedule.Run

open schedule

namespace k180.seam

/-- Where `thread_cc_prepare_seam_input` is: about to load the epoch, with a frame and the epoch loaded
before it, with the image of that epoch stored and not signalled, or about to decide on the next epoch. -/
inductive PreparePhase where
  | top
  | popped (epoch_snapshot : ℕ)
  | stored (epoch_snapshot : ℕ)
  | deciding
deriving DecidableEq

/-- The thread of a camera; `stores` counts the images it has stored. -/
structure Prepare where
  phase : PreparePhase
  last_done_epoch : ℕ
  stores : ℕ

/-- Where `thread_seam_find` is: in `wait_all`, about to load the epoch, or in a computation for epoch
`e`, with these images still to be read by `compensator->feed`, or by the seam finder after that. -/
inductive FinderPhase where
  | waiting
  | loading
  | feeding (e : ℕ) (todo : List (Fin 4))
  | finding (e : ℕ) (todo : List (Fin 4))
deriving DecidableEq

def num_images : List (Fin 4) := List.finRange 4

/-- The threads with what they share. `used` has how many images a camera had stored when the last
computation read the one it used. -/
structure SeamState where
  seam_epoch : ℕ
  prepare : Fin 4 → Prepare
  done_mask : Fin 4 → Bool
  finder : FinderPhase
  last_seen_epoch : ℕ
  used : Fin 4 → ℕ

def seam_start : SeamState where
  seam_epoch := 0
  prepare _ := ⟨.top, 0, 0⟩
  done_mask _ := false
  finder := .waiting
  last_seen_epoch := 0
  used _ := 0

/-- The next access of a camera's thread, with what camera 0 decides; a successful `wait_all`; and the
next access of the seam thread after it. -/
inductive SeamAction where
  | prepare (id : Fin 4) (trigger : Bool)
  | wait_all
  | find
deriving DecidableEq

def SeamState.set_prepare (s : SeamState) (id : Fin 4) (thread : Prepare) : SeamState :=
  { s with prepare := Function.update s.prepare id thread }

/-- Only camera 0 decides whether there is a new epoch. -/
def after_input (id : Fin 4) : PreparePhase := if id = 0 then .deciding else .top

def prepare_step (s : SeamState) (id : Fin 4) (trigger : Bool) : SeamState :=
  let thread := s.prepare id
  match thread.phase with
  | .top => s.set_prepare id { thread with phase := .popped s.seam_epoch }
  | .popped epoch_snapshot =>
    if epoch_snapshot ≠ 0 ∧ epoch_snapshot ≠ thread.last_done_epoch then
      s.set_prepare id { thread with phase := .stored epoch_snapshot, stores := thread.stores + 1 }
    else s.set_prepare id { thread with phase := after_input id }
  | .stored epoch_snapshot =>
    { s.set_prepare id { thread with phase := after_input id, last_done_epoch := epoch_snapshot } with
      done_mask := Function.update s.done_mask id true }
  | .deciding =>
    { s.set_prepare id { thread with phase := .top } with
      seam_epoch := if trigger = true then s.seam_epoch + 1 else s.seam_epoch }

/-- Read the image of a camera. -/
def SeamState.read (s : SeamState) (id : Fin 4) : SeamState :=
  { s with used := Function.update s.used id (s.prepare id).stores }

def seam_step (s : SeamState) : SeamAction → Option SeamState
  | .prepare id trigger => some (prepare_step s id trigger)
  | .wait_all =>
    if s.finder = .waiting ∧ ∀ id, s.done_mask id = true then
      some { s with done_mask := fun _ => false, finder := .loading }
    else none
  | .find =>
    match s.finder with
    | .waiting => none
    | .loading =>
      if s.seam_epoch = 0 ∨ s.seam_epoch = s.last_seen_epoch then some { s with finder := .waiting }
      else some { s with finder := .feeding s.seam_epoch num_images }
    | .feeding e (id :: todo) => some { s.read id with finder := .feeding e todo }
    | .feeding e [] => some { s with finder := .finding e num_images }
    | .finding e (id :: todo) => some { s.read id with finder := .finding e todo }
    | .finding e [] => some { s with last_seen_epoch := e, finder := .waiting }

/-- Where the seam thread is about to skip a successful `wait_all`, no camera has stored a new image
since the last computation read its image. -/
def NothingSkipped (s : SeamState) : Prop :=
  s.finder = .loading → s.seam_epoch = s.last_seen_epoch → ∀ id, (s.prepare id).stores = s.used id

/-- The camera has stored its image of epoch `e`. -/
def Prepare.HasStored (thread : Prepare) (e : ℕ) : Prop :=
  thread.phase = .stored e ∨ thread.last_done_epoch = e

/-- The signal of the camera for epoch `e` has been consumed by a `wait_all`. -/
def Consumed (s : SeamState) (e : ℕ) (id : Fin 4) : Prop :=
  (s.prepare id).last_done_epoch = e ∧ s.done_mask id = false

/-- The image that the seam finder reads next, with the epoch that it is taken for. -/
def FinderPhase.next_image : FinderPhase → Option (ℕ × Fin 4)
  | .finding e (id :: _) => some (e, id)
  | .waiting | .loading | .feeding _ _ | .finding _ [] => none

/-- Whenever the seam finder reads an image for epoch `e` and there is no later epoch yet, the image is
the one of epoch `e`, or there cannot be four more signals of that epoch. -/
def ReadsOwnEpoch (s : SeamState) (action : SeamAction) : Prop :=
  action = .find → ∀ image ∈ s.finder.next_image, s.seam_epoch = image.1 →
    (s.prepare image.2).HasStored image.1 ∨ ∃ other, Consumed s image.1 other

instance (thread : Prepare) (e : ℕ) : Decidable (thread.HasStored e) :=
  inferInstanceAs (Decidable (_ ∨ _))

instance (s : SeamState) (e : ℕ) (id : Fin 4) : Decidable (Consumed s e id) :=
  inferInstanceAs (Decidable (_ ∧ _))

instance (s : SeamState) (action : SeamAction) : Decidable (ReadsOwnEpoch s action) :=
  inferInstanceAs (Decidable (_ → ∀ image ∈ s.finder.next_image, _ → _ ∨ ∃ other, Consumed s image.1 other))

variable {s s' : SeamState} {id : Fin 4}

/-- A camera that has stored its image of epoch `e`, which is the one that was read. -/
def Current (s : SeamState) (e : ℕ) (id : Fin 4) : Prop :=
  (s.prepare id).stores = s.used id ∧ (s.prepare id).HasStored e

/-- What a computation for epoch `e` has read so far stays the newest of its epoch. -/
def Credited (s : SeamState) (e : ℕ) (todo : List (Fin 4)) : Prop :=
  s.seam_epoch = e → (∀ id, id ∉ todo → Current s e id) ∨ ∃ other, Consumed s e other

/-- The epochs that a camera's thread works with. -/
def InOrder (seam_epoch : ℕ) (thread : Prepare) : Prop :=
  thread.last_done_epoch ≤ seam_epoch ∧ match thread.phase with
    | .popped epoch_snapshot => thread.last_done_epoch ≤ epoch_snapshot ∧ epoch_snapshot ≤ seam_epoch
    | .stored epoch_snapshot => thread.last_done_epoch < epoch_snapshot ∧ epoch_snapshot ≤ seam_epoch
    | .top | .deciding => True

theorem InOrder.mono {thread : Prepare} {seam_epoch seam_epoch' : ℕ} (hle : seam_epoch ≤ seam_epoch')
    (horder : InOrder seam_epoch thread) : InOrder seam_epoch' thread := by
  obtain ⟨hdone, hphase⟩ := horder
  refine ⟨hdone.trans hle, ?_⟩
  split
  · rename_i hpopped
    simp only [hpopped] at hphase
    exact ⟨hphase.1, hphase.2.trans hle⟩
  · rename_i hstored
    simp only [hstored] at hphase
    exact ⟨hphase.1, hphase.2.trans hle⟩
  · trivial
  · trivial

structure Inv (s : SeamState) : Prop where
  in_order : ∀ id, InOrder s.seam_epoch (s.prepare id)
  last_seen_le : s.last_seen_epoch ≤ s.seam_epoch
  computing_le : ∀ (e : ℕ) (todo : List (Fin 4)),
    s.finder = .feeding e todo ∨ s.finder = .finding e todo → e ≤ s.seam_epoch
  waiting : s.finder = .waiting → Credited s s.last_seen_epoch []
  loading : s.finder = .loading → s.seam_epoch = s.last_seen_epoch → ∀ id, Current s s.last_seen_epoch id
  finding : ∀ e todo, s.finder = .finding e todo → Credited s e todo

theorem inv_start : Inv seam_start where
  in_order _ := ⟨le_rfl, trivial⟩
  last_seen_le := le_rfl
  computing_le _ _ h := h.elim (fun h => nomatch h) fun h => nomatch h
  waiting _ _ := .inl fun _ _ => ⟨rfl, .inr rfl⟩
  loading h := nomatch h
  finding _ _ h := nomatch h

/-- What a step of a camera's thread leaves as it is. -/
structure PrepareStep (s s' : SeamState) : Prop where
  finder_eq : s'.finder = s.finder
  last_seen_eq : s'.last_seen_epoch = s.last_seen_epoch
  used_eq : s'.used = s.used
  epoch_le : s.seam_epoch ≤ s'.seam_epoch
  in_order : ∀ id, InOrder s'.seam_epoch (s'.prepare id)
  current : ∀ id, s'.seam_epoch = s.seam_epoch → Current s s.seam_epoch id → Current s' s.seam_epoch id
  consumed : ∀ id, s'.seam_epoch = s.seam_epoch → Consumed s s.seam_epoch id → Consumed s' s.seam_epoch id

/-- A step changes one thread, and in the way that it may. -/
theorem PrepareStep.of_thread (hinOrder : ∀ id, InOrder s.seam_epoch (s.prepare id)) {id : Fin 4}
    {thread : Prepare} {done_mask : Fin 4 → Bool} {seam_epoch : ℕ} (hle : s.seam_epoch ≤ seam_epoch)
    (hthread : InOrder seam_epoch thread) (hmask : ∀ other, other ≠ id → done_mask other = s.done_mask other)
    (hcurrent : (s.prepare id).HasStored s.seam_epoch →
      thread.stores = (s.prepare id).stores ∧ thread.HasStored s.seam_epoch)
    (hconsumed : Consumed s s.seam_epoch id →
      thread.last_done_epoch = s.seam_epoch ∧ done_mask id = false) :
    PrepareStep s { s with prepare := Function.update s.prepare id thread, done_mask, seam_epoch } where
  finder_eq := rfl
  last_seen_eq := rfl
  used_eq := rfl
  epoch_le := hle
  in_order other := by
    by_cases hother : other = id
    · subst hother
      simpa using hthread
    · simpa [hother] using (hinOrder other).mono hle
  current other _ hother := by
    by_cases heq : other = id
    · subst heq
      obtain ⟨hstores, hstored⟩ := hcurrent hother.2
      exact ⟨by simpa [hstores] using hother.1, by simpa using hstored⟩
    · exact ⟨by simpa [heq] using hother.1, by simpa [heq] using hother.2⟩
  consumed other _ hother := by
    by_cases heq : other = id
    · subst heq
      simpa [Consumed] using hconsumed hother
    · simpa [Consumed, heq, hmask other heq] using hother

theorem InOrder.after_input (thread : Prepare) {seam_epoch : ℕ} (hdone : thread.last_done_epoch ≤ seam_epoch)
    (id : Fin 4) : InOrder seam_epoch { thread with phase := after_input id } := by
  refine ⟨hdone, ?_⟩
  by_cases hid : id = 0
  · simp only [seam.after_input, if_pos hid]
  · simp only [seam.after_input, if_neg hid]

theorem prepareStep_prepare_step (hinOrder : ∀ id, InOrder s.seam_epoch (s.prepare id)) (id : Fin 4)
    (trigger : Bool) : PrepareStep s (prepare_step s id trigger) := by
  obtain ⟨hdone, hphase⟩ := hinOrder id
  have hkept : Consumed s s.seam_epoch id →
      (s.prepare id).last_done_epoch = s.seam_epoch ∧ s.done_mask id = false := fun h => h
  rw [prepare_step]
  cases hthread : (s.prepare id).phase with
  | top =>
    refine PrepareStep.of_thread hinOrder le_rfl ⟨hdone, hdone, le_rfl⟩ (fun _ _ => rfl) (fun hstored => ?_)
      hkept
    exact ⟨rfl, .inr (hstored.resolve_left (by rw [hthread]; exact nofun))⟩
  | popped epoch_snapshot =>
    simp only [hthread] at hphase
    by_cases hneeded : epoch_snapshot ≠ 0 ∧ epoch_snapshot ≠ (s.prepare id).last_done_epoch
    · simp only [if_pos hneeded]
      refine PrepareStep.of_thread hinOrder le_rfl ⟨hdone, lt_of_le_of_ne hphase.1 hneeded.2.symm, hphase.2⟩
        (fun _ _ => rfl) (fun hstored => ?_) hkept
      -- it has not stored the image of the newest epoch, or there would be no need for one
      have hlast := hstored.resolve_left (by rw [hthread]; exact nofun)
      omega
    · simp only [if_neg hneeded]
      refine PrepareStep.of_thread hinOrder le_rfl (InOrder.after_input _ hdone id) (fun _ _ => rfl)
        (fun hstored => ?_) hkept
      exact ⟨rfl, .inr (hstored.resolve_left (by rw [hthread]; exact nofun))⟩
  | stored epoch_snapshot =>
    simp only [hthread] at hphase
    have hthread' : InOrder s.seam_epoch
        { s.prepare id with phase := after_input id, last_done_epoch := epoch_snapshot } :=
      InOrder.after_input { s.prepare id with last_done_epoch := epoch_snapshot } hphase.2 id
    refine PrepareStep.of_thread hinOrder le_rfl hthread'
      (fun other hother => Function.update_of_ne hother _ _) (fun hstored => ?_) (fun hconsumed => ?_)
    · refine ⟨rfl, .inr ?_⟩
      rcases hstored with hnewest | hlast
      · exact PreparePhase.stored.inj (hthread.symm.trans hnewest)
      · simp only
        omega
    · have := hconsumed.1
      omega
  | deciding =>
    refine PrepareStep.of_thread hinOrder (by split <;> omega) ⟨?_, trivial⟩ (fun _ _ => rfl)
      (fun hstored => ?_) hkept
    · simp only
      split <;> omega
    · exact ⟨rfl, .inr (hstored.resolve_left (by rw [hthread]; exact nofun))⟩

theorem PrepareStep.credited (hstep : PrepareStep s s') {e : ℕ} {todo : List (Fin 4)} (hle : e ≤ s.seam_epoch)
    (hcredited : Credited s e todo) : Credited s' e todo := by
  intro he
  have hsame : s'.seam_epoch = s.seam_epoch := by
    have := hstep.epoch_le
    omega
  obtain rfl : s.seam_epoch = e := hsame.symm.trans he
  rcases hcredited rfl with hcurrent | ⟨other, hconsumed⟩
  · exact .inl fun id hid => hstep.current id hsame (hcurrent id hid)
  · exact .inr ⟨other, hstep.consumed other hsame hconsumed⟩

theorem PrepareStep.inv (hstep : PrepareStep s s') (hinv : Inv s) : Inv s' := by
  obtain ⟨-, hseen, hcomputing, hwaiting, hloading, hfinding⟩ := hinv
  have hle := hstep.epoch_le
  refine ⟨hstep.in_order, ?_, fun e todo h => ?_, fun h => ?_, fun h hsame id => ?_, fun e todo h => ?_⟩
  · rw [hstep.last_seen_eq]
    exact hseen.trans hle
  · rw [hstep.finder_eq] at h
    exact (hcomputing e todo h).trans hle
  · rw [hstep.finder_eq] at h
    rw [hstep.last_seen_eq]
    exact hstep.credited hseen (hwaiting h)
  · rw [hstep.finder_eq] at h
    rw [hstep.last_seen_eq] at hsame ⊢
    have hepoch : s'.seam_epoch = s.seam_epoch := by omega
    have hlast : s.seam_epoch = s.last_seen_epoch := by omega
    rw [← hlast]
    exact hstep.current id hepoch (hlast ▸ hloading h hlast id)
  · rw [hstep.finder_eq] at h
    exact hstep.credited (hcomputing e todo (.inr h)) (hfinding e todo h)

/-- A successful `wait_all`: all four signals are there, so none of the newest epoch was consumed before. -/
theorem Inv.wait_all (hinv : Inv s) (hwaiting : s.finder = .waiting) (hall : ∀ id, s.done_mask id = true) :
    Inv { s with done_mask := fun _ => false, finder := .loading } := by
  refine ⟨hinv.in_order, hinv.last_seen_le, fun e todo h => ?_, nofun, fun _ hsame id => ?_, nofun⟩
  · exact h.elim nofun nofun
  · rcases hinv.waiting hwaiting hsame with hcurrent | ⟨other, -, hclear⟩
    · exact hcurrent id List.not_mem_nil
    · rw [hall other] at hclear
      cases hclear

/-- The seam finder reads one more image. -/
theorem Credited.read {e : ℕ} {id : Fin 4} {todo : List (Fin 4)} (hcredited : Credited s e (id :: todo))
    (hreads : s.seam_epoch = e → (s.prepare id).HasStored e ∨ ∃ other, Consumed s e other) :
    Credited (s.read id) e todo := by
  intro he
  rcases hcredited he with hcurrent | hconsumed
  · rcases hreads he with hstored | hconsumed
    · refine .inl fun other hother => ?_
      by_cases heq : other = id
      · subst heq
        exact ⟨(Function.update_self other (s.prepare other).stores s.used).symm, hstored⟩
      · obtain ⟨hread, hstored⟩ := hcurrent other (by simp [heq, hother])
        exact ⟨hread.trans (Function.update_of_ne heq _ _).symm, hstored⟩
    · exact .inr hconsumed
  · exact .inr hconsumed

/-- The next access of the seam thread, where the seam finder reads images of their own epoch. -/
theorem Inv.find (hinv : Inv s) (hreads : ReadsOwnEpoch s .find) (hstep : seam_step s .find = some s') :
    Inv s' := by
  obtain ⟨hinOrder, hseen, hcomputing, hwaiting, hloading, hfinding⟩ := hinv
  rw [seam_step] at hstep
  split at hstep
  · cases hstep
  · rename_i hfinder
    split at hstep
    · rename_i hskip
      obtain rfl := Option.some.inj hstep
      exact ⟨hinOrder, hseen, fun e todo h => h.elim nofun nofun,
        fun _ hsame => .inl fun id _ => hloading hfinder hsame id, nofun, nofun⟩
    · obtain rfl := Option.some.inj hstep
      refine ⟨hinOrder, hseen, fun e todo h => ?_, nofun, nofun, nofun⟩
      rcases h with h | h
      · cases h
        exact le_rfl
      · cases h
  · rename_i e id todo hfinder
    obtain rfl := Option.some.inj hstep
    refine ⟨hinOrder, hseen, fun e' todo' h => ?_, nofun, nofun, nofun⟩
    rcases h with h | h
    · cases h
      exact hcomputing e (id :: todo) (.inl hfinder)
    · cases h
  · rename_i e hfinder
    obtain rfl := Option.some.inj hstep
    refine ⟨hinOrder, hseen, fun e' todo' h => ?_, nofun, nofun, fun e' todo' h _ => .inl fun id hid => ?_⟩
    · rcases h with h | h
      · cases h
      · cases h
        exact hcomputing e [] (.inl hfinder)
    · cases h
      exact absurd (List.mem_finRange id) hid
  · rename_i e id todo hfinder
    obtain rfl := Option.some.inj hstep
    refine ⟨hinOrder, hseen, fun e' todo' h => ?_, nofun, nofun, fun e' todo' h hsame => ?_⟩
    · rcases h with h | h
      · cases h
      · cases h
        exact hcomputing e (id :: todo) (.inr hfinder)
    · cases h
      exact (hfinding e (id :: todo) hfinder).read (hreads rfl (e, id) (by rw [hfinder]; rfl)) hsame
  · rename_i e hfinder
    obtain rfl := Option.some.inj hstep
    refine ⟨hinOrder, hcomputing e [] (.inr hfinder), fun e' todo' h => h.elim nofun nofun, fun _ hsame => ?_,
      nofun, nofun⟩
    exact hfinding e [] hfinder hsame

theorem inv_step {action : SeamAction} (hinv : Inv s) (hreads : ReadsOwnEpoch s action)
    (hstep : seam_step s action = some s') : Inv s' := by
  cases action with
  | prepare id trigger =>
    obtain rfl := Option.some.inj hstep
    exact (prepareStep_prepare_step hinv.in_order id trigger).inv hinv
  | wait_all =>
    obtain ⟨⟨hwaiting, hall⟩, heq⟩ := Option.ite_none_right_eq_some.mp hstep
    exact Option.some.inj heq ▸ hinv.wait_all hwaiting hall
  | find => exact hinv.find hreads hstep

/-- In every run in which the seam finder reads images of the epoch that it takes them for, a skipped
`wait_all` throws nothing away. -/
theorem nothing_skipped (actions : List SeamAction) (s : SeamState)
    (hmeets : Meets seam_step ReadsOwnEpoch seam_start actions)
    (hrun : run seam_step seam_start actions = some s) : NothingSkipped s := by
  have hinv : Inv s := invariant_of_meets (fun s action s' => inv_step) inv_start hmeets hrun
  intro hloading hsame id
  exact (hinv.loading hloading hsame id).1

/-- The cameras store and signal their images of the newest epoch. -/
def signalled_round : List SeamAction :=
  num_images.flatMap fun id => List.replicate 3 (.prepare id false)

/-- The cameras signal epoch 1, and camera 0 starts epoch 2 between the `wait_all` and the load. -/
def epoch_started_early : List SeamAction :=
  List.replicate 3 (.prepare 0 true) ++ signalled_round ++ [.wait_all, .prepare 0 true, .find]

/-- The images of epoch 2 are there before the seam finder reads them: the `wait_all` that consumes their
signals is skipped, and nothing is lost. -/
def round_read_in_time : List SeamAction :=
  epoch_started_early ++ signalled_round ++ List.replicate 10 .find ++ [.wait_all]

theorem nothing_skipped_in_time : ∃ s, run seam_step seam_start round_read_in_time = some s ∧
    s.finder = .loading ∧ s.seam_epoch = s.last_seen_epoch ∧ NothingSkipped s :=
  ⟨_, rfl, rfl, rfl, nothing_skipped round_read_in_time _ (by decide) rfl⟩

/-- The computation of the images of epoch 1 is taken for that of epoch 2, and the images of epoch 2 for
ones that were used. -/
theorem next_round_is_skipped :
    ¬ ∀ (actions : List SeamAction) (s : SeamState),
      run seam_step seam_start actions = some s → NothingSkipped s := by
  intro hclaim
  have hskipped := hclaim
    (epoch_started_early ++ List.replicate 10 .find ++ signalled_round ++ [.wait_all]) _ rfl rfl rfl 0
  cases hskipped

end k180.seam
