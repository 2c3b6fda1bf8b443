import K180.Schedule.Monitor

open schedule

namespace k180.seam

/-- The two things that are kept twice: `mask_warped_g` with `mask_front`, `gain_shared` with
`gain_front`. -/
inductive Pair where
  | mask
  | gain
deriving DecidableEq

/-- A front index that an iteration of `thread_blender_apply` has loaded, to read that buffer; `flips` is
how many there had been before. -/
structure Read where
  pair : Pair
  index : ℕ
  flips : ℕ
deriving DecidableEq

/-- Where `thread_seam_find` is: about to load a front index, with the index of the back buffer, while it
overwrites that, or before it counts `gain_epoch`. -/
inductive UpdatePhase where
  | pick (p : Pair)
  | picked (p : Pair) (back : ℕ)
  | overwriting (p : Pair) (back : ℕ)
  | flipped_gain
deriving DecidableEq

/-- Where an iteration of `thread_blender_apply` is: before its loads, between them, before it enqueues
the gain kernels, and before it feeds the blender. -/
inductive ApplyPhase where
  | idle
  | mask_loaded (mask : Read)
  | loaded (mask gain : Read)
  | gain_enqueued (mask : Read)
deriving DecidableEq

/-- Both threads, and the reads of the kernels in the stream, the next to complete first. -/
structure BufferState where
  front : Pair → ℕ
  flips : Pair → ℕ
  gain_epoch : ℕ
  update : UpdatePhase
  apply : ApplyPhase
  stream : List Read

def buffer_start : BufferState where
  front _ := 0
  flips _ := 0
  gain_epoch := 0
  update := .pick .gain
  apply := .idle
  stream := []

/-- The next access of either thread, or a kernel that completes. -/
inductive BufferAction where
  | update
  | apply
  | complete
deriving DecidableEq

def BufferState.load_front (s : BufferState) (p : Pair) : Read := ⟨p, s.front p, s.flips p⟩

/-- The back buffer becomes the front one. -/
def BufferState.flip (s : BufferState) (p : Pair) (back : ℕ) : BufferState :=
  { s with
    front := Function.update s.front p back
    flips := Function.update s.flips p (s.flips p + 1)
    update := match p with
      | .gain => .flipped_gain
      | .mask => .pick .gain }

def update_step (s : BufferState) : BufferState :=
  match s.update with
  | .pick p => { s with update := .picked p (1 - s.front p) }
  | .picked p back => { s with update := .overwriting p back }
  | .overwriting p back => s.flip p back
  | .flipped_gain => { s with gain_epoch := s.gain_epoch + 1, update := .pick .mask }

/-- The first iteration waits for a first set of gains. -/
def apply_step (s : BufferState) : Option BufferState :=
  match s.apply with
  | .idle =>
    if s.gain_epoch = 0 then none else some { s with apply := .mask_loaded (s.load_front .mask) }
  | .mask_loaded mask => some { s with apply := .loaded mask (s.load_front .gain) }
  | .loaded mask gain => some { s with apply := .gain_enqueued mask, stream := s.stream ++ [gain] }
  | .gain_enqueued mask => some { s with apply := .idle, stream := s.stream ++ [mask] }

def buffer_step (s : BufferState) : BufferAction → Option BufferState
  | .update => some (update_step s)
  | .apply => apply_step s
  | .complete =>
    match s.stream with
    | [] => none
    | _ :: rest => some { s with stream := rest }

/-- What an iteration has loaded and not enqueued. -/
def ApplyPhase.reads : ApplyPhase → List Read
  | .idle => []
  | .mask_loaded mask => [mask]
  | .loaded mask gain => [mask, gain]
  | .gain_enqueued mask => [mask]

/-- The buffers that iterations have loaded the index of and not finished reading. -/
def BufferState.reads (s : BufferState) : List Read := s.apply.reads ++ s.stream

/-- No buffer is overwritten that an iteration has still to finish reading. -/
def NotOverwritten (s : BufferState) : Prop :=
  ∀ p back, s.update = .overwriting p back → ∀ read ∈ s.reads, read.pair = p → read.index ≠ back

/-- The pair whose back buffer is overwritten next. -/
def UpdatePhase.about_to_overwrite : UpdatePhase → Option Pair
  | .picked p _ => some p
  | .pick _ | .overwriting _ _ | .flipped_gain => none

/-- Where an update is about to overwrite a buffer, all iterations that loaded the front index of its pair
before the last flip have finished. -/
def ReadersCaughtUp (s : BufferState) (action : BufferAction) : Prop :=
  action = .update → ∀ p ∈ s.update.about_to_overwrite, ∀ read ∈ s.reads, read.pair = p →
    read.flips = s.flips p

variable {s s' : BufferState}

/-- The front and back indices, and how they follow from the flips since a load. -/
structure Indexed (s : BufferState) : Prop where
  front_le : ∀ p, s.front p ≤ 1
  picked : ∀ p back, s.update = .picked p back → back = 1 - s.front p
  overwriting : ∀ p back, s.update = .overwriting p back → back = 1 - s.front p ∧
    ∀ read ∈ s.reads, read.pair = p → read.flips = s.flips p
  recent : ∀ read ∈ s.reads, read.flips = s.flips read.pair ∧ read.index = s.front read.pair ∨
    read.flips + 1 = s.flips read.pair ∧ read.index = 1 - s.front read.pair

theorem indexed_start : Indexed buffer_start where
  front_le _ := Nat.zero_le 1
  picked _ _ := nofun
  overwriting _ _ := nofun
  recent _ h := nomatch h

/-- Fewer reads, or one of the newest buffer, keep what is known. -/
theorem Indexed.of_reads (hindexed : Indexed s) {apply : ApplyPhase} {stream : List Read}
    (hreads : ∀ read ∈ apply.reads ++ stream, read ∈ s.reads ∨ read = s.load_front read.pair) :
    Indexed { s with apply, stream } where
  front_le := hindexed.front_le
  picked := hindexed.picked
  overwriting p back h := by
    obtain ⟨hback, hflips⟩ := hindexed.overwriting p back h
    refine ⟨hback, fun read hread hpair => ?_⟩
    rcases hreads read hread with hold | hnew
    · exact hflips read hold hpair
    · rw [hnew, ← hpair]
      rfl
  recent read hread := by
    rcases hreads read hread with hold | hnew
    · exact hindexed.recent read hold
    · rw [hnew]
      exact .inl ⟨rfl, rfl⟩

theorem Indexed.apply_step (hindexed : Indexed s) (hstep : apply_step s = some s') : Indexed s' := by
  rw [seam.apply_step] at hstep
  split at hstep
  · rename_i happly
    split at hstep
    · cases hstep
    · obtain rfl := Option.some.inj hstep
      refine hindexed.of_reads fun read hread => ?_
      rcases List.mem_cons.mp hread with rfl | hrest
      · exact .inr rfl
      · exact .inl (List.mem_append_right _ hrest)
  · rename_i mask happly
    obtain rfl := Option.some.inj hstep
    refine hindexed.of_reads fun read hread => ?_
    simp only [ApplyPhase.reads, BufferState.reads, happly, List.cons_append, List.nil_append, List.mem_cons]
      at hread ⊢
    rcases hread with rfl | rfl | hrest
    · exact .inl (.inl rfl)
    · exact .inr rfl
    · exact .inl (.inr hrest)
  · rename_i mask gain happly
    obtain rfl := Option.some.inj hstep
    refine hindexed.of_reads fun read hread => .inl ?_
    simp only [ApplyPhase.reads, BufferState.reads, happly, List.mem_append, List.mem_cons,
      List.not_mem_nil, or_false] at hread ⊢
    tauto
  · rename_i mask happly
    obtain rfl := Option.some.inj hstep
    refine hindexed.of_reads fun read hread => .inl ?_
    simp only [ApplyPhase.reads, BufferState.reads, happly, List.mem_append, List.mem_cons,
      List.not_mem_nil, or_false, List.nil_append] at hread ⊢
    tauto

theorem Indexed.flip (hindexed : Indexed s) {p : Pair} {back : ℕ} (hover : s.update = .overwriting p back) :
    Indexed (s.flip p back) := by
  obtain ⟨hback, hflips⟩ := hindexed.overwriting p back hover
  have hfront := hindexed.front_le p
  refine ⟨fun q => ?_, fun q back' h => ?_, fun q back' h => ?_, fun read hread => ?_⟩
  · by_cases hq : q = p
    · subst hq
      simp only [BufferState.flip, Function.update_self]
      omega
    · simpa only [BufferState.flip, Function.update_of_ne hq] using hindexed.front_le q
  · cases p <;> cases h
  · cases p <;> cases h
  · have hrecent := hindexed.recent read hread
    by_cases hq : read.pair = p
    · have hnow := hflips read hread hq
      simp only [BufferState.flip, hq, Function.update_self] at hrecent ⊢
      omega
    · simpa only [BufferState.flip, Function.update_of_ne hq] using hrecent

theorem indexed_step (action : BufferAction) (hindexed : Indexed s) (hcaught : ReadersCaughtUp s action)
    (hstep : buffer_step s action = some s') : Indexed s' := by
  cases action with
  | apply => exact hindexed.apply_step hstep
  | complete =>
    rw [buffer_step] at hstep
    split at hstep
    · cases hstep
    · rename_i first rest hstream
      obtain rfl := Option.some.inj hstep
      refine hindexed.of_reads fun read hread => .inl ?_
      simp only [BufferState.reads, hstream, List.mem_append, List.mem_cons] at hread ⊢
      tauto
  | update =>
    obtain rfl := Option.some.inj hstep
    rw [update_step]
    split
    · rename_i p hpick
      refine ⟨hindexed.front_le, fun q back h => ?_, fun q back => nofun, hindexed.recent⟩
      cases h
      rfl
    · rename_i p back hpicked
      refine ⟨hindexed.front_le, fun q back => nofun, fun q back' h => ?_, hindexed.recent⟩
      cases h
      exact ⟨hindexed.picked p back hpicked, hcaught rfl p (by rw [hpicked]; rfl)⟩
    · rename_i p back hover
      exact hindexed.flip hover
    · exact ⟨hindexed.front_le, fun q back => nofun, fun q back => nofun, hindexed.recent⟩

theorem Indexed.notOverwritten (hindexed : Indexed s) : NotOverwritten s := by
  rintro p back hover read hread rfl
  obtain ⟨hback, hflips⟩ := hindexed.overwriting read.pair back hover
  have hnow := hflips read hread rfl
  have hfront := hindexed.front_le read.pair
  have hrecent := hindexed.recent read hread
  omega

/-- A buffer that is about to be overwritten is the one that was loaded before the last flip. -/
theorem Indexed.caught_up (hindexed : Indexed s) {action : BufferAction}
    (hstep : buffer_step s action = some s') (hgood : NotOverwritten s') : ReadersCaughtUp s action := by
  rintro rfl p hp read hread rfl
  obtain rfl := Option.some.inj hstep
  cases hupdate : s.update with
  | picked q back =>
    rw [hupdate] at hp
    obtain rfl : q = read.pair := Option.some.inj hp
    have hover : (update_step s).update = .overwriting read.pair back := by
      rw [update_step, hupdate]
    have hreads : (update_step s).reads = s.reads := by
      rw [update_step, hupdate]
      rfl
    have hback := hindexed.picked read.pair back hupdate
    have hne := hgood read.pair back hover read (hreads ▸ hread) rfl
    have hrecent := hindexed.recent read hread
    omega
  | pick q | overwriting q back | flipped_gain =>
    rw [hupdate] at hp
    cases hp

/-- A run overwrites no buffer that is still to be read if and only if each overwriting starts after the
iterations that loaded the front index before the last flip of the pair have finished. -/
theorem not_overwritten_iff (actions : List BufferAction) (s : BufferState)
    (hrun : run buffer_step buffer_start actions = some s) :
    GoodAlong buffer_step NotOverwritten buffer_start actions ↔
      Meets buffer_step ReadersCaughtUp buffer_start actions :=
  (meets_iff_goodAlong (fun _ action _ hindexed hcaught hstep => indexed_step action hindexed hcaught hstep)
    (fun _ action _ hindexed hstep =>
      ⟨fun hcaught => (indexed_step action hindexed hcaught hstep).notOverwritten,
        fun hgood => hindexed.caught_up hstep hgood⟩) indexed_start hrun).symm

/-- The first set of gains, and an iteration that has loaded both indices. -/
def loaded_iteration : List BufferAction := List.replicate 4 .update ++ [.apply, .apply]

instance (s : BufferState) (action : BufferAction) : Decidable (ReadersCaughtUp s action) :=
  inferInstanceAs (Decidable (_ → ∀ p ∈ s.update.about_to_overwrite, ∀ read ∈ s.reads, _ → _))

/-- The iteration finishes while the masks are updated once. -/
theorem not_overwritten_one_flip : ∃ s,
    run buffer_step buffer_start (loaded_iteration ++ [.update, .update, .apply, .apply, .complete, .complete]) =
      some s ∧
    GoodAlong buffer_step NotOverwritten buffer_start
      (loaded_iteration ++ [.update, .update, .apply, .apply, .complete, .complete]) :=
  ⟨_, rfl, (not_overwritten_iff _ _ rfl).mpr (by decide)⟩

/-- The masks are updated twice before the iteration enqueues the kernels that read them. -/
theorem mask_overwritten_while_loaded :
    ¬ ∀ (actions : List BufferAction) (s : BufferState),
      run buffer_step buffer_start actions = some s → NotOverwritten s := by
  intro hclaim
  exact hclaim (loaded_iteration ++ List.replicate 9 .update) _ rfl .mask 0 rfl ⟨.mask, 0, 0⟩
    List.mem_cons_self rfl rfl

end k180.seam
