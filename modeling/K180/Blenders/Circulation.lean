import K180.Blenders.Threads

open schedule

namespace k180.blenders

variable {I J F : Type*} [Fintype I] [Fintype J] {s s' : State I J F} {a : Action I J F} {b : ℕ}

/-- How often a blender is in the pool, in the queue or with a thread. -/
def State.places (s : State I J F) (b : ℕ) : ℕ :=
  s.blender_ptr_pool.count b + s.blender_prepare_queue.count b + total (Apply.has b) s.apply +
    total (Prepare.has b) s.prepare

/-- Every blender is at one place. -/
def Held (s : State I J F) : Prop := ∀ b, s.places b = if b < blender_pool_size then 1 else 0

theorem held_init : Held (init : State I J F) := by
  intro b
  have happly : total (Apply.has b) (init : State I J F).apply = 0 := total_eq_zero _ _ fun _ => rfl
  have hprepare : total (Prepare.has b) (init : State I J F).prepare = 0 := total_eq_zero _ _ fun _ => rfl
  rw [State.places, happly, hprepare]
  simp only [init, List.count_nil, Nat.add_zero]
  split
  · rename_i hlt
    exact List.count_eq_one_of_mem List.nodup_range (List.mem_range.mpr hlt)
  · rename_i hnot
    exact List.count_eq_zero_of_not_mem fun hmem => hnot (List.mem_range.mp hmem)

section Update

variable {i : I} {j : J} {t : Apply F} {u : Prepare}

/-- An apply thread may exchange blenders with the pool and the queue. -/
theorem Held.set_apply [DecidableEq I] (hheld : Held s) (happly : s'.apply = Function.update s.apply i t)
    (hprepare : s'.prepare = s.prepare)
    (hsame : ∀ b, s'.blender_ptr_pool.count b + s'.blender_prepare_queue.count b + t.has b =
      s.blender_ptr_pool.count b + s.blender_prepare_queue.count b + (s.apply i).has b) : Held s' := by
  intro b
  have hplaces := hheld b
  have htotal := total_update (Apply.has b) s.apply i t
  have hcount := hsame b
  rw [State.places] at hplaces ⊢
  rw [happly, hprepare]
  omega

theorem Held.set_prepare [DecidableEq J] (hheld : Held s) (hprepare : s'.prepare = Function.update s.prepare j u)
    (happly : s'.apply = s.apply)
    (hsame : ∀ b, s'.blender_ptr_pool.count b + s'.blender_prepare_queue.count b + u.has b =
      s.blender_ptr_pool.count b + s.blender_prepare_queue.count b + (s.prepare j).has b) : Held s' := by
  intro b
  have hplaces := hheld b
  have htotal := total_update (Prepare.has b) s.prepare j u
  have hcount := hsame b
  rw [State.places] at hplaces ⊢
  rw [happly, hprepare]
  omega

end Update

theorem count_cons_has (ptr b : ℕ) (rest : List ℕ) :
    (ptr :: rest).count b = rest.count b + if ptr = b then 1 else 0 := by
  rw [List.count_cons]
  simp only [beq_iff_eq]

theorem count_concat_has (ptr b : ℕ) (rest : List ℕ) :
    (rest ++ [ptr]).count b = rest.count b + if ptr = b then 1 else 0 := by
  rw [List.count_append, count_cons_has, List.count_nil, Nat.zero_add]

theorem notified_has (b : ℕ) (t : Prepare) : t.notified.has b = t.has b := by
  cases t <;> rfl

variable [DecidableEq I] [DecidableEq J]

theorem held_step (hheld : Held s) (hstep : step s a = some s') : Held s' := by
  cases step_cases hstep with
  | skip | stop_waiting | stop => exact hheld
  | take i cur ptr rest htop hpool =>
    refine hheld.set_apply (i := i) rfl rfl fun b => ?_
    dsimp only [State.set_apply]
    rw [htop, hpool, count_cons_has]
    simp only [Apply.has]
    omega
  | feed i ptr cur k hfeeding hk =>
    refine hheld.set_apply (i := i) rfl rfl fun b => ?_
    rw [hfeeding]
    rfl
  | blend i ptr cur k hfeeding hk =>
    refine hheld.set_apply (i := i) rfl rfl fun b => ?_
    rw [hfeeding]
    rfl
  | push i ptr hblended hmutex =>
    refine hheld.set_apply (i := i) rfl rfl fun b => ?_
    dsimp only [State.set_apply]
    rw [hblended, count_concat_has]
    simp only [Apply.has]
    omega
  | notify_none i hpushed hnone =>
    refine hheld.set_apply (i := i) rfl rfl fun b => ?_
    rw [hpushed]
    rfl
  | notify_one i j hpushed hblocked =>
    have hmid : Held (s.set_apply i .top) := by
      refine hheld.set_apply (i := i) rfl rfl fun b => ?_
      rw [hpushed]
      rfl
    refine hmid.set_prepare (j := j) rfl rfl fun b => ?_
    have hsame : (s.set_apply i .top).prepare j = .blocked := hblocked
    rw [hsame]
    rfl
  | loop j htop =>
    refine hheld.set_prepare (j := j) rfl rfl fun b => ?_
    rw [htop]
    cases s.running <;> rfl
  | refuse j hlocking =>
    refine hheld.set_prepare (j := j) rfl rfl fun b => ?_
    rw [hlocking]
    rfl
  | grant j hlocking =>
    refine hheld.set_prepare (j := j) rfl rfl fun b => ?_
    rw [hlocking]
    rfl
  | wait j hrefused =>
    refine hheld.set_prepare (j := j) rfl rfl fun b => ?_
    rw [hrefused]
    rfl
  | wake j hblocked =>
    refine hheld.set_prepare (j := j) rfl rfl fun b => ?_
    rw [hblocked]
    rfl
  | empty j hgranted =>
    refine hheld.set_prepare (j := j) rfl rfl fun b => ?_
    rw [hgranted]
    rfl
  | pop j ptr rest hgranted hkeep hqueue =>
    refine hheld.set_prepare (j := j) rfl rfl fun b => ?_
    dsimp only [State.set_prepare]
    rw [hgranted, hqueue, count_cons_has]
    simp only [Prepare.has]
    omega
  | exit j hgranted =>
    refine hheld.set_prepare (j := j) rfl rfl fun b => ?_
    rw [hgranted]
    rfl
  | prepare j ptr hpreparing =>
    refine hheld.set_prepare (j := j) rfl rfl fun b => ?_
    rw [hpreparing]
    rfl
  | give_back j ptr hprepared =>
    refine hheld.set_prepare (j := j) rfl rfl fun b => ?_
    dsimp only [State.set_prepare]
    rw [hprepared, count_concat_has]
    simp only [Prepare.has]
    omega
  | notify_all =>
    intro b
    have hplaces := hheld b
    rw [State.places] at hplaces ⊢
    have hsame : total (Prepare.has b) (fun j => (s.prepare j).notified) = total (Prepare.has b) s.prepare := by
      simp only [total, notified_has]
    dsimp only
    rw [hsame]
    exact hplaces

section Only

variable {i : I} {j : J} {ptr : ℕ}

omit [DecidableEq I] [DecidableEq J]

theorem Held.places_le (hheld : Held s) (b : ℕ) : s.places b ≤ 1 := by
  rw [hheld b]
  split <;> omega

/-- A blender that an apply thread has is nowhere else. -/
theorem Held.only_apply (hheld : Held s) (hhas : (s.apply i).has b = 1) :
    b ∉ s.blender_ptr_pool ∧ (∀ i', i' ≠ i → (s.apply i').has b = 0) ∧ ∀ j, (s.prepare j).has b = 0 := by
  have hplaces := hheld.places_le b
  have hown := le_total (Apply.has b) s.apply i
  rw [State.places] at hplaces
  refine ⟨fun hmem => ?_, fun i' hne => ?_, fun j => ?_⟩
  · have hcount := List.count_pos_iff.mpr hmem
    omega
  · have hother := add_le_total (Apply.has b) s.apply hne
    omega
  · have hother := le_total (Prepare.has b) s.prepare j
    omega

theorem Held.only_prepare (hheld : Held s) (hhas : (s.prepare j).has b = 1) :
    b ∉ s.blender_ptr_pool ∧ (∀ i, (s.apply i).has b = 0) ∧ ∀ j', j' ≠ j → (s.prepare j').has b = 0 := by
  have hplaces := hheld.places_le b
  have hown := le_total (Prepare.has b) s.prepare j
  rw [State.places] at hplaces
  refine ⟨fun hmem => ?_, fun i => ?_, fun j' hne => ?_⟩
  · have hcount := List.count_pos_iff.mpr hmem
    omega
  · have hother := le_total (Apply.has b) s.apply i
    omega
  · have hother := add_le_total (Prepare.has b) s.prepare hne
    omega

theorem Apply.has_self (ptr : ℕ) (cur : F) (k : ℕ) : (Apply.feeding ptr cur k).has ptr = 1 := if_pos rfl

theorem Apply.ne_of_has {t : Apply F} {cur : F} {k : ℕ} (hzero : t.has b = 0) (h : t = .feeding ptr cur k) :
    ptr ≠ b := by
  subst h
  intro heq
  rw [heq, Apply.has_self] at hzero
  cases hzero

theorem Prepare.has_preparing (ptr : ℕ) : (Prepare.preparing ptr).has ptr = 1 := if_pos rfl

theorem Prepare.ne_of_has {t : Prepare} (hzero : t.has b = 0) (h : t = .prepared ptr) : ptr ≠ b := by
  subst h
  exact fun heq => absurd ((if_pos heq).symm.trans hzero) Nat.one_ne_zero

end Only

/-- The images of the first `k` cameras. -/
def images (cur : F) (k : ℕ) : List (F × ℕ) := (List.range k).map fun i => (cur, i)

theorem images_succ (cur : F) (k : ℕ) : images cur (k + 1) = images cur k ++ [(cur, k)] := by
  rw [images, List.range_succ, List.map_append, List.map_singleton, images]

/-- The blenders of the pool are empty, those of the apply threads have been fed the frames of this turn only, and
so have been those of the panoramas. -/
structure Fresh (s : State I J F) : Prop where
  pool : ∀ b ∈ s.blender_ptr_pool, s.fed b = []
  feeding : ∀ i ptr cur k, s.apply i = .feeding ptr cur k → k ≤ 4 ∧ s.fed ptr = images cur k
  prepared : ∀ j ptr, s.prepare j = .prepared ptr → s.fed ptr = []
  panoramas : ∀ p ∈ s.panoramas, p.2 = images p.1 4

omit [Fintype I] [Fintype J] [DecidableEq I] [DecidableEq J] in
theorem fresh_init : Fresh (init : State I J F) where
  pool _ _ := rfl
  feeding _ _ _ _ h := nomatch h
  prepared _ _ h := nomatch h
  panoramas _ h := nomatch h

section Update

variable {i : I} {j : J} {t : Apply F} {u : Prepare}

omit [Fintype I] [Fintype J] [DecidableEq J] in
/-- An apply thread moves without feeding: what it goes on with must be fresh. -/
theorem Fresh.set_apply (hfresh : Fresh s) (happly : s'.apply = Function.update s.apply i t)
    (hprepare : s'.prepare = s.prepare) (hfed : s'.fed = s.fed)
    (hpool : ∀ b ∈ s'.blender_ptr_pool, b ∈ s.blender_ptr_pool)
    (hnext : ∀ ptr cur k, t = .feeding ptr cur k → k ≤ 4 ∧ s.fed ptr = images cur k)
    (hpanoramas : ∀ p ∈ s'.panoramas, p ∈ s.panoramas ∨ p.2 = images p.1 4) : Fresh s' := by
  refine ⟨fun b hb => ?_, fun i' ptr cur k h => ?_, fun j ptr h => ?_, fun p hp => ?_⟩
  · rw [hfed]
    exact hfresh.pool b (hpool b hb)
  · rw [hfed]
    rw [happly] at h
    by_cases hi : i' = i
    · subst hi
      rw [Function.update_self] at h
      exact hnext ptr cur k h
    · rw [Function.update_of_ne hi] at h
      exact hfresh.feeding i' ptr cur k h
  · rw [hprepare] at h
    rw [hfed]
    exact hfresh.prepared j ptr h
  · obtain hold | hnew := hpanoramas p hp
    · exact hfresh.panoramas p hold
    · exact hnew

omit [Fintype I] [Fintype J] [DecidableEq I] in
/-- A prepare thread moves to where it has no prepared blender. -/
theorem Fresh.set_prepare (hfresh : Fresh s) (hprepare : s'.prepare = Function.update s.prepare j u)
    (happly : s'.apply = s.apply) (hfed : s'.fed = s.fed)
    (hpool : ∀ b ∈ s'.blender_ptr_pool, s.fed b = []) (hnext : ∀ ptr, u ≠ .prepared ptr)
    (hpanoramas : s'.panoramas = s.panoramas) : Fresh s' := by
  refine ⟨fun b hb => ?_, fun i ptr cur k h => ?_, fun j' ptr h => ?_, fun p hp => ?_⟩
  · rw [hfed]
    exact hpool b hb
  · rw [happly] at h
    rw [hfed]
    exact hfresh.feeding i ptr cur k h
  · rw [hfed]
    rw [hprepare] at h
    by_cases hj : j' = j
    · subst hj
      rw [Function.update_self] at h
      exact absurd h (hnext ptr)
    · rw [Function.update_of_ne hj] at h
      exact hfresh.prepared j' ptr h
  · rw [hpanoramas] at hp
    exact hfresh.panoramas p hp

end Update

theorem fresh_step (hheld : Held s) (hfresh : Fresh s) (hstep : step s a = some s') : Fresh s' := by
  cases step_cases hstep with
  | skip => exact hfresh
  | stop_waiting | stop => exact ⟨hfresh.pool, hfresh.feeding, hfresh.prepared, hfresh.panoramas⟩
  | take i cur ptr rest htop hpool =>
    refine hfresh.set_apply rfl rfl rfl (fun b hb => ?_) (fun ptr' cur' k h => ?_) fun p hp => .inl hp
    · rw [hpool]
      exact List.mem_cons_of_mem _ hb
    · obtain ⟨rfl, rfl, rfl⟩ := Apply.feeding.inj h
      refine ⟨Nat.zero_le 4, hfresh.pool ptr ?_⟩
      rw [hpool]
      exact List.mem_cons_self
  | feed i ptr cur k hfeeding hk =>
    have hhas : (s.apply i).has ptr = 1 := by rw [hfeeding, Apply.has_self]
    obtain ⟨hpool, hothers, hprepare⟩ := hheld.only_apply hhas
    refine ⟨fun b hb => ?_, fun i' ptr' cur' k' h => ?_, fun j ptr' h => ?_, hfresh.panoramas⟩
    · have hne : b ≠ ptr := fun h => hpool (h ▸ hb)
      dsimp only [State.set_apply]
      rw [Function.update_of_ne hne]
      exact hfresh.pool b hb
    · dsimp only [State.set_apply] at h ⊢
      by_cases hi : i' = i
      · subst hi
        rw [Function.update_self] at h
        obtain ⟨rfl, rfl, rfl⟩ := Apply.feeding.inj h
        rw [Function.update_self, images_succ, (hfresh.feeding i' ptr cur k hfeeding).2]
        exact ⟨hk, rfl⟩
      · rw [Function.update_of_ne hi] at h
        rw [Function.update_of_ne (Apply.ne_of_has (hothers i' hi) h)]
        exact hfresh.feeding i' ptr' cur' k' h
    · dsimp only [State.set_apply] at h ⊢
      rw [Function.update_of_ne (Prepare.ne_of_has (hprepare j) h)]
      exact hfresh.prepared j ptr' h
  | blend i ptr cur k hfeeding hk =>
    obtain ⟨hle, hfed⟩ := hfresh.feeding i ptr cur k hfeeding
    refine hfresh.set_apply rfl rfl rfl (fun b hb => hb) (fun ptr' cur' k' h => nomatch h) fun p hp => ?_
    obtain hold | hnew := List.mem_append.mp hp
    · exact .inl hold
    · rw [List.mem_singleton.mp hnew]
      dsimp only
      rw [hfed, Nat.le_antisymm hle hk]
      exact .inr rfl
  | push i ptr hblended hmutex =>
    exact hfresh.set_apply rfl rfl rfl (fun b hb => hb) (fun _ _ _ h => nomatch h) fun p hp => .inl hp
  | notify_none i hpushed hnone =>
    exact hfresh.set_apply rfl rfl rfl (fun b hb => hb) (fun _ _ _ h => nomatch h) fun p hp => .inl hp
  | notify_one i j hpushed hblocked =>
    have hmid : Fresh (s.set_apply i .top) :=
      hfresh.set_apply rfl rfl rfl (fun b hb => hb) (fun _ _ _ h => nomatch h) fun p hp => .inl hp
    exact hmid.set_prepare rfl rfl rfl hmid.pool (fun _ h => nomatch h) rfl
  | loop j htop =>
    refine hfresh.set_prepare rfl rfl rfl hfresh.pool (fun ptr h => ?_) rfl
    split at h <;> cases h
  | refuse j | grant j | wait j | wake j | empty j | pop j | exit j =>
    exact hfresh.set_prepare rfl rfl rfl hfresh.pool (fun _ h => nomatch h) rfl
  | prepare j ptr hpreparing =>
    have hhas : (s.prepare j).has ptr = 1 := by rw [hpreparing, Prepare.has_preparing]
    obtain ⟨hpool, happly, hothers⟩ := hheld.only_prepare hhas
    refine ⟨fun b hb => ?_, fun i ptr' cur k h => ?_, fun j' ptr' h => ?_, hfresh.panoramas⟩
    · have hne : b ≠ ptr := fun h => hpool (h ▸ hb)
      dsimp only [State.set_prepare]
      rw [Function.update_of_ne hne]
      exact hfresh.pool b hb
    · dsimp only [State.set_prepare] at h ⊢
      rw [Function.update_of_ne (Apply.ne_of_has (happly i) h)]
      exact hfresh.feeding i ptr' cur k h
    · dsimp only [State.set_prepare] at h ⊢
      by_cases hj : j' = j
      · subst hj
        rw [Function.update_self, Prepare.prepared.injEq] at h
        rw [← h, Function.update_self]
      · rw [Function.update_of_ne hj] at h
        rw [Function.update_of_ne (Prepare.ne_of_has (hothers j' hj) h)]
        exact hfresh.prepared j' ptr' h
  | give_back j ptr hprepared =>
    refine hfresh.set_prepare rfl rfl rfl (fun b hb => ?_) (fun _ h => nomatch h) rfl
    obtain hold | hnew := List.mem_append.mp hb
    · exact hfresh.pool b hold
    · rw [List.mem_singleton.mp hnew]
      exact hfresh.prepared j ptr hprepared
  | notify_all =>
    refine ⟨hfresh.pool, hfresh.feeding, fun j ptr h => ?_, hfresh.panoramas⟩
    refine hfresh.prepared j ptr ?_
    dsimp only at h
    cases hprepare : s.prepare j <;> rw [hprepare] at h <;> cases h
    rfl

end k180.blenders
