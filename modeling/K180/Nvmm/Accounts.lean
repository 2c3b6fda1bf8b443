import K180.Nvmm.Caches

open ledger schedule

namespace k180.nvmm

variable {s s' : State} {d d' : Driver} {o : Multiset Resource} {key : Thread × ℕ}

theorem Driver.register_image_none {surf : ℕ} {io : EglIo} (h : Accounts d.ledger o)
    (hregister : d.register_image surf io = (d', none)) : Accounts d'.ledger o := by
  rw [register_image] at hregister
  split at hregister
  · obtain rfl := (Prod.mk.inj hregister).1
    exact h
  have hunmapped := (h.acquire (.mapping surf)).release
  dsimp only at hregister
  split at hregister
  · obtain rfl := (Prod.mk.inj hregister).1
    exact hunmapped
  · split at hregister
    · obtain rfl := (Prod.mk.inj hregister).1
      exact hunmapped
    · cases (Prod.mk.inj hregister).2

theorem Driver.register_image_some {surf egl res : ℕ} {io : EglIo} (h : Accounts d.ledger o)
    (hregister : d.register_image surf io = (d', some (egl, res))) :
    Accounts d'.ledger (.registration res ::ₘ .mapping surf ::ₘ o) := by
  rw [register_image] at hregister
  split at hregister
  · cases (Prod.mk.inj hregister).2
  dsimp only at hregister
  split at hregister
  · cases (Prod.mk.inj hregister).2
  · split at hregister
    · cases (Prod.mk.inj hregister).2
    · obtain ⟨rfl, hsome⟩ := Prod.mk.inj hregister
      obtain ⟨-, rfl⟩ := Prod.mk.inj (Option.some.inj hsome)
      exact (h.acquire (.mapping surf)).acquire (.registration _)

/-- What there is a reference to, and what has been lost. -/
def State.owned (s : State) : Multiset Resource :=
  cached (holds InCuCacheEntry.resources) s.tl_in_cu_cache +
    (cached (holds NvmmCudaCacheEntry.resources) s.tl_nvmm_cache + ↑s.lost)

/-- The driver holds just that for the program. -/
def State.Balanced (s : State) : Prop := Accounts s.driver.ledger s.owned

/-- What is owned beside an entry of an input cache. -/
def State.in_rest (s : State) (key : Thread × ℕ) : Multiset Resource :=
  cached (holds InCuCacheEntry.resources) (s.tl_in_cu_cache.erase key) +
    (cached (holds NvmmCudaCacheEntry.resources) s.tl_nvmm_cache + ↑s.lost)

/-- What is owned beside an entry of an output cache. -/
def State.out_rest (s : State) (key : Thread × ℕ) : Multiset Resource :=
  cached (holds NvmmCudaCacheEntry.resources) (s.tl_nvmm_cache.erase key) +
    (cached (holds InCuCacheEntry.resources) s.tl_in_cu_cache + ↑s.lost)

theorem holds_lookup {E : Type*} (resources : E → List Resource) (c : AList fun _ : Thread × ℕ => Option E)
    (key : Thread × ℕ) :
    ↑(holds resources (c.lookup key).join) + cached (holds resources) (c.erase key) = cached (holds resources) c := by
  cases hlookup : c.lookup key with
  | none =>
    rw [cached_erase_of_none hlookup]
    exact zero_add _
  | some entry => exact cached_erase_of_some hlookup

theorem owned_eq_in (s : State) (key : Thread × ℕ) :
    s.owned = ↑(holds InCuCacheEntry.resources (s.in_entry key)) + s.in_rest key := by
  rw [State.owned, ← holds_lookup _ s.tl_in_cu_cache key, add_assoc]
  rfl

theorem owned_eq_out (s : State) (key : Thread × ℕ) :
    s.owned = ↑(holds NvmmCudaCacheEntry.resources (s.out_entry key)) + s.out_rest key := by
  rw [State.owned, ← holds_lookup _ s.tl_nvmm_cache key, add_left_comm, add_assoc]
  rfl

theorem owned_set_in (s : State) (key : Thread × ℕ) (entry : Option InCuCacheEntry) :
    (s.set_in key entry).owned = ↑(holds InCuCacheEntry.resources entry) + s.in_rest key := by
  rw [State.owned, State.set_in, cached_insert, add_assoc]
  rfl

theorem owned_set_out (s : State) (key : Thread × ℕ) (entry : Option NvmmCudaCacheEntry) :
    (s.set_out key entry).owned = ↑(holds NvmmCudaCacheEntry.resources entry) + s.out_rest key := by
  rw [State.owned, State.set_out, cached_insert, add_left_comm, add_assoc]
  rfl

@[simp] theorem in_rest_set_in (s : State) (key : Thread × ℕ) (entry : Option InCuCacheEntry) :
    (s.set_in key entry).in_rest key = s.in_rest key := by
  rw [State.in_rest, State.set_in, cached_erase_insert]
  rfl

@[simp] theorem in_entry_set_in (s : State) (key : Thread × ℕ) (entry : Option InCuCacheEntry) :
    (s.set_in key entry).in_entry key = entry := by
  rw [State.in_entry, State.set_in, AList.lookup_insert, Option.join_some]

@[simp] theorem out_entry_set_out (s : State) (key : Thread × ℕ) (entry : Option NvmmCudaCacheEntry) :
    (s.set_out key entry).out_entry key = entry := by
  rw [State.out_entry, State.set_out, AList.lookup_insert, Option.join_some]

/-- An entry is in the cache, and its resources are held. -/
theorem State.Balanced.in_entry_live {e : InCuCacheEntry} (h : s.Balanced) (he : s.in_entry key = some e) :
    .registration e.res ∈ s.driver.ledger.live := by
  rw [h.live, owned_eq_in s key, he]
  exact Multiset.mem_add.mpr (.inl (Multiset.mem_coe.mpr (List.mem_cons_self ..)))

theorem State.Balanced.out_entry_live {e : NvmmCudaCacheEntry} (h : s.Balanced) (he : s.out_entry key = some e) :
    .registration e.cuRes ∈ s.driver.ledger.live := by
  rw [h.live, owned_eq_out s key, he]
  exact Multiset.mem_add.mpr (.inl (Multiset.mem_coe.mpr (List.mem_cons_self ..)))

/-! ### The input caches -/

theorem State.Balanced.clear (h : s.Balanced) (t : Thread) : (clear_input_cures_cache s t).Balanced := by
  have hsplit := cached_restrict (holds InCuCacheEntry.resources) (fun key => decide (key.1 = t)) s.tl_in_cu_cache
  refine Accounts.release_all ?_
  rw [State.owned, clear_input_cures_cache, ← add_assoc, hsplit]
  exact h

theorem balanced_set_in {entry : Option InCuCacheEntry}
    (h : Accounts d.ledger (↑(holds InCuCacheEntry.resources entry) + s.in_rest key)) :
    State.Balanced { s.set_in key entry with driver := d } := by
  rw [← owned_set_in] at h
  exact h

/-- What a call leaves behind that returns an entry of an input cache. -/
structure Entered (key : Thread × ℕ) (result : State × Option InCuCacheEntry) : Prop where
  balanced : result.1.Balanced
  entry : ∀ e ∈ result.2, result.1.in_entry key = some e

theorem entered_reinit (h : s.Balanced) (key : Thread × ℕ) (io : InputIo) : Entered key (reinit_entry s key io) := by
  have hreleased : Accounts (s.driver.release_all (holds InCuCacheEntry.resources (s.in_entry key))).ledger
      (s.in_rest key) := by
    refine Accounts.release_all ?_
    rw [← owned_eq_in]
    exact h
  rw [reinit_entry]
  dsimp only
  split
  · rename_i driver hregister
    refine ⟨balanced_set_in ?_, fun e he => by cases he⟩
    exact (zero_add (s.in_rest key)).symm ▸ Driver.register_image_none hreleased hregister
  · rename_i driver egl res hregister
    refine ⟨?_, fun e he => ?_⟩
    · have hrest : State.in_rest { s.set_in key none with driver } key = s.in_rest key := in_rest_set_in s key none
      refine balanced_set_in (s := { s.set_in key none with driver }) ?_
      rw [hrest]
      exact (Driver.register_image_some hreleased hregister).of_eq
        (by simp [holds, InCuCacheEntry.resources, coe_cons_add])
    · rw [← he]
      exact in_entry_set_in ..

theorem Entered.ofSame (h : s.Balanced) (key : Thread × ℕ) :
    Entered key (s.set_in key (s.in_entry key), s.in_entry key) := by
  refine ⟨?_, fun e he => ?_⟩
  · rw [State.Balanced, owned_set_in, ← owned_eq_in]
    exact h
  · exact (in_entry_set_in ..).trans he

theorem balanced_gstbuffer_to_gpu_rgba (h : s.Balanced) (t : Thread) (buf : ℕ) (io : InputIo) :
    (gstbuffer_to_gpu_rgba s t buf io).1.Balanced ∧ ∀ res ∈ (gstbuffer_to_gpu_rgba s t buf io).2,
      .registration res ∈ (gstbuffer_to_gpu_rgba s t buf io).1.driver.ledger.live := by
  rw [gstbuffer_to_gpu_rgba]
  dsimp only
  split
  · exact ⟨h, fun res hres => by cases hres⟩
  have hsame := Entered.ofSame h (t, buf)
  have hentered : Entered (t, buf) (if need_reinit io (s.in_entry (t, buf)) = true then
      reinit_entry (s.set_in (t, buf) (s.in_entry (t, buf))) (t, buf) io else
      (s.set_in (t, buf) (s.in_entry (t, buf)), s.in_entry (t, buf))) := by
    split
    · exact entered_reinit hsame.balanced (t, buf) io
    · exact hsame
  revert hentered
  generalize (if need_reinit io (s.in_entry (t, buf)) = true then _ else _ : State × Option InCuCacheEntry) = result
  intro hentered
  obtain ⟨s', _ | e⟩ := result
  · exact ⟨hentered.balanced, fun res hres => by cases hres⟩
  · dsimp only
    split
    · exact ⟨hentered.balanced.clear t, fun res hres => by cases hres⟩
    · split
      · exact ⟨hentered.balanced, fun res hres => by cases hres⟩
      · refine ⟨hentered.balanced, fun res hres => ?_⟩
        obtain rfl := Option.some.inj hres
        exact hentered.balanced.in_entry_live (hentered.entry e rfl)

/-! ### The output caches -/

theorem balanced_set_out {entry : Option NvmmCudaCacheEntry}
    (h : Accounts d.ledger (↑(holds NvmmCudaCacheEntry.resources entry) + s.out_rest key)) :
    State.Balanced { s.set_out key entry with driver := d } := by
  rw [← owned_set_out] at h
  exact h

/-- What a call leaves behind that returns an entry of an output cache. -/
structure Validated (key : Thread × ℕ) (result : State × Option NvmmCudaCacheEntry) : Prop where
  balanced : result.1.Balanced
  entry : ∀ e ∈ result.2, result.1.out_entry key = some e

theorem validated_init (h : s.Balanced) (hnone : s.out_entry key = none) (io : OutputIo) :
    Validated key (nvmm_cache_init_for_outbuf s key io) := by
  have hrest : s.owned = s.out_rest key := by
    rw [owned_eq_out s key, hnone]
    exact zero_add _
  rw [nvmm_cache_init_for_outbuf]
  split
  · exact ⟨h, fun e he => by cases he⟩
  split
  · rename_i driver hregister
    exact ⟨Driver.register_image_none h hregister, fun e he => by cases he⟩
  · rename_i driver eglImage cuRes hregister
    have hsome := Driver.register_image_some h hregister
    split
    · exact ⟨hsome.release.release, fun e he => by cases he⟩
    · refine ⟨balanced_set_out (s := { s with driver }) ?_, fun e he => ?_⟩
      · refine (hsome.acquire (.event driver.next)).of_eq ?_
        have hrest' : State.out_rest { s with driver } key = s.out_rest key := rfl
        rw [hrest, hrest', Multiset.cons_swap]
        simp [holds, NvmmCudaCacheEntry.resources, coe_cons_add]
      · rw [← he]
        exact out_entry_set_out ..

theorem Validated.ofSame (h : s.Balanced) (key : Thread × ℕ) :
    Validated key (s.set_out key (s.out_entry key), s.out_entry key) := by
  refine ⟨?_, fun e he => ?_⟩
  · rw [State.Balanced, owned_set_out, ← owned_eq_out]
    exact h
  · exact (out_entry_set_out ..).trans he

/-- The registration and the event of an entry are given back; its mapping is lost. -/
theorem balanced_replaced {e : NvmmCudaCacheEntry} (h : s.Balanced) (he : s.out_entry key = some e) :
    State.Balanced
      ({ s with
        driver := (s.driver.release (.registration e.cuRes)).release (.event e.done)
        lost := .mapping e.surf :: s.lost }.set_out key none) := by
  have howned : s.owned = .registration e.cuRes ::ₘ .event e.done ::ₘ .mapping e.surf ::ₘ s.out_rest key := by
    rw [owned_eq_out s key, he]
    simp [holds, NvmmCudaCacheEntry.resources, coe_cons_add]
  have hrest : State.out_rest
      { s with
        driver := (s.driver.release (.registration e.cuRes)).release (.event e.done)
        lost := .mapping e.surf :: s.lost } key = .mapping e.surf ::ₘ s.out_rest key := by
    rw [State.out_rest, State.out_rest, ← Multiset.cons_coe, Multiset.add_cons, Multiset.add_cons]
  refine balanced_set_out (s := { s with lost := .mapping e.surf :: s.lost }) ?_
  exact ((Accounts.of_eq h howned).release.release).of_eq (hrest.symm.trans (zero_add _).symm)

theorem validated_reinit (h : s.Balanced) (key : Thread × ℕ) (io : OutputIo) :
    Validated key (nvmm_cache_validate_or_reinit s key io) := by
  rw [nvmm_cache_validate_or_reinit]
  split
  · exact ⟨h, fun e he => by cases he⟩
  split
  · rename_i hnone
    exact validated_init h hnone io
  · rename_i e he
    split
    · exact ⟨h, fun e' he' => Option.some.inj he' ▸ he⟩
    · exact validated_init (balanced_replaced h he) (out_entry_set_out ..) io

theorem balanced_erase (h : s.Balanced) (key : Thread × ℕ) : (erase_outbuf s key).Balanced := by
  have howned : (erase_outbuf s key).owned = s.owned := by
    rw [owned_eq_out s key, State.owned, erase_outbuf, State.out_rest, ← Multiset.coe_add]
    abel
  rw [State.Balanced, howned]
  exact h

theorem balanced_nvmm_copy (h : s.Balanced) (t : Thread) (outbuf : ℕ) (io : OutputIo) :
    (nvmm_copy_rgba_to_outbuf_cached s t outbuf io).1.Balanced ∧
      ∀ res ∈ (nvmm_copy_rgba_to_outbuf_cached s t outbuf io).2,
        .registration res ∈ (nvmm_copy_rgba_to_outbuf_cached s t outbuf io).1.driver.ledger.live := by
  rw [nvmm_copy_rgba_to_outbuf_cached]
  split
  · exact ⟨h, fun res hres => by cases hres⟩
  have hvalidated := validated_reinit (Validated.ofSame h (t, outbuf)).balanced (t, outbuf) io
  split
  · rename_i s' hresult
    rw [hresult] at hvalidated
    exact ⟨balanced_erase hvalidated.balanced _, fun res hres => by cases hres⟩
  · rename_i s' e hresult
    rw [hresult] at hvalidated
    refine ⟨hvalidated.balanced, fun res hres => ?_⟩
    split at hres
    · obtain rfl := Option.some.inj hres
      exact hvalidated.balanced.out_entry_live (hvalidated.entry e rfl)
    · cases hres

/-- What the caches of a thread held is lost with it, and still held of the driver. -/
theorem State.Balanced.thread_exit (h : s.Balanced) (t : Thread) : (thread_exit s t).Balanced := by
  have hin := cached_restrict (holds InCuCacheEntry.resources) (fun key => decide (key.1 = t)) s.tl_in_cu_cache
  have hout := cached_restrict (holds NvmmCudaCacheEntry.resources) (fun key => decide (key.1 = t)) s.tl_nvmm_cache
  have howned : (nvmm.thread_exit s t).owned = s.owned := by
    rw [State.owned, State.owned, nvmm.thread_exit, ← hin, ← hout, ← Multiset.coe_add, ← Multiset.coe_add]
    abel
  rw [State.Balanced, howned]
  exact h

theorem balanced_step (h : s.Balanced) (a : Action) :
    (step s a).1.Balanced ∧ ∀ res ∈ (step s a).2, .registration res ∈ (step s a).1.driver.ledger.live := by
  cases a with
  | frame id buf io => exact balanced_gstbuffer_to_gpu_rgba h (.capture id) buf io
  | copy id outbuf io => exact balanced_nvmm_copy h (.apply id) outbuf io
  | exit t => exact ⟨h.thread_exit t, fun res hres => by cases hres⟩
  | shutdown => exact ⟨h.clear .main, fun res hres => by cases hres⟩

/-! ### What is lost, and what the end of `shutdown_all` does -/

/-- A copy whose buffer is in the cache can look at the image of the buffer, and finds the one in the entry; and a
thread that ends has no entry. -/
def Keeps (s : State) : Action → Prop
  | .copy id outbuf io => io.source_ok = true → ∀ e ∈ s.out_entry (.apply id, outbuf),
      io.validate_map_ok = true ∧ io.cur_egl = some e.eglImage
  | .exit t => ∀ buf, s.in_entry (t, buf) = none ∧ s.out_entry (t, buf) = none
  | .frame _ _ _ | .shutdown => True

theorem lost_reinit_entry (s : State) (key : Thread × ℕ) (io : InputIo) : (reinit_entry s key io).1.lost = s.lost := by
  rw [reinit_entry]
  dsimp only
  split <;> rfl

theorem lost_gstbuffer_to_gpu_rgba (s : State) (t : Thread) (buf : ℕ) (io : InputIo) :
    (gstbuffer_to_gpu_rgba s t buf io).1.lost = s.lost := by
  rw [gstbuffer_to_gpu_rgba]
  dsimp only
  split
  · rfl
  have hlost : (if need_reinit io (s.in_entry (t, buf)) = true then
      reinit_entry (s.set_in (t, buf) (s.in_entry (t, buf))) (t, buf) io else
      (s.set_in (t, buf) (s.in_entry (t, buf)), s.in_entry (t, buf))).1.lost = s.lost := by
    split
    · exact lost_reinit_entry ..
    · rfl
  rw [← hlost]
  split
  · rename_i hresult
    rw [hresult]
  · rename_i hresult
    rw [hresult]
    split
    · rfl
    · split <;> rfl

/-- An initialisation loses nothing, and one that fails makes no entry. -/
theorem lost_init (s : State) (key : Thread × ℕ) (io : OutputIo) :
    (nvmm_cache_init_for_outbuf s key io).1.lost = s.lost ∧
      ((nvmm_cache_init_for_outbuf s key io).2 = none →
        (nvmm_cache_init_for_outbuf s key io).1.tl_nvmm_cache = s.tl_nvmm_cache) := by
  rw [nvmm_cache_init_for_outbuf]
  split
  · exact ⟨rfl, fun _ => rfl⟩
  split
  · exact ⟨rfl, fun _ => rfl⟩
  split
  · exact ⟨rfl, fun _ => rfl⟩
  · exact ⟨rfl, fun hnone => by cases hnone⟩

theorem lost_erase_eq_nil_iff (s : State) (key : Thread × ℕ) :
    (erase_outbuf s key).lost = [] ↔ s.out_entry key = none ∧ s.lost = [] := by
  rw [erase_outbuf, List.append_eq_nil_iff]
  cases s.out_entry key <;> simp [holds, NvmmCudaCacheEntry.resources]

/-- What a copy comes to once its buffer has been validated. -/
def copied (s : State) (key : Thread × ℕ) : Option NvmmCudaCacheEntry → State
  | none => erase_outbuf s key
  | some _ => s

theorem lost_after_init (s : State) (key : Thread × ℕ) (io : OutputIo) (hnone : s.out_entry key = none) :
    (copied (nvmm_cache_init_for_outbuf s key io).1 key (nvmm_cache_init_for_outbuf s key io).2).lost = [] ↔
      s.lost = [] := by
  obtain ⟨hlost, hcache⟩ := lost_init s key io
  revert hlost hcache
  obtain ⟨s', _ | e⟩ := nvmm_cache_init_for_outbuf s key io
  · intro hlost hcache
    have hentry : s'.out_entry key = none := by
      rw [State.out_entry, hcache rfl]
      exact hnone
    rw [copied, lost_erase_eq_nil_iff, hlost, hentry, and_iff_right rfl]
  · intro hlost _
    rw [copied, hlost]

theorem nvmm_copy_eq (s : State) (t : Thread) (outbuf : ℕ) (io : OutputIo) (hsource : io.source_ok = true) :
    (nvmm_copy_rgba_to_outbuf_cached s t outbuf io).1 =
      copied (nvmm_cache_validate_or_reinit (s.set_out (t, outbuf) (s.out_entry (t, outbuf))) (t, outbuf) io).1
        (t, outbuf)
        (nvmm_cache_validate_or_reinit (s.set_out (t, outbuf) (s.out_entry (t, outbuf))) (t, outbuf) io).2 := by
  rw [nvmm_copy_rgba_to_outbuf_cached, hsource, Bool.not_true, if_neg Bool.false_ne_true]
  split <;> rename_i hresult <;> rw [hresult] <;> rfl

theorem lost_copy_iff (s : State) (id outbuf : ℕ) (io : OutputIo) :
    (nvmm_copy_rgba_to_outbuf_cached s (.apply id) outbuf io).1.lost = [] ↔
      s.lost = [] ∧ Keeps s (.copy id outbuf io) := by
  by_cases hsource : io.source_ok = true
  swap
  · have hkeeps : Keeps s (.copy id outbuf io) := fun h => absurd h hsource
    rw [nvmm_copy_rgba_to_outbuf_cached, Bool.eq_false_of_not_eq_true hsource]
    exact (and_iff_left hkeeps).symm
  rw [nvmm_copy_eq s _ _ _ hsource, nvmm_cache_validate_or_reinit, out_entry_set_out, Keeps]
  cases hmap : io.validate_map_ok with
  | false =>
    rw [Bool.not_false, if_pos rfl, copied, lost_erase_eq_nil_iff, out_entry_set_out]
    cases s.out_entry (.apply id, outbuf) <;> simp [State.set_out, hsource]
  | true =>
    rw [Bool.not_true, if_neg Bool.false_ne_true]
    cases hentry : s.out_entry (.apply id, outbuf) with
    | none =>
      refine (lost_after_init _ _ io (out_entry_set_out ..)).trans ?_
      simp [State.set_out]
    | some e =>
      by_cases hegl : io.cur_egl = some e.eglImage
      · simp [hegl, copied, State.set_out]
      · dsimp only
        rw [if_neg hegl]
        refine (lost_after_init _ _ io (out_entry_set_out ..)).trans ?_
        simp [State.set_out, hegl, hsource]

/-- The entries of a thread hold something unless they are all `none`. -/
theorem own_eq_nil_iff {E : Type*} {resources : E → List Resource} (hresources : ∀ e, resources e ≠ [])
    (c : AList fun _ : Thread × ℕ => Option E) (t : Thread) :
    (restrict (fun key => decide (key.1 = t)) c).entries.flatMap (fun entry => holds resources entry.2) = [] ↔
      ∀ buf, (c.lookup (t, buf)).join = none := by
  rw [List.flatMap_eq_nil_iff]
  constructor
  · intro hnone buf
    cases hlookup : c.lookup (t, buf) with
    | none => rfl
    | some entry =>
      have hmem : ⟨(t, buf), entry⟩ ∈ c.entries := AList.mem_lookup_iff.mp hlookup
      have hnil := hnone _ (List.mem_filter.mpr ⟨hmem, by simp⟩)
      cases entry with
      | none => rfl
      | some e => exact absurd hnil (hresources e)
  · rintro hnone ⟨⟨t', buf⟩, entry⟩ hmem
    obtain ⟨hentry, hown⟩ := List.mem_filter.mp hmem
    obtain rfl : t' = t := by simpa using hown
    have hlookup : c.lookup (t', buf) = some entry := AList.mem_lookup_iff.mpr hentry
    have hjoin := hnone buf
    rw [hlookup, Option.join_some] at hjoin
    rw [hjoin]
    rfl

theorem lost_exit_iff (s : State) (t : Thread) :
    (thread_exit s t).lost = [] ↔ s.lost = [] ∧ Keeps s (.exit t) := by
  have hresourcesIn (e : InCuCacheEntry) : e.resources ≠ [] := List.cons_ne_nil _ _
  have hresourcesOut (e : NvmmCudaCacheEntry) : e.resources ≠ [] := List.cons_ne_nil _ _
  have hin := own_eq_nil_iff hresourcesIn s.tl_in_cu_cache t
  have hout := own_eq_nil_iff hresourcesOut s.tl_nvmm_cache t
  rw [thread_exit, List.append_eq_nil_iff, List.append_eq_nil_iff, hin, hout, Keeps, forall_and]
  exact ⟨fun h => ⟨h.2.2, h.1, h.2.1⟩, fun h => ⟨h.2.1, h.2.2, h.1⟩⟩

theorem lost_step_iff (s : State) (a : Action) : (step s a).1.lost = [] ↔ s.lost = [] ∧ Keeps s a := by
  cases a with
  | frame id buf io =>
    rw [step, lost_gstbuffer_to_gpu_rgba]
    exact (and_iff_left trivial).symm
  | copy id outbuf io => exact lost_copy_iff s id outbuf io
  | exit t => exact lost_exit_iff s t
  | shutdown => exact (and_iff_left trivial).symm

/-! ### Whose entries there are -/

/-- The entries of the caches are those there were, and the calling thread's. -/
structure Adds (t : Thread) (s s' : State) : Prop where
  input : ∀ key ∈ s'.tl_in_cu_cache, key ∈ s.tl_in_cu_cache ∨ key.1 = t
  output : ∀ key ∈ s'.tl_nvmm_cache, key ∈ s.tl_nvmm_cache ∨ key.1 = t

namespace Adds

variable {t : Thread} {s'' : State}

theorem refl (t : Thread) (s : State) : Adds t s s := ⟨fun _ => .inl, fun _ => .inl⟩

theorem trans (h : Adds t s s') (h' : Adds t s' s'') : Adds t s s'' where
  input key hkey := (h'.input key hkey).elim (h.input key) .inr
  output key hkey := (h'.output key hkey).elim (h.output key) .inr

theorem with_driver (h : Adds t s s') (d : Driver) (lost : List Resource) : Adds t s { s' with driver := d, lost } :=
  ⟨h.input, h.output⟩

theorem set_in (s : State) (t : Thread) (buf : ℕ) (entry : Option InCuCacheEntry) :
    Adds t s (s.set_in (t, buf) entry) where
  input key hkey := by
    obtain rfl | hmem := (AList.mem_insert _).mp hkey
    · exact .inr rfl
    · exact .inl hmem
  output _ := .inl

theorem set_out (s : State) (t : Thread) (buf : ℕ) (entry : Option NvmmCudaCacheEntry) :
    Adds t s (s.set_out (t, buf) entry) where
  input _ := .inl
  output key hkey := by
    obtain rfl | hmem := (AList.mem_insert _).mp hkey
    · exact .inr rfl
    · exact .inl hmem

end Adds

theorem mem_restrict_iff {E : Type*} {p : Thread × ℕ → Bool} {c : AList fun _ : Thread × ℕ => E} {key : Thread × ℕ} :
    key ∈ restrict p c ↔ key ∈ c ∧ p key = true := by
  constructor
  · intro hmem
    obtain ⟨entry, hentry, rfl⟩ := List.mem_map.mp hmem
    obtain ⟨hentry, hp⟩ := List.mem_filter.mp hentry
    exact ⟨List.mem_map_of_mem hentry, hp⟩
  · rintro ⟨hmem, hp⟩
    obtain ⟨entry, hentry, rfl⟩ := List.mem_map.mp hmem
    exact List.mem_map_of_mem (List.mem_filter.mpr ⟨hentry, hp⟩)

theorem adds_clear (s : State) (t t' : Thread) : Adds t s (clear_input_cures_cache s t') :=
  ⟨fun _ hkey => .inl (mem_restrict_iff.mp hkey).1, fun _ => .inl⟩

theorem adds_reinit_entry (s : State) (t : Thread) (buf : ℕ) (io : InputIo) :
    Adds t s (reinit_entry s (t, buf) io).1 := by
  have hset := Adds.set_in s t buf none
  rw [reinit_entry]
  dsimp only
  split
  · exact hset.with_driver _ _
  · exact (hset.with_driver _ _).trans (Adds.set_in _ t buf _)

theorem adds_gstbuffer_to_gpu_rgba (s : State) (t : Thread) (buf : ℕ) (io : InputIo) :
    Adds t s (gstbuffer_to_gpu_rgba s t buf io).1 := by
  rw [gstbuffer_to_gpu_rgba]
  dsimp only
  split
  · exact .refl t s
  have hset := Adds.set_in s t buf (s.in_entry (t, buf))
  have hentered : Adds t s (if need_reinit io (s.in_entry (t, buf)) = true then
      reinit_entry (s.set_in (t, buf) (s.in_entry (t, buf))) (t, buf) io else
      (s.set_in (t, buf) (s.in_entry (t, buf)), s.in_entry (t, buf))).1 := by
    split
    · exact hset.trans (adds_reinit_entry _ t buf io)
    · exact hset
  split <;> rename_i hresult <;> rw [hresult] at hentered
  · exact hentered
  · split
    · exact hentered.trans (adds_clear _ t t)
    · split <;> exact hentered

theorem adds_init (s : State) (t : Thread) (outbuf : ℕ) (io : OutputIo) :
    Adds t s (nvmm_cache_init_for_outbuf s (t, outbuf) io).1 := by
  have hsame := Adds.refl t s
  rw [nvmm_cache_init_for_outbuf]
  split
  · exact hsame
  split
  · exact hsame.with_driver _ _
  split
  · exact hsame.with_driver _ _
  · exact (hsame.with_driver _ _).trans (Adds.set_out _ t outbuf _)

theorem adds_validate_or_reinit (s : State) (t : Thread) (outbuf : ℕ) (io : OutputIo) :
    Adds t s (nvmm_cache_validate_or_reinit s (t, outbuf) io).1 := by
  rw [nvmm_cache_validate_or_reinit]
  split
  · exact .refl t s
  split
  · exact adds_init s t outbuf io
  · split
    · exact .refl t s
    · refine Adds.trans ?_ (adds_init _ t outbuf io)
      exact ((Adds.refl t s).with_driver _ _).trans (Adds.set_out _ t outbuf none)

theorem adds_nvmm_copy (s : State) (t : Thread) (outbuf : ℕ) (io : OutputIo) :
    Adds t s (nvmm_copy_rgba_to_outbuf_cached s t outbuf io).1 := by
  have hvalidated := (Adds.set_out s t outbuf (s.out_entry (t, outbuf))).trans
    (adds_validate_or_reinit _ t outbuf io)
  rw [nvmm_copy_rgba_to_outbuf_cached]
  split
  · exact .refl t s
  split <;> rename_i hresult <;> rw [hresult] at hvalidated
  · refine hvalidated.trans ⟨fun _ => .inl, fun key hkey => .inl ?_⟩
    exact (AList.mem_erase.mp hkey).2
  · exact hvalidated

/-- The caches have entries of some threads only. -/
structure OnlyOf (threads : List Thread) (s : State) : Prop where
  input : ∀ key ∈ s.tl_in_cu_cache, key.1 ∈ threads
  output : ∀ key ∈ s.tl_nvmm_cache, key.1 ∈ threads

theorem OnlyOf.adds {threads : List Thread} {t : Thread} (h : OnlyOf threads s) (hadds : Adds t s s') :
    OnlyOf (t :: threads) s' where
  input key hkey := by
    obtain hmem | rfl := hadds.input key hkey
    · exact List.mem_cons_of_mem _ (h.input key hmem)
    · exact List.mem_cons_self
  output key hkey := by
    obtain hmem | rfl := hadds.output key hkey
    · exact List.mem_cons_of_mem _ (h.output key hmem)
    · exact List.mem_cons_self

theorem OnlyOf.thread_exit {threads : List Thread} (h : OnlyOf threads s) (t : Thread) :
    OnlyOf (threads.filter (· ≠ t)) (thread_exit s t) where
  input key hkey := by
    obtain ⟨hmem, hother⟩ := mem_restrict_iff.mp hkey
    exact List.mem_filter.mpr ⟨h.input key hmem, by simpa using hother⟩
  output key hkey := by
    obtain ⟨hmem, hother⟩ := mem_restrict_iff.mp hkey
    exact List.mem_filter.mpr ⟨h.output key hmem, by simpa using hother⟩

theorem onlyOf_step {threads : List Thread} (h : OnlyOf threads s) (a : Action) :
    OnlyOf (a.running threads) (step s a).1 := by
  cases a with
  | frame id buf io => exact h.adds (adds_gstbuffer_to_gpu_rgba s _ buf io)
  | copy id outbuf io => exact h.adds (adds_nvmm_copy s _ outbuf io)
  | exit t => exact h.thread_exit t
  | shutdown => exact ⟨fun key hkey => h.input key (mem_restrict_iff.mp hkey).1, h.output⟩

theorem main_notMem_running {threads : List Thread} (h : .main ∉ threads) (a : Action) : .main ∉ a.running threads := by
  cases a with
  | frame id buf io => simpa [Action.running] using h
  | copy id outbuf io => simpa [Action.running] using h
  | exit t => exact fun hmem => h (List.mem_of_mem_filter hmem)
  | shutdown => exact h

/-- `tl_in_cu_cache` is the calling thread's, and the main thread has nothing in its own. -/
theorem clear_main {threads : List Thread} (h : OnlyOf threads s) (hmain : .main ∉ threads) :
    clear_input_cures_cache s .main = s := by
  have hother (entry) (hentry : entry ∈ s.tl_in_cu_cache.entries) : entry.1.1 ≠ .main := by
    intro hkey
    have hmem := h.input entry.1 (AList.mem_keys.mpr (List.mem_map_of_mem hentry))
    exact hmain (hkey ▸ hmem)
  have hown : (restrict (fun key => decide (key.1 = .main)) s.tl_in_cu_cache).entries = [] :=
    List.filter_eq_nil_iff.mpr fun entry hentry => by simpa using hother entry hentry
  have hrest : restrict (fun key => !decide (key.1 = .main)) s.tl_in_cu_cache = s.tl_in_cu_cache :=
    AList.ext (List.filter_eq_self.mpr fun entry hentry => by simpa using hother entry hentry)
  rw [clear_input_cures_cache, hown, hrest]
  rfl

/-- Without a thread that could have an entry, what is owned is what is lost. -/
theorem OnlyOf.owned_eq (h : OnlyOf [] s) : s.owned = ↑s.lost := by
  have hempty {E : Type} (resources : E → List Resource) (c : AList fun _ : Thread × ℕ => Option E)
      (hnone : ∀ key ∈ c, key.1 ∈ ([] : List Thread)) : cached (holds resources) c = 0 := by
    have hentries : c.entries = [] := List.eq_nil_iff_forall_not_mem.mpr fun entry hentry =>
      List.not_mem_nil (hnone entry.1 (AList.mem_keys.mpr (List.mem_map_of_mem hentry)))
    rw [cached, hentries]
    rfl
  rw [State.owned, hempty _ _ h.input, hempty _ _ h.output, zero_add, zero_add]

/-! ### Runs -/

/-- What a run keeps, with the threads that it has run. -/
structure Ok (threads : List Thread) (s : State) : Prop where
  balanced : s.Balanced
  onlyOf : OnlyOf threads s
  noMain : .main ∉ threads

theorem ok_start : Ok [] start where
  balanced := Accounts.empty
  onlyOf := ⟨fun key hkey => absurd hkey (AList.notMem_empty key), fun key hkey => absurd hkey (AList.notMem_empty key)⟩
  noMain := List.not_mem_nil

theorem ok_exec {threads : List Thread} (h : Ok threads s) (actions : List Action) :
    Ok (actions.foldl Action.running threads) (exec s actions) := by
  induction actions generalizing s threads with
  | nil => exact h
  | cons a rest ih => exact ih ⟨(balanced_step h.balanced a).1, onlyOf_step h.onlyOf a, main_notMem_running h.noMain a⟩

theorem lost_exec_iff (s : State) (actions : List Action) :
    (exec s actions).lost = [] ↔ s.lost = [] ∧ Meets (fun s a => some (step s a).1) Keeps s actions := by
  induction actions generalizing s with
  | nil => exact (and_iff_left trivial).symm
  | cons a rest ih =>
    refine (ih (step s a).1).trans ?_
    rw [lost_step_iff, and_assoc, Meets]
    simp

/-- The resources held of the driver are those in the cache entries and those that have been lost, each once, and none
has been given back that was not held; a frame or a copy that succeeds uses one that is held. Resources are lost just
by copies whose buffer is in the cache and cannot be looked at, or has another image than its entry, and by the end of a
thread that has an entry. The end of `shutdown_all` gives nothing back; and once the threads that have used their caches
have ended, what is held is just what has been lost. -/
theorem interop_accounts (actions : List Action) :
    let s := exec start actions
    Accounts s.driver.ledger s.owned ∧
      (∀ a, ∀ res ∈ (step s a).2, .registration res ∈ (step s a).1.driver.ledger.live) ∧
      (s.lost = [] ↔ Meets (fun s a => some (step s a).1) Keeps start actions) ∧
      (step s .shutdown).1 = s ∧
      (running actions = [] → s.driver.ledger.live = ↑s.lost) := by
  intro s
  have hok := ok_exec ok_start actions
  refine ⟨hok.balanced, fun a => (balanced_step hok.balanced a).2, ?_, clear_main hok.onlyOf hok.noMain,
    fun hnone => ?_⟩
  · rw [lost_exec_iff]
    exact and_iff_right rfl
  · have honly := hok.onlyOf
    rw [show actions.foldl Action.running [] = [] from hnone] at honly
    rw [hok.balanced.live, honly.owned_eq]

/-- A camera's buffer that has been seen once is still registered and mapped behind the end of `shutdown_all`. -/
example : (exec start [.frame 0 7 ⟨true, true, 3, none, ⟨true, some 5, true⟩, true, true⟩, .exit (.capture 0),
    .shutdown]).lost = [.registration 0, .mapping 3] := by decide

end k180.nvmm
