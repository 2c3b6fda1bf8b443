import K180.Osd.SlotInit

open schedule

namespace k180.osd

/-- The slots outlive their users: a pointer that somebody holds is that of a slot in the vectors; as long
as a hub is created the vectors hold usable slots; every resource created is owned by a slot in the
vectors or has been destroyed, once, and none is left when no hub is. -/
structure Outlive (σ : HubState) : Prop where
  held_live : ∀ p ∈ σ.held, p.2 ∈ σ.ids
  usable : ∀ h, σ.pipeline h = true → Usable σ.slots ∧ Usable σ.track_slots
  accounted : (List.range σ.next_resource).Perm (σ.owned ++ σ.destroyed)
  cleaned : (∀ h, σ.pipeline h = false) → σ.owned = []

/-- Hub `h` is alone with the shared slots, and nobody holds a pointer into them. -/
def HubState.unshared (σ : HubState) (h : Fin kStreams) : Prop :=
  (∀ h', h' ≠ h → σ.pipeline h' = false) ∧ σ.held = []

/-- The hubs use the slots one after the other: a `create` that gets as far as `osd_init_slots` and a stop
of a created hub happen only while no other hub is created and nobody holds a slot; and either all of the
forty allocations of a `create` and the rest of it succeed, or it fails without having created
anything. -/
def OneByOne (σ : HubState) : HubAction → Prop
  | .create h a gst alloc => a.accepted = true → gst.parse_launch = true → σ.unshared h ∧
      if gst.complete a then ∀ j < 5 * slot_count + 5 * slot_count, alloc (σ.next_resource + j) = true
      else alloc σ.next_resource = false
  | .stop h | .stop_rec h => σ.pipeline h = true → σ.unshared h
  | _ => True

instance (σ : HubState) (h : Fin kStreams) : Decidable (σ.unshared h) :=
  inferInstanceAs (Decidable ((∀ h', h' ≠ h → σ.pipeline h' = false) ∧ σ.held = []))

instance (σ : HubState) : (a : HubAction) → Decidable (OneByOne σ a)
  | .create h a gst alloc => inferInstanceAs (Decidable (a.accepted = true → gst.parse_launch = true →
      σ.unshared h ∧
        if gst.complete a then ∀ j < 5 * slot_count + 5 * slot_count, alloc (σ.next_resource + j) = true
        else alloc σ.next_resource = false))
  | .stop h | .stop_rec h => inferInstanceAs (Decidable (σ.pipeline h = true → σ.unshared h))
  | .start .. | .hold .. | .finish _ => isTrue trivial

/-- What else holds along a run in which the slots outlive their users. -/
structure HubInv (σ : HubState) : Prop where
  outlive : Outlive σ
  ids_lt : ∀ id ∈ σ.ids, id < σ.next_slot
  no_track_slots : (∀ h, σ.pipeline h = false) → σ.track_slots = []

/-- Clearing a vector whose slots own something leaks it. -/
theorem not_accounted_of_init {σ : HubState} (alloc : ℕ → Bool)
    (haccounted : (List.range σ.next_resource).Perm (σ.owned ++ σ.destroyed))
    (howned : σ.slots.flatMap (·.owned) ≠ []) :
    ¬ (List.range (σ.osd_init_slots alloc).1.next_resource).Perm
      ((σ.osd_init_slots alloc).1.owned ++ (σ.osd_init_slots alloc).1.destroyed) := by
  intro haccounted'
  have hlength := haccounted.length_eq
  have hlength' := haccounted'.length_eq
  have hpos := List.length_pos_of_ne_nil howned
  rw [List.length_range, List.length_append, owned_eq, List.length_append] at hlength hlength'
  obtain ⟨slots, next, hslots, _, hinit⟩ | ⟨slots, next, track_slots, next', ok, hslots, _, htrack, _, hinit⟩ :=
    osd_init_slots_cases σ alloc
  · have hle := hslots.le
    rw [hinit] at hlength'
    simp only [hslots.length_owned] at hlength'
    omega
  · have hle := hslots.le
    have hle' := htrack.le
    rw [hinit] at hlength'
    simp only [hslots.length_owned, htrack.length_owned] at hlength'
    omega

/-- A `create` that gets as far as the slots leaves everything in order only if it is their only user. -/
theorem unshared_of_init {σ : HubState} {h : Fin kStreams} {alloc : ℕ → Bool}
    {pipeline : Fin kStreams → Bool} (hinv : HubInv σ)
    (houtlive : Outlive { (σ.osd_init_slots alloc).1 with pipeline := pipeline }) :
    σ.unshared h := by
  have hnone : ∀ h', σ.pipeline h' = false := by
    intro h'
    by_contra hcreated
    obtain ⟨husable, _⟩ := hinv.outlive.usable h' (Bool.not_eq_false _ ▸ hcreated)
    have hleak := not_accounted_of_init alloc hinv.outlive.accounted husable.owned_ne_nil
    exact hleak houtlive.accounted
  refine ⟨fun h' _ => hnone h', ?_⟩
  have hspec := osd_init_slots_spec alloc (hinv.no_track_slots hnone)
  by_contra hheld
  obtain ⟨p, hp⟩ := List.exists_mem_of_ne_nil _ hheld
  have hold := hinv.ids_lt _ (hinv.outlive.held_live p hp)
  have hlive : p.2 ∈ (σ.osd_init_slots alloc).1.ids := by
    apply houtlive.held_live p
    rw [hspec.held]
    exact hp
  have hnew := (hspec.ids _ hlive).1
  omega

theorem unshared_none {σ : HubState} {h : Fin kStreams} (hunshared : σ.unshared h)
    (hnew : σ.pipeline h = false) (h' : Fin kStreams) : σ.pipeline h' = false := by
  by_cases hh : h' = h
  · rw [hh]
    exact hnew
  · exact hunshared.1 h' hh

theorem range_split {a b : ℕ} (hle : a ≤ b) : List.range b = List.range a ++ List.range' a (b - a) := by
  rw [List.range_eq_range', List.range_eq_range']
  have happend := List.range'_append_1 (s := 0) (m := a) (n := b - a)
  rw [Nat.zero_add] at happend
  rw [happend, Nat.add_sub_cancel' hle]

/-- A `create` that is the only user of the slots leaves everything in order if all of it succeeds, or
nothing has been created. -/
theorem init_outlive {σ : HubState} {h : Fin kStreams} {alloc : ℕ → Bool} (complete : Bool)
    (hinv : HubInv σ) (hnew : σ.pipeline h = false) (hunshared : σ.unshared h)
    (hsucceeds : if complete then ∀ j < 5 * slot_count + 5 * slot_count, alloc (σ.next_resource + j) = true
      else alloc σ.next_resource = false) :
    Outlive { (σ.osd_init_slots alloc).1 with
      pipeline := if complete then Function.update σ.pipeline h true else σ.pipeline } := by
  have hnone := unshared_none hunshared hnew
  have hspec := osd_init_slots_spec alloc (hinv.no_track_slots hnone)
  constructor
  · intro p hp
    change p ∈ (σ.osd_init_slots alloc).1.held at hp
    rw [hspec.held, hunshared.2] at hp
    cases hp
  · intro h' hcreated
    cases complete with
    | true =>
      rw [if_pos rfl] at hsucceeds
      exact hspec.usable.mpr hsucceeds
    | false =>
      simp only [Bool.false_eq_true, if_false] at hcreated
      rw [hnone h'] at hcreated
      cases hcreated
  · have hbefore := hinv.outlive.accounted
    rw [hinv.outlive.cleaned hnone, List.nil_append] at hbefore
    change (List.range (σ.osd_init_slots alloc).1.next_resource).Perm
      ((σ.osd_init_slots alloc).1.owned ++ (σ.osd_init_slots alloc).1.destroyed)
    rw [hspec.destroyed, range_split hspec.le]
    exact List.perm_append_comm.trans (hspec.owned.symm.append hbefore)
  · intro hnone'
    cases complete with
    | true =>
      have hh := hnone' h
      simp at hh
    | false =>
      rw [if_neg Bool.false_ne_true, ← hspec.fails_at_once] at hsucceeds
      have howned := hspec.owned
      rw [hsucceeds, Nat.sub_self, List.range'_zero] at howned
      exact howned.eq_nil

/-- A `create` that gets as far as the slots leaves everything in order exactly when it is their only user
and, besides, all of it succeeds or nothing has been created. -/
theorem init_outlive_iff {σ : HubState} {h : Fin kStreams} {alloc : ℕ → Bool} (complete : Bool)
    (hinv : HubInv σ) (hnew : σ.pipeline h = false) :
    Outlive { (σ.osd_init_slots alloc).1 with
        pipeline := if complete then Function.update σ.pipeline h true else σ.pipeline } ↔
      σ.unshared h ∧
        if complete then ∀ j < 5 * slot_count + 5 * slot_count, alloc (σ.next_resource + j) = true
        else alloc σ.next_resource = false := by
  constructor
  · intro houtlive
    have hunshared : σ.unshared h := unshared_of_init hinv houtlive
    have hnone := unshared_none hunshared hnew
    have hspec := osd_init_slots_spec alloc (hinv.no_track_slots hnone)
    refine ⟨hunshared, ?_⟩
    cases complete with
    | true =>
      rw [if_pos rfl]
      apply hspec.usable.mp
      apply houtlive.usable h
      simp
    | false =>
      rw [if_neg Bool.false_ne_true, ← hspec.fails_at_once]
      have howned := houtlive.cleaned hnone
      have hlength := hspec.owned.length_eq
      have hle := hspec.le
      change (σ.osd_init_slots alloc).1.owned = [] at howned
      rw [howned, List.length_nil, List.length_range'] at hlength
      omega
  · rintro ⟨hunshared, hsucceeds⟩
    exact init_outlive complete hinv hnew hunshared hsucceeds

theorem create_of_reached {σ : HubState} {h : Fin kStreams} {a : H265HubCreateArgs} {gst : GstAnswers}
    {alloc : ℕ → Bool} (haccepted : a.accepted = true) (hparse : gst.parse_launch = true) :
    σ.create h a gst alloc =
      { (σ.osd_init_slots alloc).1 with
        pipeline := if gst.complete a then Function.update σ.pipeline h true else σ.pipeline } := by
  rw [HubState.create, haccepted, hparse, Bool.and_true, if_pos rfl]
  split
  · rfl
  · rw [← osd_init_slots_pipeline σ alloc]

theorem create_of_refused {σ : HubState} {h : Fin kStreams} {a : H265HubCreateArgs} {gst : GstAnswers}
    {alloc : ℕ → Bool} (hrefused : (a.accepted && gst.parse_launch) = false) :
    σ.create h a gst alloc = σ := by
  rw [HubState.create, if_neg (by rw [hrefused]; exact Bool.false_ne_true)]

theorem create_outlive_iff {σ : HubState} {h : Fin kStreams} {a : H265HubCreateArgs} {gst : GstAnswers}
    {alloc : ℕ → Bool} (hinv : HubInv σ) (hnew : σ.pipeline h = false) :
    Outlive (σ.create h a gst alloc) ↔ OneByOne σ (.create h a gst alloc) := by
  rw [OneByOne]
  cases haccepted : a.accepted with
  | false =>
    rw [create_of_refused (by rw [haccepted, Bool.false_and])]
    simp [hinv.outlive]
  | true =>
    cases hparse : gst.parse_launch with
    | false =>
      rw [create_of_refused (by rw [hparse, Bool.and_false])]
      simp [hinv.outlive]
    | true =>
      rw [create_of_reached haccepted hparse, init_outlive_iff (gst.complete a) hinv hnew]
      simp

theorem create_inv {σ : HubState} {h : Fin kStreams} {a : H265HubCreateArgs} {gst : GstAnswers}
    {alloc : ℕ → Bool} (hinv : HubInv σ) (hnew : σ.pipeline h = false)
    (houtlive : Outlive (σ.create h a gst alloc)) : HubInv (σ.create h a gst alloc) := by
  cases hreached : a.accepted && gst.parse_launch with
  | false =>
    rw [create_of_refused hreached]
    exact hinv
  | true =>
    obtain ⟨haccepted, hparse⟩ := Bool.and_eq_true_iff.mp hreached
    have honly := (create_outlive_iff hinv hnew).mp houtlive haccepted hparse
    have hnone := unshared_none honly.1 hnew
    have hspec := osd_init_slots_spec alloc (hinv.no_track_slots hnone)
    rw [create_of_reached haccepted hparse] at houtlive ⊢
    refine ⟨houtlive, fun id hid => (hspec.ids id hid).2, fun hnone' => ?_⟩
    cases hcomplete : gst.complete a with
    | true =>
      have hh := hnone' h
      simp [hcomplete] at hh
    | false =>
      have hfail := honly.2
      rw [hcomplete, if_neg Bool.false_ne_true] at hfail
      exact hspec.no_track_slots hfail

/-- Stopping a created hub leaves everything in order exactly when it is the only user of the slots. -/
theorem destroy_outlive_iff {σ : HubState} {h : Fin kStreams} (hinv : HubInv σ) :
    Outlive { σ.osd_destroy_slots with pipeline := Function.update σ.pipeline h false } ↔
      σ.unshared h := by
  constructor
  · intro houtlive
    constructor
    · intro h' hh
      by_contra hcreated
      have husable := houtlive.usable h' (by simpa [hh] using hcreated)
      cases husable.1.1
    · apply List.eq_nil_iff_forall_not_mem.mpr
      intro p hp
      cases houtlive.held_live p hp
  · rintro ⟨halone, hheld⟩
    constructor
    · intro p hp
      change p ∈ σ.held at hp
      rw [hheld] at hp
      cases hp
    · intro h' hcreated
      by_cases hh : h' = h
      · subst hh
        simp at hcreated
      · simp [hh, halone h' hh] at hcreated
    · exact hinv.outlive.accounted.trans List.perm_append_comm
    · intro _
      rfl

theorem stop_cases {σ σ' : HubState} {h : Fin kStreams} (hstop : σ.stop h = some σ') :
    (σ.pipeline h = false ∧ σ' = { σ with started := Function.update σ.started h false }) ∨
    (σ.pipeline h = true ∧ σ' =
      { σ.osd_destroy_slots with
        pipeline := Function.update σ.pipeline h false
        started := Function.update σ.started h false }) := by
  rw [HubState.stop, HubState.cleanup_] at hstop
  split at hstop
  · rename_i hcreated
    split at hstop
    · exact .inr ⟨hcreated, (Option.some.inj hstop).symm⟩
    · cases hstop
  · rename_i hcreated
    exact .inl ⟨Bool.eq_false_iff.mpr hcreated, (Option.some.inj hstop).symm⟩

/-- Which hubs have been started does not matter to the slots. -/
theorem Outlive.set_started {σ : HubState} (started : Fin kStreams → Bool) :
    Outlive { σ with started := started } ↔ Outlive σ :=
  ⟨fun h => ⟨h.1, h.2, h.3, h.4⟩, fun h => ⟨h.1, h.2, h.3, h.4⟩⟩

theorem stop_outlive_iff {σ σ' : HubState} {h : Fin kStreams} (hinv : HubInv σ)
    (hstop : σ.stop h = some σ') :
    Outlive σ' ↔ (σ.pipeline h = true → σ.unshared h) := by
  obtain ⟨hcreated, rfl⟩ | ⟨hcreated, rfl⟩ := stop_cases hstop
  · rw [Outlive.set_started, hcreated]
    simp [hinv.outlive]
  · rw [← destroy_outlive_iff hinv]
    simp only [hcreated, forall_const]
    exact ⟨fun h => ⟨h.1, h.2, h.3, h.4⟩, fun h => ⟨h.1, h.2, h.3, h.4⟩⟩

theorem stop_inv {σ σ' : HubState} {h : Fin kStreams} (hinv : HubInv σ) (hstop : σ.stop h = some σ')
    (houtlive : Outlive σ') : HubInv σ' := by
  obtain ⟨hcreated, rfl⟩ | ⟨hcreated, rfl⟩ := stop_cases hstop
  · exact ⟨houtlive, hinv.ids_lt, hinv.no_track_slots⟩
  · refine ⟨houtlive, fun id hid => ?_, fun _ => rfl⟩
    cases hid

/-- A step leaves everything in order exactly when the hubs use the slots one after the other. -/
theorem hub_step_outlive_iff {σ σ' : HubState} {a : HubAction} (hinv : HubInv σ)
    (hstep : hub_step σ a = some σ') : (Outlive σ' ↔ OneByOne σ a) ∧ (Outlive σ' → HubInv σ') := by
  cases a with
  | create h a gst alloc =>
    rw [hub_step] at hstep
    split at hstep
    · cases hstep
    · rename_i hnew
      obtain rfl := Option.some.inj hstep
      have hnew' := Bool.eq_false_iff.mpr hnew
      exact ⟨create_outlive_iff hinv hnew', create_inv hinv hnew'⟩
  | stop h => exact ⟨stop_outlive_iff hinv hstep, stop_inv hinv hstep⟩
  | stop_rec h => exact ⟨stop_outlive_iff hinv hstep, stop_inv hinv hstep⟩
  | start h playing =>
    have hkept : Outlive σ' ∧ HubInv σ' := by
      rw [hub_step] at hstep
      split at hstep
      · obtain rfl := Option.some.inj hstep
        have houtlive := (Outlive.set_started (Function.update σ.started h true)).mpr hinv.outlive
        exact ⟨houtlive, houtlive, hinv.ids_lt, hinv.no_track_slots⟩
      · obtain rfl := Option.some.inj hstep
        exact ⟨hinv.outlive, hinv⟩
    exact ⟨iff_of_true hkept.1 trivial, fun _ => hkept.2⟩
  | hold who id =>
    rw [hub_step] at hstep
    split at hstep
    · rename_i hfree
      obtain rfl := Option.some.inj hstep
      have houtlive : Outlive { σ with held := (who, id) :: σ.held } := by
        refine ⟨fun p hp => ?_, hinv.outlive.usable, hinv.outlive.accounted, hinv.outlive.cleaned⟩
        obtain rfl | hp := List.mem_cons.mp hp
        · exact hfree.1
        · exact hinv.outlive.held_live p hp
      exact ⟨iff_of_true houtlive trivial, fun _ => ⟨houtlive, hinv.ids_lt, hinv.no_track_slots⟩⟩
    · cases hstep
  | finish who =>
    obtain rfl := Option.some.inj hstep
    have houtlive : Outlive { σ with held := σ.held.filter fun p => p.1 ≠ who } := by
      refine ⟨fun p hp => ?_, hinv.outlive.usable, hinv.outlive.accounted, hinv.outlive.cleaned⟩
      exact hinv.outlive.held_live p (List.mem_of_mem_filter hp)
    exact ⟨iff_of_true houtlive trivial, fun _ => ⟨houtlive, hinv.ids_lt, hinv.no_track_slots⟩⟩

theorem initial_hubInv : HubInv .initial where
  outlive := by
    constructor
    · intro p hp
      cases hp
    · intro h hcreated
      cases hcreated
    · exact .refl _
    · intro _
      rfl
  ids_lt id hid := by cases hid
  no_track_slots _ := rfl

/-- In a run the slots outlive their users all the time exactly when the hubs use them one after the
other. -/
theorem slots_outlive_users_iff {actions : List HubAction} {σ : HubState}
    (hrun : run hub_step .initial actions = some σ) :
    Meets hub_step (fun σ a => ∀ σ', hub_step σ a = some σ' → Outlive σ') .initial actions ↔
      Meets hub_step OneByOne .initial actions := by
  suffices hall : ∀ σ₀ : HubState, HubInv σ₀ → run hub_step σ₀ actions = some σ →
      (Meets hub_step (fun σ a => ∀ σ', hub_step σ a = some σ' → Outlive σ') σ₀ actions ↔
        Meets hub_step OneByOne σ₀ actions) from hall _ initial_hubInv hrun
  clear hrun
  induction actions with
  | nil => exact fun _ _ _ => Iff.rfl
  | cons a rest ih =>
    intro σ₀ hinv hrun
    obtain ⟨mid, hmid, hrest⟩ := run_cons_eq_some_iff.mp hrun
    obtain ⟨hiff, hkept⟩ := hub_step_outlive_iff hinv hmid
    constructor
    · rintro ⟨houtlive, hmeets⟩
      have hmid' := houtlive mid hmid
      refine ⟨hiff.mp hmid', fun next hnext => ?_⟩
      obtain rfl := Option.some.inj (hmid.symm.trans hnext)
      exact (ih mid (hkept hmid') hrest).mp (hmeets mid hmid)
    · rintro ⟨hone, hmeets⟩
      have hmid' := hiff.mpr hone
      refine ⟨fun next hnext => ?_, fun next hnext => ?_⟩
      · obtain rfl := Option.some.inj (hmid.symm.trans hnext)
        exact hmid'
      · obtain rfl := Option.some.inj (hmid.symm.trans hnext)
        exact (ih mid (hkept hmid') hrest).mpr (hmeets mid hmid)

def sample_args : H265HubCreateArgs := ⟨false, true, "", 40000⟩

/-- A `create` in which nothing fails. -/
def create_hub (h : Fin kStreams) : HubAction := .create h sample_args ⟨true, true, true, true⟩ fun _ => true

def first_hub : Fin kStreams := ⟨stream_index ⟨.S1, .V1234⟩, stream_index_lt _⟩

def second_hub : Fin kStreams := ⟨stream_index ⟨.S1, .V1⟩, stream_index_lt _⟩

/-- One hub after the other, while the worker holds a slot for a time. -/
def hubs_in_turn : List HubAction :=
  [create_hub first_hub, .start first_hub true, .hold .worker 0, .finish .worker, .stop first_hub,
    create_hub second_hub, .stop_rec second_hub]

theorem slots_outlive_users_sample :
    Meets hub_step (fun σ a => ∀ σ', hub_step σ a = some σ' → Outlive σ') .initial hubs_in_turn := by
  have hrun : (run hub_step .initial hubs_in_turn).isSome = true := by decide
  obtain ⟨σ, hσ⟩ := Option.isSome_iff_exists.mp hrun
  exact (slots_outlive_users_iff hσ).mpr (by decide)

/-- Two hubs are created, and the first is stopped while the worker holds a slot. -/
def two_hubs : List HubAction :=
  [create_hub first_hub, .start first_hub true, create_hub second_hub, .start second_hub true,
    .hold .worker 8, .stop first_hub]

/-- The first resource has been leaked, the second hub is left without slots, and the worker with a pointer
to a slot that is gone. -/
theorem two_hubs_share_slots :
    ∃ σ, run hub_step .initial two_hubs = some σ ∧
      (0 < σ.next_resource ∧ 0 ∉ σ.owned ∧ 0 ∉ σ.destroyed) ∧
      (σ.pipeline second_hub = true ∧ σ.slots = []) ∧ (.worker, 8) ∈ σ.held ∧ 8 ∉ σ.ids := by
  refine ⟨_, rfl, ⟨?_, ?_, ?_⟩, ⟨rfl, rfl⟩, ?_, ?_⟩
  · decide
  · decide
  · decide
  · decide
  · decide

end k180.osd
