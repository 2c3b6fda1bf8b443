import K180.Osd.Latest

open libc

namespace k180.osd

variable {D : Type*} {latest : LatestResult D} {fact : Option (Fact D)} {a : DetArray D}
  {ops : List (LatestOp D)} {frame_seq s n : ℕ} {dets : List D}

theorem DetArray.dets_eq_some_iff :
    a.dets = some dets ↔ 0 < a.count ∧ ∃ det, a.det = some det ∧ det.take a.count.toNat = dets := by
  rw [DetArray.dets]
  split
  · rename_i hcount
    rw [Option.map_eq_some_iff]
    exact ⟨fun h => ⟨hcount, h⟩, fun h => h.2⟩
  · rename_i hcount
    exact ⟨fun h => (nomatch h), fun h => absurd h.1 hcount⟩

theorem DetArray.count_eq_length (hdets : a.dets = some dets) : a.count = dets.length ∧ 0 < dets.length := by
  obtain ⟨hcount, det, hdet, rfl⟩ := DetArray.dets_eq_some_iff.mp hdets
  have hreadable := a.readable det (by rw [hdet]; rfl)
  rw [List.length_take]
  omega

/-- What the fields say about the past: they are valid as long as the last non-empty result is followed by few
empty ones, and then they are that result. -/
structure Encodes (latest : LatestResult D) (fact : Option (Fact D)) : Prop where
  max_fallback : latest.max_fallback_frames = latest_max_fallback_frames
  clear_after : latest.clear_after_empty = latest_clear_after_empty
  valid : latest.valid = true → ∃ f ∈ fact, f.empties < latest_clear_after_empty ∧
    latest.empty_streak = f.empties ∧ latest.frame_seq = f.frame_seq ∧ latest.det_count = f.dets.length ∧
    0 < f.dets.length ∧ latest.det_host.take f.dets.length = f.dets
  invalid : latest.valid = false → ∀ f ∈ fact, latest_clear_after_empty ≤ f.empties

theorem Encodes.update_empty (hencodes : Encodes latest fact) (frame_seq : ℕ) :
    Encodes (latest.update_empty frame_seq) (fact.map fun f => { f with empties := f.empties + 1 }) := by
  rw [LatestResult.update_empty, hencodes.clear_after]
  cases hvalid : latest.valid with
  | true =>
    obtain ⟨f, hf, hempties, hstreak, hseq, hcount, hpos, htake⟩ := hencodes.valid hvalid
    obtain rfl : fact = some f := hf
    have hnext : int_cast (latest.empty_streak + 1) = f.empties + 1 := by
      rw [hstreak, latest_clear_after_empty] at *
      exact int_cast_of_bounds (by omega) (by omega)
    rw [hnext]
    split
    · rename_i hclear
      refine ⟨hencodes.max_fallback, rfl, fun h => (nomatch h), fun _ f' hf' => ?_⟩
      obtain rfl := Option.some.inj hf'
      exact_mod_cast hclear
    · rename_i hkeep
      refine ⟨hencodes.max_fallback, rfl, fun _ => ⟨_, rfl, ?_, ?_, hseq, hcount, hpos, htake⟩,
        fun h => (nomatch h)⟩
      · exact_mod_cast not_le.mp hkeep
      · push_cast
        rfl
  | false =>
    have hinvalid : ∀ f' ∈ fact.map fun f => ({ f with empties := f.empties + 1 } : Fact D),
        latest_clear_after_empty ≤ f'.empties := by
      intro f' hf'
      obtain ⟨f, hf, rfl⟩ := Option.map_eq_some_iff.mp hf'
      exact (hencodes.invalid hvalid f hf).trans (Nat.le_succ _)
    split
    · exact ⟨hencodes.max_fallback, rfl, fun h => (nomatch h), fun _ => hinvalid⟩
    · exact ⟨hencodes.max_fallback, rfl, fun h => (nomatch h), fun _ => hinvalid⟩

/-- An update with an empty result. -/
def LatestOp.Empty : LatestOp D → Prop
  | .update _ a => a.dets = none
  | .clear => False

theorem fact_of_empties {f : Fact D} {after : List (LatestOp D)} (hempty : ∀ op ∈ after, op.Empty) :
    after.foldl Fact.op (some f) = some { f with empties := f.empties + after.length } := by
  induction after generalizing f with
  | nil => rfl
  | cons op rest ih =>
    obtain ⟨hop, hrest⟩ := List.forall_mem_cons.mp hempty
    cases op with
    | clear => cases hop
    | update frame_seq a =>
      have hdets : a.dets = none := hop
      rw [List.foldl_cons, Fact.op, hdets]
      dsimp only
      rw [Option.map_some, ih hrest, List.length_cons, Nat.add_assoc, Nat.add_comm 1]

/-- The fact is read off the last update with a result, which only empty updates have followed. -/
theorem fact_eq_some_iff : ops.foldl Fact.op none = some ⟨s, dets, n⟩ ↔
    ∃ before a after, ops = before ++ .update s a :: after ∧ a.dets = some dets ∧ (∀ op ∈ after, op.Empty) ∧
      after.length = n := by
  constructor
  · induction ops using List.reverseRecOn generalizing n with
    | nil => exact fun h => (nomatch h)
    | append_singleton ops op ih =>
      intro hfact
      rw [List.foldl_append, List.foldl_cons, List.foldl_nil] at hfact
      cases op with
      | clear => cases hfact
      | update frame_seq a =>
        rw [Fact.op] at hfact
        cases hdets : a.dets with
        | some dets' =>
          simp only [hdets, Option.some.injEq, Fact.mk.injEq] at hfact
          obtain ⟨rfl, rfl, rfl⟩ := hfact
          exact ⟨ops, a, [], rfl, hdets, fun _ h => (nomatch h), rfl⟩
        | none =>
          simp only [hdets, Option.map_eq_some_iff, Fact.mk.injEq] at hfact
          obtain ⟨⟨s', dets', n'⟩, hold, rfl, rfl, rfl⟩ := hfact
          obtain ⟨before, a', after, rfl, hdets', hempty, rfl⟩ := ih hold
          refine ⟨before, a', after ++ [.update frame_seq a], by simp, hdets', fun op hop => ?_, by simp⟩
          obtain hop | hop := List.mem_append.mp hop
          · exact hempty op hop
          · rw [List.mem_singleton.mp hop]
            exact hdets
  · rintro ⟨before, a, after, rfl, hdets, hempty, rfl⟩
    rw [List.foldl_append, List.foldl_cons]
    have hop : Fact.op (before.foldl Fact.op none) (.update s a) = some ⟨s, dets, 0⟩ := by
      rw [Fact.op, hdets]
    rw [hop, fact_of_empties hempty, Nat.zero_add]

/-- A non-empty update since the last clear is the last such update, has had fewer empty updates after it than
clear it, and has a frame number that a frame may fall back to. -/
def Available (ops : List (LatestOp D)) (frame_seq s : ℕ) (dets : List D) : Prop :=
  ∃ before a after, ops = before ++ .update s a :: after ∧ a.dets = some dets ∧ (∀ op ∈ after, op.Empty) ∧
    after.length < latest_clear_after_empty ∧ s ≠ 0 ∧ s ≤ frame_seq ∧ frame_seq ≤ s + latest_max_fallback_frames

theorem available_iff : Available ops frame_seq s dets ↔
    ∃ n, ops.foldl Fact.op none = some ⟨s, dets, n⟩ ∧ n < latest_clear_after_empty ∧ s ≠ 0 ∧ s ≤ frame_seq ∧
      frame_seq ≤ s + latest_max_fallback_frames := by
  simp only [fact_eq_some_iff]
  constructor
  · rintro ⟨before, a, after, hops, hdets, hempty, hlength, hrange⟩
    exact ⟨_, ⟨before, a, after, hops, hdets, hempty, rfl⟩, hlength, hrange⟩
  · rintro ⟨_, ⟨before, a, after, hops, hdets, hempty, rfl⟩, hlength, hrange⟩
    exact ⟨before, a, after, hops, hdets, hempty, hlength, hrange⟩

/-- A copy succeeds exactly when there is an available result, which it returns with its number; otherwise it
leaves the output alone. -/
def CopyLaw (ops : List (LatestOp D)) (frame_seq : ℕ) (o : CopyOut D) (result : Bool × CopyOut D) : Prop :=
  (result.1 = true ↔ ∃ s dets, Available ops frame_seq s dets) ∧
  (∀ s dets, Available ops frame_seq s dets → result.2 = ⟨dets, o.out_result_seq.map fun _ => s⟩) ∧
  (result.1 = false → result.2 = o)

/-- A copy reads off the fields what they say about the past. -/
theorem Encodes.copy_law (hencodes : Encodes latest (ops.foldl Fact.op none)) (frame_seq : ℕ) (o : CopyOut D) :
    CopyLaw ops frame_seq o (latest.copy frame_seq o) := by
  have hmax : (latest.max_fallback_frames % 2 ^ 64).toNat = latest_max_fallback_frames := by
    rw [hencodes.max_fallback]
    rfl
  cases hvalid : latest.valid with
  | false =>
    have hnone : ∀ s dets, ¬ Available ops frame_seq s dets := by
      rintro s dets havailable
      obtain ⟨n, hfact, hlt, -⟩ := available_iff.mp havailable
      exact absurd (hencodes.invalid hvalid _ hfact) (not_le.mpr hlt)
    rw [LatestResult.copy, if_pos hvalid]
    refine ⟨⟨fun h => (nomatch h), ?_⟩, fun s dets h => absurd h (hnone s dets), fun _ => rfl⟩
    rintro ⟨s, dets, h⟩
    exact absurd h (hnone s dets)
  | true =>
    obtain ⟨f, hf, hempties, -, hseq, hcount, hpos, htake⟩ := hencodes.valid hvalid
    have hfact : ops.foldl Fact.op none = some f := hf
    have hiff : ∀ s dets, Available ops frame_seq s dets ↔ (s = f.frame_seq ∧ dets = f.dets) ∧
        f.frame_seq ≠ 0 ∧ f.frame_seq ≤ frame_seq ∧ frame_seq ≤ f.frame_seq + latest_max_fallback_frames := by
      intro s dets
      rw [available_iff, hfact]
      constructor
      · rintro ⟨n, ⟨rfl⟩, -, hrange⟩
        exact ⟨⟨rfl, rfl⟩, hrange⟩
      · rintro ⟨⟨rfl, rfl⟩, hrange⟩
        exact ⟨_, rfl, hempties, hrange⟩
    have hcopied : latest.det_host.take latest.det_count.toNat = f.dets := by rw [hcount, Int.toNat_natCast, htake]
    rw [LatestResult.copy, hvalid, hmax, hseq, hcopied, if_neg Bool.true_eq_false.mp, if_neg (by omega)]
    by_cases hrange : f.frame_seq ≠ 0 ∧ f.frame_seq ≤ frame_seq ∧
        frame_seq ≤ f.frame_seq + latest_max_fallback_frames
    · obtain ⟨hzero, hle, hmax⟩ := hrange
      rw [if_neg hzero, if_neg (by omega), if_neg (by omega)]
      refine ⟨⟨fun _ => ⟨_, _, (hiff _ _).mpr ⟨⟨rfl, rfl⟩, hzero, hle, hmax⟩⟩, fun _ => rfl⟩, ?_, fun h => (nomatch h)⟩
      intro s dets havailable
      obtain ⟨⟨rfl, rfl⟩, -⟩ := (hiff s dets).mp havailable
      rfl
    · have hnone : ∀ s dets, ¬ Available ops frame_seq s dets := fun s dets h => hrange ((hiff s dets).mp h).2
      have hfail : ∀ {b : Bool}, b = false → CopyLaw ops frame_seq o (b, o) := by
        rintro _ rfl
        refine ⟨⟨fun h => (nomatch h), ?_⟩, fun s dets h => absurd h (hnone s dets), fun _ => rfl⟩
        rintro ⟨s, dets, h⟩
        exact absurd h (hnone s dets)
      split
      · exact hfail rfl
      · split
        · exact hfail rfl
        · rw [if_pos (by omega)]
          exact hfail rfl

variable [Inhabited D]

/-- A non-empty result is stored in front of whatever is left in the buffer. -/
theorem LatestResult.update_of_dets (frame_seq : ℕ) (hdets : a.dets = some dets) :
    ∃ rest, latest.update frame_seq a = { latest with
      det_host := dets ++ rest, det_count := dets.length, frame_seq, valid := true, empty_streak := 0 } := by
  have hlength := (DetArray.count_eq_length hdets).1
  obtain ⟨hcount, det, hdet, htake⟩ := DetArray.dets_eq_some_iff.mp hdets
  rw [LatestResult.update, hdet]
  dsimp only
  rw [if_pos hcount, htake, hlength]
  exact ⟨_, rfl⟩

theorem LatestResult.update_of_none (hdets : a.dets = none) :
    latest.update frame_seq a = latest.update_empty frame_seq := by
  rw [LatestResult.update]
  split
  · rename_i det hdet
    rw [if_neg]
    intro hcount
    have hsome := DetArray.dets_eq_some_iff.mpr ⟨hcount, det, hdet, rfl⟩
    rw [hdets] at hsome
    cases hsome
  · rfl

theorem encodes_initial (max_det : ℕ) : Encodes (.initial max_det : LatestResult D) none where
  max_fallback := rfl
  clear_after := rfl
  valid h := nomatch h
  invalid _ _ h := nomatch h

/-- The code's fields follow the fact about the past, call by call. -/
theorem Encodes.op (hencodes : Encodes latest fact) (op : LatestOp D) :
    Encodes (latest.op op) (Fact.op fact op) := by
  cases op with
  | clear => exact ⟨hencodes.max_fallback, hencodes.clear_after, fun h => (nomatch h), fun _ _ h => (nomatch h)⟩
  | update frame_seq a =>
    rw [LatestResult.op, Fact.op]
    cases hdets : a.dets with
    | some dets =>
      obtain ⟨rest, hupdate⟩ := latest.update_of_dets frame_seq hdets
      rw [hupdate]
      refine ⟨hencodes.max_fallback, hencodes.clear_after, fun _ => ⟨_, rfl, Nat.two_pos, rfl, rfl, rfl, ?_, ?_⟩,
        fun h => (nomatch h)⟩
      · exact (DetArray.count_eq_length hdets).2
      · exact List.take_left
    | none =>
      rw [LatestResult.update_of_none hdets]
      exact hencodes.update_empty frame_seq

theorem encodes_run (max_det : ℕ) (ops : List (LatestOp D)) :
    Encodes (ops.foldl LatestResult.op (.initial max_det)) (ops.foldl Fact.op none) := by
  have hrun : ∀ (ops : List (LatestOp D)) (latest : LatestResult D) fact, Encodes latest fact →
      Encodes (ops.foldl LatestResult.op latest) (ops.foldl Fact.op fact) := by
    intro ops
    induction ops with
    | nil => exact fun _ _ hencodes => hencodes
    | cons op rest ih => exact fun latest fact hencodes => ih _ _ (hencodes.op op)
  exact hrun ops _ _ (encodes_initial max_det)

theorem latest_call (shared : OsdShared D) (call : LatestCall D) :
    (shared.call call).latest = call.detect_op.toList.foldl LatestResult.op shared.latest ∧
    (shared.call call).latest_track = call.track_op.toList.foldl LatestResult.op shared.latest_track := by
  cases call with
  | detect op => cases op <;> exact ⟨rfl, rfl⟩
  | track op => cases op <;> exact ⟨rfl, rfl⟩
  | _ => exact ⟨rfl, rfl⟩

/-- Each path has seen its own calls only. -/
theorem latest_run (shared : OsdShared D) (calls : List (LatestCall D)) :
    (calls.foldl OsdShared.call shared).latest =
      (calls.filterMap LatestCall.detect_op).foldl LatestResult.op shared.latest ∧
    (calls.foldl OsdShared.call shared).latest_track =
      (calls.filterMap LatestCall.track_op).foldl LatestResult.op shared.latest_track := by
  induction calls generalizing shared with
  | nil => exact ⟨rfl, rfl⟩
  | cons call rest ih =>
    obtain ⟨hlatest, htrack⟩ := latest_call shared call
    obtain ⟨hrest, hrest_track⟩ := ih (shared.call call)
    rw [List.foldl_cons, hrest, hrest_track, hlatest, htrack, List.filterMap_cons, List.filterMap_cons]
    cases call.detect_op <;> cases call.track_op <;> exact ⟨rfl, rfl⟩

/-- After any sequence of updates, clears and copies on both paths, a copy on either obeys the law of the
latest result with respect to the calls on its own path. -/
theorem latest_result_law (max_det : ℕ) (calls : List (LatestCall D)) (frame_seq : ℕ) (o : CopyOut D) :
    CopyLaw (calls.filterMap LatestCall.detect_op) frame_seq o
      (osd_copy_latest_result (calls.foldl OsdShared.call (.initial max_det)) frame_seq o) ∧
    CopyLaw (calls.filterMap LatestCall.track_op) frame_seq o
      (osd_copy_latest_track_result (calls.foldl OsdShared.call (.initial max_det)) frame_seq o) := by
  obtain ⟨hlatest, htrack⟩ := latest_run (.initial max_det) calls
  constructor
  · rw [osd_copy_latest_result, hlatest]
    exact (encodes_run max_det _).copy_law frame_seq o
  · rw [osd_copy_latest_track_result, htrack]
    exact (encodes_run max_det _).copy_law frame_seq o

end k180.osd
