import K180.Tracking.Table

namespace k180.tracking

variable {res : List Detection} {res_used : ℕ → Bool} {track : STrack} {tracks : List STrack}
  {best_idx : Option ℕ} {n : ℕ}

/-- The loop keeps the best so far, or has found an unused detection that is at least as good as all. -/
theorem best_match_spec (track : STrack) (res_used : ℕ → Bool) (rest : List Detection) (i : ℕ)
    (best : Option ℕ × ℚ) :
    best.2 ≤ (best_match track res_used rest i best).2 ∧
    (∀ j det, rest[j]? = some det → res_used (i + j) = false →
      IoU_tlwh_vs_bbox track.tlwh det ≤ (best_match track res_used rest i best).2) ∧
    (best_match track res_used rest i best = best ∨ ∃ j det, rest[j]? = some det ∧
      res_used (i + j) = false ∧
      best_match track res_used rest i best = (some (i + j), IoU_tlwh_vs_bbox track.tlwh det)) := by
  induction rest generalizing i best with
  | nil => exact ⟨le_rfl, fun j det hdet => (nomatch hdet), .inl rfl⟩
  | cons det rest ih =>
    have hshift (j : ℕ) : i + 1 + j = i + (j + 1) := by omega
    by_cases hused : res_used i = true
    · have hskip : best_match track res_used (det :: rest) i best =
          best_match track res_used rest (i + 1) best := by rw [best_match, if_pos hused]
      obtain ⟨hle, hbound, hfound⟩ := ih (i + 1) best
      rw [hskip]
      refine ⟨hle, fun j det' hdet' hfree => ?_, hfound.imp_right ?_⟩
      · cases j with
        | zero => exact absurd hused (by simpa using hfree)
        | succ j => exact hbound j det' hdet' (by rwa [hshift])
      · rintro ⟨j, det', hdet', hfree, heq⟩
        exact ⟨j + 1, det', hdet', by rwa [← hshift], by rw [heq, hshift]⟩
    · let best' := if best.2 < IoU_tlwh_vs_bbox track.tlwh det then
        (some i, IoU_tlwh_vs_bbox track.tlwh det) else best
      have htake : best_match track res_used (det :: rest) i best =
          best_match track res_used rest (i + 1) best' := by rw [best_match, if_neg hused]
      have hbest' : best.2 ≤ best'.2 ∧ IoU_tlwh_vs_bbox track.tlwh det ≤ best'.2 ∧
          (best' = best ∨ best' = (some i, IoU_tlwh_vs_bbox track.tlwh det)) := by
        simp only [best']
        split
        · rename_i hlt
          exact ⟨hlt.le, le_rfl, .inr rfl⟩
        · rename_i hge
          exact ⟨le_rfl, not_lt.mp hge, .inl rfl⟩
      obtain ⟨hle, hbound, hfound⟩ := ih (i + 1) best'
      rw [htake]
      refine ⟨hbest'.1.trans hle, fun j det' hdet' hfree => ?_, ?_⟩
      · cases j with
        | zero =>
          obtain rfl : det = det' := Option.some.inj hdet'
          exact hbest'.2.1.trans hle
        | succ j => exact hbound j det' hdet' (by rwa [hshift])
      · rcases hfound with heq | ⟨j, det', hdet', hfree, heq⟩
        · rw [heq]
          exact hbest'.2.2.imp_right fun hi => ⟨0, det, rfl, by simpa using hused, hi⟩
        · exact .inr ⟨j + 1, det', hdet', by rwa [← hshift], by rw [heq, hshift]⟩

/-- What a track may be given when the detections in `free` are left. -/
structure GreedyChoice (res : List Detection) (free : ℕ → Prop) (track : STrack) (best_idx : Option ℕ) :
    Prop where
  best : ∀ i ∈ best_idx, ∃ det, res[i]? = some det ∧ free i ∧
    IOU_THRESHOLD ≤ IoU_tlwh_vs_bbox track.tlwh det ∧ ∀ j det', res[j]? = some det' → free j →
      IoU_tlwh_vs_bbox track.tlwh det' ≤ IoU_tlwh_vs_bbox track.tlwh det
  none_left : best_idx = none → ∀ j det, res[j]? = some det → free j →
    IoU_tlwh_vs_bbox track.tlwh det < IOU_THRESHOLD

theorem GreedyChoice.congr {free free' : ℕ → Prop} (hfree : ∀ j, free j ↔ free' j)
    (hchoice : GreedyChoice res free track best_idx) : GreedyChoice res free' track best_idx := by
  obtain rfl : free = free' := funext fun j => propext (hfree j)
  exact hchoice

theorem match_track_greedy (res : List Detection) (res_used : ℕ → Bool) (track : STrack) :
    GreedyChoice res (fun j => res_used j = false) track (match_track res res_used track) := by
  obtain ⟨-, hbound, hfound⟩ := best_match_spec track res_used res 0 (none, 0)
  simp only [zero_add] at hbound hfound
  have hpos : (0 : ℚ) < IOU_THRESHOLD := by norm_num [IOU_THRESHOLD]
  by_cases henough : IOU_THRESHOLD ≤ (best_match track res_used res 0 (none, 0)).2
  · have hmatch : match_track res res_used track = (best_match track res_used res 0 (none, 0)).1 :=
      if_pos henough
    rcases hfound with heq | ⟨i, det, hdet, hfree, heq⟩
    · rw [heq] at henough
      exact absurd henough (not_le.mpr hpos)
    · rw [hmatch]
      rw [heq] at hbound henough ⊢
      refine ⟨fun i' hi' => ?_, nofun⟩
      obtain rfl : i = i' := Option.some.inj hi'
      exact ⟨det, hdet, hfree, henough, hbound⟩
  · have hmatch : match_track res res_used track = none := if_neg henough
    rw [hmatch]
    exact ⟨nofun, fun _ j det hdet hfree => (hbound j det hdet hfree).trans_lt (not_le.mp henough)⟩

/-- Detection `j` is not given to one of the first `n` tracks. -/
def Untaken (assigned : List (Option ℕ)) (n j : ℕ) : Prop := ∀ m < n, assigned[m]? ≠ some (some j)

theorem untaken_succ_iff {assigned : List (Option ℕ)} {j : ℕ} :
    Untaken (best_idx :: assigned) (n + 1) j ↔ best_idx ≠ some j ∧ Untaken assigned n j := by
  constructor
  · intro h
    refine ⟨fun hj => h 0 (Nat.succ_pos n) (by rw [hj]; rfl), fun m hm => ?_⟩
    exact h (m + 1) (Nat.succ_lt_succ hm)
  · rintro ⟨hfirst, hrest⟩ m hm
    cases m with
    | zero => exact fun hj => hfirst (Option.some.inj hj)
    | succ m => exact hrest m (Nat.lt_of_succ_lt_succ hm)

theorem mark_used_eq_false_iff {j : ℕ} :
    mark_used res_used best_idx j = false ↔ best_idx ≠ some j ∧ res_used j = false := by
  cases best_idx with
  | none => simp [mark_used]
  | some i =>
    by_cases hj : j = i
    · simp [mark_used, hj]
    · simp [mark_used, Function.update_of_ne hj, Ne.symm hj]

/-- The detections marked as used are those given away before. -/
theorem assignments_greedy (hget : tracks[n]? = some track)
    (hassigned : (assignments res res_used tracks)[n]? = some best_idx) :
    GreedyChoice res (fun j => res_used j = false ∧ Untaken (assignments res res_used tracks) n j) track
      best_idx := by
  induction tracks generalizing res_used n with
  | nil => cases hget
  | cons first rest ih =>
    rw [assignments] at hassigned ⊢
    cases n with
    | zero =>
      obtain rfl : first = track := Option.some.inj hget
      obtain rfl : match_track res res_used first = best_idx := Option.some.inj hassigned
      exact (match_track_greedy res res_used first).congr fun j =>
        ⟨fun hfree => ⟨hfree, fun m hm => absurd hm (Nat.not_lt_zero m)⟩, fun hfree => hfree.1⟩
    | succ n =>
      refine (ih hget hassigned).congr fun j => ?_
      rw [untaken_succ_iff, mark_used_eq_false_iff]
      tauto

theorem length_assignments (res : List Detection) (res_used : ℕ → Bool) (tracks : List STrack) :
    (assignments res res_used tracks).length = tracks.length := by
  induction tracks generalizing res_used with
  | nil => rfl
  | cons track rest ih => rw [assignments, List.length_cons, ih, List.length_cons]

/-- Two tracks are never given the same detection. -/
theorem assignments_inj {m i : ℕ} (hm : (assignments res res_used tracks)[m]? = some (some i))
    (hn : (assignments res res_used tracks)[n]? = some (some i)) : m = n := by
  have hlater (m n : ℕ) (hlt : m < n) (hm : (assignments res res_used tracks)[m]? = some (some i))
      (hn : (assignments res res_used tracks)[n]? = some (some i)) : False := by
    have hlen := (List.getElem?_eq_some_iff.mp hn).1
    rw [length_assignments] at hlen
    obtain ⟨-, -, ⟨-, huntaken⟩, -⟩ :=
      (assignments_greedy (List.getElem?_eq_getElem hlen) hn).best i rfl
    exact huntaken m hlt hm
  rcases lt_trichotomy m n with hlt | heq | hgt
  · exact (hlater m n hlt hm hn).elim
  · exact heq
  · exact (hlater n m hgt hn hm).elim

theorem updated_tracks_of_not_mem {prev_tracks updated_tracks : TrackTable} {id : ℤ}
    (hid : id ∉ tracks.map STrack.track_id) :
    (tracks.foldl (build_track prev_tracks res) ⟨res_used, updated_tracks⟩).updated_tracks id =
      updated_tracks id := by
  induction tracks generalizing res_used updated_tracks with
  | nil => rfl
  | cons first rest ih =>
    rw [List.map_cons, List.mem_cons, not_or] at hid
    rw [List.foldl_cons, build_track, ih hid.2, Function.update_of_ne hid.1]

/-- The loop over the tracks leaves the entry of each of them with the detection it was given. -/
theorem updated_tracks_of_mem {prev_tracks updated_tracks : TrackTable}
    (hnodup : (tracks.map STrack.track_id).Nodup) (hget : tracks[n]? = some track)
    (hassigned : (assignments res res_used tracks)[n]? = some best_idx) :
    (tracks.foldl (build_track prev_tracks res) ⟨res_used, updated_tracks⟩).updated_tracks track.track_id =
      some (track_object prev_tracks track (assigned_detection res track best_idx)) := by
  induction tracks generalizing res_used updated_tracks n with
  | nil => cases hget
  | cons first rest ih =>
    obtain ⟨hfirst, hrest⟩ := List.nodup_cons.mp hnodup
    rw [List.foldl_cons, build_track]
    cases n with
    | zero =>
      obtain rfl : first = track := Option.some.inj hget
      obtain rfl : match_track res res_used first = best_idx := Option.some.inj hassigned
      rw [updated_tracks_of_not_mem hfirst, Function.update_self]
    | succ n => exact ih hrest hget hassigned

theorem age_lost_apply (table : TrackTable) (id : ℤ) :
    age_lost table id = (table id).bind fun obj =>
      if obj.tracker.checked = true then some obj
      else if MAX_LOST ≤ obj.tracker.lost_count then none
      else some { obj with tracker := { obj.tracker with lost_count := obj.tracker.lost_count + 1 } } := by
  simp only [age_lost]
  cases table id with
  | none => rfl
  | some obj =>
    by_cases hchecked : obj.tracker.checked = true
    · simp [hchecked]
    · simp [hchecked]

theorem updateTrackTable_of_mem {call : Call} (table : TrackTable) (hnodup : call.ids.Nodup)
    (hget : call.output_tracks[n]? = some track)
    (hassigned : (assignments call.res (fun _ => false) call.output_tracks)[n]? = some best_idx) :
    updateTrackTable call table track.track_id =
      some (track_object table track (assigned_detection call.res track best_idx)) := by
  have hchecked (det : Detection) : (track_object table track det).tracker.checked = true := by
    rw [track_object]
    split <;> rfl
  rw [updateTrackTable, age_lost_apply, apply_updates, updated_tracks_of_mem hnodup hget hassigned,
    Option.bind_some, if_pos (hchecked _)]

/-- An entry whose track is not seen is kept for `MAX_LOST` calls. -/
theorem updateTrackTable_of_not_mem {call : Call} (table : TrackTable) {id : ℤ} (hid : id ∉ call.ids) :
    updateTrackTable call table id = (table id).bind fun obj =>
      if MAX_LOST ≤ obj.tracker.lost_count then none
      else some { obj with
        tracker := { obj.tracker with checked := false, lost_count := obj.tracker.lost_count + 1 } } := by
  rw [updateTrackTable, age_lost_apply, apply_updates, updated_tracks_of_not_mem hid, mark_unchecked]
  cases table id with
  | none => rfl
  | some obj => rfl

/-- Which detections the entries of a call's tracks have. -/
structure AssignmentLaw (call : Call) (assigned : List (Option ℕ)) (table : TrackTable) : Prop where
  length_eq : assigned.length = call.output_tracks.length
  at_most_once : ∀ m n i : ℕ, assigned[m]? = some (some i) → assigned[n]? = some (some i) → m = n
  greedy : ∀ (n : ℕ) track best_idx, call.output_tracks[n]? = some track → assigned[n]? = some best_idx →
    GreedyChoice call.res (Untaken assigned n) track best_idx
  matched : ∀ (n : ℕ) track (i : ℕ), call.output_tracks[n]? = some track → assigned[n]? = some (some i) →
    ∃ obj, table track.track_id = some obj ∧ call.res[i]? = some obj.det
  unmatched : ∀ (n : ℕ) track, call.output_tracks[n]? = some track → assigned[n]? = some none →
    ∃ obj, table track.track_id = some obj ∧ obj.det = make_detection_from_track track

theorem track_object_det (table : TrackTable) (track : STrack) (det : Detection) :
    (track_object table track det).det = det := by
  rw [track_object]
  split <;> rfl

theorem assignment_law (call : Call) (table : TrackTable) (hnodup : call.ids.Nodup) :
    AssignmentLaw call (assignments call.res (fun _ => false) call.output_tracks)
      (updateTrackTable call table) where
  length_eq := length_assignments _ _ _
  at_most_once m n i hm hn := assignments_inj hm hn
  greedy n track best_idx hget hassigned :=
    (assignments_greedy hget hassigned).congr fun j => ⟨fun h => h.2, fun h => ⟨rfl, h⟩⟩
  matched n track i hget hassigned := by
    refine ⟨_, updateTrackTable_of_mem table hnodup hget hassigned, ?_⟩
    obtain ⟨det, hdet, -⟩ := (assignments_greedy hget hassigned).best i rfl
    rw [track_object_det, assigned_detection, Option.bind_some, hdet, Option.getD_some]
  unmatched n track hget hassigned :=
    ⟨_, updateTrackTable_of_mem table hnodup hget hassigned, track_object_det _ _ _⟩

end k180.tracking
