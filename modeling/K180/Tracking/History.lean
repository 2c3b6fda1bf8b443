import K180.Tracking.Assignment

namespace k180.tracking

variable {history older : List Call} {call : Call} {id : ℤ} {obj : ObjectTrackData} {track : STrack}

/-- What an entry says of the calls before, the newest first. -/
structure EntryLaw (history : List Call) (id : ℤ) (obj : ObjectTrackData) : Prop where
  key : obj.tracker.track_id = id
  lost_range : 0 ≤ obj.tracker.lost_count ∧ obj.tracker.lost_count ≤ 5
  last_seen : ∃ (n : ℕ) (call : Call) (track : STrack), obj.tracker.lost_count = n ∧
    history[n]? = some call ∧ track ∈ call.output_tracks ∧ track.track_id = id ∧
    obj.tracker.tlwh = track.tlwh ∧ ∀ later ∈ history.take n, id ∉ later.ids
  age : ∃ recent before, history = recent ++ before ∧ g_tracks_by_id before id = none ∧
    (∀ n < recent.length, (g_tracks_by_id (recent.drop n ++ before) id).isSome = true) ∧
    obj.tracker.age = recent.countP fun call => decide (id ∈ call.ids)

/-- The table keeps the ids of the last six calls, and what it has of each of them. -/
structure HistoryLaw (history : List Call) (id : ℤ) : Prop where
  present : (g_tracks_by_id history id).isSome = true ↔ ∃ call ∈ history.take 6, id ∈ call.ids
  entry : ∀ obj, g_tracks_by_id history id = some obj → EntryLaw history id obj

theorem g_tracks_by_id_cons (call : Call) (older : List Call) :
    g_tracks_by_id (call :: older) = updateTrackTable call (g_tracks_by_id older) := rfl

theorem EntryLaw.seen (hentry : EntryLaw history id obj) : ∃ call ∈ history.take 6, id ∈ call.ids := by
  obtain ⟨n, call, track, hlost, hget, htrack, rfl, -, -⟩ := hentry.last_seen
  have hle := hentry.lost_range.2
  refine ⟨call, ?_, List.mem_map_of_mem htrack⟩
  exact List.mem_iff_getElem?.mpr ⟨n, by rw [List.getElem?_take_of_lt (by omega), hget]⟩

/-- The entry of a track of the newest call. -/
theorem historyLaw_of_mem (hlaw : HistoryLaw older track.track_id) (htrack : track ∈ call.output_tracks)
    (hobj : ∃ det, updateTrackTable call (g_tracks_by_id older) track.track_id =
      some (track_object (g_tracks_by_id older) track det)) :
    HistoryLaw (call :: older) track.track_id := by
  have hid : track.track_id ∈ call.ids := List.mem_map_of_mem htrack
  obtain ⟨det, hdet⟩ := hobj
  rw [← g_tracks_by_id_cons] at hdet
  refine ⟨?_, fun obj hobj => ?_⟩
  · rw [hdet]
    exact iff_of_true rfl ⟨call, List.mem_cons_self, hid⟩
  · obtain rfl := Option.some.inj (hdet.symm.trans hobj)
    cases hprev : g_tracks_by_id older track.track_id with
    | none =>
      rw [track_object, hprev]
      exact {
        key := rfl
        lost_range := ⟨le_rfl, by norm_num⟩
        last_seen := ⟨0, call, track, rfl, rfl, htrack, rfl, rfl, fun _ h => absurd h List.not_mem_nil⟩
        age := ⟨[call], older, rfl, hprev, fun n hn => by
          obtain rfl : n = 0 := Nat.lt_one_iff.mp hn
          rw [List.drop_zero, List.singleton_append, hdet]
          rfl, by simp [hid]⟩ }
    | some obj =>
      obtain ⟨recent, before, hsplit, hbefore, hpresent, hage⟩ := (hlaw.entry obj hprev).age
      have hkey := (hlaw.entry obj hprev).key
      rw [track_object, hprev]
      exact {
        key := hkey
        lost_range := ⟨le_rfl, by norm_num⟩
        last_seen := ⟨0, call, track, rfl, rfl, htrack, rfl, rfl, fun _ h => absurd h List.not_mem_nil⟩
        age := ⟨call :: recent, before, by rw [hsplit, List.cons_append], hbefore, fun n hn => by
          cases n with
          | zero =>
            rw [List.drop_zero, List.cons_append, ← hsplit, hdet]
            rfl
          | succ n => exact hpresent n (Nat.lt_of_succ_lt_succ hn), by simp [hid, hage]⟩ }

theorem not_seen_cons {n : ℕ} (hid : id ∉ call.ids) (hold : ∀ later ∈ older.take n, id ∉ later.ids) :
    ∀ later ∈ (call :: older).take (n + 1), id ∉ later.ids := by
  rw [List.take_succ_cons]
  exact List.forall_mem_cons.mpr ⟨hid, hold⟩

/-- The table after a call without the track, where it was not in the table or lost for too long. -/
theorem historyLaw_of_none (hnone : g_tracks_by_id history id = none)
    (hseen : ∀ call ∈ history.take 6, id ∉ call.ids) : HistoryLaw history id where
  present := by
    rw [hnone]
    exact iff_of_false (fun h => nomatch h) fun ⟨call, hcall, hid⟩ => hseen call hcall hid
  entry obj hobj := nomatch hnone.symm.trans hobj

theorem historyLaw_of_not_mem (hlaw : HistoryLaw older id) (hid : id ∉ call.ids) :
    HistoryLaw (call :: older) id := by
  have hupdate := updateTrackTable_of_not_mem (g_tracks_by_id older) hid
  rw [← g_tracks_by_id_cons] at hupdate
  cases hprev : g_tracks_by_id older id with
  | none =>
    rw [hprev, Option.bind_none] at hupdate
    refine historyLaw_of_none hupdate (not_seen_cons hid fun later hlater hmem => ?_)
    have hpresent := hlaw.present.mpr ⟨later, List.take_subset_take_left older (by decide) hlater, hmem⟩
    rw [hprev] at hpresent
    cases hpresent
  | some obj =>
    have hentry := hlaw.entry obj hprev
    obtain ⟨n, last, track, hlost, hget, htrack, htrackId, htlwh, hlater⟩ := hentry.last_seen
    have hrange := hentry.lost_range
    rw [hprev, Option.bind_some] at hupdate
    by_cases hlong : MAX_LOST ≤ obj.tracker.lost_count
    · rw [if_pos hlong] at hupdate
      have hn : n = 5 := by
        rw [MAX_LOST] at hlong
        omega
      subst hn
      exact historyLaw_of_none hupdate (not_seen_cons hid hlater)
    · rw [if_neg hlong] at hupdate
      have hentry' : EntryLaw (call :: older) id { obj with
          tracker := { obj.tracker with checked := false, lost_count := obj.tracker.lost_count + 1 } } := by
        obtain ⟨recent, before, hsplit, hbefore, hpresent, hage⟩ := hentry.age
        rw [MAX_LOST] at hlong
        exact {
          key := hentry.key
          lost_range := ⟨by simp only; omega, by simp only; omega⟩
          last_seen := ⟨n + 1, last, track, by simp [hlost], hget, htrack, htrackId, htlwh,
            not_seen_cons hid hlater⟩
          age := ⟨call :: recent, before, by rw [hsplit, List.cons_append], hbefore, fun m hm => by
            cases m with
            | zero =>
              rw [List.drop_zero, List.cons_append, ← hsplit, hupdate]
              rfl
            | succ m => exact hpresent m (Nat.lt_of_succ_lt_succ hm), by simp [hid, hage]⟩ }
      refine ⟨?_, fun obj' hobj' => ?_⟩
      · rw [hupdate]
        exact iff_of_true rfl hentry'.seen
      · obtain rfl := Option.some.inj (hupdate.symm.trans hobj')
        exact hentry'

theorem history_law (hdistinct : ∀ call ∈ history, call.ids.Nodup) (id : ℤ) : HistoryLaw history id := by
  induction history with
  | nil => exact historyLaw_of_none rfl fun call hcall => nomatch hcall
  | cons call older ih =>
    obtain ⟨hnodup, hrest⟩ := List.forall_mem_cons.mp hdistinct
    by_cases hid : id ∈ call.ids
    · obtain ⟨track, htrack, rfl⟩ := List.mem_map.mp hid
      obtain ⟨n, hget⟩ := List.mem_iff_getElem?.mp htrack
      have hassigned := List.getElem?_eq_getElem (i := n)
        (l := assignments call.res (fun _ => false) call.output_tracks)
        (by rw [length_assignments]; exact (List.getElem?_eq_some_iff.mp hget).1)
      exact historyLaw_of_mem (ih hrest) htrack ⟨_, updateTrackTable_of_mem _ hnodup hget hassigned⟩
    · exact historyLaw_of_not_mem (ih hrest) hid

/-- The track table after any calls whose tracks have distinct ids, and the detections that one call
gives to its tracks. -/
theorem track_table_law (history : List Call) (hdistinct : ∀ call ∈ history, call.ids.Nodup) :
    (∀ id, HistoryLaw history id) ∧
    ∀ call older, history = call :: older →
      AssignmentLaw call (assignments call.res (fun _ => false) call.output_tracks)
        (g_tracks_by_id history) := by
  refine ⟨history_law hdistinct, fun call older hsplit => ?_⟩
  subst hsplit
  exact assignment_law call (g_tracks_by_id older) (hdistinct call List.mem_cons_self)

/-- A detection and the track that it is given, called twice. -/
theorem track_table_law_two_calls : ∃ obj,
    g_tracks_by_id (List.replicate 2 ⟨[⟨⟨0, 0, 10, 10⟩, 1, 0⟩], [⟨7, ⟨0, 0, 10, 10⟩, 1⟩]⟩) 7 = some obj ∧
    EntryLaw (List.replicate 2 ⟨[⟨⟨0, 0, 10, 10⟩, 1, 0⟩], [⟨7, ⟨0, 0, 10, 10⟩, 1⟩]⟩) 7 obj :=
  ⟨_, rfl, ((track_table_law _ (by decide)).1 7).entry _ rfl⟩

end k180.tracking
