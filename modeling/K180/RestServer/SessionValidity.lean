import K180.RestServer.Sessions

open json_c libc binary_float

namespace k180.restful_api_server

/-- The session of a token that has been used last at a time. -/
def session_at (last : time_t) : Json := .object [("last_used", .int last.toInt)]

theorem json_object_get_int64_toInt (t : time_t) : json_object_get_int64 t.toInt = t.toInt := by
  have hlo := t.le_toInt
  have hhi := t.toInt_lt
  rw [json_object_get_int64]
  omega

theorem difftime_expiry (now last : time_t) :
    (difftime now.toInt (json_object_get_int64 last.toInt)).le (.fin TOKEN_EXPIRY_SECONDS) = true ↔
      now.toInt - last.toInt ≤ TOKEN_EXPIRY_SECONDS := by
  have hnow := And.intro now.le_toInt now.toInt_lt
  have hlast := And.intro last.le_toInt last.toInt_lt
  rw [json_object_get_int64_toInt]
  exact difftime_le_iff (by omega) (by omega) (by decide)

theorem is_expired_session_at (now last : time_t) :
    is_expired now (session_at last) = true ↔ TOKEN_EXPIRY_SECONDS < now.toInt - last.toInt := by
  have hnow := And.intro now.le_toInt now.toInt_lt
  have hlast := And.intro last.le_toInt last.toInt_lt
  simp only [is_expired, session_at, json_object_object_get_ex_object, Members.get, if_true,
    json_object_get_int64_toInt]
  exact lt_difftime_iff (by omega) (by omega) (by decide)

theorem get_login (session_map : List (String × Json)) (token token' : String) (now : time_t) :
    Members.get token' (login session_map token now) =
      if token = token' then some (session_at now) else Members.get token' session_map :=
  Members.get_add token token' _ session_map

/-- A check of a token that is there passes within the expiry time, and then counts as a use. -/
theorem is_token_valid_of_get {session_map : List (String × Json)} {token : String} {last : time_t}
    (hget : Members.get token session_map = some (session_at last)) (now : time_t) :
    is_token_valid session_map token now =
      if now.toInt - last.toInt ≤ TOKEN_EXPIRY_SECONDS then
        (true, Members.add token (session_at now) session_map)
      else (false, session_map) := by
  simp only [is_token_valid, hget, session_at, Members.get, if_true, Members.add]
  exact if_congr (difftime_expiry now last) rfl rfl

theorem is_token_valid_of_get_none {session_map : List (String × Json)} {token : String}
    (hget : Members.get token session_map = none) (now : time_t) :
    is_token_valid session_map token now = (false, session_map) := by
  rw [is_token_valid, hget]

/-- A check leaves the sessions of other tokens alone. -/
theorem get_is_token_valid_of_ne (session_map : List (String × Json)) {token token' : String}
    (now : time_t) (hne : token ≠ token') :
    Members.get token' (is_token_valid session_map token now).2 = Members.get token' session_map := by
  unfold is_token_valid
  split
  · split
    · split
      · rw [Members.get_add, if_neg hne]
      · rfl
    · rfl
  · rfl

theorem unique_is_token_valid {session_map : List (String × Json)} (hunique : Members.Unique session_map)
    (token : String) (now : time_t) : Members.Unique (is_token_valid session_map token now).2 := by
  unfold is_token_valid
  split
  · split
    · split
      · exact hunique.add _ _
      · exact hunique
    · exact hunique
  · exact hunique

/-- Only keys of expired sessions are marked for deletion. -/
theorem mem_to_delete {now : time_t} {members : List (String × Json)} {count : ℕ} {token : String}
    (hmem : token ∈ to_delete now members count) :
    ∃ session, (token, session) ∈ members ∧ is_expired now session = true := by
  induction members generalizing count with
  | nil => cases hmem
  | cons m rest ih =>
    obtain ⟨key, val⟩ := m
    rw [to_delete] at hmem
    split at hmem
    · split at hmem
      · rename_i hexpired
        obtain rfl | hrest := List.mem_cons.mp hmem
        · exact ⟨val, List.mem_cons_self, hexpired⟩
        · obtain ⟨session, hold, hexpired'⟩ := ih hrest
          exact ⟨session, List.mem_cons_of_mem _ hold, hexpired'⟩
      · obtain ⟨session, hold, hexpired⟩ := ih hmem
        exact ⟨session, List.mem_cons_of_mem _ hold, hexpired⟩
    · cases hmem

theorem get_foldl_del (keys : List String) (members : List (String × Json)) (token : String) :
    Members.get token (keys.foldl (fun members key => Members.del key members) members) =
      if token ∈ keys then none else Members.get token members := by
  induction keys generalizing members with
  | nil => simp
  | cons key rest ih =>
    rw [List.foldl_cons, ih, Members.get_del]
    by_cases hkey : key = token
    · simp [hkey]
    · simp [hkey, Ne.symm hkey]

/-- The cleaner leaves a session as it is, or it deletes one that has expired. -/
theorem get_session_cleaner {session_map : List (String × Json)} (hunique : Members.Unique session_map)
    (now : time_t) (token : String) :
    Members.get token (session_cleaner session_map now) = Members.get token session_map ∨
      Members.get token (session_cleaner session_map now) = none ∧
        ∃ session, Members.get token session_map = some session ∧ is_expired now session = true := by
  rw [session_cleaner, get_foldl_del]
  split
  · rename_i hmem
    obtain ⟨session, hsession, hexpired⟩ := mem_to_delete hmem
    exact .inr ⟨rfl, session, Members.get_of_mem hunique hsession, hexpired⟩
  · exact .inl rfl

theorem unique_session_cleaner {session_map : List (String × Json)}
    (hunique : Members.Unique session_map) (now : time_t) :
    Members.Unique (session_cleaner session_map now) := by
  rw [session_cleaner]
  generalize to_delete now session_map 0 = keys
  induction keys generalizing session_map with
  | nil => exact hunique
  | cons key rest ih => exact ih (hunique.del key)

/-- What the sessions say about a token that has been used at given times, with the events that are
still to come: the session holds the last use, and a token whose session is gone has expired. -/
structure Tracks (token : String) (session_map : List (String × Json)) (times : List ℤ)
    (later : List SessionEvent) : Prop where
  unique : Members.Unique session_map
  no_gap : NoGap times
  entry : ∀ session, Members.get token session_map = some session →
    ∃ last : time_t, session = session_at last ∧ times.getLast? = some last.toInt
  gone : Members.get token session_map = none → ∀ last ∈ times.getLast?,
    ∀ e ∈ later, e.is_login = false → TOKEN_EXPIRY_SECONDS < e.time - last
  fresh : token ∈ issued later → times = []

/-- Nothing happens to the session of the token. -/
theorem Tracks.frame {token : String} {session_map session_map' : List (String × Json)} {times : List ℤ}
    {e : SessionEvent} {later : List SessionEvent} (htracks : Tracks token session_map times (e :: later))
    (hunique : Members.Unique session_map')
    (hget : Members.get token session_map' = Members.get token session_map)
    (hissued : token ∈ issued later → token ∈ issued (e :: later)) :
    Tracks token session_map' times later where
  unique := hunique
  no_gap := htracks.no_gap
  entry session hsession := htracks.entry session (hget ▸ hsession)
  gone hnone last hlast e' he' := htracks.gone (hget ▸ hnone) last hlast e' (List.mem_cons_of_mem e he')
  fresh hlater := htracks.fresh (hissued hlater)

/-- The token is used within the expiry time, or for the first time. -/
theorem Tracks.used {token : String} {session_map' : List (String × Json)} {times : List ℤ}
    {later : List SessionEvent} {now : time_t} (hunique : Members.Unique session_map')
    (hget : Members.get token session_map' = some (session_at now)) (hno_gap : NoGap times)
    (hlast : ∀ last ∈ times.getLast?, now.toInt - last ≤ TOKEN_EXPIRY_SECONDS)
    (hfresh : token ∉ issued later) : Tracks token session_map' (times ++ [now.toInt]) later where
  unique := hunique
  no_gap := by
    apply hno_gap.append (List.isChain_singleton _)
    intro last hmem time htime
    obtain rfl : now.toInt = time := by simpa using htime
    exact hlast last hmem
  entry session hsession := by
    refine ⟨now, Option.some.inj (hsession.symm.trans hget), ?_⟩
    rw [List.getLast?_append_cons, List.getLast?_singleton]
  gone hnone := by
    rw [hget] at hnone
    cases hnone
  fresh hlater := absurd hlater hfresh

theorem Tracks.login {token token' : String} {session_map : List (String × Json)} {times : List ℤ}
    {now : time_t} {later : List SessionEvent}
    (htracks : Tracks token session_map times (.login token' now :: later))
    (hdistinct : (issued (.login token' now :: later)).Nodup) :
    Tracks token (login session_map token' now) (times ++ use token session_map (.login token' now))
      later := by
  have hunique := htracks.unique.add token' (session_at now)
  have hget := get_login session_map token' token now
  rw [use]
  by_cases htoken : token' = token
  · rw [if_pos htoken] at hget ⊢
    have htimes : times = [] := htracks.fresh (by simp [issued, htoken])
    subst htimes
    apply Tracks.used hunique hget htracks.no_gap
    · intro last hlast
      cases hlast
    · exact htoken ▸ (List.nodup_cons.mp hdistinct).1
  · rw [if_neg htoken] at hget ⊢
    rw [List.append_nil]
    exact htracks.frame hunique hget (List.mem_cons_of_mem _)

theorem Tracks.check {token token' : String} {session_map : List (String × Json)} {times : List ℤ}
    {now : time_t} {later : List SessionEvent}
    (htracks : Tracks token session_map times (.check token' now :: later)) :
    Tracks token (is_token_valid session_map token' now).2
      (times ++ use token session_map (.check token' now)) later := by
  have hunique := unique_is_token_valid htracks.unique token' now
  rw [use]
  by_cases htoken : token' = token
  swap
  · rw [if_neg fun h => htoken h.1, List.append_nil]
    exact htracks.frame hunique (get_is_token_valid_of_ne session_map now htoken) id
  subst htoken
  cases hget : Members.get token' session_map with
  | none =>
    rw [is_token_valid_of_get_none hget, if_neg (by simp), List.append_nil]
    exact htracks.frame htracks.unique rfl id
  | some session =>
    obtain ⟨last, rfl, hlast⟩ := htracks.entry session hget
    rw [is_token_valid_of_get hget] at hunique ⊢
    by_cases hin_time : now.toInt - last.toInt ≤ TOKEN_EXPIRY_SECONDS
    · rw [if_pos hin_time] at hunique ⊢
      rw [if_pos ⟨rfl, rfl⟩]
      apply Tracks.used hunique _ htracks.no_gap
      · intro last' hlast'
        obtain rfl := Option.some.inj (hlast.symm.trans hlast')
        exact hin_time
      · -- a token that has been used is not generated again
        intro hissued
        rw [htracks.fresh hissued] at hlast
        cases hlast
      · rw [Members.get_add, if_pos rfl]
    · rw [if_neg hin_time, if_neg (by simp), List.append_nil]
      exact htracks.frame htracks.unique rfl id

theorem Tracks.clean {token : String} {session_map : List (String × Json)} {times : List ℤ}
    {now : time_t} {later : List SessionEvent}
    (htracks : Tracks token session_map times (.clean now :: later))
    (hlater : ∀ e ∈ later, e.is_login = true ∨ now.toInt ≤ e.time) :
    Tracks token (session_cleaner session_map now) times later := by
  have hunique := unique_session_cleaner htracks.unique now
  obtain hget | ⟨hnone, session, hget, hexpired⟩ := get_session_cleaner htracks.unique now token
  · exact htracks.frame hunique hget id
  obtain ⟨last, rfl, hlast⟩ := htracks.entry session hget
  rw [is_expired_session_at] at hexpired
  refine ⟨hunique, htracks.no_gap, fun session' hsession' => ?_, fun _ last' hlast' e he hlogin => ?_,
    htracks.fresh⟩
  · rw [hnone] at hsession'
    cases hsession'
  · obtain rfl := Option.some.inj (hlast.symm.trans hlast')
    obtain hlogin' | hnow := hlater e he
    · rw [hlogin] at hlogin'
      cases hlogin'
    · omega

theorem Tracks.step {token : String} {session_map : List (String × Json)} {times : List ℤ}
    {e : SessionEvent} {later : List SessionEvent} (htracks : Tracks token session_map times (e :: later))
    (hdistinct : (issued (e :: later)).Nodup) (hordered : NonDecreasing (e :: later)) :
    Tracks token (session_step session_map e) (times ++ use token session_map e) later := by
  cases e with
  | login token' now => exact htracks.login hdistinct
  | check token' now => exact htracks.check
  | clean now =>
    rw [use, List.append_nil]
    exact htracks.clean (List.pairwise_cons.mp hordered).1

theorem issued_tail_nodup {e : SessionEvent} {later : List SessionEvent}
    (hdistinct : (issued (e :: later)).Nodup) : (issued later).Nodup := by
  cases e with
  | login token now => exact (List.nodup_cons.mp hdistinct).2
  | _ => exact hdistinct

/-- A run keeps the sessions and the uses of a token in step. -/
theorem Tracks.run {token : String} {session_map : List (String × Json)} {times : List ℤ}
    {events later : List SessionEvent} (htracks : Tracks token session_map times (events ++ later))
    (hdistinct : (issued (events ++ later)).Nodup) (hordered : NonDecreasing (events ++ later)) :
    Tracks token (events.foldl session_step session_map) (times ++ uses token session_map events)
      later := by
  induction events generalizing session_map times with
  | nil =>
    rw [uses, List.append_nil]
    exact htracks
  | cons e rest ih =>
    rw [uses, ← List.append_assoc]
    apply ih (htracks.step hdistinct hordered)
    · exact issued_tail_nodup hdistinct
    · exact (List.pairwise_cons.mp hordered).2

theorem tracks_sessions (token : String) {events later : List SessionEvent}
    (hdistinct : (issued (events ++ later)).Nodup) (hordered : NonDecreasing (events ++ later)) :
    Tracks token (sessions events) (uses token [] events) later := by
  have hstart : Tracks token [] [] (events ++ later) := by
    refine ⟨List.nodup_nil, List.isChain_nil, fun session hsession => ?_, fun _ last hlast => ?_, fun _ => rfl⟩
    · cases hsession
    · cases hlast
  exact hstart.run hdistinct hordered

theorem issued_append (events later : List SessionEvent) :
    issued (events ++ later) = issued events ++ issued later := by
  induction events with
  | nil => rfl
  | cons e rest ih =>
    cases e with
    | login token now => exact congrArg (token :: ·) ih
    | _ => exact ih

theorem uses_append (token : String) (session_map : List (String × Json)) (events later : List SessionEvent) :
    uses token session_map (events ++ later) =
      uses token session_map events ++ uses token (events.foldl session_step session_map) later := by
  induction events generalizing session_map with
  | nil => rfl
  | cons e rest ih =>
    rw [List.cons_append, uses, uses, ih, List.append_assoc]
    rfl

theorem uses_ne_nil {token : String} {events : List SessionEvent} (hissued : token ∈ issued events)
    (session_map : List (String × Json)) : uses token session_map events ≠ [] := by
  induction events generalizing session_map with
  | nil => cases hissued
  | cons e rest ih =>
    rw [uses]
    cases e with
    | login token' now =>
      obtain rfl | hrest := List.mem_cons.mp hissued
      · simp [use]
      · simp [ih hrest]
    | _ => simp [ih hissued]

/-- A token that has not been generated passes no check. -/
theorem uses_eq_nil {token : String} {events : List SessionEvent} (hissued : token ∉ issued events)
    {session_map : List (String × Json)} (hnone : Members.get token session_map = none) :
    uses token session_map events = [] := by
  induction events generalizing session_map with
  | nil => rfl
  | cons e rest ih =>
    rw [uses]
    cases e with
    | login token' now =>
      have hne : token' ≠ token := fun h => hissued (h ▸ List.mem_cons_self)
      have hnone' : Members.get token (login session_map token' now) = none := by
        rw [get_login, if_neg hne, hnone]
      rw [use, if_neg hne, List.nil_append]
      exact ih (fun h => hissued (List.mem_cons_of_mem _ h)) hnone'
    | check token' now =>
      by_cases htoken : token' = token
      · subst htoken
        rw [use, session_step, is_token_valid_of_get_none hnone, if_neg (by simp), List.nil_append]
        exact ih hissued hnone
      · rw [use, if_neg fun h => htoken h.1, List.nil_append]
        exact ih hissued ((get_is_token_valid_of_ne session_map now htoken).trans hnone)
    | clean now =>
      rw [use, List.nil_append]
      apply ih hissued
      rw [session_step, session_cleaner, get_foldl_del, hnone, ite_self]

/-- A token that is not generated any more is only used by events that are still to come. -/
theorem le_of_mem_uses {token : String} {later : List SessionEvent} {time : ℤ}
    (hissued : token ∉ issued later) (hlater : ∀ e ∈ later, e.is_login = true ∨ time ≤ e.time)
    {session_map : List (String × Json)} {t : ℤ} (ht : t ∈ uses token session_map later) : time ≤ t := by
  induction later generalizing session_map with
  | nil => cases ht
  | cons e rest ih =>
    have hrest : ∀ e' ∈ rest, e'.is_login = true ∨ time ≤ e'.time :=
      fun e' he' => hlater e' (List.mem_cons_of_mem e he')
    rw [uses] at ht
    obtain huse | huses := List.mem_append.mp ht
    · cases e with
      | login token' now =>
        have hne : token' ≠ token := fun h => hissued (h ▸ List.mem_cons_self)
        rw [use, if_neg hne] at huse
        cases huse
      | check token' now =>
        have hnow : time ≤ now.toInt := by
          simpa [SessionEvent.is_login, SessionEvent.time] using hlater _ List.mem_cons_self
        rw [use] at huse
        split at huse
        · rw [List.mem_singleton.mp huse]
          exact hnow
        · cases huse
      | clean now => cases huse
    · apply ih _ hrest huses
      intro h
      cases e with
      | login token' now => exact hissued (List.mem_cons_of_mem _ h)
      | _ => exact hissued h

theorem NoGap.earlier {times later : List ℤ} {t time : ℤ} (hno_gap : NoGap (times ++ t :: later))
    (hle : time ≤ t) : NoGap (times ++ [time]) := by
  obtain ⟨htimes, -, hgap⟩ := List.isChain_append.mp hno_gap
  apply htimes.append (List.isChain_singleton _)
  intro last hlast time' htime'
  have hlast_t := hgap last hlast t rfl
  obtain rfl : time = time' := by simpa using htime'
  omega

/-- A check passes exactly for a token that has been issued and used without a gap up to now. -/
theorem is_token_valid_sessions {token : String} {events : List SessionEvent} {now : time_t}
    (hdistinct : (issued events).Nodup) (hordered : NonDecreasing (events ++ [.check token now])) :
    (is_token_valid (sessions events) token now).1 = true ↔
      token ∈ issued events ∧ NoGap (uses token [] events ++ [now.toInt]) := by
  have hissued : issued (events ++ [.check token now]) = issued events := by
    rw [issued_append]
    exact List.append_nil _
  have htracks := tracks_sessions token (hissued ▸ hdistinct) hordered
  cases hget : Members.get token (sessions events) with
  | none =>
    rw [is_token_valid_of_get_none hget]
    refine ⟨fun h => (Bool.false_ne_true h).elim, fun ⟨hmem, hno_gap⟩ => ?_⟩
    obtain ⟨last, hlast⟩ := Option.ne_none_iff_exists'.mp
      (mt List.getLast?_eq_none_iff.mp (uses_ne_nil hmem []))
    have hexpired := htracks.gone hget last hlast (.check token now) List.mem_cons_self rfl
    have hgap := (List.isChain_append.mp hno_gap).2.2 last hlast now.toInt rfl
    simp only [SessionEvent.time] at hexpired
    omega
  | some session =>
    obtain ⟨last, rfl, hlast⟩ := htracks.entry session hget
    have hmem : token ∈ issued events := by
      by_contra hmem
      rw [uses_eq_nil hmem rfl] at hlast
      cases hlast
    rw [is_token_valid_of_get hget]
    constructor
    · intro hvalid
      split at hvalid
      · rename_i hgap
        refine ⟨hmem, htracks.no_gap.append (List.isChain_singleton _) fun last' hlast' time htime => ?_⟩
        obtain rfl := Option.some.inj (hlast.symm.trans hlast')
        obtain rfl : now.toInt = time := by simpa using htime
        exact hgap
      · cases hvalid
    · rintro ⟨-, hno_gap⟩
      rw [if_pos ((List.isChain_append.mp hno_gap).2.2 last.toInt hlast now.toInt rfl)]

/-- A pass of the cleaner does not change the outcome of a later check. -/
theorem is_token_valid_session_cleaner {token : String} {events : List SessionEvent} {cleaned now : time_t}
    (hdistinct : (issued events).Nodup) (hordered : NonDecreasing events)
    (hle : cleaned.toInt ≤ now.toInt) :
    (is_token_valid (session_cleaner (sessions events) cleaned) token now).1 =
      (is_token_valid (sessions events) token now).1 := by
  rw [← List.append_nil events] at hdistinct hordered
  have htracks := tracks_sessions token hdistinct hordered
  obtain hget | ⟨hnone, session, hget, hexpired⟩ := get_session_cleaner htracks.unique cleaned token
  · rw [is_token_valid, is_token_valid, hget]
    cases Members.get token (sessions events) with
    | none => rfl
    | some session => grind
  · obtain ⟨last, rfl, -⟩ := htracks.entry session hget
    rw [is_expired_session_at] at hexpired
    rw [is_token_valid_of_get_none hnone, is_token_valid_of_get hget, if_neg (by omega)]

theorem uses_of_refused {token : String} {pre : List SessionEvent} {refused : time_t}
    (hrefused : (is_token_valid (sessions pre) token refused).1 = false) (post : List SessionEvent) :
    uses token [] (pre ++ .check token refused :: post) =
      uses token [] pre ++ uses token (session_step (sessions pre) (.check token refused)) post := by
  have huse : use token (sessions pre) (.check token refused) = [] := by
    rw [use, hrefused, if_neg (by simp)]
  rw [uses_append, uses]
  change _ ++ (use token (sessions pre) _ ++ uses token (session_step (sessions pre) _) _) = _
  rw [huse, List.nil_append]

/-- A token that was refused after it was issued stays refused. -/
theorem is_token_valid_of_refused {token : String} {pre post : List SessionEvent} {refused now : time_t}
    (hdistinct : (issued (pre ++ .check token refused :: post)).Nodup)
    (hordered : NonDecreasing (pre ++ .check token refused :: post ++ [.check token now]))
    (hissued : token ∈ issued pre) (hrefused : (is_token_valid (sessions pre) token refused).1 = false) :
    (is_token_valid (sessions (pre ++ .check token refused :: post)) token now).1 = false := by
  rw [← Bool.not_eq_true, is_token_valid_sessions hdistinct hordered]
  rintro ⟨-, hno_gap⟩
  rw [issued_append] at hdistinct
  change (issued pre ++ issued post).Nodup at hdistinct
  have hpost : token ∉ issued post := fun h => (List.nodup_append.mp hdistinct).2.2 token hissued token h rfl
  rw [NonDecreasing, List.append_assoc, List.pairwise_append] at hordered
  have hpre : NonDecreasing (pre ++ [.check token refused]) := by
    refine List.pairwise_append.mpr ⟨hordered.1, List.pairwise_singleton _ _, fun e he e' he' => ?_⟩
    obtain rfl := List.mem_singleton.mp he'
    exact hordered.2.2 e he _ List.mem_cons_self
  have hlater := (List.pairwise_cons.mp hordered.2.1).1
  have hstale : ¬ NoGap (uses token [] pre ++ [refused.toInt]) := fun h =>
    Bool.false_ne_true (hrefused ▸ (is_token_valid_sessions (List.nodup_append.mp hdistinct).1 hpre).mpr ⟨hissued, h⟩)
  rw [uses_of_refused hrefused, List.append_assoc] at hno_gap
  cases hrest : uses token (session_step (sessions pre) (.check token refused)) post with
  | nil =>
    rw [hrest, List.nil_append] at hno_gap
    have hnow : refused.toInt ≤ now.toInt := by
      simpa [SessionEvent.is_login, SessionEvent.time] using hlater (.check token now) (by simp)
    exact hstale (hno_gap.earlier hnow)
  | cons t rest =>
    rw [hrest] at hno_gap
    apply hstale (hno_gap.earlier (le_of_mem_uses hpost _ (hrest ▸ List.mem_cons_self)))
    intro e he
    exact hlater e (List.mem_append_left _ he)

/-- Tokens live from their issue for as long as they are used without a gap of more than
`TOKEN_EXPIRY_SECONDS`, whatever the cleaner does, and a token that has been refused since its issue is
not accepted again. -/
theorem token_valid_iff {token : String} {events : List SessionEvent} {now : time_t}
    (hdistinct : (issued events).Nodup) (hordered : NonDecreasing (events ++ [.check token now])) :
    ((is_token_valid (sessions events) token now).1 = true ↔
      token ∈ issued events ∧ NoGap (uses token [] events ++ [now.toInt])) ∧
    (∀ cleaned : time_t, cleaned.toInt ≤ now.toInt →
      (is_token_valid (session_cleaner (sessions events) cleaned) token now).1 =
        (is_token_valid (sessions events) token now).1) ∧
    (∀ pre post refused, events = pre ++ .check token refused :: post → token ∈ issued pre →
      (is_token_valid (sessions pre) token refused).1 = false →
        (is_token_valid (sessions events) token now).1 = false) := by
  refine ⟨is_token_valid_sessions hdistinct hordered, fun cleaned hle => ?_, ?_⟩
  · exact is_token_valid_session_cleaner hdistinct (List.pairwise_append.mp hordered).1 hle
  · rintro pre post refused rfl hissued hrefused
    exact is_token_valid_of_refused hdistinct hordered hissued hrefused

/-- A token that is used at 200 and refused at 501 is refused at 502. -/
theorem token_valid_iff_refused :
    (is_token_valid (sessions [.login "t" 0, .check "t" 200, .check "t" 501]) "t" 502).1 = false := by
  have hordered : NonDecreasing
      ([.login "t" 0, .check "t" 200, .check "t" 501] ++ [.check "t" 502]) := by
    simp [NonDecreasing, SessionEvent.is_login, SessionEvent.time]
  have h := token_valid_iff (by decide) hordered
  exact h.2.2 [.login "t" 0, .check "t" 200] [] 501 rfl (by decide) (by decide +kernel)

/-- A token that is presented before it is issued is refused, and accepted after that. -/
theorem token_accepted_after_refusal :
    (is_token_valid (sessions []) "t" 0).1 = false ∧
      (is_token_valid (sessions [.check "t" 0, .login "t" 0]) "t" 0).1 = true := by
  decide +kernel

end k180.restful_api_server
