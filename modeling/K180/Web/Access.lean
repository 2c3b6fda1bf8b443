import K180.Schedule.Ranking
import K180.Web.Session

open php schedule k180.user_db

namespace k180.web

/-- What happens to the login of a session. -/
inductive Event where
  | login (u : User) (time : ℤ)
  | logout
  /-- a request for a page for users -/
  | visit (time : ℤ)

def event (e : Request × Outcome) : Option Event :=
  match e.1.page, e.2 with
  | .index, _ => none
  | .login _, .logged_in u => some (.login u e.1.time)
  | .login _, _ => none
  | .logout, _ => some .logout
  | _, _ => some (.visit e.1.time)

/-- The events of a session, the latest first. -/
def events (id : ℕ) (log : Log) : List Event := (log.filter (·.1.session = id)).filterMap event

/-- The last login is the user's, nobody has logged out since, and there were never more than 300 seconds between the
visits since. -/
def LoggedIn (u : User) (last : ℤ) (events : List Event) : Prop :=
  ∃ visits since rest, events = visits.map .visit ++ .login u since :: rest ∧
    (visits ++ [since]).IsChain (fun later earlier => later - earlier ≤ 300) ∧ (visits ++ [since]).head? = some last

/-- A page that asks for a login. -/
def Page.ForUsers : Page → Prop
  | .index | .login _ | .logout => False
  | _ => True

section LoggedIn

variable {u u' : User} {t last : ℤ} {rest : List Event}

@[simp] theorem not_loggedIn_nil : ¬ LoggedIn u last [] := by
  rintro ⟨visits, since, rest, h, -⟩
  simp at h

@[simp] theorem not_loggedIn_logout : ¬ LoggedIn u last (.logout :: rest) := by
  rintro ⟨_ | ⟨t, visits⟩, since, rest, h, -⟩ <;> simp at h

@[simp] theorem loggedIn_login_iff : LoggedIn u last (.login u' t :: rest) ↔ u = u' ∧ last = t := by
  constructor
  · rintro ⟨_ | ⟨t', visits⟩, since, rest', h, -, hlast⟩
    · simp at h hlast
      obtain ⟨⟨rfl, rfl⟩, -⟩ := h
      exact ⟨rfl, hlast.symm⟩
    · simp at h
  · rintro ⟨rfl, rfl⟩
    exact ⟨[], _, rest, rfl, by simp, rfl⟩

@[simp] theorem loggedIn_visit_iff :
    LoggedIn u last (.visit t :: rest) ↔ last = t ∧ ∃ before, LoggedIn u before rest ∧ t - before ≤ 300 := by
  constructor
  · rintro ⟨_ | ⟨t', visits⟩, since, rest', h, hchain, hlast⟩
    · simp at h
    · simp at h hlast
      obtain ⟨rfl, rfl⟩ := h
      obtain ⟨before, hbefore⟩ : ∃ before, (visits ++ [since]).head? = some before := by
        cases visits <;> exact ⟨_, rfl⟩
      rw [List.cons_append, List.isChain_cons] at hchain
      exact ⟨hlast.symm, before, ⟨visits, since, rest', rfl, hchain.2, hbefore⟩, hchain.1 before hbefore⟩
  · rintro ⟨rfl, before, ⟨visits, since, rest', rfl, hchain, hbefore⟩, hgap⟩
    refine ⟨last :: visits, since, rest', rfl, ?_, rfl⟩
    rw [List.cons_append, List.isChain_cons]
    refine ⟨fun next hnext => ?_, hchain⟩
    obtain rfl := Option.some.inj (hbefore.symm.trans hnext)
    exact hgap

theorem LoggedIn.unique {events : List Event} {last' : ℤ} (h : LoggedIn u last events) (h' : LoggedIn u' last' events) :
    u = u' ∧ last = last' := by
  induction events generalizing last last' with
  | nil => exact absurd h not_loggedIn_nil
  | cons e rest ih =>
    cases e with
    | login v t =>
      obtain ⟨rfl, rfl⟩ := loggedIn_login_iff.mp h
      obtain ⟨rfl, rfl⟩ := loggedIn_login_iff.mp h'
      exact ⟨rfl, rfl⟩
    | logout => exact absurd h not_loggedIn_logout
    | visit t =>
      obtain ⟨rfl, before, hbefore, -⟩ := loggedIn_visit_iff.mp h
      obtain ⟨rfl, before', hbefore', -⟩ := loggedIn_visit_iff.mp h'
      exact ⟨(ih hbefore hbefore').1, rfl⟩

end LoggedIn

/-- What a session has of a login. -/
structure Session.Of (s : Session) (u : User) (last : ℤ) : Prop where
  username : s.username = some u.username
  role : s.role = some u.role
  last_activity : s.last_activity = some last

/-- A session tells who is logged in. -/
def Tells (s : Session) (events : List Event) : Prop :=
  (∃ u last, LoggedIn u last events ∧ s.Of u last) ∨ ((∀ u last, ¬ LoggedIn u last events) ∧ s.username = none)

section Visit

variable {s s' : Session} {u : User} {last now : ℤ} {r : Request} {events : List Event}

/-- Two sessions have the same login. -/
structure SameLogin (s s' : Session) : Prop where
  username : s'.username = s.username
  role : s'.role = s.role
  last_activity : s'.last_activity = s.last_activity

theorem Tells.same (h : Tells s events) (hsame : SameLogin s s') : Tells s' events := by
  obtain ⟨u, last, hlogged, hof⟩ | ⟨hnone, husername⟩ := h
  · exact .inl ⟨u, last, hlogged, hsame.username.trans hof.username, hsame.role.trans hof.role,
      hsame.last_activity.trans hof.last_activity⟩
  · exact .inr ⟨hnone, hsame.username.trans husername⟩

theorem sameLogin_lang_init (s : Session) (lang : Option Str) : SameLogin s (lang_init s lang) := by
  cases lang with
  | none => exact ⟨rfl, rfl, rfl⟩
  | some code =>
    rw [lang_init]
    split <;> exact ⟨rfl, rfl, rfl⟩

theorem sameLogin_renew_csrf (s : Session) (now : ℤ) (token : Str) : SameLogin s (renew_csrf s now token) := by
  rw [renew_csrf]
  split <;> exact ⟨rfl, rfl, rfl⟩

/-- A user is logged in who has been active in the last 300 seconds. -/
theorem is_logged_in_of_active (h : Tells s events) (hlogged : LoggedIn u last events) (hgap : now - last ≤ 300) :
    (is_logged_in s now).1 = true ∧ (is_logged_in s now).2.role = some u.role := by
  obtain ⟨u', last', hlogged', hof⟩ | ⟨hnone, -⟩ := h
  · obtain ⟨rfl, rfl⟩ := hlogged.unique hlogged'
    simp only [is_logged_in, hof.username, hof.last_activity, if_neg (not_lt.mpr hgap)]
    exact ⟨trivial, hof.role⟩
  · exact absurd hlogged (hnone u last)

theorem active_of_is_logged_in (h : Tells s events) (hlogin : (is_logged_in s now).1 = true) :
    ∃ u last, LoggedIn u last events ∧ now - last ≤ 300 ∧ (is_logged_in s now).2.role = some u.role := by
  obtain ⟨u, last, hlogged, hof⟩ | ⟨hnone, husername⟩ := h
  · by_cases hgap : now - last ≤ 300
    · exact ⟨u, last, hlogged, hgap, (is_logged_in_of_active (.inl ⟨u, last, hlogged, hof⟩) hlogged hgap).2⟩
    · simp only [is_logged_in, hof.username, hof.last_activity, if_pos (not_le.mp hgap)] at hlogin
      cases hlogin
  · simp only [is_logged_in, husername] at hlogin
    cases hlogin

/-- A visit is noted, or it ends the login. -/
theorem tells_is_logged_in (h : Tells s events) (now : ℤ) : Tells (is_logged_in s now).2 (.visit now :: events) := by
  obtain ⟨u, last, hlogged, hof⟩ | ⟨hnone, husername⟩ := h
  · simp only [is_logged_in, hof.username, hof.last_activity]
    split
    · rename_i hidle
      refine .inr ⟨fun u' last' hlogged' => ?_, rfl⟩
      obtain ⟨-, before, hbefore, hgap⟩ := loggedIn_visit_iff.mp hlogged'
      obtain ⟨-, rfl⟩ := hlogged.unique hbefore
      exact absurd hgap (not_le.mpr hidle)
    · rename_i hgap
      exact .inl ⟨u, now, loggedIn_visit_iff.mpr ⟨rfl, last, hlogged, not_lt.mp hgap⟩, rfl, hof.role, rfl⟩
  · simp only [is_logged_in, husername]
    refine .inr ⟨fun u last hlogged => ?_, husername⟩
    obtain ⟨-, before, hbefore, -⟩ := loggedIn_visit_iff.mp hlogged
    exact hnone u before hbefore

/-- What a visit can come to, with the session that `is_logged_in` leaves. -/
inductive Visit (s : Session) (r : Request) : Outcome → Session → Prop
  | turned_away {login : Bool} {s' : Session} (hlogin : is_logged_in (lang_init s r.lang) r.time = (login, s'))
      (haway : login = false ∨ r.page.admits s'.role = false) : Visit s r .to_login s'
  | without_form {s' : Session} (hlogin : is_logged_in (lang_init s r.lang) r.time = (true, s'))
      (hadmits : r.page.admits s'.role = true) (outcome : Outcome) (houtcome : outcome = .died ∨ outcome = .shown) :
    Visit s r outcome s'
  | with_form {s' : Session} (hlogin : is_logged_in (lang_init s r.lang) r.time = (true, s'))
      (hadmits : r.page.admits s'.role = true) (outcome : Outcome)
      (houtcome : outcome ∈ [.shown, .refused, .aborted, .acted])
      (hcheck : outcome = .acted →
        csrf_check (renew_csrf s' r.time (bin2hex r.random_bytes)) r.time r.csrf_token = some true) :
    Visit s r outcome (renew_csrf s' r.time (bin2hex r.random_bytes))

theorem visit_cases {outcome : Outcome} (hvisit : visit s r = (outcome, s')) : Visit s r outcome s' := by
  rw [visit] at hvisit
  rcases hlogin : is_logged_in (lang_init s r.lang) r.time with ⟨login, s₁⟩
  rw [hlogin] at hvisit
  cases login with
  | false =>
    cases hvisit
    exact .turned_away hlogin (.inl rfl)
  | true =>
    dsimp only at hvisit
    split at hvisit
    · rename_i hrole
      cases hvisit
      exact .turned_away hlogin (.inr (by simpa using hrole))
    rename_i hrole
    have hadmits : r.page.admits s₁.role = true := by simpa using hrole
    split at hvisit
    · split at hvisit <;> cases hvisit
      · exact .without_form hlogin hadmits _ (.inr rfl)
      · exact .without_form hlogin hadmits _ (.inl rfl)
    · cases hvisit
      exact .without_form hlogin hadmits _ (.inl rfl)
    split at hvisit
    · cases hvisit
      exact .with_form hlogin hadmits _ (by simp) nofun
    split at hvisit <;> rename_i hcheck <;> cases hvisit
    · exact .with_form hlogin hadmits _ (by simp) nofun
    · exact .with_form hlogin hadmits _ (by simp) nofun
    · exact .with_form hlogin hadmits _ (by simp) fun _ => hcheck

/-- A user gets to a page who may see it and has been active in the last 300 seconds. -/
theorem visit_admitted_iff (h : Tells s events) :
    (visit s r).1 ≠ .to_login ↔
      ∃ u last, LoggedIn u last events ∧ r.time - last ≤ 300 ∧ r.page.admits (some u.role) = true := by
  have hlang := h.same (sameLogin_lang_init s r.lang)
  rcases hvisit : visit s r with ⟨outcome, s'⟩
  have hadmitted : ∀ {s' : Session}, is_logged_in (lang_init s r.lang) r.time = (true, s') →
      r.page.admits s'.role = true →
      ∃ u last, LoggedIn u last events ∧ r.time - last ≤ 300 ∧ r.page.admits (some u.role) = true := by
    intro s' hlogin hadmits
    obtain ⟨u, last, hu, hgap, hrole⟩ := active_of_is_logged_in hlang (congrArg Prod.fst hlogin)
    rw [hlogin] at hrole
    exact ⟨u, last, hu, hgap, hrole ▸ hadmits⟩
  cases visit_cases hvisit with
  | turned_away hlogin haway =>
    refine iff_of_false (fun h => h rfl) ?_
    rintro ⟨u, last, hu, hgap, hadmits⟩
    obtain ⟨hlogged, hrole⟩ := is_logged_in_of_active hlang hu hgap
    rw [hlogin] at hlogged hrole
    obtain hfalse | hrefused := haway
    · exact absurd (hfalse.symm.trans hlogged) Bool.false_ne_true
    · rw [hrole, hadmits] at hrefused
      cases hrefused
  | without_form hlogin hadmits _ houtcome =>
    refine iff_of_true ?_ (hadmitted hlogin hadmits)
    obtain rfl | rfl := houtcome <;> nofun
  | with_form hlogin hadmits _ houtcome =>
    refine iff_of_true ?_ (hadmitted hlogin hadmits)
    rintro rfl
    simp at houtcome

theorem tells_visit (h : Tells s events) : Tells (visit s r).2 (.visit r.time :: events) := by
  have hnoted := tells_is_logged_in (h.same (sameLogin_lang_init s r.lang)) r.time
  rcases hvisit : visit s r with ⟨outcome, s'⟩
  cases visit_cases hvisit with
  | turned_away hlogin | without_form hlogin =>
    rw [hlogin] at hnoted
    exact hnoted
  | with_form hlogin =>
    rw [hlogin] at hnoted
    exact hnoted.same (sameLogin_renew_csrf _ _ _)

end Visit

/-- The outcomes of a page for users that has a form. -/
def Outcome.of_form (outcome : Outcome) : Prop := outcome ∈ [.shown, .refused, .aborted, .acted]

/-- A request of the session for a page with a form, which was let in, made the token, and nobody has logged out of
the session since. -/
def Issued (id : ℕ) (log : Log) (token : Str) (since : ℤ) : Prop :=
  ∃ after r outcome before, log = after ++ (r, outcome) :: before ∧ r.session = id ∧ r.time = since ∧
    token = bin2hex r.random_bytes ∧ outcome.of_form ∧ ∀ e ∈ after, e.1.session = id → e.2 ≠ .logged_out

/-- The token of a session has been issued to it. -/
def TokenOk (id : ℕ) (log : Log) (s : Session) : Prop :=
  ∀ token since, s.csrf_token = some token → s.csrf_token_time = some since → Issued id log token since

section Token

variable {id : ℕ} {log : Log} {s s' : Session} {r : Request} {outcome : Outcome} {token : Str} {since : ℤ}

theorem Issued.cons (h : Issued id log token since) (houtcome : r.session = id → outcome ≠ .logged_out) :
    Issued id ((r, outcome) :: log) token since := by
  obtain ⟨after, r₀, outcome₀, before, rfl, hrest⟩ := h
  obtain ⟨hsession, htime, htoken, hform, hafter⟩ := hrest
  refine ⟨(r, outcome) :: after, r₀, outcome₀, before, rfl, hsession, htime, htoken, hform, ?_⟩
  exact List.forall_mem_cons.mpr ⟨houtcome, hafter⟩

theorem tokenOk_blank : TokenOk id log .blank := nofun

theorem TokenOk.cons (h : TokenOk id log s) (houtcome : r.session = id → outcome ≠ .logged_out) :
    TokenOk id ((r, outcome) :: log) s := fun token since ht hs => (h token since ht hs).cons houtcome

theorem TokenOk.lang_init (h : TokenOk id log s) (lang : Option Str) : TokenOk id log (lang_init s lang) := by
  cases lang with
  | none => exact h
  | some code =>
    rw [web.lang_init]
    split <;> exact h

theorem TokenOk.is_logged_in (h : TokenOk id log s) (now : ℤ) : TokenOk id log (is_logged_in s now).2 := by
  rw [web.is_logged_in]
  split
  · exact h
  split
  · split
    · exact tokenOk_blank
    · exact h
  · exact h

theorem tokenOk_visit (h : TokenOk r.session log s) :
    TokenOk r.session ((r, (visit s r).1) :: log) (visit s r).2 := by
  have hlogin := (h.lang_init r.lang).is_logged_in r.time
  rcases hvisit : visit s r with ⟨outcome, s'⟩
  cases visit_cases hvisit with
  | turned_away heq =>
    rw [heq] at hlogin
    exact hlogin.cons fun _ => nofun
  | without_form heq _ _ houtcome =>
    rw [heq] at hlogin
    refine hlogin.cons fun _ => ?_
    obtain rfl | rfl := houtcome <;> nofun
  | with_form heq _ _ houtcome =>
    rw [heq] at hlogin
    rw [renew_csrf]
    split
    · intro token since htoken hsince
      obtain rfl := Option.some.inj htoken
      obtain rfl := Option.some.inj hsince
      exact ⟨[], r, outcome, log, rfl, rfl, rfl, rfl, houtcome, fun _ he => absurd he List.not_mem_nil⟩
    · refine hlogin.cons fun _ => ?_
      rintro rfl
      simp at houtcome

end Token

/-- The sessions tell who is logged in and have the tokens that they were issued. -/
structure SessionsOk (x : Site × Log) : Prop where
  tells : ∀ id, Tells (x.1.session id) (events id x.2)
  token : ∀ id, TokenOk id x.2 (x.1.session id)

section Respond

variable {password_verify : Str → Str → Bool} {site : Site} {log : Log} {r : Request} {file : UsersFile}
  {form : Option (Posted × Posted)} {s : Session}

theorem events_cons_of_ne {id : ℕ} {outcome : Outcome} (hne : id ≠ r.session) :
    events id ((r, outcome) :: log) = events id log := by
  rw [events, List.filter_cons_of_neg (by simpa using hne.symm), events]

theorem events_cons_self {outcome : Outcome} :
    events r.session ((r, outcome) :: log) = (event (r, outcome)).toList ++ events r.session log := by
  rw [events, List.filter_cons_of_pos (by simp), List.filterMap_cons, events]
  cases event (r, outcome) <;> rfl

/-- A page of login.php: it leaves the session's login, or it logs a user in. -/
theorem login_page_cases {outcome : Outcome} {s' : Session}
    (hpage : login_page password_verify file form s r = (outcome, s')) :
    ((outcome = .login_page ∨ outcome = .aborted) ∧ s' = lang_init s r.lang) ∨
    ∃ u username password, outcome = .logged_in u ∧ form = some (username, password) ∧
      (∃ name pass, username.trimmed = some name ∧ password.trimmed = some pass ∧
        login_user password_verify file name pass = some u) ∧
      s' = { lang_init s r.lang with
        username := some u.username, role := some u.role, last_activity := some r.time } := by
  simp only [login_page] at hpage
  split at hpage
  · cases hpage
    exact .inl ⟨.inl rfl, rfl⟩
  split at hpage
  · rename_i name pass hname hpass
    split at hpage <;> cases hpage
    · rename_i u hu
      exact .inr ⟨u, _, _, rfl, rfl, ⟨name, pass, hname, hpass, hu⟩, rfl⟩
    · exact .inl ⟨.inl rfl, rfl⟩
  · cases hpage
    exact .inl ⟨.inr rfl, rfl⟩

/-- What a request makes of its own session. -/
theorem open_page_ok (password_verify : Str → Str → Bool) (file : UsersFile) (htells : Tells s (events r.session log))
    (htoken : TokenOk r.session log s) :
    Tells (open_page password_verify file s r).2
      (events r.session ((r, (open_page password_verify file s r).1) :: log)) ∧
    TokenOk r.session ((r, (open_page password_verify file s r).1) :: log) (open_page password_verify file s r).2 := by
  have hlang := htells.same (sameLogin_lang_init s r.lang)
  rw [events_cons_self, open_page]
  cases hpage : r.page with
  | index =>
    simp only [event, hpage, Option.toList_none, List.nil_append]
    exact ⟨htells, htoken.cons fun _ => nofun⟩
  | login form =>
    dsimp only
    rcases hlogin : login_page password_verify file form s r with ⟨outcome, s'⟩
    obtain ⟨houtcome, rfl⟩ | ⟨u, username, password, rfl, -, -, rfl⟩ := login_page_cases hlogin
    · have hevent : event (r, outcome) = none := by
        obtain rfl | rfl := houtcome <;> simp only [event, hpage]
      rw [hevent]
      refine ⟨hlang, (htoken.lang_init r.lang).cons fun _ => ?_⟩
      obtain rfl | rfl := houtcome <;> nofun
    · simp only [event, hpage, Option.toList_some, List.singleton_append]
      refine ⟨.inl ⟨u, r.time, loggedIn_login_iff.mpr ⟨rfl, rfl⟩, rfl, rfl, rfl⟩, ?_⟩
      exact TokenOk.cons (htoken.lang_init r.lang) fun _ => nofun
  | logout =>
    simp only [event, hpage, Option.toList_some, List.singleton_append]
    exact ⟨.inr ⟨fun _ _ => not_loggedIn_logout, rfl⟩, tokenOk_blank⟩
  | setting | upload | recordings | sysinfo | user_manage post =>
    simp only [event, hpage, Option.toList_some, List.singleton_append]
    exact ⟨tells_visit htells, tokenOk_visit htoken⟩

theorem sessionsOk_init (file : UsersFile) : SessionsOk (init file, []) :=
  ⟨fun _ => .inr ⟨fun _ _ => not_loggedIn_nil, rfl⟩, fun _ => tokenOk_blank⟩

theorem sessionsOk_respond_log {x : Site × Log} (h : SessionsOk x) : SessionsOk (respond_log password_verify x r) := by
  obtain ⟨hself, hself'⟩ := open_page_ok password_verify x.1.users (h.tells r.session) (h.token r.session)
  constructor <;> intro id <;> simp only [respond_log, respond, Function.update_apply] <;>
    split
  · rename_i hid
    rw [hid]
    exact hself
  · rename_i hne
    rw [events_cons_of_ne hne]
    exact h.tells id
  · rename_i hid
    rw [hid]
    exact hself'
  · rename_i hne
    exact (h.token id).cons fun heq => absurd heq.symm hne

theorem sessionsOk_respond_all (password_verify : Str → Str → Bool) (file : UsersFile) (requests : List Request) :
    SessionsOk (respond_all password_verify file requests) :=
  foldl_invariant (fun _ _ h _ => sessionsOk_respond_log h) (fun _ _ => trivial) (sessionsOk_init file)

/-- An accepted token is the one of the session, and no older than 600 seconds. -/
theorem csrf_check_accepts {now : ℤ} {posted : Posted} (hcheck : csrf_check s now posted = some true) :
    ∃ token since, posted = .string token ∧ s.csrf_token = some token ∧ s.csrf_token_time = some since ∧
      now - since ≤ 600 := by
  cases posted with
  | missing => simp [csrf_check, Posted.empty] at hcheck
  | array =>
    simp only [csrf_check] at hcheck
    split at hcheck <;> cases hcheck
  | string given =>
    simp only [csrf_check] at hcheck
    split at hcheck
    · cases hcheck
    simp only [Option.some.injEq, Bool.and_eq_true, Bool.not_eq_true'] at hcheck
    obtain ⟨hgiven, hexpired⟩ := hcheck
    obtain ⟨token, htoken, hsame⟩ : ∃ token, s.csrf_token = some token ∧ given = token := by
      simpa [Option.any_eq_true, Posted.is] using hgiven
    rw [csrf_expired] at hexpired
    split at hexpired
    · cases hexpired
    · rename_i since hsince
      simp only [Bool.or_eq_false_iff, decide_eq_false_iff_not, not_lt] at hexpired
      exact ⟨token, since, by rw [hsame], htoken, hsince, hexpired.2⟩

/-- A request that acts has posted a token that its session was issued, now or in the last 600 seconds. -/
theorem visit_token (htoken : TokenOk r.session log s) (hacted : (visit s r).1 = .acted) :
    ∃ token since, r.csrf_token = .string token ∧ r.time - since ≤ 600 ∧
      Issued r.session ((r, .acted) :: log) token since := by
  have hissued := tokenOk_visit htoken
  rcases hvisit : visit s r with ⟨outcome, s'⟩
  rw [hvisit] at hissued hacted
  obtain rfl : outcome = .acted := hacted
  cases visit_cases hvisit with
  | without_form _ _ _ houtcome => obtain h | h := houtcome <;> cases h
  | with_form _ _ _ _ hcheck =>
    obtain ⟨token, since, hposted, htoken, hsince, hage⟩ := csrf_check_accepts (hcheck rfl)
    exact ⟨token, since, hposted, hage, hissued token since htoken hsince⟩

end Respond

/-- The pages for users let a request in exactly where the session's last login is of a user that the page is for,
nobody has logged out since, and there were never more than 300 seconds between two visits, up to this one; and a
request gets past the checks of a form only with a token that was issued to the session in the last 600 seconds. -/
theorem pages_let_in_iff (password_verify : Str → Str → Bool) (file : UsersFile) (requests : List Request) (r : Request)
    (hpage : r.page.ForUsers) :
    ((respond password_verify (respond_all password_verify file requests).1 r).1 ≠ .to_login ↔
      ∃ u last, LoggedIn u last (events r.session (respond_all password_verify file requests).2) ∧
        r.time - last ≤ 300 ∧ r.page.admits (some u.role) = true) ∧
    ((respond password_verify (respond_all password_verify file requests).1 r).1 = .acted →
      ∃ token since, r.csrf_token = .string token ∧ r.time - since ≤ 600 ∧
        Issued r.session ((r, .acted) :: (respond_all password_verify file requests).2) token since) := by
  have hok := sessionsOk_respond_all password_verify file requests
  generalize respond_all password_verify file requests = x at hok
  have hopen : (respond password_verify x.1 r).1 = (visit (x.1.session r.session) r).1 := by
    rw [respond, open_page]
    cases hr : r.page with
    | index | login | logout => simp [hr, Page.ForUsers] at hpage
    | setting | upload | recordings | sysinfo | user_manage => rfl
  rw [hopen]
  exact ⟨visit_admitted_iff (hok.tells r.session), visit_token (hok.token r.session)⟩

/-- The admin logs in, and asks for the settings 300 seconds later. -/
def login_request : Request :=
  ⟨1, 1000, none, .login (some (.string admin, .string (literal "secret"))), true, .missing, [], true⟩

def late_visit : Request := ⟨1, 1300, some (literal "en"), .setting, false, .missing, [1], true⟩

theorem pages_let_in_iff_late_visit :
    (respond (fun _ _ => true) (respond_all (fun _ _ => true) (.saved one_admin) [login_request]).1 late_visit).1 ≠
      .to_login := by
  refine (pages_let_in_iff (fun _ _ => true) (.saved one_admin) [login_request] late_visit trivial).1.mpr ?_
  have hevents : events late_visit.session (respond_all (fun _ _ => true) (.saved one_admin) [login_request]).2 =
      [.login sample_admin 1000] := rfl
  refine ⟨sample_admin, 1000, ?_, by simp [late_visit], rfl⟩
  rw [hevents, loggedIn_login_iff]
  exact ⟨rfl, rfl⟩

section Lang

variable {password_verify : Str → Str → Bool} {s s' : Session} {r : Request}

def LangOk (s : Session) : Prop := ∀ code, s.lang = some code → code ∈ [literal "zh", literal "en"]

theorem LangOk.lang_init (h : LangOk s) (lang : Option Str) : LangOk (lang_init s lang) := by
  cases lang with
  | none => exact h
  | some code =>
    rw [web.lang_init]
    split
    · rename_i hcode
      exact fun code' heq => Option.some.inj heq ▸ hcode
    · exact h

theorem LangOk.is_logged_in (h : LangOk s) (now : ℤ) : LangOk (is_logged_in s now).2 := by
  rw [web.is_logged_in]
  split
  · exact h
  split
  · split
    · exact nofun
    · exact h
  · exact h

theorem LangOk.open_page (h : LangOk s) (file : UsersFile) (r : Request) :
    LangOk (open_page password_verify file s r).2 := by
  have hlang := h.lang_init r.lang
  rw [web.open_page]
  cases r.page with
  | index => exact h
  | logout => exact nofun
  | login form =>
    dsimp only
    rcases hlogin : login_page password_verify file form s r with ⟨outcome, s'⟩
    obtain ⟨-, rfl⟩ | ⟨u, username, password, -, -, -, rfl⟩ := login_page_cases hlogin <;> exact hlang
  | setting | upload | recordings | sysinfo | user_manage post =>
    dsimp only
    have hvisited := hlang.is_logged_in r.time
    rcases hvisit : visit s r with ⟨outcome, s'⟩
    cases visit_cases hvisit with
    | turned_away hlogin | without_form hlogin =>
      rw [hlogin] at hvisited
      exact hvisited
    | with_form hlogin =>
      rw [hlogin] at hvisited
      rw [renew_csrf]
      split <;> exact hvisited

/-- Whatever is asked for, the language file of a session is one of the two that there are. -/
theorem lang_code_supported (file : UsersFile) (requests : List Request) (id : ℕ) :
    lang_code ((respond_all password_verify file requests).1.session id) ∈ [literal "zh", literal "en"] := by
  have hstep : ∀ (x : Site × Log) (r : Request), (∀ id, LangOk (x.1.session id)) → True →
      ∀ id, LangOk ((respond_log password_verify x r).1.session id) := by
    intro x r h _ id
    simp only [respond_log, respond, Function.update_apply]
    split
    · exact (h r.session).open_page _ r
    · exact h id
  have hinit : ∀ id, LangOk (((init file, []) : Site × Log).1.session id) := fun _ => nofun
  have hok : LangOk ((respond_all password_verify file requests).1.session id) :=
    foldl_invariant hstep (fun _ _ => trivial) hinit id
  rw [lang_code]
  cases hlang : ((respond_all password_verify file requests).1.session id).lang with
  | none => exact List.mem_cons_self
  | some code => exact hok code hlang

end Lang

section Managers

variable {password_verify : Str → Str → Bool} {file : UsersFile} {content : Saved} {log : Log} {r : Request} {u : User}

/-- All admins of the users file were there at the start. -/
def OldAdmins (content : Saved) (file : UsersFile) : Prop :=
  file ≠ .absent ∧ ∀ u, (∃ now, file = .saved now ∧ u ∈ now.users) → u.role = admin → u ∈ content.users

theorem oldAdmins_write_users {users : List User} (h : ∀ u ∈ users, u.role = admin → u ∈ content.users) :
    OldAdmins content (write_users users) := by
  constructor
  · rw [write_users]
    split <;> simp
  · rintro u ⟨now, hwrite, hu⟩ hrole
    rw [write_users_eq_saved_iff.mp hwrite] at hu
    exact h u hu hrole

theorem user_ne_admin : user ≠ admin := by decide

/-- Where there is no text of users, nothing is written. -/
theorem handle_none (p : Post) : handle p none = [] := by
  cases hcreate : p.create with
  | false => simp [handle, hcreate, delete]
  | true =>
    cases husername : p.username.trimmed with
    | none => simp [handle, hcreate, create, husername]
    | some newUser =>
      by_cases hempty : empty newUser || p.password.empty
      · simp [handle, hcreate, create, husername, hempty, delete]
      · simp [handle, hcreate, create, husername, hempty]

/-- Nobody is made an admin on the page for the users. -/
theorem OldAdmins.serve (h : OldAdmins content file) (post : Post) : OldAdmins content (serve file post) := by
  cases file with
  | absent => exact absurd rfl h.1
  | blank =>
    rw [user_db.serve, show read_users .blank = none from rfl, handle_none]
    exact h
  | saved now =>
    have hold : ∀ u ∈ now.users, u.role = admin → u ∈ content.users := fun u hu => h.2 u ⟨now, rfl, hu⟩
    obtain ⟨u, hadds, hserve⟩ | ⟨-, -, hserve⟩ | ⟨-, -, hserve⟩ := serve_cases now post
    · rw [hserve]
      refine oldAdmins_write_users fun v hv hrole => ?_
      obtain hmem | hnew := List.mem_append.mp (kept_sublist.subset hv)
      · exact hold v hmem hrole
      · obtain rfl := List.mem_singleton.mp hnew
        exact absurd (hadds.2.2.2.2.symm.trans hrole) user_ne_admin
    · rw [hserve]
      exact oldAdmins_write_users fun v hv => hold v (kept_sublist.subset hv)
    · rw [hserve]
      exact h

/-- The login form that a request has posted names the user and has a password that the user's hash takes. -/
def Proves (password_verify : Str → Str → Bool) (r : Request) (u : User) : Prop :=
  ∃ username password pass, r.page = .login (some (username, password)) ∧ username.trimmed = some u.username ∧
    password.trimmed = some pass ∧ password_verify pass u.password_hash = true

/-- Who has logged in has proved it, and an admin was there at the start. -/
structure LoginsOk (password_verify : Str → Str → Bool) (content : Saved) (x : Site × Log) : Prop where
  users : OldAdmins content x.1.users
  logins : ∀ r u, (r, .logged_in u) ∈ x.2 → Proves password_verify r u ∧ (u.role = admin → u ∈ content.users)

theorem open_page_logged_in {s : Session} (h : OldAdmins content file)
    (hlogged : (open_page password_verify file s r).1 = .logged_in u) :
    Proves password_verify r u ∧ (u.role = admin → u ∈ content.users) := by
  rw [open_page] at hlogged
  cases hpage : r.page with
  | login form =>
    rw [hpage] at hlogged
    dsimp only at hlogged
    rcases hlogin : login_page password_verify file form s r with ⟨outcome, s'⟩
    rw [hlogin] at hlogged
    obtain ⟨houtcome, -⟩ | ⟨v, username, password, houtcome, hform, ⟨name, pass, hname, hpass, hv⟩, -⟩ :=
      login_page_cases hlogin
    · obtain rfl | rfl := houtcome <;> cases hlogged
    · obtain rfl : v = u := by
        rw [houtcome] at hlogged
        exact Outcome.logged_in.inj hlogged
      cases file with
      | absent | blank => cases hv
      | saved now =>
        have hfound := List.find?_some hv
        simp only [Bool.and_eq_true, decide_eq_true_eq] at hfound
        refine ⟨⟨username, password, pass, by rw [hpage, hform], hfound.1 ▸ hname, hpass, hfound.2⟩, fun hrole => ?_⟩
        exact h.2 v ⟨now, rfl, List.mem_of_find?_eq_some hv⟩ hrole
  | index | logout => rw [hpage] at hlogged; cases hlogged
  | setting | upload | recordings | sysinfo | user_manage =>
    rw [hpage] at hlogged
    dsimp only at hlogged
    rcases hvisit : visit s r with ⟨outcome, s'⟩
    rw [hvisit] at hlogged
    cases visit_cases hvisit with
    | turned_away => cases hlogged
    | without_form _ _ _ houtcome => obtain rfl | rfl := houtcome <;> cases hlogged
    | with_form _ _ _ houtcome =>
      obtain rfl : outcome = .logged_in u := hlogged
      simp at houtcome

theorem loginsOk_respond_log {x : Site × Log} (h : LoginsOk password_verify content x) :
    LoginsOk password_verify content (respond_log password_verify x r) := by
  constructor
  · simp only [respond_log, respond]
    split
    · cases hpage : r.page with
      | user_manage post => exact h.users.serve _
      | index | login | logout | setting | upload | recordings | sysinfo => exact h.users
    · exact h.users
  · intro r' u hmem
    obtain heq | hmem := List.mem_cons.mp hmem
    · obtain ⟨rfl, houtcome⟩ := Prod.mk.inj heq
      exact open_page_logged_in h.users houtcome.symm
    · exact h.logins r' u hmem

theorem mem_of_event_mem {id : ℕ} {t : ℤ} (hmem : .login u t ∈ events id log) :
    ∃ r, (r, .logged_in u) ∈ log ∧ r.session = id := by
  obtain ⟨⟨r, outcome⟩, he, hevent⟩ := List.mem_filterMap.mp hmem
  obtain ⟨hlog, hid⟩ := List.mem_filter.mp he
  refine ⟨r, ?_, by simpa using hid⟩
  simp only [event] at hevent
  split at hevent <;> cases hevent
  exact hlog

theorem loginsOk_respond_all (password_verify : Str → Str → Bool) (content : Saved) (requests : List Request) :
    LoginsOk password_verify content (respond_all password_verify (.saved content) requests) := by
  refine foldl_invariant (fun _ _ h _ => loginsOk_respond_log h) (fun _ _ => trivial) ⟨⟨nofun, ?_⟩, fun _ _ h => ?_⟩
  · rintro u ⟨now, heq, hu⟩ -
    exact UsersFile.saved.inj heq ▸ hu
  · cases h

end Managers

/-- Whoever gets an action through on the page for the users is an admin of the users file at the start, and has logged
in to the session with the password: no request makes another admin. -/
theorem managers_are_old_admins (password_verify : Str → Str → Bool) (content : Saved) (requests : List Request)
    (r : Request) (post : Post) (hpage : r.page = .user_manage post)
    (hacted : (respond password_verify (respond_all password_verify (.saved content) requests).1 r).1 = .acted) :
    ∃ u ∈ content.users, u.role = admin ∧ ∃ login,
      (login, .logged_in u) ∈ (respond_all password_verify (.saved content) requests).2 ∧
      login.session = r.session ∧ Proves password_verify login u := by
  have hsessions := sessionsOk_respond_all password_verify (.saved content) requests
  have hlogins := loginsOk_respond_all password_verify content requests
  generalize respond_all password_verify (.saved content) requests = x at *
  have hvisit : (visit (x.1.session r.session) r).1 = .acted := by
    rw [respond, open_page, hpage] at hacted
    exact hacted
  have hadmitted := (visit_admitted_iff (r := r) (hsessions.tells r.session)).mp (hvisit ▸ nofun)
  obtain ⟨u, last, ⟨visits, since, rest, hevents, -⟩, -, hadmits⟩ := hadmitted
  obtain ⟨login, hlogin, hsession⟩ : ∃ login, (login, .logged_in u) ∈ x.2 ∧ login.session = r.session := by
    refine mem_of_event_mem (t := since) ?_
    rw [hevents]
    exact List.mem_append_right _ List.mem_cons_self
  obtain ⟨hproves, hadmin⟩ := hlogins.logins login u hlogin
  rw [hpage] at hadmits
  have hrole : u.role = admin := by simpa [Page.admits] using hadmits
  exact ⟨u, hadmin hrole, hrole, login, hlogin, hsession, hproves⟩

/-- The admin opens the page, and then has a user created with the token that the page has. -/
def open_request : Request :=
  ⟨1, 1010, none, .user_manage (create_post (literal "bob")), false, .missing, [1], true⟩

def create_request : Request :=
  ⟨1, 1020, none, .user_manage (create_post (literal "bob")), true, .string (bin2hex [1]), [2], true⟩

theorem managers_are_old_admins_create :
    ∃ u ∈ one_admin.users, u.role = admin ∧ ∃ login, (login, .logged_in u) ∈
      (respond_all (fun _ _ => true) (.saved one_admin) [login_request, open_request]).2 ∧
      login.session = create_request.session ∧ Proves (fun _ _ => true) login u :=
  managers_are_old_admins (fun _ _ => true) one_admin [login_request, open_request] create_request _ rfl rfl

end k180.web
