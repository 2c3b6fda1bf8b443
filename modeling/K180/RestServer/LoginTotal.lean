import K180.RestServer.OneResponse

open json_c libc

namespace k180.restful_api_server

/-- A call of `strcmp`, or of `crypt`. -/
inductive Call (S : Type*) where
  | strcmp (s1 s2 : Option S)
  | crypt (key setting : Option S)

/-- No NULL is passed. -/
def Call.NonNull {S : Type*} : Call S → Prop
  | .strcmp s1 s2 => s1 ≠ none ∧ s2 ≠ none
  | .crypt key setting => key ≠ none ∧ setting ≠ none

section Calls

variable {α S : Type*} [DecidableEq S] (username password_hash : α → Option S) (crypt : Option S → Option S → Option S)
  (input_user input_pass : Option S)

/-- The calls that the loop of `verify_user` makes, in order. -/
def verify_calls : List α → List (Call S)
  | [] => []
  | user :: rest =>
    .strcmp (username user) input_user ::
      if username user = input_user then
        [.crypt input_pass (password_hash user),
          .strcmp (crypt input_pass (password_hash user)) (password_hash user)]
      else verify_calls rest

/-- NULL is passed for the user, to `strcmp` at the name or, where that is the one, behind it. -/
def NullAt (user : α) : Prop :=
  username user = none ∨ input_user = none ∨
    username user = input_user ∧
      (input_pass = none ∨ password_hash user = none ∨ crypt input_pass (password_hash user) = none)

variable {username password_hash crypt input_user input_pass}

omit [DecidableEq S] in
theorem FailsAt.nullAt {user : α} (hfails : FailsAt username password_hash crypt input_user input_pass user) :
    NullAt username password_hash crypt input_user input_pass user := by
  obtain hname | hinput | ⟨hsame, hcrypt | hhash⟩ := hfails
  · exact .inl hname
  · exact .inr (.inl hinput)
  · exact .inr (.inr ⟨hsame, .inr (.inr hcrypt)⟩)
  · exact .inr (.inr ⟨hsame, .inr (.inl hhash)⟩)

/-- The loop passes NULL exactly when it does so for a user behind users with other names. -/
theorem verify_calls_nonNull_iff {users : List α} :
    (∀ call ∈ verify_calls username password_hash crypt input_user input_pass users, call.NonNull) ↔
      ¬ StopsAt (fun other => username other ≠ input_user ∧ username other ≠ none)
        (NullAt username password_hash crypt input_user input_pass) users := by
  induction users with
  | nil => exact iff_of_true (fun call hcall => absurd hcall List.not_mem_nil) not_stopsAt_nil
  | cons first rest ih =>
    rw [verify_calls, List.forall_mem_cons, stopsAt_cons]
    by_cases hsame : username first = input_user
    · have hnot_passed : ¬ ((username first ≠ input_user ∧ username first ≠ none) ∧
          StopsAt (fun other => username other ≠ input_user ∧ username other ≠ none)
            (NullAt username password_hash crypt input_user input_pass) rest) := fun h => h.1.1 hsame
      rw [if_pos hsame, or_iff_left hnot_passed]
      simp only [NullAt, Call.NonNull, List.forall_mem_cons, List.not_mem_nil, false_implies, implies_true, and_true,
        hsame, true_and]
      tauto
    · rw [if_neg hsame, ih]
      simp only [NullAt, Call.NonNull, hsame, false_and, or_false, ne_eq, not_false_eq_true, true_and]
      tauto

end Calls

namespace http

variable (lib : Library)

/-- The calls of `strcmp` and `crypt` in the branch for a login. -/
def login_calls (s : State) (r : HttpRequest) (io : Io) : List (Call (List Char)) :=
  let body := lib.text.json_tokener_parse (c_bytes r.body)
  match json_object_object_get_ex body "username", json_object_object_get_ex body "password",
    users_read lib s io.users with
  | some username_obj, some password_obj, some users =>
    verify_calls (user_string lib "username") (user_string lib "password_hash") lib.crypt
      (json_object_get_string lib username_obj) (json_object_get_string lib password_obj) users
  | _, _, _ => []

/-- The body is an object whose members `username` and `password` have the texts `u` and `p`, and the hash of the first
user with the name `u` is what `crypt` makes of `p` with it. -/
def Authentic (s : State) (r : HttpRequest) (io : Io) : Prop :=
  ∃ members username_obj password_obj u p users before user after h,
    lib.text.json_tokener_parse (c_bytes r.body) = .object members ∧
    Members.get "username" members = some username_obj ∧ json_object_get_string lib username_obj = some u ∧
    Members.get "password" members = some password_obj ∧ json_object_get_string lib password_obj = some p ∧
    ReadsUsers s io.users ∧ lib.text.json_tokener_parse (c_bytes s.users_file) = .array users ∧
    users = before ++ user :: after ∧ (∀ other ∈ before, user_string lib "username" other ≠ some u) ∧
    user_string lib "username" user = some u ∧ user_string lib "password_hash" user = some h ∧
    lib.crypt (some p) (some h) = some h

/-- The login passes no NULL, is answered, and is answered 200 exactly when it is authentic. -/
structure LoginCorrect (s : State) (r : HttpRequest) (io : Io) (h : Handled) : Prop where
  no_null : ∀ call ∈ login_calls lib s r io, call.NonNull
  answered : ∃ code ∈ [200, 400, 401], ∃ body, h.queued = [⟨code, .json body⟩] ∧
    h.ending = .returned (lib.queue_response ⟨code, .json body⟩)
  accepted : (∃ body, h.queued = [⟨200, .json body⟩]) ↔ Authentic lib s r io

/-- The body has both members, the users can be read, and NULL is passed for one that stands behind users with other
names. -/
def LoginPassesNull (s : State) (r : HttpRequest) (io : Io) : Prop :=
  ∃ username_obj password_obj users before user after,
    json_object_object_get_ex (lib.text.json_tokener_parse (c_bytes r.body)) "username" = some username_obj ∧
    json_object_object_get_ex (lib.text.json_tokener_parse (c_bytes r.body)) "password" = some password_obj ∧
    ReadsUsers s io.users ∧ lib.text.json_tokener_parse (c_bytes s.users_file) = .array users ∧
    users = before ++ user :: after ∧
    (∀ other ∈ before, user_string lib "username" other ≠ json_object_get_string lib username_obj ∧
      user_string lib "username" other ≠ none) ∧
    NullAt (user_string lib "username") (user_string lib "password_hash") lib.crypt
      (json_object_get_string lib username_obj) (json_object_get_string lib password_obj) user

variable {lib} {s : State} {r : HttpRequest} {io : Io}

theorem login_calls_nonNull_iff :
    (∀ call ∈ login_calls lib s r io, call.NonNull) ↔ ¬ LoginPassesNull lib s r io := by
  rw [login_calls, LoginPassesNull]
  cases husername : json_object_object_get_ex (lib.text.json_tokener_parse (c_bytes r.body)) "username" with
  | none => simp
  | some username_obj =>
    cases hpassword : json_object_object_get_ex (lib.text.json_tokener_parse (c_bytes r.body)) "password" with
    | none => simp
    | some password_obj =>
      cases husers : users_read lib s io.users with
      | none =>
        refine iff_of_true (fun call hcall => absurd hcall List.not_mem_nil) ?_
        rintro ⟨_, _, users, -, -, -, -, -, hreads, hparse, -⟩
        rw [(users_read_eq_some_iff lib).mpr ⟨hreads, hparse⟩] at husers
        cases husers
      | some users =>
        obtain ⟨hreads, hparse⟩ := (users_read_eq_some_iff lib).mp husers
        refine verify_calls_nonNull_iff.trans (not_congr ⟨?_, ?_⟩)
        · rintro ⟨before, user, after, hnull⟩
          exact ⟨username_obj, password_obj, users, before, user, after, rfl, rfl, hreads, hparse, hnull⟩
        · rintro ⟨_, _, users', before, user, after, ⟨⟩, ⟨⟩, -, hparse', hnull⟩
          obtain rfl : users = users' := by
            rw [hparse] at hparse'
            exact Json.array.inj hparse'
          exact ⟨before, user, after, hnull⟩

theorem authentic_iff {body username_obj password_obj : Json}
    (hbody : lib.text.json_tokener_parse (c_bytes r.body) = body)
    (husername : json_object_object_get_ex body "username" = some username_obj)
    (hpassword : json_object_object_get_ex body "password" = some password_obj) :
    Authentic lib s r io ↔
      ∃ u p users, json_object_get_string lib username_obj = some u ∧ json_object_get_string lib password_obj = some p ∧
        users_read lib s io.users = some users ∧
        StopsAt (fun other => user_string lib "username" other ≠ some u)
          (AcceptsAt (user_string lib "username") (user_string lib "password_hash") lib.crypt (some u) (some p))
          users := by
  obtain ⟨members, rfl⟩ : ∃ members, body = .object members := by
    cases body with
    | object members => exact ⟨members, rfl⟩
    | _ => cases husername
  rw [json_object_object_get_ex_object] at husername hpassword
  constructor
  · rintro ⟨members', username_obj', password_obj', u, p, users, before, user, after, h, hbody', husername', hu,
      hpassword', hp, hreads, hparse, hsplit, hbefore, hname, hhash, hcrypt⟩
    obtain rfl : members = members' := Json.object.inj (hbody.symm.trans hbody')
    obtain rfl : username_obj = username_obj' := Option.some.inj (husername.symm.trans husername')
    obtain rfl : password_obj = password_obj' := Option.some.inj (hpassword.symm.trans hpassword')
    exact ⟨u, p, users, hu, hp, (users_read_eq_some_iff lib).mpr ⟨hreads, hparse⟩, before, user, after, hsplit, hbefore,
      u, h, rfl, hname, hhash, hcrypt⟩
  · rintro ⟨u, p, users, hu, hp, husers, before, user, after, hsplit, hbefore, input, h, hinput, hname, hhash, hcrypt⟩
    obtain rfl : u = input := Option.some.inj hinput
    obtain ⟨hreads, hparse⟩ := (users_read_eq_some_iff lib).mp husers
    exact ⟨members, username_obj, password_obj, u, p, users, before, user, after, h, hbody, husername, hu, hpassword, hp,
      hreads, hparse, hsplit, hbefore, hname, hhash, hcrypt⟩

/-- What makes the login crash is a NULL that is passed. -/
theorem LoginCrashes.passesNull (hcrashes : LoginCrashes lib s r io) : LoginPassesNull lib s r io := by
  obtain ⟨username_obj, password_obj, users, before, user, after, husername, hpassword, hreads, hparse, hsplit, hbefore,
    hfails⟩ := hcrashes
  exact ⟨username_obj, password_obj, users, before, user, after, husername, hpassword, hreads, hparse, hsplit, hbefore,
    hfails.nullAt⟩

/-- The code of the one response that is queued, and whose result is returned. -/
def Answers (lib : Library) (h : Handled) (code : ℕ) : Prop :=
  ∃ body, h.queued = [⟨code, .json body⟩] ∧ h.ending = .returned (lib.queue_response ⟨code, .json body⟩)

theorem send_json_answers (json : Json) (code : ℕ) : Answers lib (send_json lib json code) code := ⟨json, rfl, rfl⟩

theorem Authentic.members (hauthentic : Authentic lib s r io) :
    ∃ username_obj password_obj,
      json_object_object_get_ex (lib.text.json_tokener_parse (c_bytes r.body)) "username" = some username_obj ∧
      json_object_object_get_ex (lib.text.json_tokener_parse (c_bytes r.body)) "password" = some password_obj := by
  obtain ⟨members, username_obj, password_obj, -, -, -, -, -, -, -, hbody, husername, -, hpassword, -⟩ := hauthentic
  rw [hbody]
  exact ⟨username_obj, password_obj, husername, hpassword⟩

/-- Where no NULL is passed, `verify_user` accepts exactly what is authentic. -/
theorem verify_user_eq_some_true_iff {body username_obj password_obj : Json}
    (hbody : lib.text.json_tokener_parse (c_bytes r.body) = body)
    (husername : json_object_object_get_ex body "username" = some username_obj)
    (hpassword : json_object_object_get_ex body "password" = some password_obj)
    (hnot : ¬ LoginPassesNull lib s r io) :
    verify_user lib s io.users (json_object_get_string lib username_obj) (json_object_get_string lib password_obj) =
      some true ↔ Authentic lib s r io := by
  rw [authentic_iff hbody husername hpassword, verify_user_eq]
  cases husers : users_read lib s io.users with
  | none => simp
  | some users =>
    have hno_null : ¬ StopsAt (fun other => user_string lib "username" other ≠ json_object_get_string lib username_obj ∧
        user_string lib "username" other ≠ none) (NullAt (user_string lib "username") (user_string lib "password_hash")
          lib.crypt (json_object_get_string lib username_obj) (json_object_get_string lib password_obj)) users := by
      rintro ⟨before, user, after, hnull⟩
      obtain ⟨hreads, hparse⟩ := (users_read_eq_some_iff lib).mp husers
      exact hnot ⟨username_obj, password_obj, users, before, user, after, hbody ▸ husername, hbody ▸ hpassword, hreads,
        hparse, hnull⟩
    rw [verify_users_eq_some_true_iff]
    constructor
    · rintro ⟨before, user, after, hsplit, hbefore, u, h, hu, hname, hhash, hcrypt⟩
      obtain ⟨p, hp⟩ : ∃ p, json_object_get_string lib password_obj = some p := by
        refine Option.ne_none_iff_exists'.mp fun hp => hno_null ⟨before, user, after, hsplit, hbefore, ?_⟩
        exact .inr (.inr ⟨hname.trans hu.symm, .inl hp⟩)
      rw [hp] at hcrypt
      refine ⟨u, p, users, hu, hp, rfl, before, user, after, hsplit, fun other hother => ?_, u, h, rfl, hname, hhash,
        hcrypt⟩
      rw [← hu]
      exact (hbefore other hother).1
    · rintro ⟨u, p, users', hu, hp, husers', haccepts⟩
      obtain rfl : users = users' := Option.some.inj husers'
      rw [hu, hp] at hno_null ⊢
      refine haccepts.strengthen hno_null fun other hother => ?_
      by_cases hnone : user_string lib "username" other = none
      · exact .inr (.inl hnone)
      · exact .inl ⟨hother, hnone⟩

/-- A login that passes no NULL is answered, 200 exactly when it is authentic. -/
theorem post_login_answers (hnot : ¬ LoginPassesNull lib s r io) :
    ∃ code ∈ [200, 400, 401], Answers lib (post_login lib s r io).1 code ∧ (code = 200 ↔ Authentic lib s r io) := by
  generalize hbody : lib.text.json_tokener_parse (c_bytes r.body) = body
  have hrefused : ∀ key, key = "username" ∨ key = "password" → json_object_object_get_ex body key = none →
      ¬ Authentic lib s r io := by
    rintro key hkey hnone hauthentic
    obtain ⟨username_obj, password_obj, husername, hpassword⟩ := hauthentic.members
    rw [hbody] at husername hpassword
    obtain rfl | rfl := hkey
    · rw [hnone] at husername
      cases husername
    · rw [hnone] at hpassword
      cases hpassword
  by_cases hnull : body = .null
  · subst hnull
    have hno := hrefused "username" (.inl rfl) rfl
    rw [post_login, hbody]
    exact ⟨400, by simp, send_json_answers _ 400, by simp [hno]⟩
  rw [post_login_of_ne_null lib io hbody hnull]
  cases husername : json_object_object_get_ex body "username" with
  | none =>
    have hno := hrefused "username" (.inl rfl) husername
    exact ⟨401, by simp, send_json_answers _ 401, by simp [hno]⟩
  | some username_obj =>
    cases hpassword : json_object_object_get_ex body "password" with
    | none =>
      have hno := hrefused "password" (.inr rfl) hpassword
      exact ⟨401, by simp, send_json_answers _ 401, by simp [hno]⟩
    | some password_obj =>
      have hverify := verify_user_eq_some_true_iff hbody husername hpassword hnot
      dsimp only
      cases hresult : verify_user lib s io.users (json_object_get_string lib username_obj)
        (json_object_get_string lib password_obj) with
      | none =>
        have hcrashes : LoginCrashes lib s r io :=
          (loginCrashes_iff lib s r io hbody).mpr ⟨username_obj, password_obj, husername, hpassword, hresult⟩
        exact absurd hcrashes.passesNull hnot
      | some accepted =>
        rw [hresult, Option.some.injEq] at hverify
        cases accepted with
        | true => exact ⟨200, by simp, send_json_answers _ 200, by simp [← hverify]⟩
        | false => exact ⟨401, by simp, send_json_answers _ 401, by simp [← hverify]⟩

/-- A login is answered as it should be exactly when it gets nobody to pass NULL. -/
theorem login_correct_iff (max_fps : ℤ) (hlogin : is_login r = true) :
    LoginCorrect lib s r io (handler lib max_fps s r io).1 ↔ ¬ LoginPassesNull lib s r io := by
  constructor
  · intro hcorrect
    exact login_calls_nonNull_iff.mp hcorrect.no_null
  · intro hnot
    rw [is_login] at hlogin
    rw [handler, if_pos hlogin]
    obtain ⟨code, hcode, hanswers, haccepted⟩ := post_login_answers hnot
    refine ⟨login_calls_nonNull_iff.mpr hnot, ⟨code, hcode, hanswers⟩, Iff.trans ?_ haccepted⟩
    obtain ⟨body, hqueued, -⟩ := hanswers
    rw [hqueued]
    constructor
    · rintro ⟨body', hsame⟩
      exact congrArg Response.code (List.cons.inj hsame).1
    · rintro rfl
      exact ⟨body, rfl⟩

/-- A file with one user, and the body of a login without a user's name. -/
def sample_users : List UInt8 := text_bytes "[\x7b\"username\":\"ann\",\"password_hash\":\"h\"\x7d]"
def null_body : List UInt8 := text_bytes "\x7b\"username\":null,\"password\":\"p\"\x7d"
def ann_body : List UInt8 := text_bytes "\x7b\"username\":\"ann\",\"password\":\"p\"\x7d"

def sample_login_text : JsonText where
  json_tokener_parse bytes :=
    if bytes = sample_users then
      .array [.object [("username", .string "ann"), ("password_hash", .string "h")]]
    else if bytes = null_body then .object [("username", .null), ("password", .string "p")]
    else if bytes = ann_body then .object [("username", .string "ann"), ("password", .string "p")]
    else .null
  json_object_to_json_string_ext _ := sample_new_json
  parse_nil := rfl
  print_ne_nil := sample_text.print_ne_nil

/-- The hash is one of the password `p`. -/
def sample_login_library : Library where
  text := sample_login_text
  value_text _ := []
  crypt key setting := if key = some ['p'] ∧ setting = some ['h'] then some ['h'] else none
  queue_response _ := 1

def sample_login (body : List UInt8) : HttpRequest where
  url := "/login"
  method := "POST"
  authorization := none
  file := none
  body := body

def sample_login_state : State where
  server := sample_server
  session_map := []
  users_file := sample_users

def sample_login_io : Io := { sample_http_io with users := ⟨true, true, true, 4096⟩ }

theorem login_correct_iff_ann :
    is_login (sample_login ann_body) = true ∧
      (LoginCorrect sample_login_library sample_login_state (sample_login ann_body) sample_login_io
          (handler sample_login_library 60 sample_login_state (sample_login ann_body) sample_login_io).1 ↔
        ¬ LoginPassesNull sample_login_library sample_login_state (sample_login ann_body) sample_login_io) :=
  ⟨by decide, login_correct_iff 60 (by decide)⟩

/-- A login with `null` for the name passes NULL to `strcmp`, and the process ends. -/
theorem null_name_crashes :
    is_login (sample_login null_body) = true ∧
      (handler sample_login_library 60 sample_login_state (sample_login null_body) sample_login_io).1 =
        ⟨[.user_file], [], .crashed⟩ ∧
      ¬ LoginCorrect sample_login_library sample_login_state (sample_login null_body) sample_login_io
        (handler sample_login_library 60 sample_login_state (sample_login null_body) sample_login_io).1 := by
  have hhandled : (handler sample_login_library 60 sample_login_state (sample_login null_body) sample_login_io).1 =
      ⟨[.user_file], [], .crashed⟩ := rfl
  refine ⟨by decide, hhandled, fun hcorrect => ?_⟩
  obtain ⟨code, -, body, hqueued, -⟩ := hcorrect.answered
  rw [hhandled] at hqueued
  cases hqueued

end http

end k180.restful_api_server
