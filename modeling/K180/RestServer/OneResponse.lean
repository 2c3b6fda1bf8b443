import K180.RestServer.Handler
import K180.RestServer.Lock

open json_c libc

namespace k180.restful_api_server

/-- Updates that are valid meet a configuration that is no object, and one of them has a member to add to it. -/
def AssertionFails (config query : Json) : Prop :=
  json_object_is_type config .object = false ∧ is_put_shape query = true ∧
    (∀ item ∈ put_items query, is_valid_query item = true) ∧ ∃ item ∈ put_items query, item_members item ≠ []

section Assertion

variable (max_fps : ℤ) {config : Json}

theorem get_ex_of_not_object (hconfig : json_object_is_type config .object = false) (key : String) :
    json_object_object_get_ex config key = none := by
  cases config with
  | object members => cases hconfig
  | _ => rfl

/-- The sections of a valid update pass against a configuration that has no members. -/
theorem validate_json_of_not_object (hconfig : json_object_is_type config .object = false)
    {updates : List (String × Json)} (hvalid : ∀ m ∈ updates, is_valid_top m = true) (flag : Bool) :
    (validate_json max_fps config updates flag).1 = true := by
  induction updates generalizing flag with
  | nil => rfl
  | cons m rest ih =>
    obtain ⟨hm, hrest⟩ := List.forall_mem_cons.mp hvalid
    rw [validate_json_cons]
    refine ⟨?_, ih hrest _⟩
    obtain ⟨key, val⟩ := m
    cases val with
    | object subs =>
      simp only [validate_member, get_ex_of_not_object hconfig, validate_value]
      rw [is_valid_top, Bool.and_eq_true, in_list, List.any_eq_true] at hm
      obtain ⟨⟨key', hkey, hsame⟩, -⟩ := hm
      obtain rfl : key = key' := of_decide_eq_true hsame
      simp only [valid_top_keys, List.mem_cons, List.not_mem_nil, or_false] at hkey
      obtain rfl | rfl | rfl := hkey <;> rfl
    | _ => cases hm

/-- An update fails the assertion exactly when it has a member. -/
theorem update_json_of_not_object (hconfig : json_object_is_type config .object = false)
    {updates : List (String × Json)} (hvalid : ∀ m ∈ updates, is_valid_top m = true) (flag : Bool) :
    (update_json max_fps config updates flag).1 = if updates = [] then .updated config else .aborted := by
  have hok := validate_json_of_not_object max_fps hconfig hvalid flag
  rw [update_json]
  revert hok
  obtain ⟨ok, next⟩ := validate_json max_fps config updates flag
  rintro (rfl : ok = true)
  cases updates with
  | nil => cases config <;> rfl
  | cons m rest => cases config <;> first | rfl | cases hconfig

theorem update_items_of_not_object (hconfig : json_object_is_type config .object = false) {items : List Json}
    (hvalid : ∀ item ∈ items, is_valid_query item = true) (flag : Bool) :
    (update_items max_fps config items flag).1 = .aborted ↔ ∃ item ∈ items, item_members item ≠ [] := by
  induction items generalizing flag with
  | nil => simp [update_items]
  | cons item rest ih =>
    obtain ⟨hitem, hrest⟩ := List.forall_mem_cons.mp hvalid
    have hupdate := update_json_of_not_object max_fps hconfig (top_of_is_valid_query hitem) flag
    rw [is_object_of_is_valid_query hitem, update_items, List.exists_mem_cons_iff]
    revert hupdate
    obtain ⟨result, next⟩ := update_json max_fps config (item_members item) flag
    rintro (rfl : result = _)
    have hmembers : item_members (.object (item_members item)) = item_members item := rfl
    by_cases hnil : item_members item = []
    · rw [if_pos hnil, hmembers, or_iff_right (not_not.mpr hnil)]
      exact ih hrest next
    · rw [if_neg hnil, hmembers]
      exact iff_of_true rfl (.inl hnil)

theorem put_result_aborted_iff (message : String) (x : UpdateResult × Bool) :
    (put_result message x).1 = .aborted ↔ x.1 = .aborted := by
  obtain ⟨result, flag⟩ := x
  cases result <;> simp [put_result]

/-- The validate and apply phase fails the assertion exactly on a configuration that is no object. -/
theorem put_update_aborted_iff (query : Json) (flag : Bool) :
    (put_update max_fps config query flag).1 = .aborted ↔ AssertionFails config query := by
  by_cases hconfig : json_object_is_type config .object = false
  swap
  · obtain ⟨members, rfl⟩ : ∃ members, config = .object members := by
      cases config with
      | object members => exact ⟨members, rfl⟩
      | _ => exact absurd rfl hconfig
    refine iff_of_false ?_ fun h => hconfig h.1
    obtain ⟨hupdated, hrefused⟩ := put_update_object max_fps members query flag
    by_cases hrequested : UpdateRequested max_fps members query
    · simp [hupdated hrequested]
    · obtain ⟨message, hmessage⟩ := hrefused hrequested
      simp [hmessage]
  by_cases hvalid : is_put_shape query = true ∧ ∀ item ∈ put_items query, is_valid_query item = true
  swap
  · obtain ⟨message, hmessage⟩ := put_update_refused max_fps config flag hvalid
    rw [hmessage]
    exact iff_of_false (by simp) fun h => hvalid ⟨h.2.1, h.2.2.1⟩
  obtain ⟨hshape, hitems⟩ := hvalid
  obtain ⟨message, hupdate⟩ := put_update_valid max_fps config flag hshape hitems
  rw [hupdate, put_result_aborted_iff, update_items_of_not_object max_fps hconfig hitems]
  exact ⟨fun hmember => ⟨hconfig, hshape, hitems, hmember⟩, fun h => h.2.2.2⟩

end Assertion

theorem put_messages_aborted_iff (text : JsonText) (max_fps : ℤ) (s : Server) (io : ConfigIo) (config query : Json) :
    (put_messages text max_fps s io config query).1 = .aborted ↔ AssertionFails config query := by
  rw [← put_update_aborted_iff max_fps query s.sys_cfg_change, put_messages]
  obtain ⟨result, flag⟩ := put_update max_fps config query s.sys_cfg_change
  cases result with
  | refused message => exact iff_of_false (by simp [bad_request]) (by simp)
  | aborted => exact iff_of_true rfl rfl
  | updated config' =>
    refine iff_of_false ?_ (by simp)
    dsimp only
    split
    · simp [bad_request]
    split
    · simp [bad_request]
    split
    · split <;> simp [bad_request]
    · simp

/-- The PUT branch ends with an answer unless the assertion fails. -/
theorem put_messages_answered_iff (text : JsonText) (max_fps : ℤ) (s : Server) (io : ConfigIo) (config query : Json) :
    (∃ code body, (put_messages text max_fps s io config query).1 = .answer code body) ↔
      ¬ AssertionFails config query := by
  rw [← put_messages_aborted_iff text max_fps s io]
  obtain ⟨s', haborted⟩ | ⟨code, body, s', hanswer, -⟩ := put_messages_released text max_fps s io config query
  · simp [haborted]
  · simp [hanswer]

/-- A request with a token is answered unless it waits for a lock that was not given back, or fails the assertion. -/
theorem handler_answered_iff (text : JsonText) (max_fps : ℤ) (s : Server) {r : Request} (hauth : r.authorized = true) :
    (∃ code body, (handler text max_fps s r).1 = .answer code body) ↔
      ¬ (r.io.open_ok = true ∧ s.lock_held = true) ∧
        ¬ (ReachesMethod text s r ∧ r.method = "PUT" ∧ AssertionFails (parsed_config text s) (parsed_body text r)) := by
  cases hlock : s.lock_held with
  | true =>
    have hnot : ¬ ReachesMethod text s r := fun hreach => by
      have hfree := hreach.1.2.2.1
      rw [hlock] at hfree
      cases hfree
    cases hopen : r.io.open_ok with
    | true =>
      refine iff_of_false ?_ fun h => h.1 ⟨rfl, rfl⟩
      rintro ⟨code, body, hanswer⟩
      simp [handler, hauth, api_messages, hopen, hlock] at hanswer
    | false =>
      refine iff_of_true ?_ ⟨fun h => absurd h.1 Bool.false_ne_true, fun h => hnot h.1⟩
      exact ⟨400, error_body "Failed to open config file 0", by simp [handler, hauth, api_messages, hopen, bad_request]⟩
  | false =>
    rw [and_iff_right (fun h => Bool.false_ne_true h.2)]
    by_cases hreach : ReachesMethod text s r
    swap
    · obtain ⟨code, message, -, hearly⟩ := handler_early text max_fps hlock hreach
      exact iff_of_true ⟨code, error_body message, congrArg Prod.fst hearly⟩ fun h => hreach h.1
    rw [and_iff_right hreach, handler_reached text max_fps hreach]
    by_cases hget : r.method = "GET"
    · rw [if_pos hget]
      obtain ⟨code, body, hanswer⟩ := get_messages_released s.opened.locked (parsed_config text s) (parsed_body text r)
      refine iff_of_true ⟨code, body, congrArg Prod.fst hanswer⟩ fun h => ?_
      exact absurd (hget.symm.trans h.1) (by decide)
    rw [if_neg hget]
    by_cases hput : r.method = "PUT"
    · rw [if_pos hput, put_messages_answered_iff, and_iff_right hput]
    · rw [if_neg hput]
      exact iff_of_true ⟨404, error_body "Not found", rfl⟩ fun h => hput h.1

namespace http

/-- Exactly one response is queued, and the result of queueing it is returned. -/
def OneResponse (lib : Library) (h : Handled) : Prop :=
  ∃ response, h.queued = [response] ∧ h.ending = .returned (lib.queue_response response)

/-- A request that queues a 401 and nothing else, and touches no file but that of the users. -/
def TurnedAway (h : Handled) : Prop :=
  (∃ body, h.queued = [⟨401, .json body⟩]) ∧ ∀ file ∈ h.touched, file = .user_file

def is_login (r : HttpRequest) : Bool := r.url = "/login" && r.method = "POST"

/-- The request as the block for `/api/messages` sees it, once its token has been checked. -/
def messages_request (r : HttpRequest) (io : Io) : Request := ⟨r.method, true, r.body, io.config⟩

/-- The request asks for something that is done under the lock of the recordings. -/
def takes_rec_lock (r : HttpRequest) : Bool :=
  r.method = "GET" && starts_with r.url "/api/listfiles" ||
    r.method = "GET" && starts_with r.url "/api/download" && r.file.isSome ||
      r.method = "DELETE" && starts_with r.url "/api/del_rec_file" && r.file.isSome

def reboots (r : HttpRequest) : Bool := r.method = "PUT" && starts_with r.url "/api/RebootSystem"

/-- The file of users can be read to its end. -/
def ReadsUsers (s : State) (io : UsersIo) : Prop :=
  io.open_ok = true ∧ io.flock_ok = true ∧ io.fdopen_ok = true ∧
    fread s.users_file.length io.readable = s.users_file.length

/-- The login calls `strcmp` on NULL, for a user behind users with other names. -/
def LoginCrashes (lib : Library) (s : State) (r : HttpRequest) (io : Io) : Prop :=
  ∃ username_obj password_obj users before user after,
    json_object_object_get_ex (lib.text.json_tokener_parse (c_bytes r.body)) "username" = some username_obj ∧
    json_object_object_get_ex (lib.text.json_tokener_parse (c_bytes r.body)) "password" = some password_obj ∧
    ReadsUsers s io.users ∧ lib.text.json_tokener_parse (c_bytes s.users_file) = .array users ∧
    users = before ++ user :: after ∧
    (∀ other ∈ before, user_string lib "username" other ≠ json_object_get_string lib username_obj ∧
      user_string lib "username" other ≠ none) ∧
    FailsAt (user_string lib "username") (user_string lib "password_hash") lib.crypt
      (json_object_get_string lib username_obj) (json_object_get_string lib password_obj) user

/-- The requests that get a response, and the result of queueing it as the result of the handler: a login that does not
crash, a request without a valid token, and one with a token that neither waits for the lock of the configuration nor
fails the assertion there, that gets the lock of the recordings where it takes it, and that is not for a reboot. -/
def GetsResponse (lib : Library) (s : State) (r : HttpRequest) (io : Io) : Prop :=
  if is_login r = true then ¬ LoginCrashes lib s r io
  else if (check_auth s.session_map r.authorization io.now).1 = false then True
  else if r.url = "/api/messages" then
    ¬ (io.config.open_ok = true ∧ s.server.lock_held = true) ∧
      ¬ (ReachesMethod lib.text s.server (messages_request r io) ∧ r.method = "PUT" ∧
        AssertionFails (parsed_config lib.text s.server) (parsed_body lib.text (messages_request r io)))
  else (takes_rec_lock r = true → io.rec_open_ok = true ∧ io.rec_flock_ok = true) ∧ reboots r = false

section Responses

variable (lib : Library)

theorem send_json_oneResponse (json : Json) (code : ℕ) : OneResponse lib (send_json lib json code) :=
  ⟨⟨code, .json json⟩, rfl, rfl⟩

theorem not_oneResponse_of_queued_nil {h : Handled} (hqueued : h.queued = []) : ¬ OneResponse lib h := by
  rintro ⟨response, hresponse, -⟩
  rw [hqueued] at hresponse
  cases hresponse

theorem send_file_list_oneResponse (io : Io) : OneResponse lib (send_file_list lib io) := by
  unfold send_file_list
  split
  · exact send_json_oneResponse lib _ 500
  · exact send_json_oneResponse lib _ 200

theorem download_rec_file_oneResponse (io : Io) (filename : List Char) :
    OneResponse lib (download_rec_file lib io filename) := by
  unfold download_rec_file
  split
  · exact send_json_oneResponse lib _ 500
  split
  · exact send_json_oneResponse lib _ 404
  split
  · exact send_json_oneResponse lib _ 500
  · exact ⟨_, rfl, rfl⟩

theorem delete_rec_file_oneResponse (io : Io) (filename : List Char) :
    OneResponse lib (delete_rec_file lib io filename) := by
  unfold delete_rec_file
  split
  · exact send_json_oneResponse lib _ 500
  split
  · exact send_json_oneResponse lib _ 500
  · exact send_json_oneResponse lib _ 200

/-- What responds once responds under the lock of the recordings exactly when the lock can be had. -/
theorem with_rec_lock_oneResponse_iff (io : Io) {h : Handled} (hone : OneResponse lib h) :
    OneResponse lib (with_rec_lock io h) ↔ io.rec_open_ok = true ∧ io.rec_flock_ok = true := by
  unfold with_rec_lock
  cases hopen : io.rec_open_ok with
  | false => exact iff_of_false (not_oneResponse_of_queued_nil lib rfl) (by simp)
  | true =>
    cases hflock : io.rec_flock_ok with
    | false => exact iff_of_false (not_oneResponse_of_queued_nil lib rfl) (by simp)
    | true => exact iff_of_true hone ⟨rfl, rfl⟩

/-- No url is for a restart of the program and for a reboot. -/
theorem not_reboot_of_restart {url : String} (hrestart : starts_with url "/api/RestartProgram_camera" = true) :
    starts_with url "/api/RebootSystem" = false := by
  rw [starts_with, decide_eq_true_eq] at hrestart
  rw [starts_with, decide_eq_false_iff_not]
  intro hreboot
  exact absurd (List.prefix_of_prefix_length_le hreboot hrestart (by decide)) (by decide)

theorem script_requests_oneResponse_iff (r : HttpRequest) (io : Io) :
    OneResponse lib (script_requests lib r io) ↔ reboots r = false := by
  rw [script_requests, reboots]
  by_cases hput : r.method = "PUT"
  swap
  · simp only [hput, decide_false, Bool.false_and, Bool.false_eq_true, if_false]
    exact iff_of_true (send_json_oneResponse lib _ 404) trivial
  simp only [hput, decide_true, Bool.true_and]
  cases hrestart : starts_with r.url "/api/RestartProgram_camera" with
  | true =>
    rw [if_pos rfl, not_reboot_of_restart hrestart]
    refine iff_of_true ?_ rfl
    split
    · exact send_json_oneResponse lib _ 200
    · exact send_json_oneResponse lib _ 404
  | false =>
    cases hreboot : starts_with r.url "/api/RebootSystem" with
    | true => exact iff_of_false (not_oneResponse_of_queued_nil lib rfl) (by simp)
    | false => exact iff_of_true (send_json_oneResponse lib _ 404) rfl

theorem other_requests_oneResponse_iff (r : HttpRequest) (io : Io) :
    OneResponse lib (other_requests lib r io) ↔
      (takes_rec_lock r = true → io.rec_open_ok = true ∧ io.rec_flock_ok = true) ∧ reboots r = false := by
  have hlocked : ∀ {h method}, OneResponse lib h → r.method = method → method ≠ "PUT" →
      (OneResponse lib (with_rec_lock io h) ↔ (io.rec_open_ok = true ∧ io.rec_flock_ok = true) ∧ reboots r = false) := by
    intro h method hone hmethod hne
    rw [with_rec_lock_oneResponse_iff lib io hone]
    exact (and_iff_left (by simp [reboots, hmethod, hne])).symm
  rw [other_requests, takes_rec_lock]
  cases hlist : r.method = "GET" && starts_with r.url "/api/listfiles" with
  | true =>
    have hget : r.method = "GET" := by simpa using (Bool.and_eq_true_iff.mp hlist).1
    simpa using hlocked (send_file_list_oneResponse lib io) hget (by decide)
  | false =>
    rw [if_neg Bool.false_ne_true]
    cases r.file with
    | none => simpa using script_requests_oneResponse_iff lib r io
    | some filename =>
      cases hdown : r.method = "GET" && starts_with r.url "/api/download" with
      | true =>
        have hget : r.method = "GET" := by simpa using (Bool.and_eq_true_iff.mp hdown).1
        simpa using hlocked (download_rec_file_oneResponse lib io filename) hget (by decide)
      | false =>
        cases hdelete : r.method = "DELETE" && starts_with r.url "/api/del_rec_file" with
        | true =>
          have hdel : r.method = "DELETE" := by simpa using (Bool.and_eq_true_iff.mp hdelete).1
          simpa using hlocked (delete_rec_file_oneResponse lib io filename) hdel (by decide)
        | false => simpa using script_requests_oneResponse_iff lib r io

/-- The users that `verify_user` gets to look at. -/
def users_read (s : State) (io : UsersIo) : Option (List Json) :=
  if io.open_ok && io.flock_ok && io.fdopen_ok && fread s.users_file.length io.readable = s.users_file.length then
    match lib.text.json_tokener_parse (c_bytes s.users_file) with
    | .array users => some users
    | _ => none
  else none

theorem users_read_eq_some_iff {s : State} {io : UsersIo} {users : List Json} :
    users_read lib s io = some users ↔
      ReadsUsers s io ∧ lib.text.json_tokener_parse (c_bytes s.users_file) = .array users := by
  have hreads : (io.open_ok && io.flock_ok && io.fdopen_ok &&
      decide (fread s.users_file.length io.readable = s.users_file.length)) = true ↔ ReadsUsers s io := by
    simp [ReadsUsers, and_assoc]
  rw [users_read]
  split
  · rename_i h
    rw [and_iff_right (hreads.mp h)]
    cases lib.text.json_tokener_parse (c_bytes s.users_file) <;> simp
  · rename_i h
    exact iff_of_false (by simp) fun hread => h (hreads.mpr hread.1)

theorem verify_user_eq (s : State) (io : UsersIo) (input_user input_pass : Option (List Char)) :
    verify_user lib s io input_user input_pass =
      match users_read lib s io with
      | none => some false
      | some users =>
        verify_users (user_string lib "username") (user_string lib "password_hash") lib.crypt input_user input_pass
          users := by
  rw [verify_user, users_read]
  cases io.open_ok with
  | false => rfl
  | true =>
    cases io.flock_ok with
    | false => rfl
    | true =>
      cases io.fdopen_ok with
      | false => rfl
      | true =>
        by_cases hread : fread s.users_file.length io.readable = s.users_file.length
        · simp only [hread, ne_eq, not_true_eq_false, if_false, Bool.not_true, Bool.false_eq_true, Bool.and_true,
            decide_true, if_true]
          cases lib.text.json_tokener_parse (c_bytes s.users_file) <;> rfl
        · simp [hread]

theorem verify_user_eq_none_iff (s : State) (io : UsersIo) (input_user input_pass : Option (List Char)) :
    verify_user lib s io input_user input_pass = none ↔
      ReadsUsers s io ∧ ∃ users before user after, lib.text.json_tokener_parse (c_bytes s.users_file) = .array users ∧
        users = before ++ user :: after ∧
        (∀ other ∈ before, user_string lib "username" other ≠ input_user ∧ user_string lib "username" other ≠ none) ∧
        FailsAt (user_string lib "username") (user_string lib "password_hash") lib.crypt input_user input_pass user := by
  rw [verify_user_eq]
  cases husers : users_read lib s io with
  | none =>
    refine iff_of_false (by simp) ?_
    rintro ⟨hreads, users, -, -, -, hparse, -⟩
    rw [(users_read_eq_some_iff lib).mpr ⟨hreads, hparse⟩] at husers
    cases husers
  | some users =>
    obtain ⟨hreads, hparse⟩ := (users_read_eq_some_iff lib).mp husers
    simp only [verify_users_eq_none_iff]
    constructor
    · rintro ⟨before, user, after, hfails⟩
      exact ⟨hreads, users, before, user, after, hparse, hfails⟩
    · rintro ⟨-, users', before, user, after, hparse', hfails⟩
      obtain rfl : users = users' := by
        rw [hparse] at hparse'
        exact Json.array.inj hparse'
      exact ⟨before, user, after, hfails⟩

/-- A login with a body that is JSON. -/
theorem post_login_of_ne_null {s : State} {r : HttpRequest} (io : Io) {body : Json}
    (hbody : lib.text.json_tokener_parse (c_bytes r.body) = body) (hnull : body ≠ .null) :
    post_login lib s r io =
      match json_object_object_get_ex body "username", json_object_object_get_ex body "password" with
      | some username_obj, some password_obj =>
        match verify_user lib s io.users (json_object_get_string lib username_obj)
          (json_object_get_string lib password_obj) with
        | none => (⟨[.user_file], [], .crashed⟩, s)
        | some true =>
          ((send_json lib (.object [("token", .string io.token)]) 200).touching .user_file,
            { s with session_map := login s.session_map io.token io.now })
        | some false => ((send_json lib (error_body "Invalid credentials") 401).touching .user_file, s)
      | _, _ => (send_json lib (error_body "Invalid credentials") 401, s) := by
  rw [post_login, hbody]
  cases body with
  | null => exact absurd rfl hnull
  | _ => rfl

theorem loginCrashes_iff (s : State) (r : HttpRequest) (io : Io) {body : Json}
    (hbody : lib.text.json_tokener_parse (c_bytes r.body) = body) :
    LoginCrashes lib s r io ↔
      ∃ username_obj password_obj, json_object_object_get_ex body "username" = some username_obj ∧
        json_object_object_get_ex body "password" = some password_obj ∧
        verify_user lib s io.users (json_object_get_string lib username_obj)
          (json_object_get_string lib password_obj) = none := by
  simp only [LoginCrashes, hbody, verify_user_eq_none_iff]
  constructor
  · rintro ⟨username_obj, password_obj, users, before, user, after, husername, hpassword, hreads, husers⟩
    exact ⟨username_obj, password_obj, husername, hpassword, hreads, users, before, user, after, husers⟩
  · rintro ⟨username_obj, password_obj, husername, hpassword, hreads, users, before, user, after, husers⟩
    exact ⟨username_obj, password_obj, users, before, user, after, husername, hpassword, hreads, husers⟩

theorem post_login_oneResponse_iff (s : State) (r : HttpRequest) (io : Io) :
    OneResponse lib (post_login lib s r io).1 ↔ ¬ LoginCrashes lib s r io := by
  generalize hbody : lib.text.json_tokener_parse (c_bytes r.body) = body
  rw [loginCrashes_iff lib s r io hbody]
  by_cases hnull : body = .null
  · subst hnull
    rw [post_login, hbody]
    exact iff_of_true (send_json_oneResponse lib _ 400) (by simp [json_object_object_get_ex])
  rw [post_login_of_ne_null lib io hbody hnull]
  cases json_object_object_get_ex body "username" with
  | none => exact iff_of_true (send_json_oneResponse lib _ 401) (by simp)
  | some username_obj =>
    cases json_object_object_get_ex body "password" with
    | none => exact iff_of_true (send_json_oneResponse lib _ 401) (by simp)
    | some password_obj =>
      dsimp only
      cases hverify : verify_user lib s io.users (json_object_get_string lib username_obj)
        (json_object_get_string lib password_obj) with
      | none => exact iff_of_false (not_oneResponse_of_queued_nil lib rfl) (by simp [hverify])
      | some accepted =>
        refine iff_of_true ?_ (by simp [hverify])
        cases accepted with
        | true => exact send_json_oneResponse lib _ 200
        | false => exact send_json_oneResponse lib _ 401

theorem messages_handled_oneResponse_iff (helper : Bool) (outcome : Outcome) :
    OneResponse lib (messages_handled lib helper outcome) ↔ ∃ code body, outcome = .answer code body := by
  cases outcome with
  | answer code body => exact iff_of_true (send_json_oneResponse lib body code) ⟨code, body, rfl⟩
  | blocked => exact iff_of_false (not_oneResponse_of_queued_nil lib rfl) (by simp)
  | aborted => exact iff_of_false (not_oneResponse_of_queued_nil lib rfl) (by simp)

/-- The handler answers a request exactly when `GetsResponse` says so. -/
theorem handler_oneResponse_iff (max_fps : ℤ) (s : State) (r : HttpRequest) (io : Io) :
    OneResponse lib (handler lib max_fps s r io).1 ↔ GetsResponse lib s r io := by
  rw [handler, GetsResponse, is_login]
  cases hlogin : r.url = "/login" && r.method = "POST" with
  | true =>
    rw [if_pos rfl, if_pos rfl]
    exact post_login_oneResponse_iff lib s r io
  | false =>
    rw [if_neg Bool.false_ne_true, if_neg Bool.false_ne_true]
    obtain ⟨valid, session_map⟩ := check_auth s.session_map r.authorization io.now
    cases valid with
    | false => exact iff_of_true (send_json_oneResponse lib _ 401) trivial
    | true =>
      rw [if_neg (by simp)]
      dsimp only
      by_cases hmessages : r.url = "/api/messages"
      · rw [if_pos hmessages, if_pos hmessages, messages_handled_oneResponse_iff]
        have hauth : (messages_request r io).authorized = true := rfl
        exact handler_answered_iff lib.text max_fps s.server hauth
      · rw [if_neg hmessages, if_neg hmessages]
        exact other_requests_oneResponse_iff lib r io

/-- Without a valid token and without being a login, a request is turned away. -/
theorem handler_turnedAway (max_fps : ℤ) (s : State) {r : HttpRequest} {io : Io} (hlogin : is_login r = false)
    (hauth : (check_auth s.session_map r.authorization io.now).1 = false) :
    TurnedAway (handler lib max_fps s r io).1 := by
  rw [is_login] at hlogin
  rw [handler, hlogin, if_neg Bool.false_ne_true]
  revert hauth
  obtain ⟨valid, session_map⟩ := check_auth s.session_map r.authorization io.now
  rintro (rfl : valid = false)
  exact ⟨⟨error_body "Unauthorized", rfl⟩, by simp [send_json, queue]⟩

end Responses

/-- A request that is neither a login nor carries a valid token is turned away without a look at any file, and exactly
the requests that `GetsResponse` names get exactly one response, with the result of queueing it returned. -/
theorem one_response_iff (lib : Library) (max_fps : ℤ) (s : State) (r : HttpRequest) (io : Io) :
    (OneResponse lib (handler lib max_fps s r io).1 ∧
      (is_login r = false → (check_auth s.session_map r.authorization io.now).1 = false →
        TurnedAway (handler lib max_fps s r io).1)) ↔
      GetsResponse lib s r io := by
  rw [handler_oneResponse_iff]
  exact and_iff_left fun hlogin hauth => handler_turnedAway lib max_fps s hlogin hauth

def sample_library : Library where
  text := sample_text
  value_text _ := []
  crypt _ hash := hash
  queue_response _ := 1

/-- A request for a reboot, with the token of a login, and the script started. -/
def sample_reboot : HttpRequest where
  url := "/api/RebootSystem"
  method := "PUT"
  authorization := some "Bearer t"
  file := none
  body := []

def sample_state : State where
  server := sample_server
  session_map := login [] "t" 0
  users_file := []

def sample_http_io : Io where
  now := 0
  token := "u"
  users := ⟨true, true, true, 0⟩
  config := sample_io
  rec_open_ok := true
  rec_flock_ok := true
  readdir := some []
  fopen := none
  remove_ok := true
  restart_status := 0
  reboot_status := 0

/-- The request for a reboot gets no response, and what is returned is the status of the script. -/
theorem reboot_without_response :
    (check_auth sample_state.session_map sample_reboot.authorization sample_http_io.now).1 = true ∧
      (handler sample_library 60 sample_state sample_reboot sample_http_io).1 = ⟨[.reboot_system], [], .returned 0⟩ ∧
      ¬ OneResponse sample_library (handler sample_library 60 sample_state sample_reboot sample_http_io).1 := by
  have hauth : (check_auth sample_state.session_map sample_reboot.authorization sample_http_io.now).1 = true := by
    decide +kernel
  have hhandled : (handler sample_library 60 sample_state sample_reboot sample_http_io).1 =
      ⟨[.reboot_system], [], .returned 0⟩ := by
    rw [handler, if_neg (by decide)]
    revert hauth
    obtain ⟨valid, session_map⟩ :=
      check_auth sample_state.session_map sample_reboot.authorization sample_http_io.now
    rintro (rfl : valid = true)
    rfl
  refine ⟨hauth, hhandled, ?_⟩
  rw [hhandled]
  exact not_oneResponse_of_queued_nil sample_library rfl

end http

end k180.restful_api_server
