import K180.Recordings.Names
import K180.RestServer.Atomicity
import K180.RestServer.Sessions
import K180.RestServer.VerifyUser

open json_c libc

namespace k180.restful_api_server.http

/-- What a response carries: a JSON text, or a recording under its name. -/
inductive Payload where
  | json (body : Json)
  | recording (content : List UInt8) (filename : List Char)

structure Response where
  code : ℕ
  payload : Payload

/-- The files that requests open, and the scripts that they start. -/
inductive File where
  | user_file
  | rf_reg_file
  | modify_sysip_netplan
  | rec_file_lock
  | record_dir
  | recording (filename : List Char)
  | restart_program_camera
  | reboot_system
deriving DecidableEq

/-- How a call of the handler ends: with a return value, by waiting for a lock that is never released, or with the
process, on a failed assertion or a NULL pointer. -/
inductive Ending where
  | returned (value : ℤ)
  | blocked
  | crashed

/-- What the handler does with a request: what it touches, and the responses it queues. -/
structure Handled where
  touched : List File
  queued : List Response
  ending : Ending

def Handled.touching (h : Handled) (file : File) : Handled := { h with touched := file :: h.touched }

/-- A request with its body received: the header `Authorization` and the argument `file`, where they are given. -/
structure HttpRequest where
  url : String
  method : String
  authorization : Option String
  file : Option (List Char)
  body : List UInt8

/-- How the calls that `verify_user` makes on the users turn out. -/
structure UsersIo where
  open_ok : Bool
  flock_ok : Bool
  fdopen_ok : Bool
  readable : ℕ

/-- How the calls turn out: the time and the token that a login gets, the calls on the files of users and of the
configuration, the lock of the recordings, the entries of their directory, the content of a recording with how much of
it can be read, its removal, and the results of `system`. -/
structure Io where
  now : time_t
  token : String
  users : UsersIo
  config : ConfigIo
  rec_open_ok : Bool
  rec_flock_ok : Bool
  readdir : Option (List String)
  fopen : Option (List UInt8 × ℕ)
  remove_ok : Bool
  restart_status : ℤ
  reboot_status : ℤ

/-- What requests act on: the process with the configuration, the sessions, and the users. -/
structure State where
  server : Server
  session_map : List (String × Json)
  users_file : List UInt8

/-- The functions that are not part of the server: those on JSON texts, the text of a JSON value that is no string, the
hash of a password, and the result of queueing a response. -/
structure Library where
  text : JsonText
  value_text : Json → List Char
  crypt : Option (List Char) → Option (List Char) → Option (List Char)
  queue_response : Response → ℤ

variable (lib : Library) (max_fps : ℤ)

/-- Queue a response and return the result. -/
def queue (response : Response) : Handled := ⟨[], [response], .returned (lib.queue_response response)⟩

def send_json (json : Json) (code : ℕ) : Handled := queue lib ⟨code, .json json⟩

/-- The text of a value, NULL for NULL. -/
def json_object_get_string : Json → Option (List Char)
  | .null => none
  | .string s => some (c_str s)
  | value => some (lib.value_text value)

/-- `json_object_get_string(json_object_object_get(user_obj, key))` -/
def user_string (key : String) (user_obj : Json) : Option (List Char) :=
  json_object_get_string lib ((json_object_object_get_ex user_obj key).getD .null)

/-- Whether the user can log in; `none` where the call does not return. -/
def verify_user (s : State) (io : UsersIo) (input_user input_pass : Option (List Char)) : Option Bool :=
  if !io.open_ok then some false
  else if !io.flock_ok then some false
  else if !io.fdopen_ok then some false
  else if fread s.users_file.length io.readable ≠ s.users_file.length then some false
  else
    match lib.text.json_tokener_parse (c_bytes s.users_file) with
    | .array users =>
      verify_users (user_string lib "username") (user_string lib "password_hash") lib.crypt input_user input_pass users
    | _ => some false

/-- The branch for a POST to `/login`. -/
def post_login (s : State) (r : HttpRequest) (io : Io) : Handled × State :=
  match lib.text.json_tokener_parse (c_bytes r.body) with
  | .null => (send_json lib (error_body "Invalid JSON") 400, s)
  | body =>
    match json_object_object_get_ex body "username", json_object_object_get_ex body "password" with
    | some username_obj, some password_obj =>
      match verify_user lib s io.users (json_object_get_string lib username_obj)
        (json_object_get_string lib password_obj) with
      | none => (⟨[.user_file], [], .crashed⟩, s)
      | some true =>
        ((send_json lib (.object [("token", .string io.token)]) 200).touching .user_file,
          { s with session_map := login s.session_map io.token io.now })
      | some false => ((send_json lib (error_body "Invalid credentials") 401).touching .user_file, s)
    | _, _ => (send_json lib (error_body "Invalid credentials") 401, s)

/-- Whether the header carries a token that is valid, with the sessions that the check leaves. -/
def check_auth (session_map : List (String × Json)) (authorization : Option String) (now : time_t) :
    Bool × List (String × Json) :=
  match authorization with
  | none => (false, session_map)
  | some auth =>
    if ¬ "Bearer ".toList <+: auth.toList then (false, session_map)
    else is_token_valid session_map (String.ofList (auth.toList.drop 7)) now

/-- The outcome of the block for `/api/messages` as that of a call of the handler; `helper` says that the netplan helper
was started. -/
def messages_handled (helper : Bool) (outcome : Outcome) : Handled :=
  let touched := if helper then [File.rf_reg_file, .modify_sysip_netplan] else [.rf_reg_file]
  match outcome with
  | .answer code body => { send_json lib body code with touched }
  | .blocked => ⟨touched, [], .blocked⟩
  | .aborted => ⟨touched, [], .crashed⟩

def send_file_list (io : Io) : Handled :=
  match io.readdir with
  | none => (send_json lib (error_body "Failed to open directory") 500).touching .record_dir
  | some entries =>
    let names := entries.filter fun d_name => !(d_name = "." || d_name = "..")
    (send_json lib (.array (names.map .string)) 200).touching .record_dir

def download_rec_file (io : Io) (filename : List Char) : Handled :=
  if !is_valid_filename filename then send_json lib (error_body "Invalid filename") 500
  else
    match io.fopen with
    | none => (send_json lib (error_body "File not found") 404).touching (.recording filename)
    | some (content, readable) =>
      if fread content.length readable ≠ content.length then
        (send_json lib (error_body "Failed to read full file") 500).touching (.recording filename)
      else (queue lib ⟨200, .recording content filename⟩).touching (.recording filename)

def delete_rec_file (io : Io) (filename : List Char) : Handled :=
  if !is_valid_filename filename then send_json lib (error_body "Invalid filename") 500
  else if !io.remove_ok then (send_json lib (error_body "Failed to delete file") 500).touching (.recording filename)
  else (send_json lib (.object [("status", .string "File deleted")]) 200).touching (.recording filename)

/-- What is done with the recordings is done with their lock, and without the lock the handler returns 1. A descriptor
that could not be opened cannot be locked. -/
def with_rec_lock (io : Io) (h : Handled) : Handled :=
  if !io.rec_open_ok || !io.rec_flock_ok then ⟨[.rec_file_lock], [], .returned 1⟩ else h.touching .rec_file_lock

/-- The end of `handler`, for a request that nothing takes before. -/
def not_found : Handled := send_json lib (error_body "Not found") 404

/-- `strncmp(url, path, strlen(path)) == 0` -/
def starts_with (url path : String) : Bool := path.toList <+: url.toList

/-- The branches that start a script, and the answer behind them. -/
def script_requests (r : HttpRequest) (io : Io) : Handled :=
  if r.method = "PUT" && starts_with r.url "/api/RestartProgram_camera" then
    if io.restart_status ≠ -1 then
      (send_json lib (.object [("status", .string "Restart Program")]) 200).touching .restart_program_camera
    else (not_found lib).touching .restart_program_camera
  else if r.method = "PUT" && starts_with r.url "/api/RebootSystem" then
    ⟨[.reboot_system], [], .returned io.reboot_status⟩
  else not_found lib

/-- The branches behind the one for `/api/messages`. -/
def other_requests (r : HttpRequest) (io : Io) : Handled :=
  if r.method = "GET" && starts_with r.url "/api/listfiles" then with_rec_lock io (send_file_list lib io)
  else
    match r.method = "GET" && starts_with r.url "/api/download", r.file with
    | true, some filename => with_rec_lock io (download_rec_file lib io filename)
    | _, _ =>
      match r.method = "DELETE" && starts_with r.url "/api/del_rec_file", r.file with
      | true, some filename => with_rec_lock io (delete_rec_file lib io filename)
      | _, _ => script_requests lib r io

/-- `handler`, once the body has been received. -/
def handler (s : State) (r : HttpRequest) (io : Io) : Handled × State :=
  if r.url = "/login" && r.method = "POST" then post_login lib s r io
  else
    match check_auth s.session_map r.authorization io.now with
    | (false, session_map) => (send_json lib (error_body "Unauthorized") 401, { s with session_map })
    | (true, session_map) =>
      let s := { s with session_map }
      if r.url = "/api/messages" then
        match api_messages lib.text max_fps s.server ⟨r.method, true, r.body, io.config⟩ with
        | (outcome, server) =>
          (messages_handled lib (server.helper_runs ≠ s.server.helper_runs) outcome, { s with server })
      else (other_requests lib r io, s)

end k180.restful_api_server.http
