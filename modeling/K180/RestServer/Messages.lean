import K180.RestServer.Update
import K180.Libc.Stdio

open json_c libc

namespace k180.restful_api_server

/-- The text functions of the JSON library. A parse that fails, like the parse of the text `null`,
returns NULL; the empty text is not JSON, and the text of a value is never empty. -/
structure JsonText where
  json_tokener_parse : List UInt8 → Json
  json_object_to_json_string_ext : Json → List UInt8
  parse_nil : json_tokener_parse [] = .null
  print_ne_nil : ∀ json, json_object_to_json_string_ext json ≠ []

/-- How the calls a request makes on the configuration file, and the start of the netplan helper,
turn out. `reached` is how much of what the stream took has reached the file when it is closed. -/
structure ConfigIo where
  open_ok : Bool
  flock_ok : Bool
  fdopen_ok : Bool
  readable : ℕ
  print_ok : Bool
  ftruncate_ok : Bool
  room : ℕ
  reached : ℕ
  fflush_ok : Bool
  fsync_ok : Bool
  system_ok : Bool

/-- The parts of the process and of the disk that requests for `/api/messages` act on. `open_fds`
counts the descriptors of the configuration file, `lock_held` says that one of them holds
`LOCK_EX`. -/
structure Server where
  config_file : List UInt8
  open_fds : ℕ
  lock_held : Bool
  sys_cfg_change : Bool
  helper_runs : ℕ

namespace Server

def opened (s : Server) : Server := { s with open_fds := s.open_fds + 1 }

def locked (s : Server) : Server := { s with lock_held := true }

def unlocked (s : Server) : Server := { s with lock_held := false }

/-- `close(fd)`, or `fclose(fp)` on the stream made of it. -/
def closed (s : Server) : Server := { s with open_fds := s.open_fds - 1 }

def with_flag (s : Server) (sys_cfg_change : Bool) : Server :=
  { s with sys_cfg_change := sys_cfg_change }

end Server

/-- A request for `/api/messages` once its body has been received. -/
structure Request where
  method : String
  authorized : Bool
  body : List UInt8
  io : ConfigIo

/-- How a call of the handler ends: with an answer, by waiting for a lock that is never released,
or with the process on a failed assertion. -/
inductive Outcome where
  | answer (code : ℕ) (body : Json)
  | blocked
  | aborted

def error_body (text : String) : Json := .object [("error", .string text)]

def bad_request (text : String) : Outcome := .answer 400 (error_body text)

/-- The loop that updates the configuration with the items of an array, all known to be objects. -/
def update_items (max_fps : ℤ) : Json → List Json → Bool → UpdateResult × Bool
  | config, [], sys_cfg_change => (.updated config, sys_cfg_change)
  | config, .object members :: rest, sys_cfg_change =>
    match update_json max_fps config members sys_cfg_change with
    | (.updated config, sys_cfg_change) => update_items max_fps config rest sys_cfg_change
    | result => result
  | _, _ :: _, sys_cfg_change => (.rejected, sys_cfg_change)

/-- How the validate and apply phase of the PUT branch ends. -/
inductive PutResult where
  | refused (message : String)
  | updated (config : Json)
  | aborted

/-- The answer a failed update gets, depending on the shape of the body it came in. -/
def put_result (message : String) : UpdateResult × Bool → PutResult × Bool
  | (.rejected, sys_cfg_change) => (.refused message, sys_cfg_change)
  | (.updated config, sys_cfg_change) => (.updated config, sys_cfg_change)
  | (.aborted, sys_cfg_change) => (.aborted, sys_cfg_change)

/-- The validate and apply phase of the PUT branch. -/
def put_update (max_fps : ℤ) (config query : Json) (sys_cfg_change : Bool) : PutResult × Bool :=
  match query with
  | .object members =>
    if !is_valid_query query then (.refused "Invalid single PUT query", sys_cfg_change)
    else
      put_result "Update failed for single PUT" (update_json max_fps config members sys_cfg_change)
  | .array items =>
    if items.length = 0 || 12 < items.length then
      (.refused "PUT array must be 1~12 items", sys_cfg_change)
    else if !items.all is_valid_query then
      (.refused "One or more queries in PUT array are invalid", sys_cfg_change)
    else
      put_result "Update failed in PUT array" (update_items max_fps config items sys_cfg_change)
  | _ => (.refused "Unsupported PUT JSON type", sys_cfg_change)

/-- `ftruncate`, `fwrite`, `fflush` and `fsync` chained by `||`: whether all of them succeeded, and
what the file holds after the stream is closed. -/
def store_config (mode : StreamMode) (io : ConfigIo) (new_json file : List UInt8) :
    Bool × List UInt8 :=
  if !io.ftruncate_ok then (false, file)
  else
    let taken := fwrite mode new_json.length io.room
    if taken ≠ new_json.length then (false, (new_json.take taken).take io.reached)
    else if !io.fflush_ok || !io.fsync_ok then (false, new_json.take io.reached)
    else (true, new_json)

/-- The mode the configuration stream is made with. -/
def config_stream_mode : StreamMode := .r

/-- The PUT branch, entered with the configuration locked and parsed. -/
def put_messages (text : JsonText) (max_fps : ℤ) (s : Server) (io : ConfigIo) (config query : Json) :
    Outcome × Server :=
  match put_update max_fps config query s.sys_cfg_change with
  | (.refused message, flag) => (bad_request message, ((s.with_flag flag).unlocked).closed)
  | (.aborted, flag) => (.aborted, s.with_flag flag)
  | (.updated config', flag) =>
    let s := s.with_flag flag
    if !io.print_ok then (bad_request "Failed NO2", s.unlocked.closed)
    else
      match store_config config_stream_mode io (text.json_object_to_json_string_ext config')
        s.config_file with
      | (false, file) => (bad_request "Failed NO3", { s.unlocked.closed with config_file := file })
      | (true, file) =>
        let s := { s.unlocked.closed with config_file := file }
        if s.sys_cfg_change then
          let s := { s with helper_runs := s.helper_runs + 1 }
          if !io.system_ok then (bad_request "Failed NO4", s)
          else (.answer 200 (.object [("PUT", .string "updated successfully")]), s.with_flag false)
        else (.answer 200 (.object [("PUT", .string "updated successfully")]), s)

/-- The GET branch, entered with the configuration locked and parsed. -/
def get_messages (s : Server) (config query : Json) : Outcome × Server :=
  if !json_object_is_type query .object then
    (bad_request "GET only supports a single query object", s.unlocked.closed)
  else if !is_valid_query query || !is_get_query query then
    (bad_request "Invalid GET query format", s.unlocked.closed)
  else
    match query_json config query with
    | .null => (bad_request "No matching keys found", s.unlocked.closed)
    | result => (.answer 200 result, s.unlocked.closed)

/-- The `/api/messages` block of `handler`. No return follows it for another method, which falls
through to the answer for an unknown request. -/
def api_messages (text : JsonText) (max_fps : ℤ) (s : Server) (r : Request) : Outcome × Server :=
  if !r.io.open_ok then (bad_request "Failed to open config file 0", s)
  else if s.lock_held then (.blocked, s.opened)
  else if !r.io.flock_ok then (bad_request "Failed to lock config file 1", s.opened.closed)
  else
    let s := s.opened.locked
    if !r.io.fdopen_ok then (bad_request "Failed to lock config file 2", s.unlocked.closed)
    else if fread s.config_file.length r.io.readable ≠ s.config_file.length then
      (bad_request "Failed to lock config file 3", s.unlocked.closed)
    else
      match text.json_tokener_parse (c_bytes s.config_file) with
      | .null => (bad_request "cfg file broken'", s.unlocked.closed)
      | config =>
        match text.json_tokener_parse (c_bytes r.body) with
        | .null => (bad_request "Failed to parse user input JSON", s.unlocked.closed)
        | query =>
          if r.method = "GET" then get_messages s config query
          else if r.method = "PUT" then put_messages text max_fps s r.io config query
          else (.answer 404 (error_body "Not found"), s)

/-- `handler` on a request whose url is `/api/messages`. -/
def handler (text : JsonText) (max_fps : ℤ) (s : Server) (r : Request) : Outcome × Server :=
  if !r.authorized then (.answer 401 (error_body "Unauthorized"), s)
  else api_messages text max_fps s r

/-- The configuration and the body as the handler parses them. -/
def parsed_config (text : JsonText) (s : Server) : Json :=
  text.json_tokener_parse (c_bytes s.config_file)

def parsed_body (text : JsonText) (r : Request) : Json := text.json_tokener_parse (c_bytes r.body)

/-- The request is let through, locks the configuration and reads it. -/
def ReadsConfig (s : Server) (r : Request) : Prop :=
  r.authorized = true ∧ r.io.open_ok = true ∧ s.lock_held = false ∧ r.io.flock_ok = true ∧
    r.io.fdopen_ok = true ∧ fread s.config_file.length r.io.readable = s.config_file.length

/-- The handler gets as far as looking at the method: configuration and body are both JSON. -/
def ReachesMethod (text : JsonText) (s : Server) (r : Request) : Prop :=
  ReadsConfig s r ∧ parsed_config text s ≠ .null ∧ parsed_body text r ≠ .null

/-- Giving the descriptor and the lock back undoes taking them. -/
theorem Server.released_eq {s : Server} (hfree : s.lock_held = false) :
    s.opened.locked.unlocked.closed = s := by
  obtain ⟨config_file, open_fds, lock_held, sys_cfg_change, helper_runs⟩ := s
  obtain rfl : lock_held = false := hfree
  rfl

theorem api_messages_locked (text : JsonText) (max_fps : ℤ) {s : Server} {r : Request}
    (hopen : r.io.open_ok = true) (hfree : s.lock_held = false) (hflock : r.io.flock_ok = true)
    (hfdopen : r.io.fdopen_ok = true)
    (hread : fread s.config_file.length r.io.readable = s.config_file.length) :
    api_messages text max_fps s r =
      match parsed_config text s with
      | .null => (bad_request "cfg file broken'", s)
      | config =>
        match parsed_body text r with
        | .null => (bad_request "Failed to parse user input JSON", s)
        | query =>
          if r.method = "GET" then get_messages s.opened.locked config query
          else if r.method = "PUT" then put_messages text max_fps s.opened.locked r.io config query
          else (.answer 404 (error_body "Not found"), s.opened.locked) := by
  have hread' : fread s.opened.locked.config_file.length r.io.readable =
      s.opened.locked.config_file.length := hread
  unfold api_messages
  simp only [hopen, hfree, hflock, hfdopen, hread', ne_eq, not_true_eq_false, Bool.not_true,
    Bool.false_eq_true, if_false, Server.released_eq hfree]
  rfl

/-- A request that does not get as far as its method is answered with an error and leaves the server
as it was. -/
theorem handler_early (text : JsonText) (max_fps : ℤ) {s : Server} {r : Request}
    (hfree : s.lock_held = false) (hearly : ¬ ReachesMethod text s r) :
    ∃ code message, code ≠ 200 ∧
      handler text max_fps s r = (.answer code (error_body message), s) := by
  unfold handler
  by_cases hauth : r.authorized = true
  swap
  · exact ⟨401, "Unauthorized", by decide, by simp [hauth]⟩
  rw [hauth, Bool.not_true, if_neg Bool.false_ne_true]
  have hclosed : s.opened.closed = s := rfl
  by_cases hopen : r.io.open_ok = true
  swap
  · exact ⟨400, _, by decide, by simp only [api_messages, hopen]; rfl⟩
  by_cases hflock : r.io.flock_ok = true
  swap
  · exact ⟨400, _, by decide, by simp only [api_messages, hopen, hfree, hflock, hclosed]; rfl⟩
  by_cases hfdopen : r.io.fdopen_ok = true
  swap
  · exact ⟨400, _, by decide, by
      simp only [api_messages, hopen, hfree, hflock, hfdopen, Server.released_eq hfree]; rfl⟩
  by_cases hread : fread s.config_file.length r.io.readable = s.config_file.length
  swap
  · have hread' : fread s.opened.locked.config_file.length r.io.readable ≠
        s.opened.locked.config_file.length := hread
    exact ⟨400, _, by decide, by
      simp only [api_messages, hopen, hfree, hflock, hfdopen, if_pos hread', Server.released_eq hfree]
      rfl⟩
  rw [api_messages_locked text max_fps hopen hfree hflock hfdopen hread]
  by_cases hconfig : parsed_config text s = .null
  · exact ⟨400, _, by decide, by rw [hconfig]; rfl⟩
  by_cases hbody : parsed_body text r = .null
  · refine ⟨400, "Failed to parse user input JSON", by decide, ?_⟩
    rw [hbody]
    cases hparsed : parsed_config text s with
    | null => exact absurd hparsed hconfig
    | _ => rfl
  · exact absurd ⟨⟨hauth, hopen, hfree, hflock, hfdopen, hread⟩, hconfig, hbody⟩ hearly

/-- A request that gets as far as its method is answered by the branch of that method. -/
theorem handler_reached (text : JsonText) (max_fps : ℤ) {s : Server} {r : Request}
    (hreach : ReachesMethod text s r) :
    handler text max_fps s r =
      if r.method = "GET" then
        get_messages s.opened.locked (parsed_config text s) (parsed_body text r)
      else if r.method = "PUT" then
        put_messages text max_fps s.opened.locked r.io (parsed_config text s) (parsed_body text r)
      else (.answer 404 (error_body "Not found"), s.opened.locked) := by
  obtain ⟨⟨hauth, hopen, hfree, hflock, hfdopen, hread⟩, hconfig, hbody⟩ := hreach
  unfold handler
  rw [hauth, Bool.not_true, if_neg Bool.false_ne_true,
    api_messages_locked text max_fps hopen hfree hflock hfdopen hread]
  cases hparsed : parsed_config text s with
  | null => exact absurd hparsed hconfig
  | _ =>
    cases hquery : parsed_body text r with
    | null => exact absurd hquery hbody
    | _ => rfl

/-- While the lock is held by a descriptor that nobody closes, requests are turned away before they
ask for it, or wait for it for ever. -/
theorem handler_held (text : JsonText) (max_fps : ℤ) {s : Server} (r : Request)
    (hheld : s.lock_held = true) :
    (∃ code message, code ≠ 200 ∧
      handler text max_fps s r = (.answer code (error_body message), s)) ∨
    handler text max_fps s r = (.blocked, s.opened) := by
  unfold handler
  by_cases hauth : r.authorized = true
  swap
  · exact .inl ⟨401, "Unauthorized", by decide, by simp [hauth]⟩
  rw [hauth, Bool.not_true, if_neg Bool.false_ne_true]
  by_cases hopen : r.io.open_ok = true
  · exact .inr (by simp only [api_messages, hopen, hheld]; rfl)
  · exact .inl ⟨400, _, by decide, by simp only [api_messages, hopen]; rfl⟩

end k180.restful_api_server
