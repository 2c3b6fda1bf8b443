import K180.RestServer.Messages

open json_c libc

namespace k180.restful_api_server

/-- The updates a PUT body stands for: the object itself, or the items of the array. -/
def put_items : Json → List Json
  | .array items => items
  | query => [query]

/-- The shapes of body the PUT branch takes. -/
def is_put_shape : Json → Bool
  | .object _ => true
  | .array items => items.length ≠ 0 && items.length ≤ 12
  | _ => false

/-- The body asks for updates of known members, each of them valid when its turn comes. -/
def UpdateRequested (max_fps : ℤ) (config : List (String × Json)) (query : Json) : Prop :=
  is_put_shape query = true ∧ (∀ item ∈ put_items query, is_valid_query item = true) ∧
    UpdatesAccepted max_fps config (put_items query)

/-- A 200 answer leaves the file holding the updated configuration, and any other answer given
before the netplan helper is started leaves the file as it was. -/
def PutAtomic (text : JsonText) (max_fps : ℤ) (s : Server) (r : Request) : Prop :=
  (∀ body, (handler text max_fps s r).1 = .answer 200 body →
    ∃ config flag, update_items max_fps (parsed_config text s) (put_items (parsed_body text r))
        s.sys_cfg_change = (.updated config, flag) ∧
      parsed_config text (handler text max_fps s r).2 = config) ∧
  (∀ code body, (handler text max_fps s r).1 = .answer code body → code ≠ 200 →
    (handler text max_fps s r).2.helper_runs = s.helper_runs →
    (handler text max_fps s r).2.config_file = s.config_file)

/-- The handler goes on to replace the file: the updates asked for are all valid and the new
configuration can be printed. -/
def ReachesStore (text : JsonText) (max_fps : ℤ) (config : List (String × Json)) (s : Server)
    (r : Request) : Prop :=
  ReadsConfig s r ∧ UpdateRequested max_fps config (parsed_body text r) ∧ r.io.print_ok = true

/-- Updating with the items one after the other succeeds exactly when each is accepted in its turn,
and never fails an assertion. -/
theorem update_items_object (max_fps : ℤ) (config : List (String × Json)) (items : List Json)
    (flag : Bool) (hvalid : ∀ item ∈ items, is_valid_query item = true) :
    (UpdatesAccepted max_fps config items →
      (update_items max_fps (.object config) items flag).1 =
        .updated (.object (updated_config config items))) ∧
    (¬ UpdatesAccepted max_fps config items →
      (update_items max_fps (.object config) items flag).1 = .rejected) := by
  induction items generalizing config flag with
  | nil => exact ⟨fun _ => rfl, fun h => absurd trivial h⟩
  | cons item rest ih =>
    obtain ⟨hitem, hrest⟩ := List.forall_mem_cons.mp hvalid
    have hupdate := update_json_object max_fps config (item_members item) flag
    have haccepted : UpdatesAccepted max_fps config (item :: rest) ↔
        (validate_json max_fps (.object config) (item_members item) false).1 = true ∧
          UpdatesAccepted max_fps (apply_update_json config (item_members item)) rest := Iff.rfl
    have hconfig : updated_config config (item :: rest) =
        updated_config (apply_update_json config (item_members item)) rest := rfl
    rw [haccepted, hconfig, is_object_of_is_valid_query hitem, update_items]
    revert hupdate
    obtain ⟨result, next⟩ := update_json max_fps (.object config) (item_members item) flag
    rintro (rfl : result = _)
    by_cases hok : (validate_json max_fps (.object config) (item_members item) false).1 = true
    · rw [if_pos hok]
      have htail := ih (apply_update_json config (item_members item)) next hrest
      exact ⟨fun h => htail.1 h.2, fun h => htail.2 fun hrest => h ⟨hok, hrest⟩⟩
    · rw [if_neg hok]
      exact ⟨fun h => absurd h.1 hok, fun _ => rfl⟩

theorem update_items_singleton (max_fps : ℤ) (config : Json) (members : List (String × Json)) (flag : Bool) :
    update_items max_fps config [.object members] flag = update_json max_fps config members flag := by
  rw [update_items]
  obtain ⟨result, next⟩ := update_json max_fps config members flag
  cases result <;> rfl

/-- A body of the wrong shape, or with an item that is not valid, is refused. -/
theorem put_update_refused (max_fps : ℤ) (config : Json) {query : Json} (flag : Bool)
    (hrefused : ¬ (is_put_shape query = true ∧ ∀ item ∈ put_items query, is_valid_query item = true)) :
    ∃ message, (put_update max_fps config query flag).1 = .refused message := by
  cases query with
  | object members =>
    have hvalid : is_valid_query (.object members) = false := by simpa [is_put_shape, put_items] using hrefused
    rw [put_update, hvalid]
    exact ⟨_, rfl⟩
  | array items =>
    rw [put_update]
    split
    · exact ⟨_, rfl⟩
    rename_i hlen
    split
    · exact ⟨_, rfl⟩
    rename_i hall
    refine absurd ⟨?_, ?_⟩ hrefused
    · simp only [Bool.or_eq_true, decide_eq_true_eq, not_or, not_lt] at hlen
      simpa [is_put_shape] using hlen
    · simpa [put_items] using hall
  | _ => exact ⟨_, rfl⟩

/-- Any other body has its items applied one after the other. -/
theorem put_update_valid (max_fps : ℤ) (config : Json) {query : Json} (flag : Bool) (hshape : is_put_shape query = true)
    (hvalid : ∀ item ∈ put_items query, is_valid_query item = true) :
    ∃ message, put_update max_fps config query flag =
      put_result message (update_items max_fps config (put_items query) flag) := by
  cases query with
  | object members =>
    have hmembers : is_valid_query (.object members) = true := hvalid _ (List.mem_singleton_self _)
    have hitems : put_items (.object members) = [.object members] := rfl
    rw [put_update, hmembers, hitems, update_items_singleton]
    exact ⟨_, rfl⟩
  | array items =>
    have hlen : ¬ (decide (items.length = 0) || decide (12 < items.length)) = true := by
      simpa [is_put_shape] using hshape
    have hall : items.all is_valid_query = true := List.all_eq_true.mpr hvalid
    rw [put_update, if_neg hlen, hall]
    exact ⟨_, rfl⟩
  | _ => cases hshape

/-- The validate and apply phase either yields the configuration with all updates applied, or
refuses; which of the two is what `UpdateRequested` says. -/
theorem put_update_object (max_fps : ℤ) (config : List (String × Json)) (query : Json) (flag : Bool) :
    (UpdateRequested max_fps config query →
      (put_update max_fps (.object config) query flag).1 =
        .updated (.object (updated_config config (put_items query)))) ∧
    (¬ UpdateRequested max_fps config query →
      ∃ message, (put_update max_fps (.object config) query flag).1 = .refused message) := by
  by_cases hvalid : is_put_shape query = true ∧ ∀ item ∈ put_items query, is_valid_query item = true
  swap
  · exact ⟨fun h => absurd ⟨h.1, h.2.1⟩ hvalid, fun _ => put_update_refused max_fps _ flag hvalid⟩
  obtain ⟨hshape, hitems⟩ := hvalid
  obtain ⟨message, hupdate⟩ := put_update_valid max_fps (.object config) flag hshape hitems
  obtain ⟨haccept, hreject⟩ := update_items_object max_fps config (put_items query) flag hitems
  rw [hupdate]
  revert haccept hreject
  obtain ⟨result, next⟩ := update_items max_fps (.object config) (put_items query) flag
  intro haccept hreject
  by_cases haccepted : UpdatesAccepted max_fps config (put_items query)
  · obtain rfl : result = _ := haccept haccepted
    exact ⟨fun _ => rfl, fun h => absurd ⟨hshape, hitems, haccepted⟩ h⟩
  · obtain rfl : result = _ := hreject haccepted
    exact ⟨fun h => absurd h.2.2 haccepted, fun _ => ⟨message, rfl⟩⟩

/-- Through a read-only stream the store step never succeeds: the file keeps its bytes when it
cannot be truncated and loses all of them when it can. -/
theorem store_config_r (io : ConfigIo) {new_json : List UInt8} (file : List UInt8)
    (hne : new_json ≠ []) :
    store_config .r io new_json file = (false, if io.ftruncate_ok then [] else file) := by
  have hlen : new_json.length ≠ 0 := by simpa using hne
  unfold store_config
  cases io.ftruncate_ok with
  | false => simp
  | true => simp [hlen.symm]

/-- The PUT branch answers 400 whatever it is asked for. It leaves the file alone, unless valid
updates can be printed and the file truncated: then nothing is left of the file. -/
theorem put_messages_object (text : JsonText) (max_fps : ℤ) (s : Server) (io : ConfigIo)
    (config : List (String × Json)) (query : Json) :
    (∃ message, (put_messages text max_fps s io (.object config) query).1 = bad_request message) ∧
    (put_messages text max_fps s io (.object config) query).2.helper_runs = s.helper_runs ∧
    (UpdateRequested max_fps config query ∧ io.print_ok = true ∧ io.ftruncate_ok = true →
      (put_messages text max_fps s io (.object config) query).2.config_file = []) ∧
    (¬ (UpdateRequested max_fps config query ∧ io.print_ok = true ∧ io.ftruncate_ok = true) →
      (put_messages text max_fps s io (.object config) query).2.config_file = s.config_file) := by
  obtain ⟨haccept, hrefuse⟩ := put_update_object max_fps config query s.sys_cfg_change
  unfold put_messages
  revert haccept hrefuse
  obtain ⟨result, flag⟩ := put_update max_fps (.object config) query s.sys_cfg_change
  intro haccept hrefuse
  by_cases hrequested : UpdateRequested max_fps config query
  · obtain rfl : result = _ := haccept hrequested
    have hstore := store_config_r io s.config_file
      (text.print_ne_nil (.object (updated_config config (put_items query))))
    have hfile : (s.with_flag flag).config_file = s.config_file := rfl
    cases hprint : io.print_ok with
    | false => exact ⟨⟨_, rfl⟩, rfl, by simp, fun _ => rfl⟩
    | true =>
      simp only [config_stream_mode, hfile, hstore]
      cases htrunc : io.ftruncate_ok with
      | false => exact ⟨⟨_, rfl⟩, rfl, by simp, fun _ => rfl⟩
      | true => exact ⟨⟨_, rfl⟩, rfl, fun _ => rfl, fun h => absurd ⟨hrequested, by simp⟩ h⟩
  · obtain ⟨message, rfl : result = _⟩ := hrefuse hrequested
    exact ⟨⟨_, rfl⟩, rfl, fun h => absurd h.1 hrequested, fun _ => rfl⟩

/-- A PUT that does not reach the store step, or cannot truncate the file there, is not answered 200
and leaves the file alone. -/
theorem handler_put_keeps (text : JsonText) (max_fps : ℤ) {s : Server} {r : Request}
    {config : List (String × Json)} (hmethod : r.method = "PUT")
    (hconfig : parsed_config text s = .object config)
    (hkeeps : ¬ (ReachesStore text max_fps config s r ∧ r.io.ftruncate_ok = true)) :
    (∀ body, (handler text max_fps s r).1 ≠ .answer 200 body) ∧
      (handler text max_fps s r).2.config_file = s.config_file := by
  cases hlock : s.lock_held with
  | true =>
    obtain ⟨code, message, hcode, hearly⟩ | hblocked := handler_held text max_fps r hlock
    · rw [hearly]
      refine ⟨fun body h => hcode ?_, rfl⟩
      injection h
    · rw [hblocked]
      exact ⟨fun body h => by injection h, rfl⟩
  | false =>
    by_cases hreach : ReachesMethod text s r
    · have hput : ¬ "PUT" = "GET" := by decide
      obtain ⟨⟨message, hanswer⟩, _, _, hfile⟩ :=
        put_messages_object text max_fps s.opened.locked r.io config (parsed_body text r)
      rw [handler_reached text max_fps hreach, hmethod, if_neg hput, if_pos rfl, hconfig]
      refine ⟨fun body h => ?_, hfile fun h => hkeeps ⟨⟨hreach.1, h.1, h.2.1⟩, h.2.2⟩⟩
      rw [hanswer, bad_request] at h
      simp at h
    · obtain ⟨code, message, hcode, hearly⟩ := handler_early text max_fps hlock hreach
      rw [hearly]
      refine ⟨fun body h => hcode ?_, rfl⟩
      injection h

/-- A PUT that reaches the store step and truncates the file is answered 400 and has emptied it. -/
theorem handler_put_empties (text : JsonText) (max_fps : ℤ) {s : Server} {r : Request}
    {config : List (String × Json)} (hmethod : r.method = "PUT")
    (hconfig : parsed_config text s = .object config) (hstore : ReachesStore text max_fps config s r)
    (htrunc : r.io.ftruncate_ok = true) :
    (∃ message, (handler text max_fps s r).1 = bad_request message) ∧
      (handler text max_fps s r).2.helper_runs = s.helper_runs ∧
      (handler text max_fps s r).2.config_file = [] := by
  obtain ⟨hreads, hrequested, hprint⟩ := hstore
  have hput : ¬ "PUT" = "GET" := by decide
  have hreach : ReachesMethod text s r := by
    refine ⟨hreads, by simp [hconfig], fun hnull => ?_⟩
    have hshape := hrequested.1
    rw [hnull] at hshape
    simp [is_put_shape] at hshape
  obtain ⟨hanswer, hhelper, hfile, _⟩ :=
    put_messages_object text max_fps s.opened.locked r.io config (parsed_body text r)
  rw [handler_reached text max_fps hreach, hmethod, if_neg hput, if_pos rfl, hconfig]
  exact ⟨hanswer, hhelper, hfile ⟨hrequested, hprint, htrunc⟩⟩

/-- A configuration that parses to an object is not the empty file. -/
theorem config_file_ne_nil (text : JsonText) {s : Server} {config : List (String × Json)}
    (hconfig : parsed_config text s = .object config) : s.config_file ≠ [] := by
  intro hnil
  rw [parsed_config, hnil, c_bytes, List.takeWhile_nil, text.parse_nil] at hconfig
  simp at hconfig

/-- PUT is atomic on the configuration file exactly as long as it does not get to replace it: the
stream it writes through is open for reading only, so the file it has truncated stays empty. -/
theorem put_atomic_iff (text : JsonText) (max_fps : ℤ) (s : Server) (r : Request)
    (config : List (String × Json)) (hmethod : r.method = "PUT")
    (hconfig : parsed_config text s = .object config) :
    PutAtomic text max_fps s r ↔
      ¬ (ReachesStore text max_fps config s r ∧ r.io.ftruncate_ok = true) := by
  constructor
  · rintro ⟨_, hkept⟩ ⟨hstore, htrunc⟩
    obtain ⟨⟨message, hanswer⟩, hhelper, hfile⟩ :=
      handler_put_empties text max_fps hmethod hconfig hstore htrunc
    have hold := hkept 400 (error_body message) hanswer (by decide) hhelper
    exact config_file_ne_nil text hconfig (hold.symm.trans hfile)
  · intro hkeeps
    obtain ⟨hanswer, hfile⟩ := handler_put_keeps text max_fps hmethod hconfig hkeeps
    exact ⟨fun body h => absurd h (hanswer body), fun _ _ _ _ _ => hfile⟩

def text_bytes (s : String) : List UInt8 := s.toList.map fun c => c.toNat.toUInt8

/-- The configuration file, a PUT body and the new text of the configuration, in a sample run. -/
def sample_config : List UInt8 := text_bytes "\x7b\"stream_1\":\x7b\"fps\":15\x7d\x7d"
def sample_body : List UInt8 := text_bytes "\x7b\"stream_1\":\x7b\"fps\":30\x7d\x7d"
def sample_new_json : List UInt8 :=
  text_bytes "\x7b\n  \"stream_1\":\x7b\n    \"fps\":30\n  \x7d\n\x7d"

/-- The JSON library on the texts of the sample run. -/
def sample_text : JsonText where
  json_tokener_parse bytes :=
    if bytes = sample_config then .object [("stream_1", .object [("fps", .int 15)])]
    else if bytes = sample_body then .object [("stream_1", .object [("fps", .int 30)])]
    else .null
  json_object_to_json_string_ext _ := sample_new_json
  parse_nil := rfl
  print_ne_nil _ := by decide

def sample_io : ConfigIo where
  open_ok := true
  flock_ok := true
  fdopen_ok := true
  readable := 4096
  print_ok := true
  ftruncate_ok := true
  room := 4096
  reached := 4096
  fflush_ok := true
  fsync_ok := true
  system_ok := true

def sample_server : Server where
  config_file := sample_config
  open_fds := 0
  lock_held := false
  sys_cfg_change := false
  helper_runs := 0

def sample_put : Request where
  method := "PUT"
  authorized := true
  body := sample_body
  io := sample_io

theorem put_atomic_iff_sample :
    sample_put.method = "PUT" ∧
      parsed_config sample_text sample_server =
        .object [("stream_1", .object [("fps", .int 15)])] ∧
      (PutAtomic sample_text 60 sample_server sample_put ↔
        ¬ (ReachesStore sample_text 60 [("stream_1", .object [("fps", .int 15)])] sample_server
          sample_put ∧ sample_put.io.ftruncate_ok = true)) :=
  ⟨rfl, rfl, put_atomic_iff sample_text 60 sample_server sample_put _ rfl rfl⟩

/-- A valid change of a frame rate, with every call on the file doing its job: the request is
answered 400 and the configuration is gone. -/
theorem put_empties_config_file :
    sample_put.method = "PUT" ∧ sample_put.authorized = true ∧
      (∃ config, parsed_config sample_text sample_server = .object config) ∧
      (handler sample_text 60 sample_server sample_put).1 = bad_request "Failed NO3" ∧
      (handler sample_text 60 sample_server sample_put).2.config_file = [] ∧
      ¬ PutAtomic sample_text 60 sample_server sample_put := by
  have hanswer : (handler sample_text 60 sample_server sample_put).1 = bad_request "Failed NO3" := rfl
  have hfile : (handler sample_text 60 sample_server sample_put).2.config_file = [] := rfl
  refine ⟨rfl, rfl, ⟨_, rfl⟩, hanswer, hfile, ?_⟩
  rintro ⟨_, hkept⟩
  have hold := hkept 400 _ hanswer (by decide) rfl
  rw [hfile] at hold
  exact absurd hold (by decide)

end k180.restful_api_server
