import K180.RestServer.NetworkFlag

open json_c libc

namespace k180.restful_api_server

/-- How the store step of a PUT turns out: whether the new text was stored, and what the file holds. -/
abbrev StoreStep := ConfigIo → List UInt8 → List UInt8 → Bool × List UInt8

/-- The PUT branch with `store` for its chain of `ftruncate`, `fwrite`, `fflush` and `fsync`. -/
def put_branch (store : StoreStep) (text : JsonText) (max_fps : ℤ) (s : Server) (io : ConfigIo)
    (config query : Json) : Outcome × Server :=
  match put_update max_fps config query s.sys_cfg_change with
  | (.refused message, flag) => (bad_request message, ((s.with_flag flag).unlocked).closed)
  | (.aborted, flag) => (.aborted, s.with_flag flag)
  | (.updated config', flag) =>
    let s := s.with_flag flag
    if !io.print_ok then (bad_request "Failed NO2", s.unlocked.closed)
    else
      match store io (text.json_object_to_json_string_ext config') s.config_file with
      | (false, file) => (bad_request "Failed NO3", { s.unlocked.closed with config_file := file })
      | (true, file) =>
        let s := { s.unlocked.closed with config_file := file }
        if s.sys_cfg_change then
          let s := { s with helper_runs := s.helper_runs + 1 }
          if !io.system_ok then (bad_request "Failed NO4", s)
          else (.answer 200 (.object [("PUT", .string "updated successfully")]), s.with_flag false)
        else (.answer 200 (.object [("PUT", .string "updated successfully")]), s)

theorem put_messages_eq (text : JsonText) (max_fps : ℤ) (s : Server) (io : ConfigIo) (config query : Json) :
    put_messages text max_fps s io config query =
      put_branch (store_config config_stream_mode) text max_fps s io config query := rfl

instance (json : Json) : Decidable (json = .null) :=
  match json with
  | .null => isTrue rfl
  | .boolean _ | .double _ | .int _ | .object _ | .array _ | .string _ => isFalse (by simp)

instance (s : Server) (r : Request) : Decidable (ReadsConfig s r) :=
  inferInstanceAs (Decidable (_ ∧ _ ∧ _ ∧ _ ∧ _ ∧ _))

instance (text : JsonText) (s : Server) (r : Request) : Decidable (ReachesMethod text s r) :=
  inferInstanceAs (Decidable (_ ∧ _ ∧ _))

/-- `handler` on a request for `/api/messages`, with `store` for the store step of a PUT. -/
def handler_storing (store : StoreStep) (text : JsonText) (max_fps : ℤ) (s : Server) (r : Request) :
    Outcome × Server :=
  if r.method = "PUT" ∧ ReachesMethod text s r then
    put_branch store text max_fps s.opened.locked r.io (parsed_config text s) (parsed_body text r)
  else handler text max_fps s r

/-- The handler of the program is the one whose store step writes through the stream it has made. -/
theorem handler_eq_handler_storing (text : JsonText) (max_fps : ℤ) (s : Server) (r : Request) :
    handler text max_fps s r = handler_storing (store_config config_stream_mode) text max_fps s r := by
  rw [handler_storing]
  split
  · rename_i hput
    rw [handler_reached text max_fps hput.2, hput.1, if_neg (by decide), if_pos rfl, put_messages_eq]
  · rfl

/-- The request is accepted and its configuration stored. -/
def Stored (store : StoreStep) (text : JsonText) (max_fps : ℤ) (s : Server) (r : Request) : Prop :=
  r.method = "PUT" ∧ ReachesMethod text s r ∧ r.io.print_ok = true ∧
    ∃ config flag, put_update max_fps (parsed_config text s) (parsed_body text r) s.sys_cfg_change =
        (.updated config, flag) ∧
      (store r.io (text.json_object_to_json_string_ext config) s.config_file).1 = true

/-- At least one item of the body has an address, a gateway or a netmask under `system_cfg`. -/
def NamesNetwork (text : JsonText) (r : Request) : Prop :=
  ∃ item ∈ put_items (parsed_body text r), names_network item = true

/-- `modify_sysip_netplan` is started by the request. -/
def StartsHelper (store : StoreStep) (text : JsonText) (max_fps : ℤ) (s : Server) (r : Request) : Prop :=
  (handler_storing store text max_fps s r).2.helper_runs = s.helper_runs + 1

/-- The helper is started by the request exactly if it is accepted and stored and changes the network. -/
def HelperExact (store : StoreStep) (text : JsonText) (max_fps : ℤ) (s : Server) (r : Request) : Prop :=
  StartsHelper store text max_fps s r ↔ Stored store text max_fps s r ∧ NamesNetwork text r

/-- A request that is stored finds the flag set only if it changes the network itself; and if it does, the
flag is set already or the configuration has the section when the item that changes it is validated. -/
def FlagCurrent (store : StoreStep) (text : JsonText) (max_fps : ℤ) (s : Server) (r : Request) : Prop :=
  Stored store text max_fps s r →
    (s.sys_cfg_change = true → NamesNetwork text r) ∧
    (NamesNetwork text r → s.sys_cfg_change = true ∨
      sees_network (has_system (parsed_config text s)) (put_items (parsed_body text r)) = true)

/-- `P` holds of each request of a run, in the state that the server is in when the request comes. -/
def EveryRequest (store : StoreStep) (text : JsonText) (max_fps : ℤ) (P : Server → Request → Prop) :
    Server → List Request → Prop
  | _, [] => True
  | s, r :: rest =>
    P s r ∧ EveryRequest store text max_fps P (handler_storing store text max_fps s r).2 rest

variable {store : StoreStep} {text : JsonText} {max_fps : ℤ} {s : Server} {r : Request}

/-- The GET branch and the answer to another method start nothing. -/
theorem handler_helper_runs (hother : ¬ (r.method = "PUT" ∧ ReachesMethod text s r)) :
    (handler text max_fps s r).2.helper_runs = s.helper_runs := by
  cases hlock : s.lock_held with
  | true =>
    obtain ⟨_, _, _, heq⟩ | heq := handler_held text max_fps r hlock
    · rw [heq]
    · rw [heq]
      rfl
  | false =>
    by_cases hreach : ReachesMethod text s r
    · have hmethod : ¬ r.method = "PUT" := fun h => hother ⟨h, hreach⟩
      rw [handler_reached text max_fps hreach, if_neg hmethod]
      split
      · unfold get_messages
        split
        · rfl
        · split
          · rfl
          · split <;> rfl
      · rfl
    · obtain ⟨_, _, _, heq⟩ := handler_early text max_fps hlock hreach
      rw [heq]

/-- The PUT branch starts the helper once the configuration is stored and the flag is set. -/
theorem put_branch_helper_runs (s : Server) (io : ConfigIo) (config query : Json) :
    (put_branch store text max_fps s io config query).2.helper_runs = s.helper_runs + 1 ↔
      io.print_ok = true ∧ ∃ config', put_update max_fps config query s.sys_cfg_change =
          (.updated config', true) ∧
        (store io (text.json_object_to_json_string_ext config') s.config_file).1 = true := by
  have hsame : ¬ s.helper_runs = s.helper_runs + 1 := by omega
  unfold put_branch
  cases hupdate : put_update max_fps config query s.sys_cfg_change with
  | mk result flag =>
    cases result with
    | refused message => simp [Server.with_flag, Server.unlocked, Server.closed]
    | aborted => simp [Server.with_flag]
    | updated config' =>
      cases hprint : io.print_ok with
      | false => simp [Server.with_flag, Server.unlocked, Server.closed]
      | true =>
        have hfile : (s.with_flag flag).config_file = s.config_file := rfl
        cases hstore : store io (text.json_object_to_json_string_ext config') s.config_file with
        | mk stored file =>
          simp only [Bool.not_true, Bool.false_eq_true, if_false, hfile, hstore, true_and,
            Prod.mk.injEq, PutResult.updated.injEq]
          cases stored with
          | false =>
            constructor
            · intro h
              exact absurd h hsame
            · rintro ⟨_, ⟨rfl, -⟩, h⟩
              rw [hstore] at h
              cases h
          | true =>
            cases flag with
            | false =>
              constructor
              · intro h
                exact absurd h hsame
              · rintro ⟨_, ⟨-, h⟩, -⟩
                cases h
            | true =>
              constructor
              · intro _
                exact ⟨config', ⟨rfl, rfl⟩, by rw [hstore]⟩
              · intro _
                cases hsystem : io.system_ok <;> rfl

/-- A request starts the helper exactly if it is stored and the flag is set by then. -/
theorem startsHelper_iff :
    StartsHelper store text max_fps s r ↔ Stored store text max_fps s r ∧
      (s.sys_cfg_change = true ∨
        sees_network (has_system (parsed_config text s)) (put_items (parsed_body text r)) = true) := by
  rw [StartsHelper, handler_storing]
  by_cases hput : r.method = "PUT" ∧ ReachesMethod text s r
  · have hruns : s.opened.locked.helper_runs = s.helper_runs := rfl
    have hflag : s.opened.locked.sys_cfg_change = s.sys_cfg_change := rfl
    have hfile : s.opened.locked.config_file = s.config_file := rfl
    rw [if_pos hput, ← hruns, put_branch_helper_runs, hflag, hfile]
    constructor
    · rintro ⟨hprint, config', hupdate, hstore⟩
      have hset := flag_of_put_update hupdate
      exact ⟨⟨hput.1, hput.2, hprint, config', true, hupdate, hstore⟩, by simpa using hset.symm⟩
    · rintro ⟨⟨-, -, hprint, config', flag, hupdate, hstore⟩, hset⟩
      have hflag' := flag_of_put_update hupdate
      have htrue : flag = true := by
        rw [hflag']
        simpa using hset
      exact ⟨hprint, config', htrue ▸ hupdate, hstore⟩
  · rw [if_neg hput, handler_helper_runs hput]
    constructor
    · intro h
      omega
    · rintro ⟨⟨hmethod, hreach, -⟩, -⟩
      exact absurd ⟨hmethod, hreach⟩ hput

theorem helperExact_request_iff :
    HelperExact store text max_fps s r ↔ FlagCurrent store text max_fps s r := by
  rw [HelperExact, FlagCurrent, startsHelper_iff]
  have hnames : sees_network (has_system (parsed_config text s)) (put_items (parsed_body text r)) = true →
      NamesNetwork text r := names_network_of_sees_network
  constructor
  · intro hexact hstored
    exact ⟨fun hflag => (hexact.mp ⟨hstored, .inl hflag⟩).2, fun h => (hexact.mpr ⟨hstored, h⟩).2⟩
  · intro hcurrent
    constructor
    · rintro ⟨hstored, hflag | hsees⟩
      · exact ⟨hstored, (hcurrent hstored).1 hflag⟩
      · exact ⟨hstored, hnames hsees⟩
    · rintro ⟨hstored, h⟩
      exact ⟨hstored, (hcurrent hstored).2 h⟩

theorem EveryRequest.congr {P Q : Server → Request → Prop} (hiff : ∀ s r, P s r ↔ Q s r) (s : Server)
    (requests : List Request) :
    EveryRequest store text max_fps P s requests ↔ EveryRequest store text max_fps Q s requests := by
  induction requests generalizing s with
  | nil => exact Iff.rfl
  | cons r rest ih => rw [EveryRequest, EveryRequest, hiff, ih]

/-- Over every run of requests, however their store steps turn out: each request starts the helper exactly
if it is stored and changes the network, if and only if no stored request meets a flag that an earlier one has
left, nor changes the network in a configuration without the section. -/
theorem helper_exact_iff (store : StoreStep) (text : JsonText) (max_fps : ℤ) (s : Server)
    (requests : List Request) :
    EveryRequest store text max_fps (HelperExact store text max_fps) s requests ↔
      EveryRequest store text max_fps (FlagCurrent store text max_fps) s requests :=
  EveryRequest.congr (fun _ _ => helperExact_request_iff) s requests

/-- Through the stream that the handler makes no PUT is stored, and so none starts the helper. -/
theorem handler_never_starts_helper (text : JsonText) (max_fps : ℤ) (s : Server) (r : Request) :
    (handler text max_fps s r).2.helper_runs ≠ s.helper_runs + 1 := by
  rw [handler_eq_handler_storing]
  intro hstarts
  obtain ⟨⟨-, -, -, config, flag, -, hstore⟩, -⟩ := startsHelper_iff.mp hstarts
  rw [config_stream_mode, store_config_r _ _ (text.print_ne_nil config)] at hstore
  cases hstore

/-- A configuration, a change of the network with an invalid netmask, and a change of a frame rate. -/
def network_config : List UInt8 :=
  text_bytes "\x7b\"system_cfg\":\x7b\"ipaddress\":\"192.168.0.91\"\x7d,\"stream_1\":\x7b\"fps\":15\x7d\x7d"
def network_body : List UInt8 :=
  text_bytes "\x7b\"system_cfg\":\x7b\"ipaddress\":\"192.168.0.92\",\"netmask\":99\x7d\x7d"

def network_text : JsonText where
  json_tokener_parse bytes :=
    if bytes = network_config then
      .object [("system_cfg", .object [("ipaddress", .string "192.168.0.91")]),
        ("stream_1", .object [("fps", .int 15)])]
    else if bytes = network_body then
      .object [("system_cfg", .object [("ipaddress", .string "192.168.0.92"), ("netmask", .int 99)])]
    else if bytes = sample_body then .object [("stream_1", .object [("fps", .int 30)])]
    else .null
  json_object_to_json_string_ext := sample_text.json_object_to_json_string_ext
  parse_nil := rfl
  print_ne_nil := sample_text.print_ne_nil

def network_server : Server := { sample_server with config_file := network_config }

/-- The refused change of the network leaves the flag set, and the change of a frame rate that is stored
next starts the helper. -/
theorem helper_started_by_frame_rate :
    (handler_storing (store_config .r_plus) network_text 60 network_server
      { sample_put with body := network_body }).1 = bad_request "Update failed for single PUT" ∧
    ¬ NamesNetwork network_text sample_put ∧
    StartsHelper (store_config .r_plus) network_text 60 (handler_storing (store_config .r_plus) network_text 60
      network_server { sample_put with body := network_body }).2 sample_put ∧
    ¬ EveryRequest (store_config .r_plus) network_text 60 (HelperExact (store_config .r_plus) network_text 60)
      network_server [{ sample_put with body := network_body }, sample_put] := by
  have hnames : ¬ NamesNetwork network_text sample_put := by
    rintro ⟨item, hmem, hitem⟩
    have hnone : (put_items (parsed_body network_text sample_put)).all fun item => !names_network item := by
      decide +kernel
    have hfalse := List.all_eq_true.mp hnone item hmem
    rw [hitem] at hfalse
    cases hfalse
  have hstarts : StartsHelper (store_config .r_plus) network_text 60 (handler_storing (store_config .r_plus)
      network_text 60 network_server { sample_put with body := network_body }).2 sample_put := by
    unfold StartsHelper
    decide +kernel
  refine ⟨by rfl, hnames, hstarts, ?_⟩
  rintro ⟨-, hexact, -⟩
  exact hnames (hexact.mp hstarts).2

end k180.restful_api_server
