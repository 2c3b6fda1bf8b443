import K180.Web.Sections
import K180.RestServer.CameraAgreement

open php json_c binary_float libc k180.user_cfg
open k180.restful_api_server (shipped_config load_error accepts_of_load_error not_accepts_of_load_error)

namespace k180.setting

variable {fields : List Field} {name key : String} {config members members' : List (String × Json)}

/-- The sections that have members in the form. -/
def form_sections : List String := ["system_cfg", "stream_1", "stream_2"]

/-- What the form does not replace can be written back: the page's language has every number in it,
those that the camera process reads as integers as integers. -/
structure Survives (fields : List Field) (config : List (String × Json)) : Prop where
  others : ∀ name val, Members.get name config = some val → name ∉ form_sections → Encodable val
  members : ∀ name ∈ form_sections, ∀ subs, Members.get name config = some (.object subs) →
    ∀ key val, Members.get key subs = some val → assigned name key fields = none → Encodable val
  ints : ∀ subs, Members.get "system_cfg" config = some (.object subs) →
    ∀ key ∈ system_ints, ∀ i, Members.get key subs = some (.int i) → is_int i = true

/-- The values of the form that are only checked by the camera process. -/
structure ValidStreams (unspecified : binary_float.Value → ℤ) (post : Post) : Prop where
  resolution : ∀ res ∈ [post.res_1, post.res_2], intval res ∈ ([720, 1080] : List ℤ)
  datarate : ∀ datarate ∈ [post.datarate_1, post.datarate_2], ValidMbps unspecified (floatval datarate)
  recorded : intval post.local_recorded ∈ ([0, 1, 2] : List ℤ)
  rotate180 : intval post.local_rotate180 ∈ ([0, 1] : List ℤ)

/-- The fields of the form are in its sections. -/
theorem section_name_of_mem_replaced {post : Post} {jsonData : php.Value} {f : Field}
    (hf : f ∈ replaced post jsonData) : f.section_name ∈ form_sections := by
  have hstreams : ∀ f ∈ stream_fields post, f.section_name ∈ form_sections := by
    simp [stream_fields, form_sections]
  have hsystem : ∀ f ∈ system_fields post, f.section_name ∈ form_sections := by
    simp [system_fields, form_sections]
  obtain hf | hf := List.mem_append.mp hf
  · split at hf
    · exact hstreams f hf
    · cases hf
  · split at hf
    · exact hsystem f hf
    · cases hf

theorem exists_field_of_assigned {val : php.Value} (hassigned : assigned name key fields = some val) :
    ∃ f ∈ fields, f = ⟨name, key, val⟩ := by
  induction fields with
  | nil => cases hassigned
  | cons f rest ih =>
    rw [assigned, Option.or_eq_some_iff] at hassigned
    obtain hrest | ⟨-, hf⟩ := hassigned
    · obtain ⟨f', hf', heq⟩ := ih hrest
      exact ⟨f', List.mem_cons_of_mem _ hf', heq⟩
    · split at hf
      · rename_i hnames
        obtain ⟨rfl, rfl⟩ := hnames
        obtain rfl := Option.some.inj hf
        exact ⟨f, List.mem_cons_self .., rfl⟩
      · cases hf

theorem assigned_eq_none (hname : ∀ f ∈ fields, f.section_name = name → f.key ≠ key) :
    assigned name key fields = none := by
  rw [Option.eq_none_iff_forall_ne_some]
  intro val hval
  obtain ⟨f, hf, rfl⟩ := exists_field_of_assigned hval
  exact hname _ hf rfl rfl

/-- The decoded configuration with its assignments, as an array of sections. -/
structure AssignedEntries (fields : List Field) (config : List (String × Json))
    (entries : List (String × php.Value)) : Prop where
  unique : Entries.Unique entries
  other : ∀ name, (∀ f ∈ fields, f.section_name ≠ name) →
    Entries.get name entries = (Members.get name config).map json_decode
  section_get : ∀ name members, Members.get name config = some (.object members) →
    ∃ subs, Entries.get name entries = some (.array subs) ∧ Entries.Unique subs ∧
      ∀ key, Entries.get key subs = (assigned name key fields).or ((Members.get key members).map json_decode)

theorem assign_decode (fields : List Field) (hform : well_formed (.object config) = true) :
    ∃ entries, assign fields (json_decode (.object config)) = .array entries ∧
      AssignedEntries fields config entries := by
  have hunique := unique_decode_members (unique_of_well_formed hform)
  obtain ⟨entries, hassign, hunique', hother, hsection⟩ := assign_array fields hunique
  refine ⟨entries, hassign, hunique', fun name hname => ?_, fun name members hmember => ?_⟩
  · rw [hother name hname, get_decode_members]
  · have hdecoded : Entries.get name (decode_members config) = some (.array (decode_members members)) := by
      rw [get_decode_members, hmember, Option.map_some, json_decode]
    have hsubs := unique_decode_members (unique_of_well_formed (well_formed_of_get hform hmember))
    obtain ⟨subs, hsubs, hunique_subs, hkeys⟩ := hsection name _ hdecoded hsubs
    refine ⟨subs, hsubs, hunique_subs, fun key => ?_⟩
    rw [hkeys, get_decode_members]

/-- A section that the page's language does not take for a list. -/
def HasNamedMember (members : List (String × Json)) : Prop :=
  ∃ key val, Members.get key members = some val ∧ ∃ c ∈ key.toList, c.isDigit = false

/-- What is saved has the sections that were stored, each of them rewritten. -/
theorem AssignedEntries.saved_sections {entries : List (String × php.Value)} {saved : Json}
    (hentries : AssignedEntries fields config entries) (hsaved : json_encode (.array entries) = some saved)
    (hsystem : ∃ members, Members.get "system_cfg" config = some (.object members)) :
    ∃ config', saved = .object config' ∧
      ∀ name members, Members.get name config = some (.object members) → HasNamedMember members →
        ∃ members', Members.get name config' = some (.object members') ∧
          Rewritten fields name members members' := by
  obtain ⟨system, hsystem⟩ := hsystem
  obtain ⟨subs, hsubs, -⟩ := hentries.section_get _ _ hsystem
  have hsystem_key : "system_cfg" ∈ entries.map Prod.fst :=
    List.mem_map.mpr ⟨_, (Entries.get_eq_some_iff hentries.unique).mp hsubs, rfl⟩
  obtain ⟨config', rfl, hconfig'⟩ := json_encode_object hsaved hsystem_key ⟨'s', by decide, by decide⟩
  refine ⟨config', rfl, fun name members hmember hnamed => ?_⟩
  obtain ⟨key, val, hval, hkey⟩ := hnamed
  obtain ⟨subs, hsubs, hunique_subs, hkeys⟩ := hentries.section_get _ _ hmember
  have hencodable : (json_encode (.array subs)).isSome = true :=
    (json_encode_isSome_iff hentries.unique).mp (by rw [hsaved]; rfl) name _ hsubs
  obtain ⟨j, hj⟩ := Option.isSome_iff_exists.mp hencodable
  have hkey_mem : key ∈ subs.map Prod.fst := by
    have hsome : ∃ v, Entries.get key subs = some v := by
      rw [hkeys, hval]
      cases assigned name key fields with
      | none => exact ⟨_, rfl⟩
      | some v => exact ⟨v, rfl⟩
    obtain ⟨v, hv⟩ := hsome
    exact List.mem_map.mpr ⟨_, (Entries.get_eq_some_iff hunique_subs).mp hv, rfl⟩
  obtain ⟨members', rfl, hmembers'⟩ := json_encode_object hj hkey_mem hkey
  refine ⟨members', by rw [hconfig', hsubs, Option.bind_some, hj], fun key => ?_, fun key val hval hnone => ?_⟩
  · rw [hmembers', hkeys]
  · apply (json_encode_isSome_iff hunique_subs).mp hencodable key
    rw [hkeys, hnone, hval]
    rfl

/-- Encoding fails only at a value that is left alone, or at one that is set. -/
theorem AssignedEntries.isSome_iff {entries : List (String × php.Value)}
    (hentries : AssignedEntries fields config entries)
    (hfields : ∀ f ∈ fields, f.section_name ∈ form_sections)
    (hobjects : ∀ name ∈ form_sections, ∃ members, Members.get name config = some (.object members)) :
    (json_encode (.array entries)).isSome = true ↔
      (∀ name val, Members.get name config = some val → name ∉ form_sections → Encodable val) ∧
      (∀ name ∈ form_sections, ∀ subs, Members.get name config = some (.object subs) →
        ∀ key val, Members.get key subs = some val → assigned name key fields = none → Encodable val) ∧
      (∀ name ∈ form_sections, ∀ key val, assigned name key fields = some val →
        (json_encode val).isSome = true) := by
  have hother : ∀ name ∉ form_sections, Entries.get name entries = (Members.get name config).map json_decode :=
    fun name hname => hentries.other name fun f hf h => hname (h ▸ hfields f hf)
  rw [json_encode_isSome_iff hentries.unique]
  constructor
  · intro hall
    refine ⟨fun name val hget hname => ?_, fun name _ subs hget key val hval hnone => ?_,
      fun name hname key val hval => ?_⟩
    · apply hall name
      rw [hother name hname, hget]
      rfl
    · obtain ⟨subs', hsubs', hunique, hkeys⟩ := hentries.section_get name subs hget
      apply (json_encode_isSome_iff hunique).mp (hall name _ hsubs') key
      rw [hkeys, hnone, hval]
      rfl
    · obtain ⟨members, hmembers⟩ := hobjects name hname
      obtain ⟨subs', hsubs', hunique, hkeys⟩ := hentries.section_get name members hmembers
      apply (json_encode_isSome_iff hunique).mp (hall name _ hsubs') key
      rw [hkeys, hval]
      rfl
  · rintro ⟨hothers, hmembers, hassigned⟩ name val hget
    by_cases hname : name ∈ form_sections
    · obtain ⟨members, hmember⟩ := hobjects name hname
      obtain ⟨subs, hsubs, hunique, hkeys⟩ := hentries.section_get name members hmember
      obtain rfl := Option.some.inj (hsubs.symm.trans hget)
      rw [json_encode_isSome_iff hunique]
      intro key val hval
      rw [hkeys] at hval
      cases hset : assigned name key fields with
      | some v =>
        rw [hset, Option.some_or] at hval
        exact Option.some.inj hval ▸ hassigned name hname key v hset
      | none =>
        rw [hset, Option.none_or, Option.map_eq_some_iff] at hval
        obtain ⟨v, hv, rfl⟩ := hval
        exact hmembers name hname members hmember key v hv hset
    · rw [hother name hname, Option.map_eq_some_iff] at hget
      obtain ⟨v, hv, rfl⟩ := hget
      exact hothers name v hv hname

/-- What the form sets in `system_cfg`, of which only the network settings are checked. -/
theorem systemFields_replaced {post : Post} {jsonData : php.Value}
    (hvalid : sys_cfg_change post jsonData = true → valid_system post = true) :
    SystemFields (replaced post jsonData) (intval post.local_recorded) (intval post.local_rotate180) := by
  have hfield : ∀ key val, assigned "system_cfg" key (replaced post jsonData) = some val →
      ((key = "recorded" ∧ val = .int (intval post.local_recorded)) ∨
        (key = "rotate180" ∧ val = .int (intval post.local_rotate180))) ∨
      valid_system post = true ∧ ((key = "ipaddress" ∧ val = .string post.sys_ip) ∨
        (key = "netmask" ∧ val = .int (intval post.sys_netmask)) ∨
        (key = "gateway" ∧ val = .string post.sys_gw)) := by
    intro key val hassigned
    obtain ⟨f, hf, rfl⟩ := exists_field_of_assigned hassigned
    obtain hf | hf := List.mem_append.mp hf
    · split at hf
      · left
        simpa [stream_fields] using hf
      · cases hf
    · split at hf
      · rename_i hchange
        right
        exact ⟨hvalid hchange, by simpa [system_fields] using hf⟩
      · cases hf
  have hnetwork : valid_system post = true →
      filter_var_ipv4 post.sys_ip = true ∧ filter_var_ipv4 post.sys_gw = true ∧
        intval post.sys_netmask ∈ valid_netmasks := by
    simp only [valid_system, Bool.and_eq_true, List.contains_iff_mem]
    exact fun h => ⟨h.1.1, h.1.2, h.2⟩
  constructor
  case address =>
    intro key hkey val hval
    simp only [List.mem_cons, List.not_mem_nil, or_false] at hkey
    obtain (⟨rfl, -⟩ | ⟨rfl, -⟩) | ⟨hok, ⟨-, rfl⟩ | ⟨rfl, -⟩ | ⟨-, rfl⟩⟩ := hfield key val hval
    · simp at hkey
    · simp at hkey
    · exact ⟨_, rfl, (hnetwork hok).1⟩
    · simp at hkey
    · exact ⟨_, rfl, (hnetwork hok).2.1⟩
  case netmask =>
    intro val hval
    obtain h | ⟨hok, h⟩ := hfield _ val hval
    · simp at h
    · obtain rfl : val = .int (intval post.sys_netmask) := by simpa using h
      exact ⟨_, (hnetwork hok).2.2, rfl⟩
  case recorded =>
    intro val hval
    simpa using hfield _ val hval
  case rotate180 =>
    intro val hval
    simpa using hfield _ val hval
  case other =>
    intro key hkey
    rw [Option.eq_none_iff_forall_ne_some]
    intro val hval
    obtain (⟨rfl, -⟩ | ⟨rfl, -⟩) | ⟨-, ⟨rfl, -⟩ | ⟨rfl, -⟩ | ⟨rfl, -⟩⟩ := hfield key val hval <;> simp at hkey

/-- What the form sets in a stream, all three members together. -/
theorem streamFields_replaced (post : Post) (jsonData : php.Value) :
    StreamFields (replaced post jsonData) "stream_1" (stream_cfg_change post jsonData = true)
      (intval post.res_1) (intval post.fps_1) (floatval post.datarate_1) ∧
    StreamFields (replaced post jsonData) "stream_2" (stream_cfg_change post jsonData = true)
      (intval post.res_2) (intval post.fps_2) (floatval post.datarate_2) := by
  have hsystem : ∀ name ∈ ["stream_1", "stream_2"], stream_cfg_change post jsonData ≠ true →
      ∀ key, assigned name key (replaced post jsonData) = none := by
    intro name hname hkept key
    apply assigned_eq_none
    intro f hf hf_name
    rw [replaced, if_neg hkept, List.nil_append] at hf
    split at hf
    · subst hf_name
      simp only [system_fields, List.mem_cons, List.not_mem_nil, or_false] at hf hname
      obtain rfl | rfl | rfl := hf <;> simp at hname
    · cases hf
  have hset : ∀ name key, name ≠ "system_cfg" → stream_cfg_change post jsonData = true →
      assigned name key (replaced post jsonData) = assigned name key (stream_fields post) := by
    intro name key hname hchange
    rw [replaced, if_pos hchange]
    split
    · simp [stream_fields, system_fields, assigned, hname.symm]
    · rw [List.append_nil]
  refine ⟨⟨?_, ?_, ?_, hsystem _ (by simp)⟩, ⟨?_, ?_, ?_, hsystem _ (by simp)⟩⟩
  all_goals
    intro hchange
    rw [hset _ _ (by simp) hchange]
    simp [stream_fields, assigned]

theorem assigned_recorded_ne_none_iff (post : Post) (jsonData : php.Value) :
    (assigned "system_cfg" "recorded" (replaced post jsonData) ≠ none ↔
      stream_cfg_change post jsonData = true) ∧
    (assigned "system_cfg" "rotate180" (replaced post jsonData) ≠ none ↔
      stream_cfg_change post jsonData = true) := by
  unfold replaced
  cases stream_cfg_change post jsonData <;> cases sys_cfg_change post jsonData <;>
    simp [stream_fields, system_fields, assigned]

/-- A page that writes the file has read it, and has checked the frame rates and any change of the network
settings. -/
theorem setting_post_eq_some {max_stream_fps : ℤ} {decodes : Bool} {post : Post} {content : Json}
    (hsaved : setting_post max_stream_fps ⟨.object config, decodes⟩ post = some content) :
    intval post.fps_1 ∈ fps_options max_stream_fps ∧ intval post.fps_2 ∈ fps_options max_stream_fps ∧
    (sys_cfg_change post (json_decode (.object config)) = true → valid_system post = true) ∧
    content = (json_encode (assign (replaced post (json_decode (.object config)))
      (json_decode (.object config)))).getD .null := by
  cases decodes with
  | false => cases hsaved
  | true =>
    have hdecode : json_decode (.object config) = .array (decode_members config) := by rw [json_decode]
    simp only [setting_post, if_true, hdecode] at hsaved ⊢
    split at hsaved
    · cases hsaved
    · rename_i hfps
      split at hsaved
      · cases hsaved
      · rename_i hsystem
        split at hsaved
        · simp only [Bool.not_eq_true', Bool.not_eq_false, Bool.and_eq_true, List.contains_iff_mem] at hfps
          refine ⟨hfps.1, hfps.2, fun hchange => ?_, (Option.some.inj hsaved).symm⟩
          simpa [hchange] using hsystem
        · cases hsaved

theorem get_of_require_string {s : List Char} (hread : require_string (.object members) key = .ok s) :
    ∃ val, Members.get key members = some val := by
  rw [user_cfg.require_string] at hread
  split at hread
  · rename_i text hget
    exact ⟨_, get_of_obj_get hget (by simp)⟩
  · cases hread

theorem get_of_require_int {n : ℤ} (hread : require_int (.object members) key = .ok n) :
    ∃ val, Members.get key members = some val := by
  obtain ⟨i, hget, -⟩ := obj_get_of_require_int hread
  exact ⟨_, get_of_obj_get hget (by simp)⟩

theorem hasNamedMember_of_system {sys : List (String × Json)} (hsystem : SystemAccepted (.object sys)) :
    HasNamedMember sys := by
  obtain ⟨cfg, hreads, -⟩ := hsystem
  obtain ⟨val, hval⟩ := get_of_require_string hreads.ipaddress
  exact ⟨_, val, hval, 'i', by decide, by decide⟩

theorem hasNamedMember_of_stream {max_stream_fps : ℤ} {unspecified : binary_float.Value → ℤ}
    {stream : List (String × Json)} (hstream : StreamAccepted max_stream_fps unspecified (.object stream)) :
    HasNamedMember stream := by
  obtain ⟨⟨_, hread, -⟩, -⟩ := hstream
  obtain ⟨val, hval⟩ := get_of_require_int hread
  exact ⟨_, val, hval, 'r', by decide, by decide⟩

theorem hasNamedMember_of_bright_tuner {bt : List (String × Json)}
    (hbright : BrightTunerAccepted (.object bt)) : HasNamedMember bt := by
  obtain ⟨_, hparse, -⟩ := hbright
  simp only [parse_bright_tuner, checked.bind_eq_ok_iff] at hparse
  obtain ⟨_, -, _, hread, -⟩ := hparse
  obtain ⟨val, hval⟩ := get_of_require_int hread
  exact ⟨_, val, hval, 'a', by decide, by decide⟩

/-- JSON has every value of the form but an infinite datarate. -/
theorem encodable_of_assigned {unspecified : binary_float.Value → ℤ} {post : Post} {jsonData val : php.Value}
    (hvalid : stream_cfg_change post jsonData = true → ValidStreams unspecified post)
    (hassigned : assigned name key (replaced post jsonData) = some val) : (json_encode val).isSome = true := by
  obtain ⟨f, hf, rfl⟩ := exists_field_of_assigned hassigned
  have hfloat : ∀ {mbps}, ValidMbps unspecified mbps → (json_encode (.float mbps)).isSome = true := by
    rintro _ ⟨q, rfl, -⟩
    rw [json_encode, json_encode_double]
    split <;> rfl
  obtain hf | hf := List.mem_append.mp hf
  · split at hf
    · rename_i hchange
      obtain ⟨-, hdatarate, -⟩ := hvalid hchange
      simp only [stream_fields, List.mem_cons, Field.mk.injEq, List.not_mem_nil, or_false] at hf
      obtain ⟨-, -, rfl⟩ | ⟨-, -, rfl⟩ | ⟨-, -, rfl⟩ | ⟨-, -, rfl⟩ | ⟨-, -, rfl⟩ | ⟨-, -, rfl⟩ | ⟨-, -, rfl⟩ |
        ⟨-, -, rfl⟩ := hf
      case inr.inr.inl => exact hfloat (hdatarate _ (by simp))
      case inr.inr.inr.inr.inr.inl => exact hfloat (hdatarate _ (by simp))
      all_goals rw [json_encode]; rfl
    · cases hf
  · split at hf
    · simp only [system_fields, List.mem_cons, Field.mk.injEq, List.not_mem_nil, or_false] at hf
      obtain ⟨-, -, rfl⟩ | ⟨-, -, rfl⟩ | ⟨-, -, rfl⟩ := hf <;> rw [json_encode] <;> rfl
    · cases hf

/-- A form leaves the other sections alone. -/
theorem assigned_other (post : Post) (jsonData : php.Value) (hname : name ∉ form_sections) (key : String) :
    assigned name key (replaced post jsonData) = none := by
  apply assigned_eq_none
  rintro f hf rfl
  exact absurd (section_name_of_mem_replaced hf) hname

theorem not_accepts_null {max_stream_fps : ℤ} {unspecified : binary_float.Value → ℤ} {json_path : String} :
    ¬ Accepts max_stream_fps unspecified json_path .null := by
  rw [accepts_iff]
  rintro ⟨_, _, _, _, ⟨h, -⟩, -⟩
  cases h

/-- For every configuration that the camera process loads and every form that ends in a saved file: the
camera process loads that file exactly when what the form leaves alone can be written back and, if the form
changes the streams, their values are on the lists that only the camera process checks. -/
theorem saved_config_accepted_iff {max_stream_fps : ℤ} (unspecified : binary_float.Value → ℤ)
    (json_path : String) {decodes : Bool} {post : Post} {content : Json}
    (hform : well_formed (.object config) = true)
    (haccepts : Accepts max_stream_fps unspecified json_path (.object config))
    (hsaved : setting_post max_stream_fps ⟨.object config, decodes⟩ post = some content) :
    Accepts max_stream_fps unspecified json_path content ↔
      Survives (replaced post (json_decode (.object config))) config ∧
        (stream_cfg_change post (json_decode (.object config)) = true → ValidStreams unspecified post) := by
  obtain ⟨hfps1, hfps2, hnetwork, rfl⟩ := setting_post_eq_some hsaved
  obtain ⟨sys, s1, s2, bt, hsys, hs1, hs2, hbt⟩ := sections_of_accepts haccepts
  obtain ⟨hsystem, hstream1, hstream2, hbright⟩ := (accepts_sections_iff hsys hs1 hs2 hbt).mp haccepts
  obtain ⟨entries, hassign, hentries⟩ := assign_decode (replaced post (json_decode (.object config))) hform
  have hencode_iff := hentries.isSome_iff (fun f hf => section_name_of_mem_replaced hf) <| by
    simp only [form_sections, List.forall_mem_cons, List.not_mem_nil, false_imp_iff, implies_true, and_true]
    exact ⟨⟨sys, hsys⟩, ⟨s1, hs1⟩, ⟨s2, hs2⟩⟩
  rw [hassign]
  cases hencode : json_encode (.array entries) with
  | none =>
    -- the page has emptied the file
    refine iff_of_false not_accepts_null ?_
    rintro ⟨hsurvives, hvalid⟩
    have hsome := hencode_iff.mpr ⟨hsurvives.others, hsurvives.members,
      fun _ _ _ _ hval => encodable_of_assigned hvalid hval⟩
    rw [hencode] at hsome
    cases hsome
  | some saved =>
    obtain ⟨hothers, hmembers, -⟩ := hencode_iff.mp (by rw [hencode]; rfl)
    obtain ⟨config', rfl, hrewrite⟩ := hentries.saved_sections hencode ⟨sys, hsys⟩
    obtain ⟨sys', hsys', hrewritten⟩ := hrewrite _ _ hsys (hasNamedMember_of_system hsystem)
    obtain ⟨s1', hs1', hrewritten1⟩ := hrewrite _ _ hs1 (hasNamedMember_of_stream hstream1)
    obtain ⟨s2', hs2', hrewritten2⟩ := hrewrite _ _ hs2 (hasNamedMember_of_stream hstream2)
    obtain ⟨bt', hbt', hrewritten_bt⟩ := hrewrite _ _ hbt (hasNamedMember_of_bright_tuner hbright)
    have hform_section : ∀ {name members}, Members.get name config = some (.object members) →
        well_formed (.object members) = true := fun hget => well_formed_of_get hform hget
    have hsystem_iff := system_accepted_iff (systemFields_replaced hnetwork) hrewritten (hform_section hsys) hsystem
    obtain ⟨hfields1, hfields2⟩ := streamFields_replaced post (json_decode (.object config))
    have hstream1_iff := stream_accepted_iff hfields1 hfps1 (convert_floatval _) hrewritten1 (hform_section hs1)
      hstream1
    have hstream2_iff := stream_accepted_iff hfields2 hfps2 (convert_floatval _) hrewritten2 (hform_section hs2)
      hstream2
    have hbright' : BrightTunerAccepted (.object bt') :=
      bright_tuner_accepted (assigned_other _ _ (by decide)) hrewritten_bt (hform_section hbt) hbright
    obtain ⟨hrecorded_iff, hrotate_iff⟩ :=
      assigned_recorded_ne_none_iff post (json_decode (.object config))
    rw [Option.getD_some, accepts_sections_iff hsys' hs1' hs2' hbt', hsystem_iff, hstream1_iff, hstream2_iff,
      hrecorded_iff, hrotate_iff]
    constructor
    · rintro ⟨⟨hints, hrecorded, hrotate⟩, hvalid1, hvalid2, -⟩
      refine ⟨⟨hothers, hmembers, fun subs hsubs => ?_⟩, fun hchange => ?_⟩
      · obtain rfl : sys = subs := by simpa [hsys] using hsubs
        exact hints
      · obtain ⟨hres1, hmbps1⟩ := hvalid1 hchange
        obtain ⟨hres2, hmbps2⟩ := hvalid2 hchange
        exact ⟨List.forall_mem_cons.mpr ⟨hres1, List.forall_mem_singleton.mpr hres2⟩,
          List.forall_mem_cons.mpr ⟨hmbps1, List.forall_mem_singleton.mpr hmbps2⟩, hrecorded hchange,
          hrotate hchange⟩
    · rintro ⟨hsurvives, hvalid⟩
      refine ⟨⟨hsurvives.ints sys hsys, fun hchange => (hvalid hchange).recorded,
        fun hchange => (hvalid hchange).rotate180⟩, fun hchange => ?_, fun hchange => ?_, hbright'⟩
      · exact ⟨(hvalid hchange).resolution _ (by simp), (hvalid hchange).datarate _ (by simp)⟩
      · exact ⟨(hvalid hchange).resolution _ (by simp), (hvalid hchange).datarate _ (by simp)⟩

/-- The settings that come with the program, as the form posts them, but for a datarate. -/
def form (datarate_1 : String) : Post :=
  { res_1 := "1080", fps_1 := "60", datarate_1, res_2 := "720", fps_2 := "60", datarate_2 := "1"
    local_recorded := "1", local_rotate180 := "0", sys_ip := "192.168.0.91", sys_netmask := "24"
    sys_gw := "192.168.50.1" }

def saved_file (post : Post) : Json := (setting_post 60 ⟨.object shipped_config, true⟩ post).getD .null

theorem setting_post_of_isSome {post : Post}
    (hsome : (setting_post 60 ⟨.object shipped_config, true⟩ post).isSome = true) :
    setting_post 60 ⟨.object shipped_config, true⟩ post = some (saved_file post) := by
  obtain ⟨content, hcontent⟩ := Option.isSome_iff_exists.mp hsome
  rw [saved_file, hcontent, Option.getD_some]

set_option maxRecDepth 10000 in
theorem saved_config_accepted_iff_shipped :
    Accepts 60 (fun _ => 0) "user_def_setting.json" (.object shipped_config) ∧
      (Accepts 60 (fun _ => 0) "user_def_setting.json" (saved_file (form "4")) ↔
        Survives (replaced (form "4") (json_decode (.object shipped_config))) shipped_config ∧
          (stream_cfg_change (form "4") (json_decode (.object shipped_config)) = true →
            ValidStreams (fun _ => 0) (form "4"))) := by
  have haccepts : Accepts 60 (fun _ => 0) "user_def_setting.json" (.object shipped_config) :=
    accepts_of_load_error (by decide +kernel)
  exact ⟨haccepts, saved_config_accepted_iff (fun _ => 0) "user_def_setting.json" (by decide +kernel) haccepts
    (setting_post_of_isSome (by decide +kernel))⟩

set_option maxRecDepth 10000 in
/-- A datarate of 5 is saved by the page, and the camera process then refuses the file. -/
theorem saved_config_refused :
    Accepts 60 (fun _ => 0) "user_def_setting.json" (.object shipped_config) ∧
    setting_post 60 ⟨.object shipped_config, true⟩ (form "5") = some (saved_file (form "5")) ∧
    load_error (user_cfg_load_from_file 60 (fun _ => 0) "user_def_setting.json"
      (.content (saved_file (form "5")))) =
      some (.VALIDATION_FAIL, "stream_1.datarate invalid: 5 Mbps (allowed: 0.2,0.5,1,2,4,6,8)") ∧
    ¬ Accepts 60 (fun _ => 0) "user_def_setting.json" (saved_file (form "5")) := by
  have hrefused : load_error (user_cfg_load_from_file 60 (fun _ => 0) "user_def_setting.json"
      (.content (saved_file (form "5")))) =
      some (.VALIDATION_FAIL, "stream_1.datarate invalid: 5 Mbps (allowed: 0.2,0.5,1,2,4,6,8)") := by
    decide +kernel
  exact ⟨accepts_of_load_error (by decide +kernel), setting_post_of_isSome (by decide +kernel), hrefused,
    not_accepts_of_load_error hrefused⟩

end k180.setting
