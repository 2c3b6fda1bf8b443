import K180.RestServer.MergeLaws

open json_c

namespace k180.restful_api_server

variable {config members sources result updates : List (String × Json)} {top_key key : String} {v : Json}

/-- The configuration has a value at a key of a section. -/
def HasPath (config : List (String × Json)) (top_key key : String) (v : Json) : Prop :=
  ∃ subs, Members.get top_key config = some (.object subs) ∧ Members.get key subs = some v

/-- The query gives the empty string to a key of a section. -/
def Requested (query : List (String × Json)) (top_key key : String) : Prop :=
  ∃ s, HasPath query top_key key (.string s) ∧ c_str s = []

/-- What a member of a query selects at its key. -/
def selected (src_val : Option Json) (query_val : Json) : Option Json :=
  match src_val, query_val with
  | some (.object sources), .object members =>
    match query_members sources members [] with
    | [] => none
    | child => some (.object child)
  | some src_val, .string s => if c_str s = [] then some src_val else none
  | _, _ => none

/-- The result of a GET for one key of one section. -/
def read_path (config : List (String × Json)) (top_key key : String) : Json :=
  query_json (.object config) (.object [(top_key, .object [(key, .string "")])])

theorem query_member_eq (sources : List (String × Json)) (key : String) (query_val : Json)
    (result : List (String × Json)) :
    query_member sources (key, query_val) result =
      match selected (Members.get key sources) query_val with
      | some v => Members.add key v result
      | none => result := by
  rw [query_member]
  cases hsource : Members.get key sources with
  | none => cases query_val <;> rfl
  | some src_val =>
    cases query_val with
    | object members =>
      cases src_val with
      | object subs =>
        simp only [query_value, selected]
        cases query_members subs members [] <;> rfl
      | _ => simp only [query_value, selected]
    | string s =>
      by_cases hempty : c_str s = []
      · cases src_val <;> simp only [query_value, selected, if_pos hempty]
      · cases src_val <;> simp only [query_value, selected, if_neg hempty]
    | _ => cases src_val <;> simp only [query_value, selected]

/-- A query selects at each of its keys, and nowhere else. -/
theorem get_query_members (hunique : Members.Unique members) (sources result : List (String × Json))
    (key : String) :
    Members.get key (query_members sources members result) =
      ((Members.get key members).bind (selected (Members.get key sources))).or (Members.get key result) := by
  induction members generalizing result with
  | nil => rw [query_members, Members.get, Option.bind_none, Option.none_or]
  | cons m rest ih =>
    obtain ⟨k, w⟩ := m
    obtain ⟨hnew, hrest⟩ := List.nodup_cons.mp hunique
    rw [query_members, ih hrest, query_member_eq, Members.get]
    by_cases hkey : k = key
    · subst hkey
      rw [Members.get_eq_none_of_not_mem hnew, if_pos rfl, Option.bind_none, Option.none_or, Option.bind_some]
      cases selected (Members.get k sources) w with
      | none => rfl
      | some v => rw [Members.get_add, if_pos rfl, Option.some_or]
    · rw [if_neg hkey]
      cases selected (Members.get k sources) w with
      | none => rfl
      | some v => rw [Members.get_add, if_neg hkey]

theorem get_query_members_nil (hunique : Members.Unique members) (sources : List (String × Json)) (key : String) :
    Members.get key (query_members sources members []) =
      (Members.get key members).bind (selected (Members.get key sources)) := by
  rw [get_query_members hunique, Members.get, Option.or_none]

/-- A value that is no object selects what it names if it is the empty string. -/
theorem selected_scalar_eq_some_iff {src_val : Option Json} {query_val : Json}
    (hscalar : json_object_is_type query_val .object = false) :
    selected src_val query_val = some v ↔ src_val = some v ∧ ∃ s, query_val = .string s ∧ c_str s = [] := by
  cases src_val with
  | none => cases query_val <;> simp [selected]
  | some src_val =>
    cases query_val with
    | object members => cases hscalar
    | string s =>
      by_cases hempty : c_str s = []
      · cases src_val <;> simp [selected, hempty]
      · cases src_val <;> simp [selected, hempty]
    | _ => cases src_val <;> simp [selected]

/-- A section of a query selects from an object, and only if it finds something there. -/
theorem selected_object_eq_some_iff {src_val : Option Json} {subs : List (String × Json)} :
    selected src_val (.object subs) = some v ↔
      ∃ sources, src_val = some (.object sources) ∧ query_members sources subs [] ≠ [] ∧
        v = .object (query_members sources subs []) := by
  cases src_val with
  | none => simp [selected]
  | some src_val =>
    cases src_val with
    | object sources =>
      simp only [selected, Option.some.injEq, Json.object.injEq, exists_eq_left']
      split
      · rename_i hnil
        constructor
        · intro h
          cases h
        · rintro ⟨hne, -⟩
          exact absurd hnil hne
      · rename_i hne
        rw [Option.some.injEq]
        exact ⟨fun h => ⟨hne, h.symm⟩, fun h => h.2.symm⟩
    | _ => simp [selected]

/-- The result of a query has exactly the requested paths that exist, with their values, and nothing but
sections with such a path. -/
structure Selects (config query result : List (String × Json)) : Prop where
  paths : ∀ top_key key v, HasPath result top_key key v ↔ Requested query top_key key ∧ HasPath config top_key key v
  sections : ∀ top_key val, Members.get top_key result = some val → ∃ subs, val = .object subs ∧ subs ≠ []

theorem query_json_selects (config : List (String × Json)) {query : List (String × Json)}
    (hform : well_formed (.object query) = true) (hvalid : is_valid_query (.object query) = true) :
    ∃ result, query_json (.object config) (.object query) = .object result ∧ Selects config query result := by
  have hget := get_query_members_nil (unique_of_well_formed hform) config
  have hsection : ∀ {top_key val}, Members.get top_key query = some val →
      ∃ subs, val = .object subs ∧ Members.Unique subs ∧
        ∀ sub ∈ subs, json_object_is_type sub.2 .object = false := by
    intro top_key val hmember
    obtain ⟨-, subs, rfl, hsubs⟩ := is_valid_query_sections hvalid (Members.mem_of_get hmember)
    exact ⟨subs, rfl, unique_of_well_formed (well_formed_of_get hform hmember),
      fun sub hsub => scalar_of_is_valid_sub (hsubs sub hsub)⟩
  refine ⟨query_members config query [], by rw [query_json], ⟨fun top_key key v => ?_, fun top_key val hval => ?_⟩⟩
  · constructor
    · rintro ⟨subs', hresult, hkey⟩
      rw [hget, Option.bind_eq_some_iff] at hresult
      obtain ⟨val, hmember, hselected⟩ := hresult
      obtain ⟨subs, rfl, hunique, hscalar⟩ := hsection hmember
      obtain ⟨csubs, hconfig, -, hchild⟩ := selected_object_eq_some_iff.mp hselected
      rw [Json.object.injEq] at hchild
      rw [hchild, get_query_members_nil hunique, Option.bind_eq_some_iff] at hkey
      obtain ⟨query_val, hquery, hvalue⟩ := hkey
      obtain ⟨hsource, s, rfl, hempty⟩ :=
        (selected_scalar_eq_some_iff (hscalar _ (Members.mem_of_get hquery))).mp hvalue
      exact ⟨⟨s, ⟨subs, hmember, hquery⟩, hempty⟩, csubs, hconfig, hsource⟩
    · rintro ⟨⟨s, ⟨subs, hmember, hquery⟩, hempty⟩, csubs, hconfig, hsource⟩
      obtain ⟨_, heq, hunique, hscalar⟩ := hsection hmember
      rw [Json.object.injEq] at heq
      subst heq
      have hkey : Members.get key (query_members csubs subs []) = some v := by
        rw [get_query_members_nil hunique, hquery, Option.bind_some, hsource]
        exact (selected_scalar_eq_some_iff rfl).mpr ⟨rfl, s, rfl, hempty⟩
      have hne : query_members csubs subs [] ≠ [] := by
        intro hnil
        rw [hnil] at hkey
        cases hkey
      refine ⟨_, ?_, hkey⟩
      rw [hget, hmember, Option.bind_some]
      exact selected_object_eq_some_iff.mpr ⟨csubs, hconfig, hne, rfl⟩
  · rw [hget, Option.bind_eq_some_iff] at hval
    obtain ⟨query_val, hmember, hselected⟩ := hval
    obtain ⟨subs, rfl, -, -⟩ := hsection hmember
    obtain ⟨csubs, -, hne, rfl⟩ := selected_object_eq_some_iff.mp hselected
    exact ⟨_, rfl, hne⟩

/-- The value at a key of a section, as `read_path` finds it. -/
def path_value (config : List (String × Json)) (top_key key : String) : Option Json :=
  match Members.get top_key config with
  | some (.object subs) => Members.get key subs
  | _ => none

theorem hasPath_iff : HasPath config top_key key v ↔ path_value config top_key key = some v := by
  rw [HasPath, path_value]
  split
  · rename_i subs hsection
    constructor
    · rintro ⟨_, heq, hkey⟩
      rw [hsection, Option.some.injEq, Json.object.injEq] at heq
      rw [heq]
      exact hkey
    · intro hkey
      exact ⟨subs, hsection, hkey⟩
  · rename_i hnot
    constructor
    · rintro ⟨subs, hsection, -⟩
      exact absurd hsection (hnot subs)
    · intro h
      cases h

theorem read_path_eq (config : List (String × Json)) (top_key key : String) :
    read_path config top_key key =
      match path_value config top_key key with
      | some v => .object [(top_key, .object [(key, v)])]
      | none => .object [] := by
  have hempty : c_str "" = [] := rfl
  rw [read_path, query_json, query_members, query_members, query_member_eq, path_value]
  cases hsection : Members.get top_key config with
  | none => rfl
  | some val =>
    cases val with
    | object subs =>
      simp only [selected, query_members, query_member_eq]
      cases hkey : Members.get key subs with
      | none => rfl
      | some v => cases v <;> simp only [hempty, if_true, Members.add]
    | _ => rfl

/-- An update with sections of its own keys sets the paths that it has, and no others. -/
theorem path_value_apply_update_json (config : List (String × Json))
    (hform : well_formed (.object updates) = true) (hvalid : is_valid_query (.object updates) = true)
    (top_key key : String) :
    path_value (apply_update_json config updates) top_key key =
      (path_value updates top_key key).or (path_value config top_key key) := by
  have hget := get_apply_update_json (unique_of_well_formed hform) config top_key
  cases hsection : Members.get top_key updates with
  | none =>
    rw [hsection] at hget
    simp only [path_value, hget, hsection, Option.none_or]
  | some val =>
    obtain ⟨-, subs, rfl, hsubs⟩ := is_valid_query_sections hvalid (Members.mem_of_get hsection)
    have hunique := unique_of_well_formed (well_formed_of_get hform hsection)
    rw [hsection] at hget
    have hupdates : path_value updates top_key key = Members.get key subs := by rw [path_value, hsection]
    rw [hupdates]
    cases hold : Members.get top_key config with
    | none =>
      rw [hold] at hget
      simp only [path_value, hget, hold, apply_update_value, Option.or_none]
    | some old =>
      rw [hold] at hget
      cases old with
      | object members =>
        simp only [path_value, hget, hold, apply_update_value]
        rw [get_apply_update_json hunique]
        cases hkey : Members.get key subs with
        | none => rw [Option.none_or]
        | some v =>
          have hscalar : json_object_is_type v .object = false :=
            scalar_of_is_valid_sub (hsubs _ (Members.mem_of_get hkey))
          rw [Option.some_or]
          exact congrArg some (apply_update_value_scalar _ hscalar)
      | _ => simp only [path_value, hget, hold, apply_update_value, Option.or_none]

/-- An update merges into a configuration with its own values first: they read back, all other paths read as
before, and merging it again changes nothing. -/
structure Merges (config updates : List (String × Json)) : Prop where
  set : ∀ top_key key v, HasPath updates top_key key v →
    read_path (apply_update_json config updates) top_key key = .object [(top_key, .object [(key, v)])]
  kept : ∀ top_key key, (∀ v, ¬ HasPath updates top_key key v) →
    read_path (apply_update_json config updates) top_key key = read_path config top_key key
  twice : apply_update_json (apply_update_json config updates) updates = apply_update_json config updates

theorem merges_of_is_valid_query (config : List (String × Json)) (hform : well_formed (.object updates) = true)
    (hvalid : is_valid_query (.object updates) = true) : Merges config updates := by
  refine ⟨fun top_key key v hpath => ?_, fun top_key key hnone => ?_, apply_update_json_twice config hform⟩
  · rw [read_path_eq, path_value_apply_update_json config hform hvalid, hasPath_iff.mp hpath, Option.some_or]
  · have hvalue : path_value updates top_key key = none := by
      rw [Option.eq_none_iff_forall_ne_some]
      exact fun v hv => hnone v (hasPath_iff.mpr hv)
    rw [read_path_eq, path_value_apply_update_json config hform hvalid, hvalue, Option.none_or, read_path_eq]

/-- For every configuration: a valid update is merged into it and reads back; an accepted array of updates has
the effect of its items, one after the other; and a valid query finds exactly the paths that it asks for and
that exist. -/
theorem merge_reads_back (max_fps : ℤ) (config : List (String × Json)) :
    (∀ updates, well_formed (.object updates) = true → is_valid_query (.object updates) = true →
      Merges config updates) ∧
    (∀ items flag, items.length ≠ 0 → items.length ≤ 12 → (∀ item ∈ items, is_valid_query item = true) →
      UpdatesAccepted max_fps config items →
      (put_update max_fps (.object config) (.array items) flag).1 = .updated
        (.object (items.foldl (fun config item => apply_update_json config (item_members item)) config))) ∧
    (∀ query, well_formed (.object query) = true → is_valid_query (.object query) = true →
      is_get_query (.object query) = true →
      ∃ result, query_json (.object config) (.object query) = .object result ∧ Selects config query result) := by
  refine ⟨fun updates hform hvalid => merges_of_is_valid_query config hform hvalid,
    fun items flag hne hle hvalid haccepted => ?_, fun query hform hvalid _ => query_json_selects config hform hvalid⟩
  have hrequested : UpdateRequested max_fps config (.array items) := by
    refine ⟨?_, hvalid, haccepted⟩
    simp [is_put_shape, hne, hle]
  exact (put_update_object max_fps config (.array items) flag).1 hrequested

def small_config : List (String × Json) :=
  [("system_cfg", .object [("netmask", .int 24)]), ("stream_1", .object [("resolution", .int 720), ("fps", .int 15)])]

def fps_update (fps : ℤ) : List (String × Json) := [("stream_1", .object [("fps", .int fps)])]

def fps_query : List (String × Json) := [("stream_1", .object [("fps", .string ""), ("datarate", .string "")])]

theorem merge_reads_back_small :
    Merges small_config (fps_update 30) ∧
    (put_update 60 (.object small_config) (.array [.object (fps_update 30), .object (fps_update 5)]) false).1 =
      .updated (.object (apply_update_json (apply_update_json small_config (fps_update 30)) (fps_update 5))) ∧
    ∃ result, query_json (.object small_config) (.object fps_query) = .object result ∧
      Selects small_config fps_query result := by
  obtain ⟨hmerge, harray, hquery⟩ := merge_reads_back 60 small_config
  refine ⟨hmerge (fps_update 30) (by decide) (by decide), ?_, hquery fps_query (by decide) (by decide) (by decide)⟩
  exact harray [.object (fps_update 30), .object (fps_update 5)] false (by decide) (by decide) (by decide)
    ⟨by decide, by decide, trivial⟩

end k180.restful_api_server
