import K180.RestServer.Update

open json_c

namespace k180.restful_api_server

/-- The value a list of updates gives to a key last. -/
def last_value (key : String) : List (String × Json) → Option Json
  | [] => none
  | (k, v) :: rest => (last_value key rest).or (if k = key then some v else none)

/-- The value an update gives to a key of a section last. -/
def last_in_section (top_key key : String) : List (String × Json) → Option Json
  | [] => none
  | (k, v) :: rest =>
    (last_in_section top_key key rest).or
      (if k = top_key then last_value key (item_members v) else none)

/-- The value the items of a PUT body give to a key of a section last. -/
def last_set (top_key key : String) : List Json → Option Json
  | [] => none
  | item :: rest =>
    (last_set top_key key rest).or (last_in_section top_key key (item_members item))

theorem mem_of_last_value {key : String} {v : Json} {updates : List (String × Json)}
    (hlast : last_value key updates = some v) : (key, v) ∈ updates := by
  induction updates with
  | nil => simp [last_value] at hlast
  | cons m rest ih =>
    obtain ⟨k, val⟩ := m
    rw [last_value] at hlast
    cases hrest : last_value key rest with
    | some v' =>
      rw [hrest, Option.some_or, Option.some.injEq] at hlast
      subst hlast
      exact List.mem_cons_of_mem _ (ih hrest)
    | none =>
      rw [hrest, Option.none_or] at hlast
      split at hlast
      · rename_i hkey
        rw [Option.some.injEq] at hlast
        subst hkey hlast
        exact List.mem_cons_self
      · cases hlast

theorem mem_of_last_in_section {top_key key : String} {v : Json} {members : List (String × Json)}
    (hlast : last_in_section top_key key members = some v) :
    ∃ section_val, (top_key, section_val) ∈ members ∧ (key, v) ∈ item_members section_val := by
  induction members with
  | nil => simp [last_in_section] at hlast
  | cons m rest ih =>
    obtain ⟨k, val⟩ := m
    rw [last_in_section] at hlast
    cases hrest : last_in_section top_key key rest with
    | some v' =>
      rw [hrest, Option.some_or, Option.some.injEq] at hlast
      subst hlast
      obtain ⟨section_val, hmem, hval⟩ := ih hrest
      exact ⟨section_val, List.mem_cons_of_mem _ hmem, hval⟩
    | none =>
      rw [hrest, Option.none_or] at hlast
      split at hlast
      · rename_i hkey
        subst hkey
        exact ⟨val, List.mem_cons_self, mem_of_last_value hlast⟩
      · cases hlast

/-- The values of an accepted section are no objects and have keys of that section. -/
theorem is_valid_top_object {top_key : String} {val : Json} (hvalid : is_valid_top (top_key, val) = true) :
    in_list top_key valid_top_keys = true ∧ val = .object (item_members val) ∧
      ∀ sub ∈ item_members val, is_valid_sub top_key sub = true := by
  cases val with
  | object subs =>
    rw [is_valid_top, Bool.and_eq_true, List.all_eq_true] at hvalid
    exact ⟨hvalid.1, rfl, hvalid.2⟩
  | _ => simp [is_valid_top] at hvalid

theorem scalar_of_is_valid_sub {top_key : String} {sub : String × Json}
    (hvalid : is_valid_sub top_key sub = true) : json_object_is_type sub.2 .object = false := by
  obtain ⟨key, val⟩ := sub
  rw [is_valid_sub] at hvalid
  split at hvalid
  · cases hvalid
  · rename_i hscalar
    exact Bool.eq_false_iff.mpr hscalar

/-- Merging scalars into an object: a key reads as the last value given to it, or as before. -/
theorem get_apply_update_json_scalars (target updates : List (String × Json)) (key : String)
    (hscalar : ∀ m ∈ updates, json_object_is_type m.2 .object = false) :
    Members.get key (apply_update_json target updates) =
      (last_value key updates).or (Members.get key target) := by
  induction updates generalizing target with
  | nil => rw [apply_update_json, last_value, Option.none_or]
  | cons m rest ih =>
    obtain ⟨k, v⟩ := m
    obtain ⟨hval, hrest⟩ := List.forall_mem_cons.mp hscalar
    rw [apply_update_json, ih _ hrest, get_apply_update_member, apply_update_value_scalar _ hval,
      last_value, Option.or_assoc]
    congr 1
    split <;> simp

/-- One update of a configuration merges what it says about a section into that section. -/
theorem get_section_apply_update_json (config members : List (String × Json)) {top_key : String}
    {subs : List (String × Json)} (hvalid : ∀ m ∈ members, is_valid_top m = true)
    (hsection : Members.get top_key config = some (.object subs)) :
    ∃ subs', Members.get top_key (apply_update_json config members) = some (.object subs') ∧
      ∀ key, Members.get key subs' = (last_in_section top_key key members).or (Members.get key subs) := by
  induction members generalizing config subs with
  | nil =>
    refine ⟨subs, ?_, fun key => ?_⟩
    · rw [apply_update_json, hsection]
    · rw [last_in_section, Option.none_or]
  | cons m rest ih =>
    obtain ⟨k, val⟩ := m
    obtain ⟨htop, hrest⟩ := List.forall_mem_cons.mp hvalid
    obtain ⟨_, hobject, hsubs⟩ := is_valid_top_object htop
    have hmember := get_apply_update_member config k top_key val
    by_cases hkey : k = top_key
    · subst hkey
      rw [if_pos rfl, hsection, hobject, apply_update_value] at hmember
      obtain ⟨subs', hget, hkeys⟩ := ih _ hrest hmember
      refine ⟨subs', ?_, fun key => ?_⟩
      · rw [apply_update_json, ← hget, ← hobject]
      · rw [hkeys, last_in_section, if_pos rfl, Option.or_assoc,
          get_apply_update_json_scalars _ _ _ fun sub hsub => scalar_of_is_valid_sub (hsubs sub hsub)]
    · rw [if_neg hkey, hsection] at hmember
      obtain ⟨subs', hget, hkeys⟩ := ih _ hrest hmember
      refine ⟨subs', ?_, fun key => ?_⟩
      · rw [apply_update_json, hget]
      · rw [hkeys, last_in_section, if_neg hkey, Option.or_none]

/-- The items of a PUT body, applied in order, merge what they say about a section into it. -/
theorem get_section_updated_config (config : List (String × Json)) (items : List Json)
    {top_key : String} {subs : List (String × Json)}
    (hvalid : ∀ item ∈ items, is_valid_query item = true)
    (hsection : Members.get top_key config = some (.object subs)) :
    ∃ subs', Members.get top_key (updated_config config items) = some (.object subs') ∧
      ∀ key, Members.get key subs' = (last_set top_key key items).or (Members.get key subs) := by
  induction items generalizing config subs with
  | nil =>
    refine ⟨subs, hsection, fun key => ?_⟩
    rw [last_set, Option.none_or]
  | cons item rest ih =>
    obtain ⟨hitem, hrest⟩ := List.forall_mem_cons.mp hvalid
    obtain ⟨mid, hmid, hmidKeys⟩ := get_section_apply_update_json config (item_members item)
      (top_of_is_valid_query hitem) hsection
    obtain ⟨subs', hget, hkeys⟩ := ih _ hrest hmid
    refine ⟨subs', hget, fun key => ?_⟩
    rw [hkeys, hmidKeys, last_set, Option.or_assoc]

/-- Every section an update can name is there as an object. -/
def HasSections (config : List (String × Json)) : Prop :=
  ∀ top_key ∈ valid_top_keys, ∃ subs, Members.get top_key config = some (.object subs)

theorem HasSections.apply_update_json {config members : List (String × Json)}
    (hsections : HasSections config) (hvalid : ∀ m ∈ members, is_valid_top m = true) :
    HasSections (apply_update_json config members) := by
  intro top_key hmem
  obtain ⟨subs, hsection⟩ := hsections top_key hmem
  obtain ⟨subs', hget, _⟩ := get_section_apply_update_json config members hvalid hsection
  exact ⟨subs', hget⟩

theorem validate_member_of_mem {max_fps : ℤ} {target : Json} {updates : List (String × Json)} {flag : Bool}
    (hok : (validate_json max_fps target updates flag).1 = true) {m : String × Json} (hmem : m ∈ updates) :
    (validate_member max_fps target m flag).1 = true := by
  induction updates generalizing flag with
  | nil => cases hmem
  | cons m' rest ih =>
    obtain ⟨hhead, hrest⟩ := (validate_json_cons max_fps target m' rest flag).mp hok
    cases hmem with
    | head => exact hhead
    | tail _ hmem =>
      rw [validate_member_flag max_fps target m flag (validate_member max_fps target m' flag).2]
      exact ih hrest hmem

/-- Every value of an accepted update has a key of its section and passes the check of that key. -/
theorem validate_field_of_last_in_section {max_fps : ℤ} {config members : List (String × Json)}
    {flag : Bool} (hsections : HasSections config) (hvalid : ∀ m ∈ members, is_valid_top m = true)
    (hok : (validate_json max_fps (.object config) members flag).1 = true) {top_key key : String} {v : Json}
    (hlast : last_in_section top_key key members = some v) :
    is_valid_sub top_key (key, v) = true ∧ validate_field max_fps key v = true := by
  obtain ⟨val, hmem, hsub⟩ := mem_of_last_in_section hlast
  obtain ⟨htop, hobject, hsubs⟩ := is_valid_top_object (hvalid _ hmem)
  obtain ⟨subs, hsection⟩ := hsections top_key (mem_of_in_list htop)
  have hmember := validate_member_of_mem hok hmem
  rw [hobject, validate_member, json_object_object_get_ex_object, hsection, validate_value] at hmember
  have hfields := (validate_json_scalars_iff max_fps _ _ _
    fun sub hsub => scalar_of_is_valid_sub (hsubs sub hsub)).mp hmember
  exact ⟨hsubs _ hsub, hfields _ hsub⟩

/-- The same for the items of a PUT body. -/
theorem validate_field_of_last_set {max_fps : ℤ} {config : List (String × Json)} {items : List Json}
    (hsections : HasSections config) (hvalid : ∀ item ∈ items, is_valid_query item = true)
    (haccepted : UpdatesAccepted max_fps config items) {top_key key : String} {v : Json}
    (hlast : last_set top_key key items = some v) :
    is_valid_sub top_key (key, v) = true ∧ validate_field max_fps key v = true := by
  induction items generalizing config with
  | nil => simp [last_set] at hlast
  | cons item rest ih =>
    obtain ⟨hitem, hrest⟩ := List.forall_mem_cons.mp hvalid
    obtain ⟨hok, hacceptedRest⟩ := haccepted
    have htop := top_of_is_valid_query hitem
    rw [last_set] at hlast
    cases hset : last_set top_key key rest with
    | some v' =>
      rw [hset, Option.some_or, Option.some.injEq] at hlast
      subst hlast
      exact ih (hsections.apply_update_json htop) hrest hacceptedRest hset
    | none =>
      rw [hset, Option.none_or] at hlast
      exact validate_field_of_last_in_section hsections htop hok hlast

/-- Sections no update can name stay as they are. -/
theorem get_updated_config_of_not_valid (config : List (String × Json)) (items : List Json)
    {top_key : String} (hvalid : ∀ item ∈ items, is_valid_query item = true)
    (hkey : top_key ∉ valid_top_keys) :
    Members.get top_key (updated_config config items) = Members.get top_key config := by
  induction items generalizing config with
  | nil => rfl
  | cons item rest ih =>
    obtain ⟨hitem, hrest⟩ := List.forall_mem_cons.mp hvalid
    have habsent : ∀ m ∈ item_members item, m.1 ≠ top_key := by
      intro m hmem hname
      obtain ⟨htop, _, _⟩ := is_valid_top_object (top_of_is_valid_query hitem m hmem)
      rw [hname] at htop
      exact hkey (mem_of_in_list htop)
    have hstep := get_apply_update_json_of_not_mem config (item_members item) top_key habsent
    exact (ih _ hrest).trans hstep

end k180.restful_api_server
