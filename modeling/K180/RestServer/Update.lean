import K180.RestServer.Validate

open json_c

namespace k180.restful_api_server

mutual
/-- `apply_update_json` on the members of two objects: an object meeting an object is merged,
anything else replaces or adds the member. -/
def apply_update_json (target : List (String × Json)) : List (String × Json) → List (String × Json)
  | [] => target
  | m :: rest => apply_update_json (apply_update_member target m) rest
def apply_update_member (target : List (String × Json)) : String × Json → List (String × Json)
  | (key, update_val) => Members.add key (apply_update_value (Members.get key target) update_val) target
def apply_update_value (target_val : Option Json) : Json → Json
  | .object updates =>
    match target_val with
    | some (.object members) => .object (apply_update_json members updates)
    | _ => .object updates
  | update_val => update_val
end

/-- What a call of `update_json` leaves behind: it refuses, or it returns the updated target, or it
fails the assertion of `json_object_object_add` that its first argument is an object. -/
inductive UpdateResult where
  | rejected
  | updated (target : Json)
  | aborted

/-- Validate, then apply; with the value of `sys_cfg_change` afterwards. -/
def update_json (max_fps : ℤ) (target : Json) (updates : List (String × Json)) (sys_cfg_change : Bool) :
    UpdateResult × Bool :=
  match validate_json max_fps target updates sys_cfg_change with
  | (false, sys_cfg_change) => (.rejected, sys_cfg_change)
  | (true, sys_cfg_change) =>
    match target, updates with
    | .object members, _ => (.updated (.object (apply_update_json members updates)), sys_cfg_change)
    | _, [] => (.updated target, sys_cfg_change)
    | _, _ :: _ => (.aborted, sys_cfg_change)

theorem get_apply_update_member (target : List (String × Json)) (key key' : String) (val : Json) :
    Members.get key' (apply_update_member target (key, val)) =
      if key = key' then some (apply_update_value (Members.get key target) val)
      else Members.get key' target := by
  rw [apply_update_member, Members.get_add]

/-- Members an update does not name read back as before. -/
theorem get_apply_update_json_of_not_mem (target updates : List (String × Json)) (key : String)
    (habsent : ∀ m ∈ updates, m.1 ≠ key) :
    Members.get key (apply_update_json target updates) = Members.get key target := by
  induction updates generalizing target with
  | nil => rw [apply_update_json]
  | cons m rest ih =>
    obtain ⟨key', val⟩ := m
    have hne : key' ≠ key := habsent (key', val) (by simp)
    rw [apply_update_json, ih _ fun m hm => habsent m (List.mem_cons_of_mem _ hm),
      get_apply_update_member, if_neg hne]

theorem apply_update_value_scalar (target_val : Option Json) {val : Json}
    (hscalar : json_object_is_type val .object = false) : apply_update_value target_val val = val := by
  cases val <;> simp_all [apply_update_value, json_object_is_type, json_object_get_type]

mutual
/-- The verdict of the validation does not depend on the global flag it may set. -/
theorem validate_json_flag (max_fps : ℤ) (target : Json) : ∀ (updates : List (String × Json))
    (flag flag' : Bool),
    (validate_json max_fps target updates flag).1 = (validate_json max_fps target updates flag').1
  | [], _, _ => rfl
  | m :: rest, flag, flag' => by
    have hmember := validate_member_flag max_fps target m flag flag'
    rw [validate_json, validate_json]
    revert hmember
    obtain ⟨ok, next⟩ := validate_member max_fps target m flag
    obtain ⟨ok', next'⟩ := validate_member max_fps target m flag'
    rintro (rfl : ok = ok')
    cases ok with
    | false => rfl
    | true => exact validate_json_flag max_fps target rest next next'
theorem validate_member_flag (max_fps : ℤ) (target : Json) : ∀ (m : String × Json) (flag flag' : Bool),
    (validate_member max_fps target m flag).1 = (validate_member max_fps target m flag').1
  | (key, val), flag, flag' => by
    rw [validate_member, validate_member]
    exact validate_value_flag max_fps key (json_object_object_get_ex target key) val flag flag'
theorem validate_value_flag (max_fps : ℤ) (key : String) (target_val : Option Json) :
    ∀ (val : Json) (flag flag' : Bool),
    (validate_value max_fps key target_val val flag).1 =
      (validate_value max_fps key target_val val flag').1
  | .object updates, flag, flag' => by
    cases target_val with
    | none => rfl
    | some target =>
      cases target with
      | object members => exact validate_json_flag max_fps (.object members) updates flag flag'
      | _ => rfl
  | .null, _, _ => rfl
  | .boolean _, _, _ => rfl
  | .double _, _, _ => rfl
  | .int _, _, _ => rfl
  | .array _, _, _ => rfl
  | .string _, _, _ => rfl
end

/-- The members an item of a PUT body updates. -/
def item_members : Json → List (String × Json)
  | .object members => members
  | _ => []

/-- An accepted item is an object with accepted sections. -/
theorem is_object_of_is_valid_query {item : Json} (hvalid : is_valid_query item = true) :
    item = .object (item_members item) := by
  cases item with
  | object members => rfl
  | _ => exact absurd hvalid (by simp [is_valid_query])

theorem top_of_is_valid_query {item : Json} (hvalid : is_valid_query item = true) :
    ∀ m ∈ item_members item, is_valid_top m = true := by
  rw [is_object_of_is_valid_query hvalid, is_valid_query, List.all_eq_true] at hvalid
  exact hvalid

/-- Each item validates against the configuration that the items before it lead to. -/
def UpdatesAccepted (max_fps : ℤ) : List (String × Json) → List Json → Prop
  | _, [] => True
  | config, item :: rest =>
    (validate_json max_fps (.object config) (item_members item) false).1 = true ∧
      UpdatesAccepted max_fps (apply_update_json config (item_members item)) rest

/-- The configuration the items lead to when they are applied in order. -/
def updated_config (config : List (String × Json)) (items : List Json) : List (String × Json) :=
  items.foldl (fun config item => apply_update_json config (item_members item)) config

/-- On a configuration that is an object, `update_json` validates and then applies; it fails no
assertion. -/
theorem update_json_object (max_fps : ℤ) (members updates : List (String × Json)) (flag : Bool) :
    (update_json max_fps (.object members) updates flag).1 =
      if (validate_json max_fps (.object members) updates false).1 then
        .updated (.object (apply_update_json members updates))
      else .rejected := by
  rw [validate_json_flag max_fps (.object members) updates false flag, update_json]
  obtain ⟨ok, next⟩ := validate_json max_fps (.object members) updates flag
  cases ok <;> rfl

end k180.restful_api_server
