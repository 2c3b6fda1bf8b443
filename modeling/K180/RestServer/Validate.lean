import K180.RestServer.Query
import K180.Libc.Inet

open json_c binary_float

namespace k180.restful_api_server

def is_valid_ip (ip : List Char) : Bool := libc.inet_pton ip

def is_in_int_list (value : ℤ) (list : List ℤ) : Bool := list.any (value = ·)

/-- `fabs(value - list[i]) < 0.0001` for some listed value, in double arithmetic. -/
def is_in_double_list (value : Value) (list : List ℚ) : Bool :=
  list.any fun v => ((binary64.sub value (binary64.round v)).abs).lt (binary64.round (1 / 10000))

/-- `max_fps` is what `get_max_stream_fps` reads from the firmware information. -/
def is_valid_stream_fps (max_fps fps : ℤ) : Bool :=
  is_in_int_list fps [1, 5, 10, 15, 20, 30, 60] && fps ≤ max_fps

/-- The `strcmp` chain `validate_json` runs on a value it does not descend into. A key it does not
know passes with any value. -/
def validate_field (max_fps : ℤ) (key : String) (update_val : Json) : Bool :=
  if key = JSON_RES then
    match update_val with
    | .int i => is_in_int_list (json_object_get_int i) [720, 1080]
    | _ => false
  else if key = JSON_FPS then
    match update_val with
    | .int i => is_valid_stream_fps max_fps (json_object_get_int i)
    | _ => false
  else if key = JSON_DATARATE then
    (json_object_is_type update_val .double || json_object_is_type update_val .int) &&
      is_in_double_list (json_object_get_double update_val) [0.2, 0.5, 1.0, 2.0, 4.0, 6.0, 8.0]
  else if key = JSON_RECORD then
    match update_val with
    | .int i => is_in_int_list (json_object_get_int i) [0, 1, 2]
    | _ => false
  else if key = JSON_OBJ_DET then
    match update_val with
    | .int i => is_in_int_list (json_object_get_int i) [0, 1]
    | _ => false
  else if key = JSON_ROTATE then
    match update_val with
    | .int i => is_in_int_list (json_object_get_int i) [0, 1]
    | _ => false
  else if key = JSON_SYS_IPADDR || key = JSON_SYS_GW then
    match update_val with
    | .string s => is_valid_ip (c_str s)
    | _ => false
  else if key = JSON_SYS_MASK then
    match update_val with
    | .int i => !(json_object_get_int i < 8 || 32 < json_object_get_int i)
    | _ => false
  else true

/-- The keys whose accepted value sets the global `sys_cfg_change`. -/
def sets_sys_cfg_change (key : String) : Bool :=
  key = JSON_SYS_IPADDR || key = JSON_SYS_GW || key = JSON_SYS_MASK

mutual
/-- Validation of the members of an update against a target: the verdict and the value of the
global `sys_cfg_change` afterwards, which keeps what was set before a rejection. -/
def validate_json (max_fps : ℤ) (target : Json) : List (String × Json) → Bool → Bool × Bool
  | [], sys_cfg_change => (true, sys_cfg_change)
  | m :: rest, sys_cfg_change =>
    match validate_member max_fps target m sys_cfg_change with
    | (true, sys_cfg_change) => validate_json max_fps target rest sys_cfg_change
    | (false, sys_cfg_change) => (false, sys_cfg_change)
def validate_member (max_fps : ℤ) (target : Json) : String × Json → Bool → Bool × Bool
  | (key, update_val), sys_cfg_change =>
    validate_value max_fps key (json_object_object_get_ex target key) update_val sys_cfg_change
def validate_value (max_fps : ℤ) (key : String) (target_val : Option Json) : Json → Bool → Bool × Bool
  | .object updates, sys_cfg_change =>
    match target_val with
    | some (.object members) => validate_json max_fps (.object members) updates sys_cfg_change
    | _ =>
      (validate_field max_fps key (.object updates),
        sys_cfg_change || (validate_field max_fps key (.object updates) && sets_sys_cfg_change key))
  | update_val, sys_cfg_change =>
    (validate_field max_fps key update_val,
      sys_cfg_change || (validate_field max_fps key update_val && sets_sys_cfg_change key))
end

theorem validate_json_cons (max_fps : ℤ) (target : Json) (m : String × Json)
    (rest : List (String × Json)) (flag : Bool) :
    (validate_json max_fps target (m :: rest) flag).1 = true ↔
      (validate_member max_fps target m flag).1 = true ∧
        (validate_json max_fps target rest (validate_member max_fps target m flag).2).1 = true := by
  rw [validate_json]
  obtain ⟨ok, flag'⟩ := validate_member max_fps target m flag
  cases ok <;> simp

/-- A value that is not an object is validated by the field checks alone. -/
theorem validate_member_scalar (max_fps : ℤ) (target : Json) (key : String) {val : Json} (flag : Bool)
    (hscalar : json_object_is_type val .object = false) :
    (validate_member max_fps target (key, val) flag).1 = validate_field max_fps key val := by
  cases val <;> simp_all [validate_member, validate_value, json_object_is_type, json_object_get_type]

/-- Acceptance of an update without nested objects is acceptance of each of its fields. -/
theorem validate_json_scalars_iff (max_fps : ℤ) (target : Json) (updates : List (String × Json))
    (flag : Bool) (hscalar : ∀ m ∈ updates, json_object_is_type m.2 .object = false) :
    (validate_json max_fps target updates flag).1 = true ↔
      ∀ m ∈ updates, validate_field max_fps m.1 m.2 = true := by
  induction updates generalizing flag with
  | nil => simp [validate_json]
  | cons m rest ih =>
    obtain ⟨key, val⟩ := m
    have hval := hscalar (key, val) (by simp)
    rw [validate_json_cons, validate_member_scalar max_fps target key flag hval,
      ih _ fun m hm => hscalar m (List.mem_cons_of_mem _ hm)]
    simp

end k180.restful_api_server
