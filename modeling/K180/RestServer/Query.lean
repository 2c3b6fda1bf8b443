import K180.Json.Object

open json_c

namespace k180.restful_api_server

def MEMBER_SYSCFG := "system_cfg"
def MEMBER_STREAM1 := "stream_1"
def MEMBER_STREAM2 := "stream_2"
def JSON_SYS_IPADDR := "ipaddress"
def JSON_SYS_MASK := "netmask"
def JSON_SYS_GW := "gateway"
def JSON_RECORD := "recorded"
def JSON_OBJ_DET := "objectdet"
def JSON_ROTATE := "rotate180"
def JSON_RES := "resolution"
def JSON_FPS := "fps"
def JSON_DATARATE := "datarate"

def valid_top_keys : List String := [MEMBER_SYSCFG, MEMBER_STREAM1, MEMBER_STREAM2]

def valid_system_cfg_keys : List String :=
  [JSON_SYS_IPADDR, JSON_SYS_MASK, JSON_SYS_GW, JSON_RECORD, JSON_OBJ_DET, JSON_ROTATE]

def valid_stream_keys : List String := [JSON_RES, JSON_FPS, JSON_DATARATE]

def in_list (key : String) (list : List String) : Bool := list.any (key = ·)

/-- The checks `is_valid_query` makes on one member of a section. -/
def is_valid_sub (top_key : String) : String × Json → Bool
  | (sub_key, sub_val) =>
    if json_object_is_type sub_val .object then false
    else if top_key = "system_cfg" then in_list sub_key valid_system_cfg_keys
    else if top_key = "stream_1" || top_key = "stream_2" then in_list sub_key valid_stream_keys
    else true

/-- The checks `is_valid_query` makes on one top-level member. -/
def is_valid_top : String × Json → Bool
  | (top_key, .object subs) => in_list top_key valid_top_keys && subs.all (is_valid_sub top_key)
  | _ => false

def is_valid_query : Json → Bool
  | .object members => members.all is_valid_top
  | _ => false

mutual
/-- A GET query asks for at least one member by giving it the empty string. -/
def is_get_query : Json → Bool
  | .object members => is_get_members members
  | _ => false
def is_get_members : List (String × Json) → Bool
  | [] => false
  | m :: rest => is_get_member m || is_get_members rest
def is_get_member : String × Json → Bool
  | (_, .string s) => c_str s = []
  | (_, val) => is_get_query val
end

mutual
/-- The values of `source` at the members `query` asks for, or NULL unless both are objects. -/
def query_json (source : Json) : Json → Json
  | .object members =>
    match source with
    | .object sources => .object (query_members sources members [])
    | _ => .null
  | _ => .null
def query_members (sources : List (String × Json)) :
    List (String × Json) → List (String × Json) → List (String × Json)
  | [], result => result
  | m :: rest, result => query_members sources rest (query_member sources m result)
def query_member (sources : List (String × Json)) :
    String × Json → List (String × Json) → List (String × Json)
  | (key, query_val), result =>
    match Members.get key sources with
    | none => result
    | some src_val => query_value key src_val query_val result
def query_value (key : String) (src_val : Json) :
    Json → List (String × Json) → List (String × Json)
  | .object members, result =>
    match src_val with
    | .object sources =>
      match query_members sources members [] with
      | [] => result
      | child => Members.add key (.object child) result
    | _ => result
  | .string s, result => if c_str s = [] then Members.add key src_val result else result
  | _, result => result
end

theorem mem_of_in_list {key : String} {list : List String} (h : in_list key list = true) :
    key ∈ list := by
  simpa [in_list] using h

/-- The shape an accepted query has: known sections, each an object over its own known keys with no
object among their values. -/
theorem is_valid_query_sections {members : List (String × Json)}
    (hvalid : is_valid_query (.object members) = true) {top_key : String} {top_val : Json}
    (hmem : (top_key, top_val) ∈ members) :
    top_key ∈ valid_top_keys ∧
      ∃ subs, top_val = .object subs ∧ ∀ sub ∈ subs, is_valid_sub top_key sub = true := by
  have htop := List.all_eq_true.mp hvalid _ hmem
  cases top_val with
  | object subs =>
    rw [is_valid_top, Bool.and_eq_true] at htop
    exact ⟨mem_of_in_list htop.1, subs, rfl, List.all_eq_true.mp htop.2⟩
  | _ => simp [is_valid_top] at htop

end k180.restful_api_server
