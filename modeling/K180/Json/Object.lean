import K180.BinaryFloat.Value

open binary_float

namespace json_c

/-- A parsed JSON value. The library represents JSON `null` by the NULL pointer, so `null` is also
what a failed parse returns and what NULL arguments are. -/
inductive Json where
  | null
  | boolean (b : Bool)
  | double (v : Value)
  | int (i : ℤ)
  | object (members : List (String × Json))
  | array (items : List Json)
  | string (s : String)

inductive json_type where
  | null
  | boolean
  | double
  | int
  | object
  | array
  | string
deriving DecidableEq

def json_object_get_type : Json → json_type
  | .null => .null
  | .boolean _ => .boolean
  | .double _ => .double
  | .int _ => .int
  | .object _ => .object
  | .array _ => .array
  | .string _ => .string

def json_object_is_type (obj : Json) (type : json_type) : Bool :=
  json_object_get_type obj = type

/-- The members of an object in insertion order; keys of an object are unique, so lookups take the
first one found. -/
def Members.get (key : String) : List (String × Json) → Option Json
  | [] => none
  | (k, v) :: rest => if k = key then some v else Members.get key rest

/-- Overwrite the value of an existing key in place, or append a new member. -/
def Members.add (key : String) (val : Json) : List (String × Json) → List (String × Json)
  | [] => [(key, val)]
  | (k, v) :: rest => if k = key then (k, val) :: rest else (k, v) :: Members.add key val rest

/-- Remove the member with a key. -/
def Members.del (key : String) (members : List (String × Json)) : List (String × Json) :=
  members.filter fun m => m.1 ≠ key

/-- Lookup that also reports a member whose value is `null`; anything but an object has no members. -/
def json_object_object_get_ex (obj : Json) (key : String) : Option Json :=
  match obj with
  | .object members => Members.get key members
  | _ => none

/-- The 32-bit reading of an integer value, saturated at the ends of the range. -/
def json_object_get_int (i : ℤ) : ℤ := max (-2147483648) (min 2147483647 i)

/-- The 64-bit reading of an integer value, saturated at the ends of the range. -/
def json_object_get_int64 (i : ℤ) : ℤ := max (-9223372036854775808) (min 9223372036854775807 i)

/-- The number an integer or double value denotes, as a double. -/
def json_object_get_double : Json → Value
  | .double v => v
  | .int i => binary64.ofInt i
  | _ => .fin 0

/-- What the C string functions see of a string: its characters before the first NUL. -/
def c_str (s : String) : List Char := s.toList.takeWhile (· ≠ '\x00')

namespace Members

theorem get_add (key key' : String) (val : Json) (members : List (String × Json)) :
    get key' (add key val members) = if key = key' then some val else get key' members := by
  induction members with
  | nil => simp [add, get]
  | cons m rest ih =>
    obtain ⟨k, v⟩ := m
    by_cases hk : k = key
    · subst hk
      by_cases hkey : k = key' <;> simp [add, get, hkey]
    · simp only [add, if_neg hk, get, ih]
      by_cases hkey : k = key'
      · subst hkey
        simp [Ne.symm hk]
      · simp [hkey]

theorem get_del (key key' : String) (members : List (String × Json)) :
    get key' (del key members) = if key = key' then none else get key' members := by
  induction members with
  | nil => simp [del, get]
  | cons m rest ih =>
    obtain ⟨k, v⟩ := m
    rw [del] at ih ⊢
    by_cases hk : k = key
    · subst hk
      rw [List.filter_cons_of_neg (by simp), ih, get]
      by_cases hkey : k = key' <;> simp [hkey]
    · rw [List.filter_cons_of_pos (by simpa using hk), get, get, ih]
      by_cases hkey : k = key'
      · subst hkey
        simp [Ne.symm hk]
      · simp [hkey]

/-- The keys of an object are different from each other. -/
def Unique (members : List (String × Json)) : Prop := (members.map Prod.fst).Nodup

theorem mem_keys_add {key key' : String} {val : Json} {members : List (String × Json)} :
    key' ∈ (add key val members).map Prod.fst ↔ key' = key ∨ key' ∈ members.map Prod.fst := by
  induction members with
  | nil => simp [add]
  | cons m rest ih =>
    obtain ⟨k, v⟩ := m
    by_cases hk : k = key
    · simp [add, hk]
    · rw [add, if_neg hk, List.map_cons, List.mem_cons, ih, List.map_cons, List.mem_cons]
      exact or_left_comm

theorem Unique.add {members : List (String × Json)} (hunique : Unique members) (key : String)
    (val : Json) : Unique (Members.add key val members) := by
  induction members with
  | nil => simp [Unique, Members.add]
  | cons m rest ih =>
    obtain ⟨k, v⟩ := m
    obtain ⟨hnew, hrest⟩ := List.nodup_cons.mp hunique
    by_cases hk : k = key
    · rw [Members.add, if_pos hk]
      exact hunique
    · rw [Members.add, if_neg hk]
      refine List.nodup_cons.mpr ⟨fun hmem => ?_, ih hrest⟩
      obtain hkey | hold := mem_keys_add.mp hmem
      · exact hk hkey
      · exact hnew hold

theorem Unique.del {members : List (String × Json)} (hunique : Unique members) (key : String) :
    Unique (Members.del key members) :=
  hunique.sublist (List.filter_sublist.map Prod.fst)

theorem get_of_mem {members : List (String × Json)} (hunique : Unique members) {key : String} {val : Json}
    (hmem : (key, val) ∈ members) : get key members = some val := by
  induction members with
  | nil => cases hmem
  | cons m rest ih =>
    obtain ⟨k, v⟩ := m
    obtain ⟨hnew, hrest⟩ := List.nodup_cons.mp hunique
    obtain heq | hold := List.mem_cons.mp hmem
    · obtain ⟨rfl, rfl⟩ := Prod.mk.inj heq
      rw [get, if_pos rfl]
    · have hne : k ≠ key := by
        rintro rfl
        exact hnew (List.mem_map.mpr ⟨_, hold, rfl⟩)
      rw [get, if_neg hne]
      exact ih hrest hold

theorem mem_of_get {members : List (String × Json)} {key : String} {val : Json}
    (hget : get key members = some val) : (key, val) ∈ members := by
  induction members with
  | nil => cases hget
  | cons m rest ih =>
    obtain ⟨k, v⟩ := m
    rw [get] at hget
    split at hget
    · rename_i hkey
      obtain rfl := Option.some.inj hget
      exact hkey ▸ List.mem_cons_self ..
    · exact List.mem_cons_of_mem _ (ih hget)

theorem get_eq_none_of_not_mem {members : List (String × Json)} {key : String}
    (hkey : key ∉ members.map Prod.fst) : get key members = none := by
  induction members with
  | nil => rfl
  | cons m rest ih =>
    obtain ⟨k, v⟩ := m
    rw [List.map_cons, List.mem_cons, not_or] at hkey
    rw [get, if_neg (Ne.symm hkey.1), ih hkey.2]

/-- Overwriting a member with the value that it has changes nothing. -/
theorem add_of_get {members : List (String × Json)} {key : String} {val : Json}
    (hget : get key members = some val) : add key val members = members := by
  induction members with
  | nil => cases hget
  | cons m rest ih =>
    obtain ⟨k, v⟩ := m
    rw [get] at hget
    rw [add]
    split
    · rename_i hkey
      rw [if_pos hkey, Option.some.injEq] at hget
      rw [hget]
    · rename_i hkey
      rw [if_neg hkey] at hget
      rw [ih hget]

end Members

mutual
/-- What the library can hold: the keys of an object are different from each other, and a double is a
value of its format. -/
def well_formed : Json → Bool
  | .double v => binary64.convert v = v
  | .object members => decide (members.map Prod.fst).Nodup && well_formed_members members
  | .array items => well_formed_items items
  | _ => true
def well_formed_items : List Json → Bool
  | [] => true
  | item :: rest => well_formed item && well_formed_items rest
def well_formed_members : List (String × Json) → Bool
  | [] => true
  | m :: rest => well_formed_member m && well_formed_members rest
def well_formed_member : String × Json → Bool
  | (_, val) => well_formed val
end

theorem unique_of_well_formed {members : List (String × Json)} (hform : well_formed (.object members) = true) :
    Members.Unique members := by
  rw [well_formed, Bool.and_eq_true, decide_eq_true_eq] at hform
  exact hform.1

theorem well_formed_of_get {members : List (String × Json)} (hform : well_formed (.object members) = true)
    {key : String} {val : Json} (hget : Members.get key members = some val) : well_formed val = true := by
  rw [well_formed, Bool.and_eq_true] at hform
  have hmembers := hform.2
  clear hform
  induction members with
  | nil => cases hget
  | cons m rest ih =>
    obtain ⟨k, v⟩ := m
    rw [well_formed_members, well_formed_member, Bool.and_eq_true] at hmembers
    rw [Members.get] at hget
    split at hget
    · exact Option.some.inj hget ▸ hmembers.1
    · exact ih hget hmembers.2

theorem convert_of_well_formed {v : Value} (hform : well_formed (.double v) = true) :
    binary64.convert v = v := by
  rw [well_formed, decide_eq_true_eq] at hform
  exact hform

@[simp] theorem json_object_object_get_ex_object (members : List (String × Json)) (key : String) :
    json_object_object_get_ex (.object members) key = Members.get key members := rfl

end json_c
