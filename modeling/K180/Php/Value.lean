import K180.Json.Object

open binary_float json_c

namespace php

/-- The values of the language that JSON can hold. An array keeps its entries in order; an integer key
is held as the decimal string that it is the same key as. -/
inductive Value where
  | null
  | bool (b : Bool)
  | int (i : ℤ)
  | float (v : binary_float.Value)
  | string (s : String)
  | array (entries : List (String × Value))

/-- The integers of the language. -/
def is_int (i : ℤ) : Bool := decide (-9223372036854775808 ≤ i ∧ i ≤ 9223372036854775807)

/-- The entry of an array with a key. -/
def Entries.get (key : String) : List (String × Value) → Option Value
  | [] => none
  | (k, v) :: rest => if k = key then some v else Entries.get key rest

/-- Set an entry in place, or append it. -/
def Entries.set (key : String) (val : Value) : List (String × Value) → List (String × Value)
  | [] => [(key, val)]
  | (k, v) :: rest => if k = key then (k, val) :: rest else (k, v) :: Entries.set key val rest

/-- `$v[key]`, null (with a warning) when there is no such entry. -/
def Value.get (v : Value) (key : String) : Value :=
  match v with
  | .array entries => (Entries.get key entries).getD .null
  | _ => .null

/-- `$v[key] = val` where `$v` is an array or null. -/
def Value.set (v : Value) (key : String) (val : Value) : Value :=
  match v with
  | .array entries => .array (Entries.set key val entries)
  | _ => .array [(key, val)]

mutual
/-- `json_decode($text, true)`, from what a text that it takes says. An integer literal that is no
integer of the language becomes a float. -/
def json_decode : Json → Value
  | .null => .null
  | .boolean b => .bool b
  | .double v => .float v
  | .int i => if is_int i then .int i else .float (binary64.ofInt i)
  | .string s => .string s
  | .array items => .array (decode_items 0 items)
  | .object members => .array (decode_members members)
def decode_items (index : ℕ) : List Json → List (String × Value)
  | [] => []
  | item :: rest => (toString index, json_decode item) :: decode_items (index + 1) rest
def decode_members : List (String × Json) → List (String × Value)
  | [] => []
  | m :: rest => decode_member m :: decode_members rest
def decode_member : String × Json → String × Value
  | (key, val) => (key, json_decode val)
end

/-- The text of a float has at most 17 digits before it switches to an exponent, and no point where the
value is whole. -/
def json_encode_double : binary_float.Value → Option Json
  | .fin q => if q.den = 1 ∧ |q| < 10 ^ 17 then some (.int q.num) else some (.double (.fin q))
  | _ => none

/-- An array with the keys 0, 1, … in order. -/
def is_list (keys : List String) : Bool := keys = (List.range keys.length).map toString

mutual
/-- `json_encode`, by what its text says; `none` where it returns false, as for an infinite number. -/
def json_encode : Value → Option Json
  | .null => some .null
  | .bool b => some (.boolean b)
  | .int i => some (.int i)
  | .float v => json_encode_double v
  | .string s => some (.string s)
  | .array entries => (encode_entries entries).map fun members =>
      if is_list (members.map Prod.fst) then .array (members.map Prod.snd) else .object members
def encode_entries : List (String × Value) → Option (List (String × Json))
  | [] => some []
  | e :: rest => (encode_entry e).bind fun m => (encode_entries rest).map (m :: ·)
def encode_entry : String × Value → Option (String × Json)
  | (key, val) => (json_encode val).map fun v => (key, v)
end

namespace Entries

/-- The keys of an array are different from each other. -/
def Unique (entries : List (String × Value)) : Prop := (entries.map Prod.fst).Nodup

theorem get_set (key key' : String) (val : Value) (entries : List (String × Value)) :
    get key' (set key val entries) = if key = key' then some val else get key' entries := by
  induction entries with
  | nil => simp [set, get]
  | cons e rest ih =>
    obtain ⟨k, v⟩ := e
    by_cases hk : k = key
    · subst hk
      by_cases hkey : k = key' <;> simp [set, get, hkey]
    · simp only [set, if_neg hk, get, ih]
      by_cases hkey : k = key'
      · subst hkey
        simp [Ne.symm hk]
      · simp [hkey]

theorem mem_keys_set {key key' : String} {val : Value} {entries : List (String × Value)} :
    key' ∈ (set key val entries).map Prod.fst ↔ key' = key ∨ key' ∈ entries.map Prod.fst := by
  induction entries with
  | nil => simp [set]
  | cons e rest ih =>
    obtain ⟨k, v⟩ := e
    by_cases hk : k = key
    · simp [set, hk]
    · rw [set, if_neg hk, List.map_cons, List.mem_cons, ih, List.map_cons, List.mem_cons]
      exact or_left_comm

theorem Unique.set {entries : List (String × Value)} (hunique : Unique entries) (key : String)
    (val : Value) : Unique (Entries.set key val entries) := by
  induction entries with
  | nil => simp [Unique, Entries.set]
  | cons e rest ih =>
    obtain ⟨k, v⟩ := e
    obtain ⟨hnew, hrest⟩ := List.nodup_cons.mp hunique
    by_cases hk : k = key
    · rw [Entries.set, if_pos hk]
      exact hunique
    · rw [Entries.set, if_neg hk]
      refine List.nodup_cons.mpr ⟨fun hmem => ?_, ih hrest⟩
      obtain hkey | hold := mem_keys_set.mp hmem
      · exact hk hkey
      · exact hnew hold

theorem get_eq_some_iff {entries : List (String × Value)} (hunique : Unique entries) {key : String}
    {val : Value} : get key entries = some val ↔ (key, val) ∈ entries := by
  induction entries with
  | nil => simp [get]
  | cons e rest ih =>
    obtain ⟨k, v⟩ := e
    obtain ⟨hnew, hrest⟩ := List.nodup_cons.mp hunique
    rw [get, List.mem_cons, Prod.mk.injEq, ← ih hrest]
    by_cases hk : k = key
    · subst hk
      have hnone : get k rest ≠ some val := fun h =>
        hnew (List.mem_map.mpr ⟨_, (ih hrest).mp h, rfl⟩)
      simp [hnone, eq_comm]
    · simp [hk, Ne.symm hk]

end Entries

theorem get_decode_members (key : String) (members : List (String × Json)) :
    Entries.get key (decode_members members) = (Members.get key members).map json_decode := by
  induction members with
  | nil => rfl
  | cons m rest ih =>
    obtain ⟨k, v⟩ := m
    rw [decode_members, decode_member, Entries.get, Members.get, ih]
    split <;> rfl

/-- The members of an array are those of its first entry and of the others. -/
theorem encode_entries_cons {k : String} {v : Value} {rest : List (String × Value)} {members : List (String × Json)}
    (hencode : encode_entries ((k, v) :: rest) = some members) :
    ∃ j members', json_encode v = some j ∧ encode_entries rest = some members' ∧ members = (k, j) :: members' := by
  rw [encode_entries, encode_entry, Option.bind_eq_some_iff] at hencode
  obtain ⟨m, hm, hrest⟩ := hencode
  obtain ⟨members', hmembers', rfl⟩ := Option.map_eq_some_iff.mp hrest
  obtain ⟨j, hj, rfl⟩ := Option.map_eq_some_iff.mp hm
  exact ⟨j, members', hj, hmembers', rfl⟩

/-- What the members say that an array is encoded to. -/
theorem get_encode_entries {entries : List (String × Value)} {members : List (String × Json)}
    (hencode : encode_entries entries = some members) (key : String) :
    Members.get key members = (Entries.get key entries).bind json_encode := by
  induction entries generalizing members with
  | nil =>
    obtain rfl := Option.some.inj hencode
    rfl
  | cons e rest ih =>
    obtain ⟨j, members', hj, hmembers', rfl⟩ := encode_entries_cons hencode
    rw [Members.get, Entries.get, ih hmembers']
    split
    · exact hj.symm
    · rfl

theorem encode_entries_isSome (entries : List (String × Value)) :
    (encode_entries entries).isSome = true ↔ ∀ e ∈ entries, (json_encode e.2).isSome = true := by
  induction entries with
  | nil => simp [encode_entries]
  | cons e rest ih =>
    obtain ⟨k, v⟩ := e
    rw [List.forall_mem_cons, ← ih, encode_entries, encode_entry]
    cases json_encode v <;> cases encode_entries rest <;> simp

/-- An array that has a key which is no number is encoded to an object. -/
theorem is_list_eq_false {keys : List String} {key : String} (hmem : key ∈ keys)
    (hkey : ∃ c ∈ key.toList, c.isDigit = false) : is_list keys = false := by
  rw [is_list, decide_eq_false_iff_not]
  intro hlist
  rw [hlist] at hmem
  obtain ⟨n, -, rfl⟩ := List.mem_map.mp hmem
  obtain ⟨c, hc, hdigit⟩ := hkey
  rw [Nat.toString_eq_repr, Nat.toList_repr] at hc
  rw [Nat.isDigit_of_mem_toDigits (by decide) (by decide) hc] at hdigit
  cases hdigit

/-- An array can be encoded when every entry can. -/
theorem json_encode_isSome_iff {entries : List (String × Value)} (hunique : Entries.Unique entries) :
    (json_encode (.array entries)).isSome = true ↔
      ∀ key val, Entries.get key entries = some val → (json_encode val).isSome = true := by
  rw [json_encode, Option.isSome_map, encode_entries_isSome]
  constructor
  · exact fun h key val hget => h (key, val) ((Entries.get_eq_some_iff hunique).mp hget)
  · exact fun h e he => h e.1 e.2 ((Entries.get_eq_some_iff hunique).mpr he)

theorem keys_encode_entries {entries : List (String × Value)} {members : List (String × Json)}
    (hencode : encode_entries entries = some members) : members.map Prod.fst = entries.map Prod.fst := by
  induction entries generalizing members with
  | nil =>
    obtain rfl := Option.some.inj hencode
    rfl
  | cons e rest ih =>
    obtain ⟨j, members', hj, hmembers', rfl⟩ := encode_entries_cons hencode
    rw [List.map_cons, List.map_cons, ih hmembers']

/-- What an array with a key that is no number is encoded to. -/
theorem json_encode_object {entries : List (String × Value)} {j : Json}
    (hencode : json_encode (.array entries) = some j) {key : String}
    (hmem : key ∈ entries.map Prod.fst) (hkey : ∃ c ∈ key.toList, c.isDigit = false) :
    ∃ members, j = .object members ∧
      ∀ key, Members.get key members = (Entries.get key entries).bind json_encode := by
  rw [json_encode, Option.map_eq_some_iff] at hencode
  obtain ⟨members, hmembers, rfl⟩ := hencode
  rw [keys_encode_entries hmembers, is_list_eq_false hmem hkey, if_neg Bool.false_ne_true]
  exact ⟨members, rfl, get_encode_entries hmembers⟩

theorem keys_decode_members (members : List (String × Json)) :
    (decode_members members).map Prod.fst = members.map Prod.fst := by
  induction members with
  | nil => rfl
  | cons m rest ih =>
    obtain ⟨k, v⟩ := m
    rw [decode_members, decode_member, List.map_cons, List.map_cons, ih]

theorem unique_decode_members {members : List (String × Json)} (hunique : Members.Unique members) :
    Entries.Unique (decode_members members) := by
  rw [Entries.Unique, keys_decode_members]
  exact hunique

/-- What the text of a float reads as. -/
theorem json_encode_double_eq_some {v : binary_float.Value} {j : Json} (hencode : json_encode_double v = some j)
    (hfloat : binary64.convert v = v) :
    json_object_get_double j = v ∧ ((∃ i, j = .int i) ∨ ∃ x, j = .double x) := by
  cases v with
  | fin q =>
    rw [json_encode_double] at hencode
    split at hencode
    · rename_i hwhole
      obtain rfl := Option.some.inj hencode
      refine ⟨?_, .inl ⟨q.num, rfl⟩⟩
      rw [json_object_get_double, Format.ofInt, Rat.coe_int_num_of_den_eq_one hwhole.1]
      exact hfloat
    · obtain rfl := Option.some.inj hencode
      exact ⟨rfl, .inr ⟨.fin q, rfl⟩⟩
  | _ => cases hencode

/-- An integer that the language does not have is read back as none. -/
theorem is_int_of_encode {i n : ℤ} (hencode : json_encode (json_decode (.int i)) = some (.int n)) :
    is_int i = true := by
  by_contra hint
  rw [json_decode, if_neg hint, json_encode, Format.ofInt, Format.round] at hencode
  rw [is_int, decide_eq_true_eq] at hint
  split at hencode
  · cases hencode
  · rw [json_encode_double] at hencode
    split at hencode
    · rename_i hwhole
      have hlarge : (10 : ℚ) ^ 17 ≤ |binary64.quantize i| := by
        have hpower : binary64.quantize 9223372036854775808 = 9223372036854775808 := by decide +kernel
        obtain hlow | hhigh : i ≤ -9223372036854775808 ∨ 9223372036854775808 ≤ i := by omega
        · have hmono := binary64.quantize_mono (show (i : ℚ) ≤ -9223372036854775808 by exact_mod_cast hlow)
          rw [Format.quantize_neg, hpower] at hmono
          exact le_abs.mpr (.inr (by linarith))
        · have hmono := binary64.quantize_mono (show (9223372036854775808 : ℚ) ≤ i by exact_mod_cast hhigh)
          rw [hpower] at hmono
          exact le_abs.mpr (.inl (by linarith))
      exact absurd hwhole.2 (not_lt.mpr hlarge)
    · cases hencode

end php
