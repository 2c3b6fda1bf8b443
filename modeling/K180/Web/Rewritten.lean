import K180.Web.Setting
import K180.UserCfg.Acceptance

open php json_c binary_float k180.user_cfg

namespace k180.setting

variable {fields : List Field} {name key : String} {members members' : List (String × Json)}

/-- The value that an assignment leaves at a member, if it sets it. -/
def assigned (name key : String) : List Field → Option php.Value
  | [] => none
  | f :: rest => (assigned name key rest).or (if f.section_name = name ∧ f.key = key then some f.val else none)

def Encodable (val : Json) : Prop := (json_encode (json_decode val)).isSome = true

/-- What an assignment does to an array of sections. -/
theorem assign_array (fields : List Field) {entries : List (String × php.Value)}
    (hunique : Entries.Unique entries) :
    ∃ entries', assign fields (.array entries) = .array entries' ∧ Entries.Unique entries' ∧
      (∀ name, (∀ f ∈ fields, f.section_name ≠ name) →
        Entries.get name entries' = Entries.get name entries) ∧
      (∀ name subs, Entries.get name entries = some (.array subs) → Entries.Unique subs →
        ∃ subs', Entries.get name entries' = some (.array subs') ∧ Entries.Unique subs' ∧
          ∀ key, Entries.get key subs' = (assigned name key fields).or (Entries.get key subs)) := by
  induction fields generalizing entries with
  | nil => exact ⟨entries, rfl, hunique, fun _ _ => rfl, fun _ subs hget hsubs => ⟨subs, hget, hsubs, fun _ => rfl⟩⟩
  | cons f rest ih =>
    let val := ((php.Value.array entries).get f.section_name).set f.key f.val
    obtain ⟨entries', hassign, hunique', hother, hsection⟩ := ih (hunique.set f.section_name val)
    refine ⟨entries', hassign, hunique', fun name hname => ?_, fun name subs hget hsubs => ?_⟩
    · obtain ⟨hf, hrest⟩ := List.forall_mem_cons.mp hname
      rw [hother name hrest, Entries.get_set, if_neg hf]
    · by_cases hf : f.section_name = name
      · have hval : val = .array (Entries.set f.key f.val subs) := by
          simp only [val, php.Value.get, hf, hget, Option.getD_some, php.Value.set]
        have hget' : Entries.get name (Entries.set f.section_name val entries) =
            some (.array (Entries.set f.key f.val subs)) := by
          rw [Entries.get_set, if_pos hf, hval]
        obtain ⟨subs', hsubs', hunique_subs, hkeys⟩ := hsection name _ hget' (hsubs.set f.key f.val)
        refine ⟨subs', hsubs', hunique_subs, fun key => ?_⟩
        rw [hkeys, Entries.get_set, assigned]
        by_cases hkey : f.key = key <;> cases assigned name key rest <;> simp [hf, hkey]
      · have hget' : Entries.get name (Entries.set f.section_name val entries) = some (.array subs) := by
          rw [Entries.get_set, if_neg hf, hget]
        obtain ⟨subs', hsubs', hunique_subs, hkeys⟩ := hsection name subs hget' hsubs
        refine ⟨subs', hsubs', hunique_subs, fun key => ?_⟩
        rw [hkeys, assigned, if_neg fun h => hf h.1, Option.or_none]

/-- A section as it was stored, and as it is saved. -/
structure Rewritten (fields : List Field) (name : String) (members members' : List (String × Json)) : Prop where
  get : ∀ key, Members.get key members' =
    ((assigned name key fields).or ((Members.get key members).map json_decode)).bind json_encode
  encodable : ∀ key val, Members.get key members = some val → assigned name key fields = none → Encodable val

theorem Rewritten.obj_get_of_assigned (hrewritten : Rewritten fields name members members') {val : php.Value}
    (hassigned : assigned name key fields = some val) :
    obj_get (.object members') key = (json_encode val).getD .null := by
  rw [obj_get, json_object_object_get_ex_object, hrewritten.get, hassigned, Option.some_or, Option.bind_some]

/-- A member that is left alone is decoded and encoded. -/
theorem Rewritten.get_of_unassigned (hrewritten : Rewritten fields name members members')
    (hassigned : assigned name key fields = none) {val : Json} (hget : obj_get (.object members) key = val)
    (hnull : val ≠ .null) : json_encode (json_decode val) = some (obj_get (.object members') key) := by
  have hmember := get_of_obj_get hget hnull
  obtain ⟨j, hj⟩ := Option.isSome_iff_exists.mp (hrewritten.encodable key val hmember hassigned)
  rw [obj_get, json_object_object_get_ex_object, hrewritten.get, hassigned, Option.none_or, hmember,
    Option.map_some, Option.bind_some, hj, Option.getD_some]

theorem Rewritten.require_string (hrewritten : Rewritten fields name members members')
    (hassigned : assigned name key fields = none) {s : List Char}
    (hread : require_string (.object members) key = .ok s) :
    user_cfg.require_string (.object members') key = .ok s := by
  rw [user_cfg.require_string] at hread
  split at hread
  · rename_i text hget
    have hkept := hrewritten.get_of_unassigned hassigned hget (by simp)
    rw [json_decode, json_encode, Option.some.injEq] at hkept
    rw [user_cfg.require_string, ← hkept]
    exact hread
  · cases hread

/-- An integer that is left alone can be read as long as it is an integer of the page's language. -/
theorem Rewritten.obj_get_int (hrewritten : Rewritten fields name members members')
    (hassigned : assigned name key fields = none) {i : ℤ} (hget : obj_get (.object members) key = .int i) :
    (is_int i = true → obj_get (.object members') key = .int i) ∧
      (∀ n, obj_get (.object members') key = .int n → is_int i = true) := by
  have hkept := hrewritten.get_of_unassigned hassigned hget (by simp)
  constructor
  · intro hint
    rw [json_decode, if_pos hint, json_encode, Option.some.injEq] at hkept
    exact hkept.symm
  · intro n hn
    rw [hn] at hkept
    exact is_int_of_encode hkept

theorem obj_get_of_require_int {obj : Json} {n : ℤ} (hread : require_int obj key = .ok n) :
    ∃ i, obj_get obj key = .int i ∧ n = json_object_get_int i := by
  rw [require_int] at hread
  split at hread
  · cases hread
  · rename_i i hget
    exact ⟨i, hget, (Except.ok.inj hread).symm⟩
  · cases hread

theorem obj_get_of_require_int64 {obj : Json} {n : ℤ} (hread : require_int64 obj key = .ok n) :
    ∃ i, obj_get obj key = .int i ∧ n = json_object_get_int64 i := by
  rw [require_int64] at hread
  split at hread
  · rename_i i hget
    exact ⟨i, hget, (Except.ok.inj hread).symm⟩
  · cases hread

theorem Rewritten.require_int (hrewritten : Rewritten fields name members members')
    (hassigned : assigned name key fields = none) {n : ℤ}
    (hread : require_int (.object members) key = .ok n)
    (hint : ∀ i, obj_get (.object members) key = .int i → is_int i = true) :
    user_cfg.require_int (.object members') key = .ok n := by
  obtain ⟨i, hget, rfl⟩ := obj_get_of_require_int hread
  rw [user_cfg.require_int, (hrewritten.obj_get_int hassigned hget).1 (hint i hget)]

/-- A number: what `require_float` and the datarate take. -/
def IsNumber (j : Json) : Prop := (∃ i, j = .int i) ∨ ∃ x, j = .double x

/-- A number that is left alone keeps its value, even where an integer becomes a double or a double an
integer. -/
theorem Rewritten.obj_get_number (hrewritten : Rewritten fields name members members')
    (hform : well_formed (.object members) = true) (hassigned : assigned name key fields = none)
    (hnumber : IsNumber (obj_get (.object members) key)) :
    IsNumber (obj_get (.object members') key) ∧
      json_object_get_double (obj_get (.object members') key) =
        json_object_get_double (obj_get (.object members) key) := by
  obtain ⟨i, hget⟩ | ⟨x, hget⟩ := hnumber
  · have hkept := hrewritten.get_of_unassigned hassigned hget (by simp)
    rw [hget, json_object_get_double]
    by_cases hint : is_int i = true
    · rw [(hrewritten.obj_get_int hassigned hget).1 hint]
      exact ⟨.inl ⟨i, rfl⟩, rfl⟩
    · rw [json_decode, if_neg hint, json_encode] at hkept
      obtain ⟨hvalue, htype⟩ := json_encode_double_eq_some hkept (binary64.convert_round _)
      exact ⟨htype, hvalue⟩
  · have hkept := hrewritten.get_of_unassigned hassigned hget (by simp)
    have hmember := get_of_obj_get hget (by simp)
    rw [json_decode, json_encode] at hkept
    obtain ⟨hvalue, htype⟩ := json_encode_double_eq_some hkept
      (convert_of_well_formed (well_formed_of_get hform hmember))
    rw [hget]
    exact ⟨htype, hvalue⟩

end k180.setting
