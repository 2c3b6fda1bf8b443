import K180.RestServer.Atomicity
import K180.RestServer.Sections

open json_c

namespace k180.restful_api_server

variable {target updates config members sources : List (String × Json)} {key : String} {v : Json}

/-- After an update a member is what the update makes of it, if it has it, and what it was otherwise. -/
theorem get_apply_update_json (hunique : Members.Unique updates) (target : List (String × Json)) (key : String) :
    Members.get key (apply_update_json target updates) =
      match Members.get key updates with
      | some v => some (apply_update_value (Members.get key target) v)
      | none => Members.get key target := by
  induction updates generalizing target with
  | nil => rw [apply_update_json, Members.get]
  | cons m rest ih =>
    obtain ⟨k, w⟩ := m
    obtain ⟨hnew, hrest⟩ := List.nodup_cons.mp hunique
    rw [apply_update_json, ih hrest, get_apply_update_member, Members.get]
    by_cases hkey : k = key
    · subst hkey
      rw [Members.get_eq_none_of_not_mem hnew, if_pos rfl, if_pos rfl]
    · rw [if_neg hkey, if_neg hkey]

/-- An update all of whose members are there already, with the values it makes of them, changes nothing. -/
theorem apply_update_json_eq_self
    (hthere : ∀ key v, (key, v) ∈ updates →
      Members.get key target = some (apply_update_value (Members.get key target) v)) :
    apply_update_json target updates = target := by
  induction updates with
  | nil => rw [apply_update_json]
  | cons m rest ih =>
    obtain ⟨k, w⟩ := m
    have hsame : apply_update_member target (k, w) = target := by
      rw [apply_update_member]
      exact Members.add_of_get (hthere k w (List.mem_cons_self ..))
    rw [apply_update_json, hsame]
    exact ih fun key v hmem => hthere key v (List.mem_cons_of_mem _ hmem)

/-- New members are appended as they are. -/
theorem apply_update_json_append (hunique : Members.Unique (target ++ updates)) :
    apply_update_json target updates = target ++ updates := by
  induction updates generalizing target with
  | nil => rw [apply_update_json, List.append_nil]
  | cons m rest ih =>
    obtain ⟨k, w⟩ := m
    have hnew : k ∉ target.map Prod.fst := by
      rw [Members.Unique, List.map_append, List.nodup_append] at hunique
      intro hmem
      exact hunique.2.2 k hmem k (List.mem_cons_self ..) rfl
    have hadd : ∀ {members : List (String × Json)}, k ∉ members.map Prod.fst →
        Members.add k w members = members ++ [(k, w)] := by
      intro members hmembers
      induction members with
      | nil => rfl
      | cons m' rest' ih' =>
        obtain ⟨k', w'⟩ := m'
        rw [List.map_cons, List.mem_cons, not_or] at hmembers
        rw [Members.add, if_neg (Ne.symm hmembers.1), ih' hmembers.2, List.cons_append]
    have hvalue : apply_update_value none w = w := by cases w <;> rfl
    have hmember : apply_update_member target (k, w) = target ++ [(k, w)] := by
      rw [apply_update_member, Members.get_eq_none_of_not_mem hnew, hvalue, hadd hnew]
    rw [apply_update_json, hmember, ih (by rwa [List.append_assoc]), List.append_assoc]
    rfl

/-- An object is what an update with its members makes of the empty object. -/
theorem apply_update_json_nil (hunique : Members.Unique updates) : apply_update_json [] updates = updates :=
  apply_update_json_append hunique

mutual
/-- Merging a value a second time changes nothing. -/
theorem apply_update_value_twice : ∀ (v : Json), well_formed v = true → ∀ (target_val : Option Json),
    apply_update_value (some (apply_update_value target_val v)) v = apply_update_value target_val v
  | .object updates, hform, target_val => by
    have hunique := unique_of_well_formed hform
    rw [well_formed, Bool.and_eq_true] at hform
    have htwice : ∀ target : List (String × Json),
        apply_update_json (apply_update_json target updates) updates = apply_update_json target updates := by
      intro target
      apply apply_update_json_eq_self
      intro key v hmem
      rw [get_apply_update_json hunique, Members.get_of_mem hunique hmem]
      exact congrArg some (apply_update_members_twice updates hform.2 (key, v) hmem _).symm
    have hself : apply_update_value (some (.object updates)) (.object updates) = .object updates := by
      have h := htwice []
      rw [apply_update_json_nil hunique] at h
      rw [apply_update_value, h]
    cases target_val with
    | none => exact hself
    | some target =>
      cases target with
      | object members =>
        simp only [apply_update_value]
        rw [htwice]
      | _ => exact hself
  | .null, _, _ | .boolean _, _, _ | .double _, _, _ | .int _, _, _ | .array _, _, _ | .string _, _, _ => by
    rw [apply_update_value_scalar _ rfl, apply_update_value_scalar _ rfl]
theorem apply_update_members_twice : ∀ (updates : List (String × Json)), well_formed_members updates = true →
    ∀ m ∈ updates, ∀ target_val : Option Json,
      apply_update_value (some (apply_update_value target_val m.2)) m.2 = apply_update_value target_val m.2
  | [], _, _, hmem, _ => nomatch hmem
  | m' :: rest, hform, m, hmem, target_val => by
    rw [well_formed_members, Bool.and_eq_true] at hform
    obtain heq | hmem := List.mem_cons.mp hmem
    · rw [heq]
      exact apply_update_member_twice m' hform.1 target_val
    · exact apply_update_members_twice rest hform.2 m hmem target_val
theorem apply_update_member_twice : ∀ (m : String × Json), well_formed_member m = true →
    ∀ target_val : Option Json,
      apply_update_value (some (apply_update_value target_val m.2)) m.2 = apply_update_value target_val m.2
  | (_, v), hform, target_val => apply_update_value_twice v hform target_val
end

/-- Applying an update twice is applying it once. -/
theorem apply_update_json_twice (config : List (String × Json)) (hform : well_formed (.object updates) = true) :
    apply_update_json (apply_update_json config updates) updates = apply_update_json config updates := by
  have h := apply_update_value_twice (.object updates) hform (some (.object config))
  simpa only [apply_update_value, Json.object.injEq] using h

end k180.restful_api_server
