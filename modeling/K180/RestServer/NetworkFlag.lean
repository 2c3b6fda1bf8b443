import K180.RestServer.Atomicity
import K180.RestServer.Sections

open json_c

namespace k180.restful_api_server

/-- The item has the section `system_cfg`. -/
def names_system (item : Json) : Bool := (item_members item).any fun m => m.1 = MEMBER_SYSCFG

/-- The item has an address, a gateway or a netmask under `system_cfg`. -/
def names_network (item : Json) : Bool :=
  (item_members item).any fun m =>
    m.1 = MEMBER_SYSCFG && (item_members m.2).any fun sub => sets_sys_cfg_change sub.1

/-- The configuration has an object as its `system_cfg`. -/
def has_system (config : Json) : Bool :=
  match json_object_object_get_ex config MEMBER_SYSCFG with
  | some (.object _) => true
  | _ => false

/-- Some item names a network setting when the section is there, `known` from the start or brought by an
item before it. -/
def sees_network (known : Bool) : List Json → Bool
  | [] => false
  | item :: rest => (known && names_network item) || sees_network (known || names_system item) rest

theorem names_network_of_sees_network {known : Bool} {items : List Json}
    (hsees : sees_network known items = true) : ∃ item ∈ items, names_network item = true := by
  induction items generalizing known with
  | nil => cases hsees
  | cons item rest ih =>
    rw [sees_network, Bool.or_eq_true, Bool.and_eq_true] at hsees
    obtain ⟨-, hitem⟩ | hrest := hsees
    · exact ⟨item, List.mem_cons_self .., hitem⟩
    · obtain ⟨item', hmem, hitem⟩ := ih hrest
      exact ⟨item', List.mem_cons_of_mem _ hmem, hitem⟩

theorem has_system_object {config : List (String × Json)} :
    has_system (.object config) = true ↔ ∃ subs, Members.get MEMBER_SYSCFG config = some (.object subs) := by
  rw [has_system, json_object_object_get_ex_object]
  split
  · rename_i subs hget
    exact ⟨fun _ => ⟨subs, hget⟩, fun _ => rfl⟩
  · rename_i hnot
    constructor
    · intro h
      cases h
    · rintro ⟨subs, hget⟩
      exact absurd hget (hnot subs)

/-- A sequence of members is validated one after the other, with the flag handed on. -/
theorem validate_json_cons_eq {max_fps : ℤ} {target : Json} {m : String × Json}
    {rest : List (String × Json)} {flag flag' : Bool}
    (hok : validate_json max_fps target (m :: rest) flag = (true, flag')) :
    ∃ next, validate_member max_fps target m flag = (true, next) ∧
      validate_json max_fps target rest next = (true, flag') := by
  rw [validate_json] at hok
  cases hmember : validate_member max_fps target m flag with
  | mk ok next =>
    rw [hmember] at hok
    cases ok with
    | true => exact ⟨next, rfl, hok⟩
    | false => cases hok

/-- Accepted fields set the flag when one of them is a network setting. -/
theorem flag_of_validate_scalars {max_fps : ℤ} {target : Json} {updates : List (String × Json)}
    {flag flag' : Bool} (hscalar : ∀ m ∈ updates, json_object_is_type m.2 .object = false)
    (hok : validate_json max_fps target updates flag = (true, flag')) :
    flag' = (flag || updates.any fun m => sets_sys_cfg_change m.1) := by
  induction updates generalizing flag with
  | nil =>
    rw [validate_json, Prod.mk.injEq] at hok
    rw [List.any_nil, Bool.or_false, hok.2]
  | cons m rest ih =>
    obtain ⟨key, val⟩ := m
    obtain ⟨hval, hrest⟩ := List.forall_mem_cons.mp hscalar
    obtain ⟨next, hmember, hnext⟩ := validate_json_cons_eq hok
    have hflag : next = (flag || sets_sys_cfg_change key) := by
      rw [validate_member] at hmember
      cases val with
      | object subs => cases hval
      | _ =>
        simp only [validate_value, Prod.mk.injEq] at hmember
        rw [← hmember.2, hmember.1, Bool.true_and]
    rw [ih hrest hnext, hflag, List.any_cons, Bool.or_assoc]

/-- The keys of a stream are no network settings. -/
theorem not_sets_of_valid_stream {top_key : String} {sub : String × Json} (htop : top_key ∈ valid_top_keys)
    (hne : top_key ≠ MEMBER_SYSCFG) (hsub : is_valid_sub top_key sub = true) :
    sets_sys_cfg_change sub.1 = false := by
  obtain ⟨sub_key, sub_val⟩ := sub
  simp only [valid_top_keys, List.mem_cons, List.not_mem_nil, or_false] at htop
  have hkeys : in_list sub_key valid_stream_keys = true := by
    have hscalar : json_object_is_type sub_val .object = false := scalar_of_is_valid_sub hsub
    rw [is_valid_sub, hscalar, if_neg Bool.false_ne_true] at hsub
    obtain rfl | rfl | rfl := htop
    · exact absurd rfl hne
    · simpa [MEMBER_STREAM1] using hsub
    · simpa [MEMBER_STREAM2] using hsub
  have hall : ∀ key ∈ valid_stream_keys, sets_sys_cfg_change key = false := by decide
  exact hall _ (mem_of_in_list hkeys)

/-- An accepted section sets the flag when it is `system_cfg`, is merged into an object and has a network
setting. -/
theorem flag_of_validate_member {max_fps : ℤ} {target : Json} {m : String × Json} {flag flag' : Bool}
    (hvalid : is_valid_top m = true) (hok : validate_member max_fps target m flag = (true, flag')) :
    flag' = (flag || (has_system target && (m.1 = MEMBER_SYSCFG &&
      (item_members m.2).any fun sub => sets_sys_cfg_change sub.1))) := by
  obtain ⟨top_key, top_val⟩ := m
  obtain ⟨htop, hobject, hsubs⟩ := is_valid_top_object hvalid
  have htop_mem := mem_of_in_list htop
  rw [validate_member, hobject] at hok
  unfold validate_value at hok
  have hsection_key : sets_sys_cfg_change top_key = false := by
    have hall : ∀ key ∈ valid_top_keys, sets_sys_cfg_change key = false := by decide
    exact hall _ htop_mem
  by_cases hsystem : top_key = MEMBER_SYSCFG
  · split at hok
    · rename_i members hget
      have hhas : has_system target = true := by rw [has_system, ← hsystem, hget]
      rw [flag_of_validate_scalars (fun sub hsub => scalar_of_is_valid_sub (hsubs sub hsub)) hok, hhas]
      simp [hsystem]
    · rename_i hnot
      have hhas : has_system target = false := by
        rw [has_system, ← hsystem]
        split
        · rename_i subs hget
          exact absurd hget (hnot subs)
        · rfl
      rw [Prod.mk.injEq, hsection_key] at hok
      simp [← hok.2, hhas]
  · have hany : (item_members top_val).any (fun sub => sets_sys_cfg_change sub.1) = false := by
      rw [List.any_eq_false]
      intro sub hsub
      rw [not_sets_of_valid_stream htop_mem hsystem (hsubs sub hsub)]
      exact Bool.false_ne_true
    have hright : (has_system target && (decide (top_key = MEMBER_SYSCFG) &&
        (item_members top_val).any fun sub => sets_sys_cfg_change sub.1)) = false := by
      rw [hany, Bool.and_false, Bool.and_false]
    rw [hright, Bool.or_false]
    split at hok
    · rw [flag_of_validate_scalars (fun sub hsub => scalar_of_is_valid_sub (hsubs sub hsub)) hok, hany,
        Bool.or_false]
    · rw [Prod.mk.injEq, hsection_key] at hok
      simp [← hok.2]

/-- An accepted item sets the flag when it names a network setting and the section is there. -/
theorem flag_of_validate_json {max_fps : ℤ} {target item : Json} {flag flag' : Bool}
    (hvalid : is_valid_query item = true)
    (hok : validate_json max_fps target (item_members item) flag = (true, flag')) :
    flag' = (flag || (has_system target && names_network item)) := by
  have htop := top_of_is_valid_query hvalid
  rw [names_network]
  generalize item_members item = members at hok htop
  induction members generalizing flag with
  | nil =>
    rw [validate_json, Prod.mk.injEq] at hok
    rw [List.any_nil, Bool.and_false, Bool.or_false, hok.2]
  | cons m rest ih =>
    obtain ⟨hm, hrest⟩ := List.forall_mem_cons.mp htop
    obtain ⟨next, hmember, hnext⟩ := validate_json_cons_eq hok
    rw [ih hnext hrest, flag_of_validate_member hm hmember, List.any_cons, Bool.and_or_distrib_left,
      Bool.or_assoc]

/-- An applied item brings the section with it. -/
theorem has_system_apply_update_json {config : List (String × Json)} {item : Json}
    (hvalid : is_valid_query item = true) :
    has_system (.object (apply_update_json config (item_members item))) =
      (has_system (.object config) || names_system item) := by
  have htop := top_of_is_valid_query hvalid
  rw [names_system]
  generalize item_members item = members at htop
  induction members generalizing config with
  | nil => rw [apply_update_json, List.any_nil, Bool.or_false]
  | cons m rest ih =>
    obtain ⟨hm, hrest⟩ := List.forall_mem_cons.mp htop
    obtain ⟨key, val⟩ := m
    obtain ⟨-, hobject, -⟩ := is_valid_top_object hm
    have hmember : has_system (.object (apply_update_member config (key, val))) =
        (has_system (.object config) || decide (key = MEMBER_SYSCFG)) := by
      by_cases hkey : key = MEMBER_SYSCFG
      · rw [decide_eq_true hkey, Bool.or_true, has_system_object, get_apply_update_member, if_pos hkey, hobject]
        unfold apply_update_value
        split <;> exact ⟨_, rfl⟩
      · rw [decide_eq_false hkey, Bool.or_false, Bool.eq_iff_iff, has_system_object, has_system_object,
          get_apply_update_member, if_neg hkey]
    rw [apply_update_json, ih hrest, hmember, List.any_cons, Bool.or_assoc]

theorem update_json_updated {max_fps : ℤ} {config config' item : Json} {flag flag' : Bool}
    (hvalid : is_valid_query item = true)
    (hupdate : update_json max_fps config (item_members item) flag = (.updated config', flag')) :
    flag' = (flag || (has_system config && names_network item)) ∧
      has_system config' = (has_system config || names_system item) := by
  rw [update_json] at hupdate
  cases hok : validate_json max_fps config (item_members item) flag with
  | mk ok next =>
    rw [hok] at hupdate
    cases ok with
    | false => cases hupdate
    | true =>
      have hflag := flag_of_validate_json hvalid hok
      dsimp only at hupdate
      split at hupdate
      · rw [Prod.mk.injEq, UpdateResult.updated.injEq] at hupdate
        rw [← hupdate.1, ← hupdate.2]
        exact ⟨hflag, has_system_apply_update_json hvalid⟩
      · rename_i hnil
        rw [Prod.mk.injEq, UpdateResult.updated.injEq] at hupdate
        rw [← hupdate.1, ← hupdate.2]
        refine ⟨hflag, ?_⟩
        rw [names_system, hnil, List.any_nil, Bool.or_false]
      · cases hupdate

/-- The flag after the items of an array have all been applied. -/
theorem flag_of_update_items {max_fps : ℤ} {config config' : Json} {items : List Json} {flag flag' : Bool}
    (hvalid : ∀ item ∈ items, is_valid_query item = true)
    (hupdate : update_items max_fps config items flag = (.updated config', flag')) :
    flag' = (flag || sees_network (has_system config) items) := by
  induction items generalizing config flag with
  | nil =>
    rw [update_items, Prod.mk.injEq] at hupdate
    rw [sees_network, Bool.or_false, hupdate.2]
  | cons item rest ih =>
    obtain ⟨hitem, hrest⟩ := List.forall_mem_cons.mp hvalid
    rw [is_object_of_is_valid_query hitem, update_items] at hupdate
    cases hfirst : update_json max_fps config (item_members item) flag with
    | mk result next =>
      rw [hfirst] at hupdate
      cases result with
      | updated mid =>
        obtain ⟨hflag, hsystem⟩ := update_json_updated hitem hfirst
        rw [ih hrest hupdate, hflag, hsystem, sees_network, Bool.or_assoc]
      | rejected => cases hupdate
      | aborted => cases hupdate

/-- The flag after the update phase of an accepted PUT. -/
theorem flag_of_put_update {max_fps : ℤ} {config config' query : Json} {flag flag' : Bool}
    (hupdate : put_update max_fps config query flag = (.updated config', flag')) :
    flag' = (flag || sees_network (has_system config) (put_items query)) := by
  have hresult : ∀ {message : String} {result : UpdateResult × Bool},
      put_result message result = (.updated config', flag') → result = (.updated config', flag') := by
    rintro message ⟨result, next⟩ h
    cases result with
    | updated mid => simpa [put_result] using h
    | rejected => cases h
    | aborted => cases h
  cases query with
  | object members =>
    rw [put_update] at hupdate
    split at hupdate
    · cases hupdate
    · rename_i hvalid
      have hvalid' : is_valid_query (.object members) = true := by simpa using hvalid
      rw [(update_json_updated hvalid' (hresult hupdate)).1]
      simp [put_items, sees_network]
  | array items =>
    rw [put_update] at hupdate
    split at hupdate
    · cases hupdate
    · split at hupdate
      · cases hupdate
      · rename_i hall
        have hvalid : ∀ item ∈ items, is_valid_query item = true := by simpa using hall
        exact flag_of_update_items hvalid (hresult hupdate)
  | _ => cases hupdate

end k180.restful_api_server
