import K180.Web.Rewritten
import K180.UserCfg.Datarate

open php json_c binary_float libc k180.user_cfg

namespace k180.setting

variable {fields : List Field} {name key : String} {members members' : List (String × Json)}

/-- The integers that the camera process reads in `system_cfg`. -/
def system_ints : List String :=
  ["netmask", "cam_num_1_r0", "cam_num_2_r0", "cam_num_3_r0", "cam_num_4_r0", "cam_num_1_r180",
    "cam_num_2_r180", "cam_num_3_r180", "cam_num_4_r180", "recorded", "objectdet", "draw_det", "draw_trk",
    "track_fps", "track_frame_rate", "rotate180", "seam_mse_thresh", "mask_cut", "rec_fps_adj", "seam_rate",
    "rec_dick_size", "pic_w_0_1234", "pic_h_0_1234", "pic_h_0_cut", "pic_w_180_1234", "pic_h_180_1234",
    "pic_h_180_cut"]

theorem int_of_require_int {obj : Json} {n : ℤ} (hread : require_int obj key = .ok n) :
    ∃ i, obj_get obj key = .int i := by
  obtain ⟨i, hget, -⟩ := obj_get_of_require_int hread
  exact ⟨i, hget⟩

theorem ints_of_system_reads {jsys : Json} {cfg : UserConfig} (hreads : SystemReads jsys cfg) :
    ∀ key ∈ system_ints, ∃ i, obj_get jsys key = .int i := by
  obtain ⟨size, hsize, -⟩ := obj_get_of_require_int64 hreads.rec_dick_size
  simp only [system_ints, List.forall_mem_cons, List.not_mem_nil, false_imp_iff, implies_true, and_true]
  exact ⟨int_of_require_int hreads.netmask, int_of_require_int hreads.cam_num_1_r0,
    int_of_require_int hreads.cam_num_2_r0, int_of_require_int hreads.cam_num_3_r0,
    int_of_require_int hreads.cam_num_4_r0, int_of_require_int hreads.cam_num_1_r180,
    int_of_require_int hreads.cam_num_2_r180, int_of_require_int hreads.cam_num_3_r180,
    int_of_require_int hreads.cam_num_4_r180, int_of_require_int hreads.recorded,
    int_of_require_int hreads.objectdet, int_of_require_int hreads.draw_det,
    int_of_require_int hreads.draw_trk, int_of_require_int hreads.track_fps,
    int_of_require_int hreads.track_frame_rate, int_of_require_int hreads.rotate180,
    int_of_require_int hreads.seam_mse_thresh, int_of_require_int hreads.mask_cut,
    int_of_require_int hreads.rec_fps_adj, int_of_require_int hreads.seam_rate, ⟨size, hsize⟩,
    int_of_require_int hreads.pic_w_0_1234, int_of_require_int hreads.pic_h_0_1234,
    int_of_require_int hreads.pic_h_0_cut, int_of_require_int hreads.pic_w_180_1234,
    int_of_require_int hreads.pic_h_180_1234, int_of_require_int hreads.pic_h_180_cut⟩

/-- The saturated reading of an integer that is in the middle of the range is the integer. -/
theorem eq_of_get_int {i n : ℤ} (hread : n = json_object_get_int i) (hlo : -2147483648 < n)
    (hhi : n < 2147483647) : i = n := by
  rw [json_object_get_int] at hread
  omega

theorem is_int_of_small {i : ℤ} (hlo : -2147483648 ≤ i) (hhi : i ≤ 2147483647) : is_int i = true := by
  rw [is_int, decide_eq_true_eq]
  omega

/-- An integer that the camera process checks to be small is one of the page's language. -/
theorem is_int_of_require_int {obj : Json} {n i : ℤ} (hread : require_int obj key = .ok n)
    (hlo : -2147483648 < n) (hhi : n < 2147483647) (hget : obj_get obj key = .int i) : is_int i = true := by
  obtain ⟨i', hget', hn⟩ := obj_get_of_require_int hread
  obtain rfl : i' = i := by simpa [hget'] using hget
  have heq := eq_of_get_int hn hlo hhi
  exact is_int_of_small (by omega) (by omega)

/-- An integer member stays readable and valid if what it is set to is valid. -/
theorem Rewritten.reread_int (hrewritten : Rewritten fields name members members') (ok : ℤ → Prop)
    (hold : ∃ n, user_cfg.require_int (.object members) key = .ok n ∧ ok n)
    (hint : ∀ i, obj_get (.object members) key = .int i → is_int i = true)
    (hnew : ∀ val, assigned name key fields = some val → ∃ i, val = .int i ∧ ok (json_object_get_int i)) :
    ∃ n, user_cfg.require_int (.object members') key = .ok n ∧ ok n := by
  cases hassigned : assigned name key fields with
  | none =>
    obtain ⟨n, hread, hok⟩ := hold
    exact ⟨n, hrewritten.require_int hassigned hread hint, hok⟩
  | some val =>
    obtain ⟨i, rfl, hok⟩ := hnew val hassigned
    refine ⟨json_object_get_int i, ?_, hok⟩
    rw [user_cfg.require_int, hrewritten.obj_get_of_assigned hassigned]
    rfl

theorem Rewritten.reread_string (hrewritten : Rewritten fields name members members') (ok : List Char → Prop)
    (hold : ∃ s, user_cfg.require_string (.object members) key = .ok s ∧ ok s)
    (hnew : ∀ val, assigned name key fields = some val → ∃ s, val = .string s ∧ ok (c_str s)) :
    ∃ s, user_cfg.require_string (.object members') key = .ok s ∧ ok s := by
  cases hassigned : assigned name key fields with
  | none =>
    obtain ⟨s, hread, hok⟩ := hold
    exact ⟨s, hrewritten.require_string hassigned hread, hok⟩
  | some val =>
    obtain ⟨s, rfl, hok⟩ := hnew val hassigned
    refine ⟨c_str s, ?_, hok⟩
    rw [user_cfg.require_string, hrewritten.obj_get_of_assigned hassigned]
    rfl

theorem require_float_of_number {obj : Json} (hnumber : IsNumber (obj_get obj key)) :
    require_float obj key = .ok (binary32.convert (json_object_get_double (obj_get obj key))) := by
  rw [require_float]
  obtain ⟨i, hget⟩ | ⟨x, hget⟩ := hnumber <;> rw [hget]

theorem number_of_require_float {obj : Json} {x : binary_float.Value} (hread : require_float obj key = .ok x) :
    IsNumber (obj_get obj key) := by
  rw [require_float] at hread
  split at hread
  · cases hread
  · rename_i v hget
    exact .inr ⟨v, hget⟩
  · rename_i i hget
    exact .inl ⟨i, hget⟩
  · cases hread

theorem Rewritten.require_float (hrewritten : Rewritten fields name members members')
    (hform : well_formed (.object members) = true) (hassigned : assigned name key fields = none)
    {x : binary_float.Value} (hread : require_float (.object members) key = .ok x) :
    user_cfg.require_float (.object members') key = .ok x := by
  have hnumber := number_of_require_float hread
  obtain ⟨hnumber', hvalue⟩ := hrewritten.obj_get_number hform hassigned hnumber
  rw [require_float_of_number hnumber', hvalue, ← require_float_of_number hnumber, hread]

theorem require_datarate_of_number (unspecified : binary_float.Value → ℤ) {obj : Json}
    (hnumber : IsNumber (obj_get obj key)) :
    require_datarate_bps_from_mbps unspecified obj key =
      positive_datarate unspecified key (json_object_get_double (obj_get obj key)) := by
  rw [require_datarate_bps_from_mbps]
  obtain ⟨i, hget⟩ | ⟨x, hget⟩ := hnumber <;> rw [hget]

theorem number_of_require_datarate {unspecified : binary_float.Value → ℤ} {obj : Json} {bps : ℤ}
    (hread : require_datarate_bps_from_mbps unspecified obj key = .ok bps) : IsNumber (obj_get obj key) := by
  rw [require_datarate_bps_from_mbps] at hread
  split at hread
  · cases hread
  · rename_i i hget
    exact .inl ⟨i, hget⟩
  · rename_i x hget
    exact .inr ⟨x, hget⟩
  · cases hread

/-- The scanning loop of `filter_var` with a leading zero and more digits fails. -/
theorem filter_ipv4_of_leading_zero {num m n : ℕ} (hm : 1 < m) (s : List Char) :
    filter_ipv4 (some (true, num, m)) n s = false := by
  induction s generalizing num m with
  | nil => simp [filter_ipv4, hm]
  | cons c rest ih =>
    rw [filter_ipv4]
    split
    · split
      · rfl
      · exact ih (by omega)
    · simp [hm]

theorem toNat_of_isDigit {c : Char} (hdigit : c.isDigit = true) : 48 ≤ c.toNat ∧ c.toNat ≤ 57 := by
  simp only [Char.isDigit, Bool.and_eq_true, decide_eq_true_eq] at hdigit
  exact ⟨UInt32.le_iff_toNat_le.mp hdigit.1, UInt32.le_iff_toNat_le.mp hdigit.2⟩

/-- What the page takes for an IPv4 address, `inet_pton` takes. -/
theorem inet_pton4_of_filter_ipv4 (s : List Char) :
    (∀ n ≤ 3, filter_ipv4 none n s = true → inet_pton4 0 false n s = true) ∧
    (∀ leading_zero num m n, n ≤ 3 → 0 < m → (num = 0 → leading_zero = true) →
      filter_ipv4 (some (leading_zero, num, m)) n s = true → inet_pton4 num true (n + 1) s = true) := by
  induction s with
  | nil =>
    refine ⟨fun n _ h => by simp [filter_ipv4] at h, fun leading_zero num m n _ _ _ h => ?_⟩
    rw [filter_ipv4] at h
    split at h
    · cases h
    · have hn : n + 1 = 4 := by simpa using h
      simp [inet_pton4, hn]
  | cons c rest ih =>
    obtain ⟨ihnone, ihsome⟩ := ih
    constructor
    · intro n hn h
      rw [filter_ipv4] at h
      split at h
      · rename_i hdigit
        have hbounds := toNat_of_isDigit hdigit
        have hzero_char : '0'.toNat = 48 := rfl
        rw [inet_pton4, if_pos hdigit]
        simp only [Bool.false_and, Bool.false_eq_true, if_false, Nat.zero_mul, Nat.zero_add]
        rw [if_neg (by omega), if_neg (by omega)]
        apply ihsome _ _ _ n hn one_pos _ h
        intro hzero
        have hsub : c.toNat - '0'.toNat = 0 := hzero
        exact decide_eq_true (Char.toNat_inj.mp (by omega))
      · cases h
    · intro leading_zero num m n hn hm hzero h
      rw [filter_ipv4] at h
      by_cases hdigit : c.isDigit = true
      · rw [if_pos hdigit] at h
        split at h
        · cases h
        · rename_i hbound
          have hsmall : ¬ 255 < num * 10 + (c.toNat - '0'.toNat) := by
            intro hlarge
            have hlarge' : decide (255 < num * 10 + digit c) = true := decide_eq_true hlarge
            exact hbound (by rw [hlarge', Bool.true_or])
          have hnum : num ≠ 0 := by
            rintro rfl
            rw [hzero rfl, filter_ipv4_of_leading_zero (by omega)] at h
            cases h
          rw [inet_pton4, if_pos hdigit]
          simp only [Bool.true_and, decide_eq_true_eq, if_neg hnum, if_neg hsmall, if_true]
          apply ihsome _ _ _ n hn (Nat.succ_pos m) _ h
          intro hsum
          omega
      · rw [if_neg hdigit] at h
        split at h
        · cases h
        · split at h
          · cases h
          · rename_i hcount
            split at h
            · rename_i hpoint
              rw [inet_pton4, if_neg hdigit, hpoint]
              simp only [Bool.and_true, if_neg hcount]
              exact ihnone (n + 1) (by omega) h
            · cases h

theorem char_of_filter_ipv4 {s : List Char} {number : Option (Bool × ℕ × ℕ)} {n : ℕ}
    (hfilter : filter_ipv4 number n s = true) : ∀ c ∈ s, c.isDigit = true ∨ c = '.' := by
  induction s generalizing number n with
  | nil => simp
  | cons c rest ih =>
    by_cases hdigit : c.isDigit = true
    · refine List.forall_mem_cons.mpr ⟨.inl hdigit, ?_⟩
      cases number with
      | none =>
        rw [filter_ipv4, if_pos hdigit] at hfilter
        exact ih hfilter
      | some number =>
        rw [filter_ipv4, if_pos hdigit] at hfilter
        split at hfilter
        · cases hfilter
        · exact ih hfilter
    · cases number with
      | none =>
        rw [filter_ipv4, if_neg hdigit] at hfilter
        cases hfilter
      | some number =>
        rw [filter_ipv4, if_neg hdigit] at hfilter
        split at hfilter
        · cases hfilter
        · split at hfilter
          · cases hfilter
          · split at hfilter
            · rename_i hpoint
              exact List.forall_mem_cons.mpr ⟨.inr hpoint, ih hfilter⟩
            · cases hfilter

/-- An address that the page takes is one for the camera process, which sees all of it. -/
theorem is_valid_ipv4_of_filter_var {s : String} (hfilter : filter_var_ipv4 s = true) :
    is_valid_ipv4 (c_str s) = true := by
  have hwhole : c_str s = s.toList := by
    rw [c_str, List.takeWhile_eq_self_iff]
    intro c hc
    obtain hdigit | rfl := char_of_filter_ipv4 hfilter c hc
    · have hbounds := toNat_of_isDigit hdigit
      simp only [ne_eq, decide_not, Bool.not_eq_true', decide_eq_false_iff_not]
      rintro rfl
      exact absurd hbounds.1 (by decide)
    · decide
  rw [hwhole]
  exact (inet_pton4_of_filter_ipv4 s.toList).1 0 (by omega) hfilter

theorem is_one_of_int_iff (v : ℤ) (arr : List ℤ) : is_one_of_int v arr = true ↔ v ∈ arr := by
  simp [is_one_of_int]

/-- The values that the form may set in `system_cfg`: an address and a netmask that it has checked, and
two that it has not. -/
structure SystemFields (fields : List Field) (recorded rotate180 : ℤ) : Prop where
  address : ∀ key ∈ ["ipaddress", "gateway"], ∀ val, assigned "system_cfg" key fields = some val →
    ∃ s, val = .string s ∧ filter_var_ipv4 s = true
  netmask : ∀ val, assigned "system_cfg" "netmask" fields = some val → ∃ i ∈ valid_netmasks, val = .int i
  recorded : ∀ val, assigned "system_cfg" "recorded" fields = some val → val = .int recorded
  rotate180 : ∀ val, assigned "system_cfg" "rotate180" fields = some val → val = .int rotate180
  other : ∀ key ∉ ["ipaddress", "gateway", "netmask", "recorded", "rotate180"],
    assigned "system_cfg" key fields = none

theorem SystemFields.reread_address {recorded rotate180 : ℤ} (hfields : SystemFields fields recorded rotate180)
    (hrewritten : Rewritten fields "system_cfg" members members') (hkey : key ∈ ["ipaddress", "gateway"])
    {s : List Char} (hread : require_string (.object members) key = .ok s) (hvalid : is_valid_ipv4 s = true) :
    ∃ s', require_string (.object members') key = .ok s' ∧ is_valid_ipv4 s' = true := by
  apply hrewritten.reread_string (fun s => is_valid_ipv4 s = true) ⟨s, hread, hvalid⟩
  intro val hval
  obtain ⟨s', rfl, hfilter⟩ := hfields.address key hkey val hval
  exact ⟨s', rfl, is_valid_ipv4_of_filter_var hfilter⟩

/-- The integers of `system_cfg` that are not left alone, or that are checked, are small. -/
theorem SystemFields.is_int_of_assigned {recorded rotate180 : ℤ}
    (hfields : SystemFields fields recorded rotate180) {cfg : UserConfig}
    (hreads : SystemReads (.object members) cfg) (hmask : 0 ≤ cfg.netmask ∧ cfg.netmask ≤ 32)
    (hmodes : ValidModes cfg.recorded cfg.objectdet cfg.rotate180) {i : ℤ} {val : php.Value}
    (hkey : key ∈ system_ints) (hassigned : assigned "system_cfg" key fields = some val)
    (hget : obj_get (.object members) key = .int i) : is_int i = true := by
  have hmem : key ∈ ["ipaddress", "gateway", "netmask", "recorded", "rotate180"] := by
    by_contra hnot
    rw [hfields.other key hnot] at hassigned
    cases hassigned
  obtain ⟨hrecorded, -, hrotate⟩ := hmodes
  simp only [List.mem_cons, List.not_mem_nil, or_false] at hmem
  obtain rfl | rfl | rfl | rfl | rfl := hmem
  · exact absurd hkey (by decide)
  · exact absurd hkey (by decide)
  · exact is_int_of_require_int hreads.netmask (by omega) (by omega) hget
  · have hsmall := (is_one_of_int_iff _ _).mp hrecorded
    simp only [List.mem_cons, List.not_mem_nil, or_false] at hsmall
    exact is_int_of_require_int hreads.recorded (by omega) (by omega) hget
  · exact is_int_of_require_int hreads.rotate180 (by omega) (by omega) hget

theorem obj_get_int_of_require_int {members : List (String × Json)} {n i : ℤ}
    (hread : require_int (.object members) key = .ok n) (hget : obj_get (.object members) key = .int i) :
    n = json_object_get_int i := by
  obtain ⟨i', hget', rfl⟩ := obj_get_of_require_int hread
  obtain rfl : i' = i := by simpa [hget'] using hget
  rfl

/-- What is read back from the section `system_cfg` that is saved: integers where integers were stored, and the
two unchecked values. -/
theorem SystemFields.values_of_accepted {recorded rotate180 : ℤ} (hfields : SystemFields fields recorded rotate180)
    (hrewritten : Rewritten fields "system_cfg" members members') (hold : SystemAccepted (.object members))
    (hnew : SystemAccepted (.object members')) :
    (∀ key ∈ system_ints, ∀ i, Members.get key members = some (.int i) → is_int i = true) ∧
    (assigned "system_cfg" "recorded" fields ≠ none → recorded ∈ ([0, 1, 2] : List ℤ)) ∧
    (assigned "system_cfg" "rotate180" fields ≠ none → rotate180 ∈ ([0, 1] : List ℤ)) := by
  obtain ⟨cfg, hreads, ⟨-, hmask, -⟩, hmodes, -⟩ := hold
  obtain ⟨cfg', hreads', -, ⟨hrecorded', -, hrotate'⟩, -⟩ := hnew
  refine ⟨fun key hkey i hget => ?_, fun hset => ?_, fun hset => ?_⟩
  · cases hassigned : assigned "system_cfg" key fields with
    | none =>
      obtain ⟨n, hn⟩ := ints_of_system_reads hreads' key hkey
      exact (hrewritten.obj_get_int hassigned (obj_get_of_get hget)).2 n hn
    | some val =>
      exact hfields.is_int_of_assigned hreads hmask hmodes hkey hassigned (obj_get_of_get hget)
  · obtain ⟨val, hval⟩ := Option.ne_none_iff_exists'.mp hset
    have hobj := hrewritten.obj_get_of_assigned hval
    rw [hfields.recorded val hval] at hobj
    have hread := obj_get_int_of_require_int hreads'.recorded hobj
    have hsmall := (is_one_of_int_iff _ _).mp hrecorded'
    simp only [List.mem_cons, List.not_mem_nil, or_false] at hsmall ⊢
    have heq := eq_of_get_int hread (by omega) (by omega)
    omega
  · obtain ⟨val, hval⟩ := Option.ne_none_iff_exists'.mp hset
    have hobj := hrewritten.obj_get_of_assigned hval
    rw [hfields.rotate180 val hval] at hobj
    have hread := obj_get_int_of_require_int hreads'.rotate180 hobj
    have heq := eq_of_get_int hread (by omega) (by omega)
    simp only [List.mem_cons, List.not_mem_nil, or_false]
    omega

/-- With these it is accepted: its other members are checked by the form, or stay as they were. -/
theorem SystemFields.accepted_of_values {recorded rotate180 : ℤ} (hfields : SystemFields fields recorded rotate180)
    (hrewritten : Rewritten fields "system_cfg" members members')
    (hform : well_formed (.object members) = true) (hold : SystemAccepted (.object members))
    (hints : ∀ key ∈ system_ints, ∀ i, Members.get key members = some (.int i) → is_int i = true)
    (hvrecorded : assigned "system_cfg" "recorded" fields ≠ none → recorded ∈ ([0, 1, 2] : List ℤ))
    (hvrotate : assigned "system_cfg" "rotate180" fields ≠ none → rotate180 ∈ ([0, 1] : List ℤ)) :
    SystemAccepted (.object members') := by
  obtain ⟨cfg, hreads, ⟨hip, hmask, hgateway⟩, ⟨hrecorded, hobjectdet, hrotate⟩, hsize, hr0, hr180⟩ := hold
  have hint : ∀ key ∈ system_ints, ∀ i, obj_get (.object members) key = .int i → is_int i = true :=
    fun key hkey i hget => hints key hkey i (get_of_obj_get hget (by simp))
  obtain ⟨ip', hip', hvip⟩ := hfields.reread_address hrewritten (by simp) hreads.ipaddress hip
  obtain ⟨gateway', hgateway', hvgateway⟩ := hfields.reread_address hrewritten (by simp) hreads.gateway hgateway
  obtain ⟨mask', hmask', hvmask⟩ := hrewritten.reread_int (fun n => 0 ≤ n ∧ n ≤ 32)
    ⟨_, hreads.netmask, hmask⟩ (hint _ (by decide)) fun val hval => by
      obtain ⟨i, hi, rfl⟩ := hfields.netmask val hval
      have hall : ∀ i ∈ valid_netmasks, 0 ≤ json_object_get_int i ∧ json_object_get_int i ≤ 32 := by decide
      exact ⟨i, rfl, hall i hi⟩
  obtain ⟨recorded', hrecorded', hvrecorded'⟩ :=
    hrewritten.reread_int (fun n => is_one_of_int n [0, 1, 2] = true)
    ⟨_, hreads.recorded, hrecorded⟩ (hint _ (by decide)) fun val hval => by
      have hall : ∀ i ∈ ([0, 1, 2] : List ℤ), is_one_of_int (json_object_get_int i) [0, 1, 2] = true := by
        decide
      exact ⟨recorded, hfields.recorded val hval, hall _ (hvrecorded (by rw [hval]; simp))⟩
  obtain ⟨rotate', hrotate', hvrotate'⟩ := hrewritten.reread_int (fun n => n = 0 ∨ n = 1)
    ⟨_, hreads.rotate180, hrotate⟩ (hint _ (by decide)) fun val hval => by
      have hall : ∀ i ∈ ([0, 1] : List ℤ), json_object_get_int i = 0 ∨ json_object_get_int i = 1 := by decide
      exact ⟨rotate180, hfields.rotate180 val hval, hall _ (hvrotate (by rw [hval]; simp))⟩
  refine ⟨{ cfg with
    ipaddress := ip'
    netmask := mask'
    gateway := gateway'
    recorded := recorded'
    rotate180 := rotate' }, ?_, ⟨hvip, hvmask, hvgateway⟩, ⟨hvrecorded', hobjectdet, hvrotate'⟩,
    hsize, hr0, hr180⟩
  have hkept : ∀ key ∈ system_ints, key ∉ ["ipaddress", "gateway", "netmask", "recorded", "rotate180"] →
      ∀ {n}, require_int (.object members) key = .ok n → require_int (.object members') key = .ok n :=
    fun key hkey hother _ hread => hrewritten.require_int (hfields.other key hother) hread (hint key hkey)
  obtain ⟨size, hsize_get, hsize_eq⟩ := obj_get_of_require_int64 hreads.rec_dick_size
  have hsize' := (hrewritten.obj_get_int (hfields.other _ (by decide)) hsize_get).1
    (hint _ (by decide) _ hsize_get)
  have hblend := hrewritten.require_float hform (hfields.other _ (by decide)) hreads.blend_strength
  have hdev := hrewritten.require_string (hfields.other _ (by decide)) hreads.dev_name
  cases hreads
  constructor
  case ipaddress => exact hip'
  case netmask => exact hmask'
  case gateway => exact hgateway'
  case recorded => exact hrecorded'
  case rotate180 => exact hrotate'
  case blend_strength => exact hblend
  case dev_name => exact hdev
  case rec_dick_size => rw [require_int64, hsize', hsize_eq]
  -- the form has none of the other integers
  all_goals
    apply hkept _ (by decide) (by decide)
    assumption

/-- The section `system_cfg` that is saved is accepted if its integers are still integers and the two
unchecked values are on the lists of the camera process. -/
theorem system_accepted_iff {recorded rotate180 : ℤ} (hfields : SystemFields fields recorded rotate180)
    (hrewritten : Rewritten fields "system_cfg" members members')
    (hform : well_formed (.object members) = true) (hold : SystemAccepted (.object members)) :
    SystemAccepted (.object members') ↔
      (∀ key ∈ system_ints, ∀ i, Members.get key members = some (.int i) → is_int i = true) ∧
      (assigned "system_cfg" "recorded" fields ≠ none → recorded ∈ ([0, 1, 2] : List ℤ)) ∧
      (assigned "system_cfg" "rotate180" fields ≠ none → rotate180 ∈ ([0, 1] : List ℤ)) := by
  constructor
  · exact hfields.values_of_accepted hrewritten hold
  · rintro ⟨hints, hvrecorded, hvrotate⟩
    exact hfields.accepted_of_values hrewritten hform hold hints hvrecorded hvrotate

/-- A datarate that the camera process takes. -/
def ValidMbps (unspecified : binary_float.Value → ℤ) (mbps : binary_float.Value) : Prop :=
  ∃ q, mbps = .fin q ∧ 0 < q ∧ bps_of_mbps unspecified (.fin q) ∈ camera_bps

/-- A datarate from the form is accepted if JSON has it and the camera process takes it. -/
theorem datarate_assigned_iff (unspecified : binary_float.Value → ℤ)
    (hrewritten : Rewritten fields name members members') {mbps : binary_float.Value}
    (hmbps : binary64.convert mbps = mbps) (hassigned : assigned name "datarate" fields = some (.float mbps)) :
    (∃ bps, require_datarate_bps_from_mbps unspecified (.object members') "datarate" = .ok bps ∧
      ValidDatarate bps) ↔ ValidMbps unspecified mbps := by
  have hobj := hrewritten.obj_get_of_assigned hassigned
  cases mbps with
  | fin q =>
    obtain ⟨j, hj⟩ : ∃ j, json_encode_double (.fin q) = some j := by
      rw [json_encode_double]
      split <;> exact ⟨_, rfl⟩
    obtain ⟨hvalue, htype⟩ := json_encode_double_eq_some hj hmbps
    rw [json_encode, hj, Option.getD_some] at hobj
    rw [require_datarate_of_number unspecified (hobj ▸ htype), hobj, hvalue, positive_datarate]
    have hbounds := int_cast_bounds (llround unspecified (binary64.mulFin (.fin q) 1000000))
    by_cases hpos : 0 < q
    · rw [if_neg (by simpa using hpos)]
      simp only [Except.ok.injEq, exists_eq_left', ValidMbps, Value.fin.injEq, hpos, true_and]
      exact validDatarate_iff hbounds.1 hbounds.2
    · rw [if_pos (by simpa using hpos)]
      constructor
      · rintro ⟨bps, h, -⟩
        cases h
      · rintro ⟨q', hq', hpos', -⟩
        obtain rfl := binary_float.Value.fin.inj hq'
        exact absurd hpos' hpos
  | nan | inf _ =>
    -- the text would not be JSON
    have hnull : obj_get (.object members') "datarate" = .null := hobj
    constructor
    · rintro ⟨bps, h, -⟩
      rw [require_datarate_bps_from_mbps, hnull] at h
      cases h
    · rintro ⟨q, hq, -⟩
      cases hq

theorem datarate_kept {unspecified : binary_float.Value → ℤ}
    (hrewritten : Rewritten fields name members members') (hform : well_formed (.object members) = true)
    (hassigned : assigned name "datarate" fields = none) {bps : ℤ}
    (hread : require_datarate_bps_from_mbps unspecified (.object members) "datarate" = .ok bps) :
    require_datarate_bps_from_mbps unspecified (.object members') "datarate" = .ok bps := by
  have hnumber := number_of_require_datarate hread
  obtain ⟨hnumber', hvalue⟩ := hrewritten.obj_get_number hform hassigned hnumber
  rw [require_datarate_of_number unspecified hnumber', hvalue, ← require_datarate_of_number unspecified hnumber,
    hread]

/-- What the form sets in a stream: all three members, or none. -/
structure StreamFields (fields : List Field) (name : String) (set : Prop) (res fps : ℤ)
    (mbps : binary_float.Value) : Prop where
  resolution : set → assigned name "resolution" fields = some (.int res)
  fps : set → assigned name "fps" fields = some (.int fps)
  datarate : set → assigned name "datarate" fields = some (.float mbps)
  unset : ¬ set → ∀ key, assigned name key fields = none

/-- A stream that is saved is accepted if what the form has set is on the lists of the camera process. -/
theorem stream_accepted_iff {max_stream_fps : ℤ} {unspecified : binary_float.Value → ℤ} {set : Prop}
    {res fps : ℤ} {mbps : binary_float.Value} (hfields : StreamFields fields name set res fps mbps)
    (hfps : fps ∈ fps_options max_stream_fps) (hmbps : binary64.convert mbps = mbps)
    (hrewritten : Rewritten fields name members members') (hform : well_formed (.object members) = true)
    (hold : StreamAccepted max_stream_fps unspecified (.object members)) :
    StreamAccepted max_stream_fps unspecified (.object members') ↔
      (set → res ∈ ([720, 1080] : List ℤ) ∧ ValidMbps unspecified mbps) := by
  obtain ⟨⟨r, hr, hvr⟩, ⟨f, hf, hvf⟩, ⟨b, hb, hvb⟩⟩ := hold
  by_cases hset : set
  · have hres_get := hrewritten.obj_get_of_assigned (hfields.resolution hset)
    have hfps_get := hrewritten.obj_get_of_assigned (hfields.fps hset)
    rw [StreamAccepted, datarate_assigned_iff unspecified hrewritten hmbps (hfields.datarate hset)]
    have hfps' : ∃ fps, require_int (.object members') "fps" = .ok fps ∧ ValidFps max_stream_fps fps := by
      refine ⟨json_object_get_int fps, by rw [require_int, hfps_get]; rfl, ?_⟩
      have hall : ∀ fps ∈ ([60, 30, 20, 15, 10, 5, 1] : List ℤ),
          json_object_get_int fps = fps ∧ is_one_of_int fps allowed_fps = true := by decide
      obtain ⟨hmem, hmax⟩ := List.mem_filter.mp hfps
      obtain ⟨hread, hallowed⟩ := hall fps hmem
      rw [hread]
      exact ⟨hallowed, of_decide_eq_true hmax⟩
    have hres' : (∃ res, require_int (.object members') "resolution" = .ok res ∧ ValidResolution res) ↔
        res ∈ ([720, 1080] : List ℤ) := by
      rw [require_int, hres_get]
      simp only [json_encode, Option.getD_some, Except.ok.injEq, exists_eq_left', ValidResolution,
        is_one_of_int_iff, allowed_res]
      constructor
      · intro hmem
        simp only [List.mem_cons, List.not_mem_nil, or_false] at hmem ⊢
        have heq := eq_of_get_int (i := res) rfl (by omega) (by omega)
        omega
      · have hall : ∀ res ∈ ([720, 1080] : List ℤ), json_object_get_int res ∈ ([720, 1080] : List ℤ) := by
          decide
        exact hall res
    rw [hres']
    exact ⟨fun h _ => ⟨h.1, h.2.2⟩, fun h => ⟨(h hset).1, hfps', (h hset).2⟩⟩
  · have hnone := hfields.unset hset
    have hr_small := (is_one_of_int_iff _ _).mp hvr
    have hf_small := (is_one_of_int_iff _ _).mp hvf.1
    simp only [allowed_res, allowed_fps, List.mem_cons, List.not_mem_nil, or_false] at hr_small hf_small
    refine ⟨fun _ h => absurd h hset, fun _ => ⟨⟨r, ?_, hvr⟩, ⟨f, ?_, hvf⟩, b,
      datarate_kept hrewritten hform (hnone _) hb, hvb⟩⟩
    · exact hrewritten.require_int (hnone _) hr fun i => is_int_of_require_int hr (by omega) (by omega)
    · exact hrewritten.require_int (hnone _) hf fun i => is_int_of_require_int hf (by omega) (by omega)

/-- The section `bright_tuner` is saved as it was stored. -/
theorem bright_tuner_accepted (hnone : ∀ key, assigned name key fields = none)
    (hrewritten : Rewritten fields name members members') (hform : well_formed (.object members) = true)
    (hold : BrightTunerAccepted (.object members)) : BrightTunerAccepted (.object members') := by
  obtain ⟨bright_tuner, hparse, hvalid⟩ := hold
  refine ⟨bright_tuner, ?_, hvalid⟩
  simp only [validate_bright_tuner, checked.check_bind_eq_ok_iff, reject_if_eq_ok_iff,
    Bool.or_eq_false_iff, decide_eq_false_iff_not, not_le, not_lt] at hvalid
  simp only [parse_bright_tuner, checked.bind_eq_ok_iff, pure, Except.pure, Except.ok.injEq] at hparse ⊢
  obtain ⟨_, h1, _, h2, _, h3, _, h4, _, h5, _, h6, _, h7, _, h8, _, h9, _, h10, _, h11, rfl⟩ := hparse
  obtain ⟨-, hcooldown, hgain, hexpo, hstable, -⟩ := hvalid
  dsimp only at hcooldown hgain hexpo hstable
  have hfloat : ∀ {key x}, require_float (.object members) key = .ok x →
      require_float (.object members') key = .ok x :=
    fun hread => hrewritten.require_float hform (hnone _) hread
  have hint : ∀ {key n}, require_int (.object members) key = .ok n → -2147483648 < n → n < 2147483647 →
      require_int (.object members') key = .ok n :=
    fun hread hlo hhi => hrewritten.require_int (hnone _) hread fun i => is_int_of_require_int hread hlo hhi
  exact ⟨_, hfloat h1, _, hint h2 (by omega) (by omega), _, hint h3 (by omega) (by omega), _,
    hint h4 (by omega) (by omega), _, hint h5 (by omega) (by omega), _, hfloat h6, _, hfloat h7, _,
    hfloat h8, _, hfloat h9, _, hfloat h10, _, hfloat h11, rfl⟩

end k180.setting
