import K180.RestServer.Sections
import K180.UserCfg.Acceptance
import K180.UserCfg.Datarate

open json_c binary_float libc k180.user_cfg

namespace k180.restful_api_server

/-- The datarates the REST server allows, in bits per second. -/
def rest_nominal_bps : List ℤ := [200000, 500000, 1000000, 2000000, 4000000, 6000000, 8000000]

/-- The rates in bits per second that both sides take. -/
def agreed_bps : List ℤ :=
  [1000000, 1000001, 1999999, 2000000, 4000000, 6000000, 8000000, 8000001]

def rest_tolerance : ℚ := binary64.quantize (1 / 10000)

def rest_mbps (nominal : ℤ) : ℚ := binary64.quantize (nominal / 1000000)

/-- A value passes the list of datarates only if it is a number within the tolerance of one of them. -/
theorem rest_datarate_near {mbps : Value}
    (hlist : is_in_double_list mbps [0.2, 0.5, 1.0, 2.0, 4.0, 6.0, 8.0] = true) :
    ∃ q, mbps = .fin q ∧ ∃ nominal ∈ rest_nominal_bps, |q - rest_mbps nominal| < rest_tolerance := by
  have hallowed : ([0.2, 0.5, 1.0, 2.0, 4.0, 6.0, 8.0] : List ℚ) =
      rest_nominal_bps.map fun nominal : ℤ => (nominal : ℚ) / 1000000 := by decide +kernel
  have hnominal : ∀ nominal ∈ rest_nominal_bps, binary64.round ((nominal : ℚ) / 1000000) =
      .fin (rest_mbps nominal) := by decide +kernel
  have htolerance : binary64.round (1 / 10000) = .fin rest_tolerance := by decide +kernel
  have hbound : rest_tolerance ≤ 2 ^ binary64.emax := by decide +kernel
  have hexact : binary64.quantize rest_tolerance = rest_tolerance := by decide +kernel
  rw [is_in_double_list, hallowed, List.any_map, List.any_eq_true, htolerance] at hlist
  obtain ⟨nominal, hmem, hnear⟩ := hlist
  rw [Function.comp_apply, hnominal nominal hmem] at hnear
  cases mbps with
  | nan => cases hnear
  | inf negative => cases hnear
  | fin q =>
    refine ⟨q, rfl, nominal, hmem, ?_⟩
    have hround := abs_lt.mp ((binary64.abs_round_lt_fin_iff hbound).mp hnear)
    rw [abs_lt]
    constructor
    · by_contra hfar
      have hmono := binary64.quantize_mono (not_lt.mp hfar)
      rw [binary64.quantize_neg, hexact] at hmono
      exact absurd hround.1 (not_lt.mpr hmono)
    · by_contra hfar
      have hmono := binary64.quantize_mono (not_lt.mp hfar)
      rw [hexact] at hmono
      exact absurd hround.2 (not_lt.mpr hmono)

/-- A datarate that passes the REST server is positive, and at most 100 bits per second from one it
allows. -/
theorem rest_datarate_bps {mbps : Value} (unspecified : Value → ℤ)
    (hlist : is_in_double_list mbps [0.2, 0.5, 1.0, 2.0, 4.0, 6.0, 8.0] = true) :
    mbps.le (.fin 0) = false ∧ ∃ nominal ∈ rest_nominal_bps,
      nominal - 100 ≤ bps_of_mbps unspecified mbps ∧ bps_of_mbps unspecified mbps ≤ nominal + 100 := by
  obtain ⟨q, rfl, nominal, hmem, hnear⟩ := rest_datarate_near hlist
  obtain ⟨hbelow, habove⟩ := abs_lt.mp hnear
  have hends : ∀ nominal ∈ rest_nominal_bps, 0 < rest_mbps nominal - rest_tolerance ∧
      ((nominal - 100 : ℤ) : ℚ) - 1 / 2 ≤
        binary64.quantize ((rest_mbps nominal - rest_tolerance) * 1000000) ∧
      binary64.quantize ((rest_mbps nominal + rest_tolerance) * 1000000) <
        ((nominal + 100 : ℤ) : ℚ) + 1 / 2 := by
    decide +kernel
  have hrange : ∀ nominal ∈ rest_nominal_bps, 100 < nominal ∧ nominal ≤ 8000000 := by decide
  obtain ⟨hpos, hlo, hhi⟩ := hends nominal hmem
  obtain ⟨hmin, hmax⟩ := hrange nominal hmem
  have hqpos : 0 < q := by linarith
  have hxlo := binary64.quantize_mono
    (show (rest_mbps nominal - rest_tolerance) * 1000000 ≤ q * 1000000 by linarith)
  have hxhi := binary64.quantize_mono
    (show q * 1000000 ≤ (rest_mbps nominal + rest_tolerance) * 1000000 by linarith)
  have hxpos : 0 ≤ binary64.quantize (q * 1000000) := binary64.quantize_nonneg (by linarith)
  have hfinite : |binary64.quantize (q * 1000000)| < 2 ^ binary64.emax := by
    have hlarge : (8000101 : ℚ) < 2 ^ binary64.emax := by decide +kernel
    have hcast : ((nominal + 100 : ℤ) : ℚ) ≤ 8000100 := by exact_mod_cast (by omega)
    rw [abs_of_nonneg hxpos]
    linarith
  have hround := round_half_away_bounds (hlo.trans hxlo) hxpos (hxhi.trans_lt hhi)
  have hbps : bps_of_mbps unspecified (.fin q) = round_half_away (binary64.quantize (q * 1000000)) := by
    rw [bps_of_mbps, Format.mulFin, binary64.round_eq_fin hfinite, llround, if_pos (by omega)]
    exact int_cast_of_bounds (by omega) (by omega)
  refine ⟨?_, nominal, hmem, ?_⟩
  · rw [Value.le_fin, decide_eq_false_iff_not, not_le]
    exact hqpos
  · rw [hbps]
    exact hround

/-- Of the datarates that pass the REST server, the camera process takes those on which the two lists
agree. -/
theorem rest_datarate_valid_iff {mbps : Value} (unspecified : Value → ℤ)
    (hlist : is_in_double_list mbps [0.2, 0.5, 1.0, 2.0, 4.0, 6.0, 8.0] = true) :
    ValidDatarate (bps_of_mbps unspecified mbps) ↔ bps_of_mbps unspecified mbps ∈ agreed_bps := by
  obtain ⟨_, nominal, hmem, hlo, hhi⟩ := rest_datarate_bps unspecified hlist
  have hrange : ∀ nominal ∈ rest_nominal_bps, 100 < nominal ∧ nominal ≤ 8000000 := by decide
  have hcommon : ∀ nominal ∈ rest_nominal_bps, ∀ n ∈ camera_bps,
      nominal - 100 ≤ n → n ≤ nominal + 100 → n ∈ agreed_bps := by decide
  have hsubset : ∀ n ∈ agreed_bps, n ∈ camera_bps := by decide
  obtain ⟨hmin, hmax⟩ := hrange nominal hmem
  rw [validDatarate_iff (by omega) (by omega)]
  exact ⟨fun h => hcommon nominal hmem _ h hlo hhi, hsubset _⟩

theorem of_int_check (ok : ℤ → Bool) {v : Json}
    (hcheck : (match v with
      | .int i => ok (json_object_get_int i)
      | _ => false) = true) : ∃ i, v = .int i ∧ ok (json_object_get_int i) = true := by
  cases v with
  | int i => exact ⟨i, rfl, hcheck⟩
  | _ => cases hcheck

theorem of_string_check (ok : List Char → Bool) {v : Json}
    (hcheck : (match v with
      | .string s => ok (c_str s)
      | _ => false) = true) : ∃ s, v = .string s ∧ ok (c_str s) = true := by
  cases v with
  | string s => exact ⟨s, rfl, hcheck⟩
  | _ => cases hcheck

theorem of_datarate_check {max_fps : ℤ} {v : Json} (hcheck : validate_field max_fps "datarate" v = true) :
    ((∃ i, v = .int i) ∨ ∃ x, v = .double x) ∧
      is_in_double_list (json_object_get_double v) [0.2, 0.5, 1.0, 2.0, 4.0, 6.0, 8.0] = true := by
  have hparts : ((json_object_is_type v .double || json_object_is_type v .int) &&
      is_in_double_list (json_object_get_double v) [0.2, 0.5, 1.0, 2.0, 4.0, 6.0, 8.0]) = true := hcheck
  rw [Bool.and_eq_true] at hparts
  refine ⟨?_, hparts.2⟩
  cases v with
  | int i => exact .inl ⟨i, rfl⟩
  | double x => exact .inr ⟨x, rfl⟩
  | _ => cases hparts.1

section Reread

variable {subs subs' : List (String × Json)} {key : String} {set : Option Json}

theorem obj_get_of_set {v : Json} (hget : Members.get key subs' = set.or (Members.get key subs))
    (hset : set = some v) : obj_get (.object subs') key = v := by
  rw [obj_get, json_object_object_get_ex_object, hget, hset, Option.some_or, Option.getD_some]

theorem obj_get_of_unset (hget : Members.get key subs' = set.or (Members.get key subs))
    (hset : set = none) : obj_get (.object subs') key = obj_get (.object subs) key := by
  rw [obj_get, json_object_object_get_ex_object, hget, hset, Option.none_or]
  rfl

/-- An integer member stays readable and valid when what it is set to is valid. -/
theorem reread_int (ok : ℤ → Prop) (hold : ∃ n, require_int (.object subs) key = .ok n ∧ ok n)
    (hget : Members.get key subs' = set.or (Members.get key subs))
    (hnew : ∀ v, set = some v → ∃ i, v = .int i ∧ ok (json_object_get_int i)) :
    ∃ n, require_int (.object subs') key = .ok n ∧ ok n := by
  cases hset : set with
  | none =>
    obtain ⟨n, hn, hok⟩ := hold
    refine ⟨n, ?_, hok⟩
    rw [require_int, obj_get_of_unset hget hset]
    exact hn
  | some v =>
    obtain ⟨i, rfl, hok⟩ := hnew v hset
    refine ⟨json_object_get_int i, ?_, hok⟩
    rw [require_int, obj_get_of_set hget hset]

theorem reread_string (ok : List Char → Prop)
    (hold : ∃ s, require_string (.object subs) key = .ok s ∧ ok s)
    (hget : Members.get key subs' = set.or (Members.get key subs))
    (hnew : ∀ v, set = some v → ∃ s, v = .string s ∧ ok (c_str s)) :
    ∃ s, require_string (.object subs') key = .ok s ∧ ok s := by
  cases hset : set with
  | none =>
    obtain ⟨s, hs, hok⟩ := hold
    refine ⟨s, ?_, hok⟩
    rw [require_string, obj_get_of_unset hget hset]
    exact hs
  | some v =>
    obtain ⟨s, rfl, hok⟩ := hnew v hset
    refine ⟨c_str s, ?_, hok⟩
    rw [require_string, obj_get_of_set hget hset]

end Reread

/-- Every one of the listed integers is on the list of the camera process. -/
theorem is_one_of_int_of_is_in_int_list {n : ℤ} {small large : List ℤ}
    (hsub : ∀ m ∈ small, m ∈ large) (hsmall : is_in_int_list n small = true) :
    is_one_of_int n large = true := by
  have hmem : n ∈ small := by simpa [is_in_int_list] using hsmall
  simpa [is_one_of_int] using hsub n hmem

/-- Whatever an accepted request does to `system_cfg`, the camera process still takes the section. -/
theorem system_accepted_update (max_fps : ℤ) {subs subs' : List (String × Json)}
    {set : String → Option Json} (hold : SystemAccepted (.object subs))
    (hget : ∀ key, Members.get key subs' = (set key).or (Members.get key subs))
    (hset : ∀ key v, set key = some v →
      key ∈ valid_system_cfg_keys ∧ validate_field max_fps key v = true) :
    SystemAccepted (.object subs') := by
  obtain ⟨cfg, hreads, ⟨hip, hmask, hgateway⟩, ⟨hrecorded, hobjectdet, hrotate⟩, hfixed⟩ := hold
  have hsame : ∀ key, key ∉ valid_system_cfg_keys →
      obj_get (.object subs') key = obj_get (.object subs) key := by
    intro key hkey
    refine obj_get_of_unset (hget key) ?_
    cases hcase : set key with
    | none => rfl
    | some v => exact absurd (hset key v hcase).1 hkey
  obtain ⟨ip', hip', hvip⟩ := reread_string (fun s => is_valid_ipv4 s = true)
    ⟨_, hreads.ipaddress, hip⟩ (hget "ipaddress") fun v hv => of_string_check is_valid_ip (hset _ v hv).2
  obtain ⟨gateway', hgateway', hvgateway⟩ := reread_string (fun s => is_valid_ipv4 s = true)
    ⟨_, hreads.gateway, hgateway⟩ (hget "gateway") fun v hv => of_string_check is_valid_ip (hset _ v hv).2
  obtain ⟨mask', hmask', hvmask⟩ := reread_int (fun n => 0 ≤ n ∧ n ≤ 32)
    ⟨_, hreads.netmask, hmask⟩ (hget "netmask") fun v hv => by
      obtain ⟨i, hi, hok⟩ := of_int_check (fun n => !(n < 8 || 32 < n)) (hset _ v hv).2
      refine ⟨i, hi, ?_⟩
      rw [Bool.not_eq_true', Bool.or_eq_false_iff, decide_eq_false_iff_not, decide_eq_false_iff_not] at hok
      omega
  obtain ⟨recorded', hrecorded', hvrecorded⟩ := reread_int (fun n => is_one_of_int n [0, 1, 2] = true)
    ⟨_, hreads.recorded, hrecorded⟩ (hget "recorded") fun v hv => by
      obtain ⟨i, hi, hok⟩ := of_int_check (fun n => is_in_int_list n [0, 1, 2]) (hset _ v hv).2
      exact ⟨i, hi, is_one_of_int_of_is_in_int_list (by decide) hok⟩
  obtain ⟨objectdet', hobjectdet', hvobjectdet⟩ :=
    reread_int (fun n => is_one_of_int n [0, 1, 2] = true)
    ⟨_, hreads.objectdet, hobjectdet⟩ (hget "objectdet") fun v hv => by
      obtain ⟨i, hi, hok⟩ := of_int_check (fun n => is_in_int_list n [0, 1]) (hset _ v hv).2
      exact ⟨i, hi, is_one_of_int_of_is_in_int_list (by decide) hok⟩
  obtain ⟨rotate', hrotate', hvrotate⟩ := reread_int (fun n => n = 0 ∨ n = 1)
    ⟨_, hreads.rotate180, hrotate⟩ (hget "rotate180") fun v hv => by
      obtain ⟨i, hi, hok⟩ := of_int_check (fun n => is_in_int_list n [0, 1]) (hset _ v hv).2
      exact ⟨i, hi, by simpa [is_in_int_list] using hok⟩
  refine ⟨{ cfg with
    ipaddress := ip'
    netmask := mask'
    gateway := gateway'
    recorded := recorded'
    objectdet := objectdet'
    rotate180 := rotate' }, ?_, ⟨hvip, hvmask, hvgateway⟩, ⟨hvrecorded, hvobjectdet, hvrotate⟩, hfixed⟩
  have hint : ∀ key ∉ valid_system_cfg_keys,
      require_int (.object subs') key = require_int (.object subs) key := by
    intro key hkey
    rw [require_int, hsame key hkey]
    rfl
  cases hreads
  constructor
  case ipaddress => exact hip'
  case netmask => exact hmask'
  case gateway => exact hgateway'
  case recorded => exact hrecorded'
  case objectdet => exact hobjectdet'
  case rotate180 => exact hrotate'
  case blend_strength =>
    rw [require_float, hsame _ (by decide)]
    assumption
  case rec_dick_size =>
    rw [require_int64, hsame _ (by decide)]
    assumption
  case dev_name =>
    rw [require_string, hsame _ (by decide)]
    assumption
  -- no request can set one of the other integers
  all_goals
    rw [hint _ (by decide)]
    assumption

theorem require_datarate_of_set {max_fps : ℤ} {subs subs' : List (String × Json)} {set : Option Json}
    {v : Json} (unspecified : Value → ℤ)
    (hget : Members.get "datarate" subs' = set.or (Members.get "datarate" subs)) (hset : set = some v)
    (hcheck : validate_field max_fps "datarate" v = true) :
    require_datarate_bps_from_mbps unspecified (.object subs') "datarate" =
      .ok (bps_of_mbps unspecified (json_object_get_double v)) := by
  obtain ⟨htype, hlist⟩ := of_datarate_check hcheck
  obtain ⟨hpos, _⟩ := rest_datarate_bps unspecified hlist
  rw [require_datarate_bps_from_mbps, obj_get_of_set hget hset]
  obtain ⟨i, rfl⟩ | ⟨x, rfl⟩ := htype
  · simp only [positive_datarate, hpos, Bool.false_eq_true, if_false]
  · simp only [positive_datarate, hpos, Bool.false_eq_true, if_false]

/-- An accepted request leaves a stream object the camera process takes, unless it sets a datarate only
the REST server knows. -/
theorem stream_accepted_update_iff {max_fps : ℤ} {subs subs' : List (String × Json)}
    {set : String → Option Json} (unspecified : Value → ℤ)
    (hold : StreamAccepted max_fps unspecified (.object subs))
    (hget : ∀ key, Members.get key subs' = (set key).or (Members.get key subs))
    (hset : ∀ key v, set key = some v → validate_field max_fps key v = true) :
    StreamAccepted max_fps unspecified (.object subs') ↔
      ∀ v, set "datarate" = some v → bps_of_mbps unspecified (json_object_get_double v) ∈ agreed_bps := by
  obtain ⟨hres, hfps, hrate⟩ := hold
  have hres' := reread_int ValidResolution hres (hget "resolution") fun v hv => by
    obtain ⟨i, hi, hok⟩ := of_int_check (fun n => is_in_int_list n [720, 1080]) (hset _ v hv)
    exact ⟨i, hi, is_one_of_int_of_is_in_int_list (by decide) hok⟩
  have hfps' := reread_int (ValidFps max_fps) hfps (hget "fps") fun v hv => by
    obtain ⟨i, hi, hok⟩ := of_int_check (fun n => is_valid_stream_fps max_fps n) (hset _ v hv)
    rw [is_valid_stream_fps, Bool.and_eq_true, decide_eq_true_eq] at hok
    exact ⟨i, hi, is_one_of_int_of_is_in_int_list (by decide) hok.1, hok.2⟩
  constructor
  · rintro ⟨_, _, bps, hbps, hvalid⟩ v hv
    have hcheck := hset _ v hv
    rw [require_datarate_of_set unspecified (hget _) hv hcheck, Except.ok.injEq] at hbps
    rw [← rest_datarate_valid_iff unspecified (of_datarate_check hcheck).2, hbps]
    exact hvalid
  · intro hagreed
    refine ⟨hres', hfps', ?_⟩
    cases hcase : set "datarate" with
    | none =>
      obtain ⟨bps, hbps, hvalid⟩ := hrate
      refine ⟨bps, ?_, hvalid⟩
      rw [require_datarate_bps_from_mbps, obj_get_of_unset (hget _) hcase]
      exact hbps
    | some v =>
      have hcheck := hset _ v hcase
      refine ⟨_, require_datarate_of_set unspecified (hget _) hcase hcheck, ?_⟩
      rw [rest_datarate_valid_iff unspecified (of_datarate_check hcheck).2]
      exact hagreed v hcase

/-- For every configuration the camera process loads, and all updates the REST server accepts: the
updated configuration loads again exactly when, for each stream, the datarate set last is one of those
on which the two lists agree. -/
theorem updated_config_accepted_iff (max_fps : ℤ) (unspecified : Value → ℤ) (json_path : String)
    (config : List (String × Json)) (items : List Json)
    (hloads : Accepts max_fps unspecified json_path (.object config))
    (hvalid : ∀ item ∈ items, is_valid_query item = true)
    (haccepted : UpdatesAccepted max_fps config items) :
    Accepts max_fps unspecified json_path (.object (updated_config config items)) ↔
      ∀ stream ∈ [MEMBER_STREAM1, MEMBER_STREAM2], ∀ v, last_set stream JSON_DATARATE items = some v →
        bps_of_mbps unspecified (json_object_get_double v) ∈ agreed_bps := by
  obtain ⟨sys, s1, s2, bt, hgetSys, hget1, hget2, hgetBt⟩ := sections_of_accepts hloads
  obtain ⟨hsystem, hstream1, hstream2, hbright⟩ :=
    (accepts_sections_iff hgetSys hget1 hget2 hgetBt).mp hloads
  have hsections : HasSections config := by
    intro top_key hmem
    simp only [valid_top_keys, List.mem_cons, List.not_mem_nil, or_false] at hmem
    obtain rfl | rfl | rfl := hmem
    · exact ⟨sys, hgetSys⟩
    · exact ⟨s1, hget1⟩
    · exact ⟨s2, hget2⟩
  obtain ⟨sys', hgetSys', hkeysSys⟩ := get_section_updated_config config items hvalid hgetSys
  obtain ⟨s1', hget1', hkeys1⟩ := get_section_updated_config config items hvalid hget1
  obtain ⟨s2', hget2', hkeys2⟩ := get_section_updated_config config items hvalid hget2
  have hgetBt' : Members.get "bright_tuner" (updated_config config items) = some (.object bt) := by
    rw [get_updated_config_of_not_valid config items hvalid (by decide), hgetBt]
  have hset : ∀ {top_key key : String} {v : Json}, last_set top_key key items = some v →
      is_valid_sub top_key (key, v) = true ∧ validate_field max_fps key v = true :=
    fun hlast => validate_field_of_last_set hsections hvalid haccepted hlast
  have hsystem' : SystemAccepted (.object sys') := by
    refine system_accepted_update max_fps hsystem hkeysSys fun key v hv => ?_
    obtain ⟨hsub, hfield⟩ := hset hv
    have hscalar : json_object_is_type v .object = false := scalar_of_is_valid_sub hsub
    rw [is_valid_sub, hscalar, if_neg Bool.false_ne_true, if_pos rfl] at hsub
    exact ⟨mem_of_in_list hsub, hfield⟩
  have hstream1' := stream_accepted_update_iff unspecified hstream1 hkeys1 fun key v hv => (hset hv).2
  have hstream2' := stream_accepted_update_iff unspecified hstream2 hkeys2 fun key v hv => (hset hv).2
  rw [accepts_sections_iff hgetSys' hget1' hget2' hgetBt', hstream1', hstream2']
  constructor
  · rintro ⟨-, h1, h2, -⟩ stream hmem
    simp only [List.mem_cons, List.not_mem_nil, or_false] at hmem
    obtain rfl | rfl := hmem
    · exact h1
    · exact h2
  · intro hall
    exact ⟨hsystem', hall _ (List.mem_cons_self ..), hall _ (List.mem_cons_of_mem _ (List.mem_cons_self ..)),
      hbright⟩

/-- The configuration file that comes with the program. -/
def shipped_config : List (String × Json) :=
  [("system_cfg", .object
    [("ipaddress", .string "192.168.0.91"), ("netmask", .int 24), ("gateway", .string "192.168.50.1"),
      ("cam_num_1_r0", .int 0), ("cam_num_2_r0", .int 1), ("cam_num_3_r0", .int 2),
      ("cam_num_4_r0", .int 3), ("cam_num_1_r180", .int 3), ("cam_num_2_r180", .int 2),
      ("cam_num_3_r180", .int 1), ("cam_num_4_r180", .int 0), ("recorded", .int 1),
      ("objectdet", .int 0), ("draw_det", .int 1), ("draw_trk", .int 1), ("track_fps", .int 30),
      ("track_frame_rate", .int 30), ("rotate180", .int 0),
      ("blend_strength", .double (binary64.round 0.02)), ("seam_mse_thresh", .int 130),
      ("mask_cut", .int 230), ("rec_fps_adj", .int 25), ("seam_rate", .int 5),
      ("rec_dick_size", .int 30000000000), ("pic_w_0_1234", .int 5743), ("pic_h_0_1234", .int 965),
      ("pic_h_0_cut", .int 79), ("pic_w_180_1234", .int 5734), ("pic_h_180_1234", .int 990),
      ("pic_h_180_cut", .int 67), ("dev_name", .string "fd-k180-01")]),
    ("stream_1", .object [("resolution", .int 1080), ("fps", .int 60), ("datarate", .int 8)]),
    ("stream_2", .object [("resolution", .int 720), ("fps", .int 60), ("datarate", .int 1)]),
    ("bright_tuner", .object
      [("hysteresis_d_threshold", .int 2), ("adjust_cooldown_default", .int 4),
        ("max_gain_step", .int 50000), ("max_expo_step", .int 2000), ("stable_ok_required", .int 8),
        ("error_level_div", .int 5), ("k_hi", .double (binary64.round 1.1)),
        ("k_lo", .double (binary64.round 0.9)), ("sat_ratio_hi", .double (binary64.round 0.35)),
        ("sat_ratio_lo", .double (binary64.round 0.35)), ("mid_val", .int 110)])]

/-- A PUT body that sets the datarate of the first stream. -/
def datarate_update (mbps : Value) : Json := .object [("stream_1", .object [("datarate", .double mbps)])]

/-- What `cfg_status_str` and the text are about when loading fails. -/
def load_error (result : CfgResult UserConfig) : Option (CfgStatus × String) :=
  match result with
  | .ok _ => none
  | .error e => some e

theorem accepts_of_load_error {max_fps : ℤ} {unspecified : Value → ℤ} {json_path : String} {root : Json}
    (hnone : load_error (user_cfg_load_from_file max_fps unspecified json_path (.content root)) = none) :
    Accepts max_fps unspecified json_path root := by
  unfold Accepts
  cases hload : user_cfg_load_from_file max_fps unspecified json_path (.content root) with
  | ok cfg => exact ⟨cfg, rfl⟩
  | error e =>
    rw [hload] at hnone
    cases hnone

theorem not_accepts_of_load_error {max_fps : ℤ} {unspecified : Value → ℤ} {json_path : String}
    {root : Json} {e : CfgStatus × String}
    (hsome : load_error (user_cfg_load_from_file max_fps unspecified json_path (.content root)) = some e) :
    ¬ Accepts max_fps unspecified json_path root := by
  rintro ⟨cfg, hload⟩
  rw [hload] at hsome
  cases hsome

set_option maxRecDepth 10000 in
theorem updated_config_accepted_iff_shipped :
    Accepts 60 (fun _ => 0) "user_def_setting.json" (.object shipped_config) ∧
      (Accepts 60 (fun _ => 0) "user_def_setting.json"
          (.object (updated_config shipped_config [datarate_update (binary64.round 4)])) ↔
        ∀ stream ∈ [MEMBER_STREAM1, MEMBER_STREAM2], ∀ v,
          last_set stream JSON_DATARATE [datarate_update (binary64.round 4)] = some v →
          bps_of_mbps (fun _ => 0) (json_object_get_double v) ∈ agreed_bps) := by
  have hloads : Accepts 60 (fun _ => 0) "user_def_setting.json" (.object shipped_config) :=
    accepts_of_load_error (by decide +kernel)
  exact ⟨hloads, updated_config_accepted_iff 60 (fun _ => 0) "user_def_setting.json" shipped_config
    [datarate_update (binary64.round 4)] hloads (by decide +kernel) ⟨by decide +kernel, trivial⟩⟩

set_option maxRecDepth 10000 in
/-- A datarate of 0.2 is accepted by the REST server, and refused by the camera process with a message
that lists it as allowed. -/
theorem shipped_config_datarate_refused :
    Accepts 60 (fun _ => 0) "user_def_setting.json" (.object shipped_config) ∧
    is_valid_query (datarate_update (binary64.round 0.2)) = true ∧
    UpdatesAccepted 60 shipped_config [datarate_update (binary64.round 0.2)] ∧
    load_error (user_cfg_load_from_file 60 (fun _ => 0) "user_def_setting.json"
      (.content (.object (updated_config shipped_config [datarate_update (binary64.round 0.2)])))) =
      some (.VALIDATION_FAIL, "stream_1.datarate invalid: 0.2 Mbps (allowed: 0.2,0.5,1,2,4,6,8)") ∧
    ¬ Accepts 60 (fun _ => 0) "user_def_setting.json"
      (.object (updated_config shipped_config [datarate_update (binary64.round 0.2)])) := by
  have hrefused : load_error (user_cfg_load_from_file 60 (fun _ => 0) "user_def_setting.json"
      (.content (.object (updated_config shipped_config [datarate_update (binary64.round 0.2)])))) =
      some (.VALIDATION_FAIL, "stream_1.datarate invalid: 0.2 Mbps (allowed: 0.2,0.5,1,2,4,6,8)") := by
    decide +kernel
  exact ⟨accepts_of_load_error (by decide +kernel), by decide +kernel, ⟨by decide +kernel, trivial⟩,
    hrefused, not_accepts_of_load_error hrefused⟩

end k180.restful_api_server
