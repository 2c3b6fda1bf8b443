import K180.Php.Numeric

open php json_c

namespace k180.setting

/-- The fields of the form, each a string. -/
structure Post where
  res_1 : String
  fps_1 : String
  datarate_1 : String
  res_2 : String
  fps_2 : String
  datarate_2 : String
  local_recorded : String
  local_rotate180 : String
  sys_ip : String
  sys_netmask : String
  sys_gw : String

/-- The text of the configuration file: what json-c reads in it, and whether `json_decode` takes it too,
which is stricter. -/
structure ConfigText where
  root : Json
  decodes : Bool

/-- A member of a section of the configuration, with a value for it. -/
structure Field where
  section_name : String
  key : String
  val : Value

def valid_netmasks : List ℤ :=
  [8, 9, 10, 11, 12, 13, 14, 15, 16, 17, 18, 19, 20, 21, 22, 23, 24, 25, 26, 27, 28, 29, 30, 31, 32]

/-- `$fpsOptions` -/
def fps_options (max_stream_fps : ℤ) : List ℤ := [60, 30, 20, 15, 10, 5, 1].filter (· ≤ max_stream_fps)

def stream_fields (post : Post) : List Field :=
  [⟨"stream_1", "resolution", .int (intval post.res_1)⟩,
    ⟨"stream_1", "fps", .int (intval post.fps_1)⟩,
    ⟨"stream_1", "datarate", .float (floatval post.datarate_1)⟩,
    ⟨"stream_2", "resolution", .int (intval post.res_2)⟩,
    ⟨"stream_2", "fps", .int (intval post.fps_2)⟩,
    ⟨"stream_2", "datarate", .float (floatval post.datarate_2)⟩,
    ⟨"system_cfg", "recorded", .int (intval post.local_recorded)⟩,
    ⟨"system_cfg", "rotate180", .int (intval post.local_rotate180)⟩]

def system_fields (post : Post) : List Field :=
  [⟨"system_cfg", "ipaddress", .string post.sys_ip⟩,
    ⟨"system_cfg", "netmask", .int (intval post.sys_netmask)⟩,
    ⟨"system_cfg", "gateway", .string post.sys_gw⟩]

/-- `val1 != $old_jsonData[..][..] || val2 != …` -/
def changed (fields : List Field) (old_jsonData : Value) : Bool :=
  fields.any fun f => !loose_eq f.val ((old_jsonData.get f.section_name).get f.key)

/-- `$jsonData[..][..] = val1; …` -/
def assign (fields : List Field) (jsonData : Value) : Value :=
  fields.foldl (fun jsonData f => jsonData.set f.section_name ((jsonData.get f.section_name).set f.key f.val))
    jsonData

/-- `$stream_cfg_change` -/
def stream_cfg_change (post : Post) (old_jsonData : Value) : Bool := changed (stream_fields post) old_jsonData

/-- `$sys_cfg_change` -/
def sys_cfg_change (post : Post) (old_jsonData : Value) : Bool := changed (system_fields post) old_jsonData

/-- The check that a change of the network settings has to pass. -/
def valid_system (post : Post) : Bool :=
  filter_var_ipv4 post.sys_ip && filter_var_ipv4 post.sys_gw && valid_netmasks.contains (intval post.sys_netmask)

/-- The values that the form replaces. -/
def replaced (post : Post) (old_jsonData : Value) : List Field :=
  (if stream_cfg_change post old_jsonData then stream_fields post else []) ++
    (if sys_cfg_change post old_jsonData then system_fields post else [])

/-- What the file holds after an authorised POST, as json-c reads it; `none` when the page ends without
writing it. When `json_encode` fails the file is left empty. -/
def setting_post (max_stream_fps : ℤ) (text : ConfigText) (post : Post) : Option Json :=
  let jsonData := if text.decodes then json_decode text.root else .null
  match jsonData with
  | .null => none
  | jsonData =>
    if !((fps_options max_stream_fps).contains (intval post.fps_1) &&
        (fps_options max_stream_fps).contains (intval post.fps_2)) then none
    else if sys_cfg_change post jsonData && !valid_system post then none
    else if stream_cfg_change post jsonData || sys_cfg_change post jsonData then
      some ((json_encode (assign (replaced post jsonData) jsonData)).getD .null)
    else none

end k180.setting
