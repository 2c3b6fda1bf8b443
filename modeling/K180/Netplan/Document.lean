import K180.Json.Object

open json_c

namespace k180.modify_sysip_netplan

def MEMBER_SYSCFG := "system_cfg"
def JSON_SYS_IPADDR := "ipaddress"
def JSON_SYS_MASK := "netmask"
def JSON_SYS_GW := "gateway"

/-- `JSON_GET_SYS_IPADDR`, `JSON_GET_SYS_MASK` and `JSON_GET_SYS_GW`. -/
structure SysCfg where
  ipaddress : List Char
  netmask : ℤ
  gateway : List Char
deriving DecidableEq

/-- `json_object_object_get_ex` on what a call before it may have left NULL. -/
def get_ex (obj : Option Json) (key : String) : Option Json := obj.bind fun obj => json_object_object_get_ex obj key

def byte_length (s : List Char) : ℕ := (s.flatMap String.utf8EncodeChar).length

/-- `snprintf(buf, json_object_get_string_len(tmp_obj) + 1, "%s", json_object_get_string(tmp_obj))` into a
buffer of 16 bytes: only a string has a length. `none` when the buffer is too small. -/
def get_text (tmp_obj : Option Json) : Option (List Char) :=
  match tmp_obj with
  | some (.string s) => if byte_length (c_str s) ≤ 15 then some (c_str s) else none
  | _ => some []

/-- `json_object_get_int(tmp_obj)`; `none` for a double or a string, which no store gives a netmask. -/
def get_mask (tmp_obj : Option Json) : Option ℤ :=
  match tmp_obj with
  | some (.int i) => some (json_object_get_int i)
  | some (.boolean b) => some (if b then 1 else 0)
  | some (.double _) | some (.string _) => none
  | _ => some 0

/-- What `main` reads in the configuration file. -/
def read_config (root_obj : Json) : Option SysCfg := do
  let main_obj := json_object_object_get_ex root_obj MEMBER_SYSCFG
  let ipaddress ← get_text (get_ex main_obj JSON_SYS_IPADDR)
  let netmask ← get_mask (get_ex main_obj JSON_SYS_MASK)
  let gateway ← get_text (get_ex main_obj JSON_SYS_GW)
  return { ipaddress, netmask, gateway }

/-- A content of `user_def_setting.json` that `main` can read. -/
structure Settings where
  root_obj : Json
  sys_cfg : SysCfg
  reads : read_config root_obj = some sys_cfg

/-- The document that the calls of `fprintf` make. -/
def netplan (JSON_GET_REC_IP : List Char) (cfg : SysCfg) : List UInt8 :=
  List.flatMap String.utf8EncodeChar <|
    "network:\n".toList ++
    "  version: 2\n".toList ++
    "  renderer: NetworkManager\n".toList ++
    "  ethernets:\n".toList ++
    "    eth0:\n".toList ++
    "      addresses:\n".toList ++
    ("      - ".toList ++ cfg.ipaddress ++ "/".toList ++ (toString cfg.netmask).toList ++ "\n".toList) ++
    "      routes:\n".toList ++
    "        - to: 0.0.0.0/0\n".toList ++
    ("          via: ".toList ++ cfg.gateway ++ "\n".toList) ++
    "    eth1:\n".toList ++
    "      addresses:\n".toList ++
    ("      - ".toList ++ JSON_GET_REC_IP ++ "/24\n".toList)

end k180.modify_sysip_netplan
