import K180.FileTree.Durable
import K180.Firmware.Install
import K180.Schedule.Run

open byte_format durable_files schedule

namespace k180.gen_fw

/-- The temporary path of `install_file_atomic`. -/
def tmp_path (dst_path : String) (pid : ℕ) : String := dst_path ++ ".tmp." ++ toString pid

/-- The mode of an installed file, `0755`. -/
def installed_mode : ℕ := 493

/-- The call that a process is about to make in `install_file_atomic`, for the payload it is at. -/
inductive Phase where
  | open_source
  | open_temp
  /-- the two loops: what is left to read, the part of the buffer that is left to write, and the offset -/
  | copying (out_fd : ℕ) (source chunk : Bytes) (offset : ℕ)
  | fsync (out_fd : ℕ)
  | close
  | chmod
  | rename
  | unlink
  /-- no more of them: each payload is installed, or one has failed -/
  | returned (ok : Bool)

/-- A process in the loop of `main` that installs the payloads. -/
structure Process where
  /-- each with what its staging file holds -/
  payloads : List (OutputSpec × Bytes)
  i : ℕ
  umask : ℕ
  phase : Phase

def CallResult.ok : CallResult → Bool
  | .done _ => true
  | _ => false

def Process.at (p : Process) (phase : Phase) : Process := { p with phase := phase }

/-- After `install_file_atomic` has returned `0`. -/
def Process.next (p : Process) : Process :=
  if p.i + 1 < p.payloads.length then { p with i := p.i + 1, phase := .open_source } else p.at (.returned true)

/-- One call of a process, and how it ends. -/
def Process.call (p : Process) (pid : ℕ) (result : CallResult) (v : Volume String) :
    Option (Process × Volume String) :=
  match p.payloads[p.i]? with
  | none => none
  | some (spec, staged) =>
    let tmp := tmp_path spec.install_path pid
    match p.phase with
    | .open_source => if result.ok then some (p.at .open_temp, v) else some (p.at (.returned false), v)
    | .open_temp =>
      if result.ok then
        let (out_fd, v) := v.open_truncated tmp (Nat.ldiff installed_mode p.umask)
        some (p.at (.copying out_fd staged [] 0), v)
      else some (p.at (.returned false), v)
    | .copying out_fd source [] offset =>
      match result with
      | .intr => some (p, v)
      | .error => some (p.at .unlink, v)
      | .done n =>
        if source.isEmpty then some (p.at (.fsync out_fd), v)
        else
          let nread := max 1 (min n 65536)
          some (p.at (.copying out_fd (source.drop nread) (source.take nread) offset), v)
    | .copying out_fd source (b :: chunk) offset =>
      match result with
      | .intr => some (p, v)
      | .error => some (p.at .unlink, v)
      | .done n =>
        let written := (b :: chunk).take n
        some (p.at (.copying out_fd source ((b :: chunk).drop n) (offset + written.length)),
          v.pwrite out_fd offset written)
    | .fsync out_fd => if result.ok then some (p.at .close, v.fsync out_fd) else some (p.at .unlink, v)
    | .close => if result.ok then some (p.at .chmod, v) else some (p.at .unlink, v)
    | .chmod =>
      match if result.ok then v.chmod tmp installed_mode else none with
      | some v => some (p.at .rename, v)
      | none => some (p.at .unlink, v)
    | .rename =>
      match if result.ok then v.rename tmp spec.install_path else none with
      | some v => some (p.next, v)
      | none => some (p.at .unlink, v)
    | .unlink => some (p.at (.returned false), (if result.ok then v.unlink tmp else none).getD v)
    | .returned _ => none

structure Device where
  volume : Volume String
  /-- the processes that install, by their `pid` -/
  process : ℕ → Option Process

inductive Action where
  /-- a run of `gen_fw_dec` that has its payloads staged comes to its installation -/
  | start (pid umask : ℕ) (staged0 staged1 : Bytes)
  | call (pid : ℕ) (result : CallResult)
  /-- a process ends, whatever it was about -/
  | ended (pid : ℕ)
  | lose_power (n : ℕ) (lost : ℕ → Bytes)

def Device.set_process (s : Device) (pid : ℕ) (p : Option Process) : Device :=
  { s with process := Function.update s.process pid p }

def step (s : Device) : Action → Option Device
  | .start pid umask staged0 staged1 =>
    match s.process pid with
    | some _ => none
    | none => some (s.set_process pid (some ⟨specs.zip [staged0, staged1], 0, umask, .open_source⟩))
  | .call pid result =>
    (s.process pid).bind fun p => (p.call pid result s.volume).map fun (p, v) =>
      { s with volume := v }.set_process pid (some p)
  | .ended pid => some (s.set_process pid none)
  | .lose_power n lost => (s.volume.lose_power n lost).map fun v => ⟨v, fun _ => none⟩

/-- A device with nothing but its installed files. -/
def init (old : Disk) : Device where
  volume :=
    { file := fun i => ⟨old (if i = 0 then grand_yeah.install_path else restful_api_server.install_path), true⟩
      names :=
        { link := fun path =>
            if path = grand_yeah.install_path then some 0
            else if path = restful_api_server.install_path then some 1
            else none
          mode := fun _ => installed_mode }
      earlier := []
      fresh := 2 }
  process _ := none

/-- What a payload's staging file holds in a run of the schedule. -/
def Staged (actions : List Action) (spec : OutputSpec) (content : Bytes) : Prop :=
  ∃ pid umask staged0 staged1, .start pid umask staged0 staged1 ∈ actions ∧
    (spec, content) ∈ specs.zip [staged0, staged1]

/-- A path of an installed file. -/
def Kept (path : String) : Prop := ∃ spec ∈ specs, spec.install_path = path

/-- An installed file as it should be: it was there at the start, or it is all that a run has staged. -/
def Good (old : Disk) (actions : List Action) (path : String) (content : Bytes) (mode : ℕ) : Prop :=
  mode = installed_mode ∧
    (content = old path ∨ ∃ spec, spec.install_path = path ∧ Staged actions spec content)

theorem mem_specs {spec : OutputSpec} : spec ∈ specs ↔ spec = grand_yeah ∨ spec = restful_api_server := by
  simp [specs]

theorem toList_tmp_path (dst_path : String) (pid : ℕ) :
    (tmp_path dst_path pid).toList = dst_path.toList ++ (".tmp.".toList ++ Nat.toDigits 10 pid) := by
  simp [tmp_path]

theorem kept_install {spec : OutputSpec} (hspec : spec ∈ specs) : Kept spec.install_path := ⟨spec, hspec, rfl⟩

/-- No temporary path is the path of an installed file. -/
theorem tmp_not_kept {spec : OutputSpec} (hspec : spec ∈ specs) (pid : ℕ) :
    ¬ Kept (tmp_path spec.install_path pid) := by
  rintro ⟨spec', hspec', heq⟩
  have hlist := congrArg String.toList heq
  rw [toList_tmp_path] at hlist
  obtain rfl | rfl := mem_specs.mp hspec <;> obtain rfl | rfl := mem_specs.mp hspec' <;>
    simp [grand_yeah, restful_api_server, K180_BIN_DIR] at hlist

/-- Processes have different temporary paths. -/
theorem tmp_path_ne {spec spec' : OutputSpec} (hspec : spec ∈ specs) (hspec' : spec' ∈ specs) {pid pid' : ℕ}
    (hne : pid ≠ pid') : tmp_path spec.install_path pid ≠ tmp_path spec'.install_path pid' := by
  intro heq
  have hlist := congrArg String.toList heq
  rw [toList_tmp_path, toList_tmp_path] at hlist
  obtain rfl | rfl := mem_specs.mp hspec <;> obtain rfl | rfl := mem_specs.mp hspec' <;>
    simp [grand_yeah, restful_api_server, K180_BIN_DIR] at hlist <;>
    exact hne (by simpa using congrArg (fun digits => Nat.ofDigitChars 10 digits 0) hlist)

end k180.gen_fw
