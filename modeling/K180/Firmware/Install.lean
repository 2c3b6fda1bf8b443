import K180.Firmware.Authenticity

open byte_format checked

namespace k180.gen_fw

structure OutputSpec where
  payload_name : String
  install_path : String
  restart_cmd : String
  restart_required : Bool

def K180_BIN_DIR := "/usr/local/bin"

def grand_yeah : OutputSpec :=
  ⟨"grand_yeah", K180_BIN_DIR ++ "/grand_yeah", "systemctl restart grand_yeah.service", true⟩

def restful_api_server : OutputSpec :=
  ⟨"restful_api_server", K180_BIN_DIR ++ "/restful_api_server",
    "systemctl try-restart restful_api.service", false⟩

def specs : List OutputSpec := [grand_yeah, restful_api_server]

/-- What the installed files hold, by path. -/
abbrev Disk := String → Bytes

/-- How one call of `read` or `write` ends; `done n` asks for at most `n` bytes. -/
inductive CallResult where
  | intr
  | error
  | done (n : ℕ)

/-- The two nested loops of `install_file_atomic`: `source` is what is left to read, `chunk` the part of
the buffer that is left to write, `temp` what has been written. When the calls run out, the rest goes
through without a fault. -/
def copy_loop : List CallResult → Bytes → Bytes → Bytes → Bool × Bytes
  | [], source, chunk, temp => (true, temp ++ chunk ++ source)
  | .intr :: calls, source, chunk, temp => copy_loop calls source chunk temp
  | .error :: _, _, _, temp => (false, temp)
  | .done n :: calls, source, [], temp =>
    if source.isEmpty then (true, temp)
    else
      let nread := max 1 (min n 65536)
      copy_loop calls (source.drop nread) (source.take nread) temp
  | .done n :: calls, source, b :: chunk, temp =>
    copy_loop calls source ((b :: chunk).drop n) (temp ++ (b :: chunk).take n)

/-- How the calls of one `install_file_atomic` turn out. -/
structure InstallIo where
  open_source_ok : Bool
  open_temp_ok : Bool
  calls : List CallResult
  fsync_ok : Bool
  close_ok : Bool
  chmod_ok : Bool
  rename_ok : Bool

/-- Copy to a temporary file and rename it over the destination. The temporary file is this call's own
and gone when it returns. -/
def install_file_atomic (io : InstallIo) (source : Bytes) (dst_path : String) (disk : Disk) : Bool × Disk :=
  if !io.open_source_ok then (false, disk)
  else if !io.open_temp_ok then (false, disk)
  else
    match copy_loop io.calls source [] [] with
    | (false, _) => (false, disk)
    | (true, temp) =>
      if !io.fsync_ok then (false, disk)
      else if !io.close_ok then (false, disk)
      else if !io.chmod_ok then (false, disk)
      else if !io.rename_ok then (false, disk)
      else (true, Function.update disk dst_path temp)

/-- How the calls of a run turn out, by the number of the payload. `written` is how much of a payload
reaches its staging file: the results of `fwrite` and `fclose` are not looked at. -/
structure RunIo where
  mkdtemp_ok : Bool
  open_input_ok : Bool
  open_output_ok : ℕ → Bool
  written : ℕ → ℕ
  install : ℕ → InstallIo
  restart_ret : ℕ → ℤ

/-- The loop that installs the staged files one after the other. -/
def install_all (io : RunIo) : ℕ → List (OutputSpec × Bytes) → Disk → Bool × Disk
  | _, [], disk => (true, disk)
  | i, (spec, staged) :: rest, disk =>
    match install_file_atomic (io.install i) staged spec.install_path disk with
    | (false, disk) => (false, disk)
    | (true, disk) => install_all io (i + 1) rest disk

/-- The loop that restarts the services; only a required restart can fail the run. -/
def restart_all (io : RunIo) : ℕ → List OutputSpec → Bool
  | _, [] => true
  | i, spec :: rest =>
    if io.restart_ret i ≠ 0 && spec.restart_required then false else restart_all io (i + 1) rest

/-- `main` of `gen_fw_dec`: the exit status, when the run has a defined behaviour, and the installed
files afterwards. -/
def gen_fw_dec (cfg : PackageConfig) (crypto : Crypto) (io : RunIo) (file : Bytes) (disk : Disk) :
    Option ℕ × Disk :=
  if !io.mkdtemp_ok then (some 1, disk)
  else if !io.open_input_ok then (some 1, disk)
  else
    match decode_package cfg crypto file with
    | .error (.exit code) => (some code, disk)
    | .error .out_of_bounds => (none, disk)
    | .ok (payload0, payload1) =>
      if !io.open_output_ok 0 || !io.open_output_ok 1 then (some 6, disk)
      else
        let staged := [payload0.take (io.written 0), payload1.take (io.written 1)]
        match install_all io 0 (specs.zip staged) disk with
        | (false, disk) => (some 7, disk)
        | (true, disk) => if restart_all io 0 specs then (some 0, disk) else (some 8, disk)

/-- A copy that reports success is complete, whatever was interrupted or done in parts on the way. -/
theorem copy_loop_complete {calls : List CallResult} {source chunk temp temp' : Bytes}
    (hcopy : copy_loop calls source chunk temp = (true, temp')) : temp' = temp ++ chunk ++ source := by
  induction calls generalizing source chunk temp with
  | nil =>
    rw [copy_loop, Prod.mk.injEq] at hcopy
    exact hcopy.2.symm
  | cons call calls ih =>
    cases call with
    | intr => exact ih hcopy
    | error => cases hcopy
    | done n =>
      cases chunk with
      | nil =>
        rw [copy_loop] at hcopy
        split at hcopy
        · rename_i hend
          rw [List.isEmpty_iff] at hend
          rw [Prod.mk.injEq] at hcopy
          rw [hend, List.append_nil, List.append_nil]
          exact hcopy.2.symm
        · rw [ih hcopy, List.append_nil, List.append_assoc, List.take_append_drop]
      | cons b chunk =>
        rw [copy_loop] at hcopy
        rw [ih hcopy, List.append_assoc temp, List.take_append_drop]

/-- Installing one file leaves the disk as it was, or replaces that file by all of the source. -/
theorem install_file_atomic_cases (io : InstallIo) (source : Bytes) (dst_path : String) (disk : Disk) :
    install_file_atomic io source dst_path disk = (false, disk) ∨
      install_file_atomic io source dst_path disk = (true, Function.update disk dst_path source) := by
  unfold install_file_atomic
  split
  · exact .inl rfl
  split
  · exact .inl rfl
  cases hcopy : copy_loop io.calls source [] [] with
  | mk ok temp =>
    cases ok with
    | false => exact .inl rfl
    | true =>
      obtain rfl : temp = source := copy_loop_complete hcopy
      dsimp only
      repeat' split
      all_goals first
        | exact .inl rfl
        | exact .inr rfl

/-- What the install loop does to the two files: nothing and stop, the first and stop, or both. -/
theorem install_all_cases (io : RunIo) (staged0 staged1 : Bytes) (disk : Disk) :
    install_all io 0 (specs.zip [staged0, staged1]) disk = (false, disk) ∨
    install_all io 0 (specs.zip [staged0, staged1]) disk =
      (false, Function.update disk grand_yeah.install_path staged0) ∨
    install_all io 0 (specs.zip [staged0, staged1]) disk =
      (true, Function.update (Function.update disk grand_yeah.install_path staged0)
        restful_api_server.install_path staged1) := by
  have hzip : specs.zip [staged0, staged1] = [(grand_yeah, staged0), (restful_api_server, staged1)] := rfl
  rw [hzip, install_all]
  obtain hfirst | hfirst :=
    install_file_atomic_cases (io.install 0) staged0 grand_yeah.install_path disk
  · rw [hfirst]
    exact .inl rfl
  · rw [hfirst]
    dsimp only
    rw [install_all]
    obtain hsecond | hsecond := install_file_atomic_cases (io.install (0 + 1)) staged1
      restful_api_server.install_path (Function.update disk grand_yeah.install_path staged0)
    · rw [hsecond]
      exact .inr (.inl rfl)
    · rw [hsecond]
      exact .inr (.inr rfl)

theorem install_paths_ne : grand_yeah.install_path ≠ restful_api_server.install_path := by decide

/-- The staging files hold the payloads complete. -/
def CompleteStaging (io : RunIo) (payload0 payload1 : Bytes) : Prop :=
  payload0.length ≤ io.written 0 ∧ payload1.length ≤ io.written 1

/-- Both installed files hold the given contents. -/
def Holds (disk : Disk) (content0 content1 : Bytes) : Prop :=
  disk grand_yeah.install_path = content0 ∧ disk restful_api_server.install_path = content1

/-- The exit codes of a package that is not decoded. -/
def EarlyExit (stop : DecodeStop) : Prop := ∀ code, stop = .exit code → 2 ≤ code ∧ code ≤ 5

theorem earlyExit_exit {code : ℕ} (hlo : 2 ≤ code) (hhi : code ≤ 5) : EarlyExit (.exit code) := by
  intro code' h
  cases h
  exact ⟨hlo, hhi⟩

theorem earlyExit_out_of_bounds : EarlyExit .out_of_bounds := by
  intro code h
  cases h

theorem read_exact_errors (size : ℕ) (rest : Bytes) : ErrorsIn EarlyExit (read_exact size rest) := by
  unfold read_exact
  split
  · exact ErrorsIn.ok _
  · exact ErrorsIn.error (earlyExit_exit (by decide) (by decide))

theorem split_payloads_errors (plaintext : Bytes) (len0 len1 : ℕ) :
    ErrorsIn EarlyExit (split_payloads plaintext len0 len1) := by
  unfold split_payloads
  dsimp only
  split
  · exact ErrorsIn.ok _
  · exact ErrorsIn.error earlyExit_out_of_bounds

/-- Decoding a package never ends in a status that the install phase uses. -/
theorem decode_package_errors (cfg : PackageConfig) (crypto : Crypto) (file : Bytes) :
    ErrorsIn EarlyExit (decode_package cfg crypto file) := by
  unfold decode_package
  refine (read_exact_errors _ _).bind fun _ => ?_
  refine (ErrorsIn.stop_if _ (earlyExit_exit (by decide) (by decide))).bind fun _ => ?_
  refine (read_exact_errors _ _).bind fun _ => ?_
  refine (read_exact_errors _ _).bind fun _ => ?_
  refine (read_exact_errors _ _).bind fun _ => ?_
  refine ErrorsIn.bind ?_ fun _ => ?_
  · unfold read_ciphertext
    split
    · exact ErrorsIn.error earlyExit_out_of_bounds
    · exact read_exact_errors _ _
  refine (read_exact_errors _ _).bind fun _ => ?_
  refine (ErrorsIn.stop_if _ (earlyExit_exit (by decide) (by decide))).bind fun _ => ?_
  refine ErrorsIn.bind ?_ fun _ => ?_
  · unfold evp_decrypt
    split
    · exact ErrorsIn.ok _
    · exact ErrorsIn.error (earlyExit_exit (by decide) (by decide))
  refine (ErrorsIn.stop_if _ (earlyExit_exit (by decide) (by decide))).bind fun _ => ?_
  exact split_payloads_errors _ _ _

/-- A run that decodes the package and has its staging files goes on to install and restart. -/
theorem gen_fw_dec_installs {cfg : PackageConfig} {crypto : Crypto} (io : RunIo) {file : Bytes}
    {payload0 payload1 : Bytes} (disk : Disk)
    (hdecode : decode_package cfg crypto file = .ok (payload0, payload1)) :
    (gen_fw_dec cfg crypto io file disk).1 = some 1 ∧ (gen_fw_dec cfg crypto io file disk).2 = disk ∨
    (gen_fw_dec cfg crypto io file disk).1 = some 6 ∧ (gen_fw_dec cfg crypto io file disk).2 = disk ∨
    gen_fw_dec cfg crypto io file disk =
      match install_all io 0
        (specs.zip [payload0.take (io.written 0), payload1.take (io.written 1)]) disk with
      | (false, disk) => (some 7, disk)
      | (true, disk) => if restart_all io 0 specs then (some 0, disk) else (some 8, disk) := by
  unfold gen_fw_dec
  cases io.mkdtemp_ok with
  | false => exact .inl ⟨rfl, rfl⟩
  | true =>
    cases io.open_input_ok with
    | false => exact .inl ⟨rfl, rfl⟩
    | true =>
      simp only [hdecode, Bool.not_true, Bool.false_eq_true, if_false]
      split
      · exact .inr (.inl ⟨rfl, rfl⟩)
      · exact .inr (.inr rfl)

/-- A run that does not decode the package changes nothing. -/
theorem gen_fw_dec_refuses {cfg : PackageConfig} {crypto : Crypto} (io : RunIo) {file : Bytes}
    (disk : Disk) {stop : DecodeStop} (hdecode : decode_package cfg crypto file = .error stop) :
    (gen_fw_dec cfg crypto io file disk).2 = disk ∧
      ∀ code, (gen_fw_dec cfg crypto io file disk).1 = some code → 1 ≤ code ∧ code ≤ 5 := by
  have hearly := decode_package_errors cfg crypto file stop hdecode
  unfold gen_fw_dec
  cases io.mkdtemp_ok with
  | false => exact ⟨rfl, fun code h => by cases h; decide⟩
  | true =>
    cases io.open_input_ok with
    | false => exact ⟨rfl, fun code h => by cases h; decide⟩
    | true =>
      simp only [hdecode, Bool.not_true, Bool.false_eq_true, if_false]
      cases stop with
      | out_of_bounds => exact ⟨rfl, fun code h => by cases h⟩
      | exit stopCode =>
        refine ⟨rfl, fun code h => ?_⟩
        obtain rfl : stopCode = code := Option.some.inj h
        obtain ⟨hlo, hhi⟩ := hearly stopCode rfl
        exact ⟨by omega, hhi⟩

/-- What the exit status of a run says about the two installed files. A failed installation of one
payload and a failed restart are reported without undoing what has been installed; each file is
replaced by all of its staging file or not at all. -/
theorem gen_fw_dec_outcome (cfg : PackageConfig) (crypto : Crypto) (io : RunIo) (file : Bytes)
    (disk : Disk) :
    (∀ code, (gen_fw_dec cfg crypto io file disk).1 = some code → code ≠ 0 → code ≠ 7 → code ≠ 8 →
      (gen_fw_dec cfg crypto io file disk).2 = disk) ∧
    ((gen_fw_dec cfg crypto io file disk).1 = some 7 →
      ∃ payload0 payload1, decode_package cfg crypto file = .ok (payload0, payload1) ∧
        (CompleteStaging io payload0 payload1 →
          Holds (gen_fw_dec cfg crypto io file disk).2 (disk grand_yeah.install_path)
            (disk restful_api_server.install_path) ∨
          Holds (gen_fw_dec cfg crypto io file disk).2 payload0
            (disk restful_api_server.install_path))) ∧
    ((gen_fw_dec cfg crypto io file disk).1 = some 0 ∨ (gen_fw_dec cfg crypto io file disk).1 = some 8 →
      ∃ payload0 payload1, decode_package cfg crypto file = .ok (payload0, payload1) ∧
        (CompleteStaging io payload0 payload1 →
          Holds (gen_fw_dec cfg crypto io file disk).2 payload0 payload1)) := by
  cases hdecode : decode_package cfg crypto file with
  | error stop =>
    obtain ⟨hdisk, hcode⟩ := gen_fw_dec_refuses io disk hdecode
    refine ⟨fun _ _ _ _ _ => hdisk, fun h7 => ?_, fun h => ?_⟩
    · have hbounds := hcode 7 h7
      omega
    · obtain h0 | h8 := h
      · have hbounds := hcode 0 h0
        omega
      · have hbounds := hcode 8 h8
        omega
  | ok payloads =>
    obtain ⟨payload0, payload1⟩ := payloads
    obtain ⟨hcode, hdisk⟩ | ⟨hcode, hdisk⟩ | hrun := gen_fw_dec_installs io disk hdecode
    · rw [hcode, hdisk]
      refine ⟨fun _ _ _ _ _ => rfl, fun h => (nomatch h), ?_⟩
      rintro (h | h) <;> cases h
    · rw [hcode, hdisk]
      refine ⟨fun _ _ _ _ _ => rfl, fun h => (nomatch h), ?_⟩
      rintro (h | h) <;> cases h
    have hne := install_paths_ne
    rw [hrun]
    obtain hinstall | hinstall | hinstall :=
      install_all_cases io (payload0.take (io.written 0)) (payload1.take (io.written 1)) disk
    · rw [hinstall]
      refine ⟨fun _ _ _ _ _ => rfl, fun _ => ⟨payload0, payload1, rfl, fun _ => .inl ⟨rfl, rfl⟩⟩, ?_⟩
      rintro (h | h) <;> cases h
    · rw [hinstall]
      dsimp only
      refine ⟨fun code h h0 h7 h8 => absurd (Option.some.inj h).symm h7, fun _ => ?_, ?_⟩
      · refine ⟨payload0, payload1, rfl, fun hstaged => .inr ⟨?_, ?_⟩⟩
        · rw [List.take_of_length_le hstaged.1]
          exact Function.update_self _ _ _
        · exact Function.update_of_ne hne.symm _ _
      · rintro (h | h) <;> cases h
    · rw [hinstall]
      have hholds : CompleteStaging io payload0 payload1 →
          Holds (Function.update
            (Function.update disk grand_yeah.install_path (payload0.take (io.written 0)))
            restful_api_server.install_path (payload1.take (io.written 1))) payload0 payload1 := by
        intro hstaged
        constructor
        · rw [Function.update_of_ne hne, Function.update_self, List.take_of_length_le hstaged.1]
        · rw [Function.update_self, List.take_of_length_le hstaged.2]
      dsimp only
      split
      · exact ⟨fun code h h0 _ _ => absurd (Option.some.inj h).symm h0, fun h => (nomatch h),
          fun _ => ⟨payload0, payload1, rfl, hholds⟩⟩
      · exact ⟨fun code h _ _ h8 => absurd (Option.some.inj h).symm h8, fun h => (nomatch h),
          fun _ => ⟨payload0, payload1, rfl, hholds⟩⟩

def sample_install (open_temp_ok : Bool) : InstallIo := ⟨true, open_temp_ok, [], true, true, true, true⟩

/-- A run in which nothing fails but the second temporary file, which cannot be created. -/
def sample_run : RunIo where
  mkdtemp_ok := true
  open_input_ok := true
  open_output_ok _ := true
  written _ := 4096
  install i := sample_install (i == 0)
  restart_ret _ := 0

/-- The run exits with 7, and the camera program has been replaced. -/
theorem half_installed :
    gen_fw_dec sample_config sample_crypto sample_run sample_release.package.bytes (fun _ => []) =
      (some 7, Function.update (fun _ => []) grand_yeah.install_path sample_payload0) ∧
    Function.update (fun _ => []) grand_yeah.install_path sample_payload0 grand_yeah.install_path ≠ [] := by
  constructor
  · rfl
  · decide

end k180.gen_fw
