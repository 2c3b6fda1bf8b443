import K180.Firmware.Processes

open byte_format durable_files schedule

namespace k180.gen_fw

variable {old : Disk} {actions : List Action} {s s' : Device} {v v' : Volume String} {pid : ℕ} {p p' : Process}
  {spec : OutputSpec} {staged : Bytes} {result : CallResult}

/-- The payloads that a process has installed. -/
def Process.installed (p : Process) : List (OutputSpec × Bytes) :=
  match p.phase with
  | .returned true => p.payloads
  | _ => p.payloads.take p.i

theorem Process.installed_of_ne (hphase : p.phase ≠ .returned true) : p.installed = p.payloads.take p.i := by
  rw [Process.installed]
  split
  · exact absurd ‹_› hphase
  · rfl

theorem Process.installed_initial (p : Process) : p.installed <+: p.payloads := by
  rw [Process.installed]
  split
  · exact List.prefix_refl _
  · exact List.take_prefix _ _

theorem Process.installed_at (hphase : p.phase ≠ .returned true) {phase : Phase} (hnew : phase ≠ .returned true) :
    (p.at phase).installed = p.installed := by
  rw [Process.installed_of_ne hphase, Process.installed_of_ne (p := p.at phase) hnew]
  rfl

theorem Process.installed_next (hphase : p.phase ≠ .returned true) {job : OutputSpec × Bytes}
    (hjob : p.payloads[p.i]? = some job) : p.next.installed = p.installed ++ [job] := by
  have htake : p.payloads.take (p.i + 1) = p.installed ++ [job] := by
    rw [List.take_add_one, hjob, Process.installed_of_ne hphase, Option.toList_some]
  rw [← htake, Process.next]
  split
  · rfl
  · rename_i hend
    exact (List.take_of_length_le (not_lt.mp hend)).symm

theorem Process.payloads_next : p.next.payloads = p.payloads := by
  rw [Process.next]
  split <;> rfl

/-- What a call installs. -/
def Process.change (p : Process) (result : CallResult) : Option (OutputSpec × Bytes) :=
  match p.phase, p.payloads[p.i]? with
  | .rename, some job => if result.ok then some job else none
  | _, _ => none

/-- A payload that is installed, by its path. -/
def placed (job : OutputSpec × Bytes) : String × Bytes := (job.1.install_path, job.2)

theorem Process.change_of_ne (hphase : p.phase ≠ .rename) : p.change result = none := by
  rw [Process.change]
  split
  · exact absurd ‹_› hphase
  · rfl

/-- What the temporary file of a process holds at a call. -/
def Phase.Temp (tmp : String) (staged : Bytes) (v : Volume String) : Phase → Prop
  | .copying out_fd source chunk offset =>
    v.names.link tmp = some out_fd ∧ offset = (v.file out_fd).content.length ∧
      (v.file out_fd).content ++ chunk ++ source = staged
  | .fsync out_fd => v.names.link tmp = some out_fd ∧ (v.file out_fd).content = staged
  | .close | .chmod => ∃ out_fd, v.names.link tmp = some out_fd ∧ v.file out_fd = ⟨staged, true⟩
  | .rename => ∃ out_fd, v.names.link tmp = some out_fd ∧ v.file out_fd = ⟨staged, true⟩ ∧
      v.names.mode out_fd = installed_mode
  | _ => True

theorem Phase.Temp.keeps {tmp : String} {phase : Phase} (h : phase.Temp tmp staged v) (hkeeps : Keeps tmp v v') :
    phase.Temp tmp staged v' := by
  cases phase with
  | copying out_fd source chunk offset =>
    obtain ⟨hlink, hrest⟩ := h
    rw [← hkeeps.file _ hlink] at hrest
    exact ⟨hkeeps.link.trans hlink, hrest⟩
  | fsync out_fd =>
    obtain ⟨hlink, hcontent⟩ := h
    rw [← hkeeps.file _ hlink] at hcontent
    exact ⟨hkeeps.link.trans hlink, hcontent⟩
  | close | chmod =>
    obtain ⟨out_fd, hlink, hcontent⟩ := h
    exact ⟨out_fd, hkeeps.link.trans hlink, (hkeeps.file _ hlink).trans hcontent⟩
  | rename =>
    obtain ⟨out_fd, hlink, hcontent, hmode⟩ := h
    exact ⟨out_fd, hkeeps.link.trans hlink, (hkeeps.file _ hlink).trans hcontent, (hkeeps.mode _ hlink).trans hmode⟩
  | open_source | open_temp | unlink | returned => trivial

/-- A process has installed the payloads before the one it is at, whose temporary file is its own. -/
structure ProcessOk (actions : List Action) (pid : ℕ) (p : Process) (v : Volume String) : Prop where
  staged : ∀ job ∈ p.payloads, job.1 ∈ specs ∧ Staged actions job.1 job.2
  installed : ∀ job ∈ p.installed, Held v job.1.install_path job.2
  temp : ∀ spec staged, p.payloads[p.i]? = some (spec, staged) →
    p.phase.Temp (tmp_path spec.install_path pid) staged v

namespace ProcessOk

theorem held (h : ProcessOk actions pid p v) (hlater : Later Kept v v') :
    ∀ job ∈ p.installed, Held v' job.1.install_path job.2 :=
  fun job hjob => (h.installed job hjob).later (kept_install (h.staged job (p.installed_initial.mem hjob)).1) hlater

/-- The calls of another process leave a process as it is. -/
theorem moves {t : String} {change : Option (String × Bytes)} {Good : String → Bytes → ℕ → Prop}
    (h : ProcessOk actions pid p v) (hmoves : Moves Kept Good t change v v')
    (ht : ∀ spec ∈ specs, tmp_path spec.install_path pid ≠ t) : ProcessOk actions pid p v' := by
  refine ⟨h.staged, h.held hmoves.later, fun spec staged hjob => (h.temp spec staged hjob).keeps ?_⟩
  have hspec := (h.staged _ (List.mem_of_getElem? hjob)).1
  exact hmoves.keeps _ (tmp_not_kept hspec pid) (ht spec hspec)

/-- On to another call for the same payload. -/
theorem at_phase (h : ProcessOk actions pid p v) (hlater : Later Kept v v')
    (hjob : p.payloads[p.i]? = some (spec, staged)) (hphase : p.phase ≠ .returned true) {phase : Phase}
    (hnew : phase ≠ .returned true) (htemp : phase.Temp (tmp_path spec.install_path pid) staged v') :
    ProcessOk actions pid (p.at phase) v' := by
  refine ⟨h.staged, Process.installed_at hphase hnew ▸ h.held hlater, fun spec' staged' hjob' => ?_⟩
  obtain ⟨rfl, rfl⟩ := Prod.mk.injEq .. ▸ Option.some.inj (hjob.symm.trans hjob')
  exact htemp

/-- On to the next payload, or to the end. -/
theorem next (h : ProcessOk actions pid p v) (hlater : Later Kept v v')
    (hjob : p.payloads[p.i]? = some (spec, staged)) (hphase : p.phase ≠ .returned true)
    (hheld : Held v' spec.install_path staged) : ProcessOk actions pid p.next v' := by
  refine ⟨Process.payloads_next (p := p) ▸ h.staged, fun job hmem => ?_, fun spec' staged' _ => ?_⟩
  · rw [Process.installed_next hphase hjob, List.mem_append, List.mem_singleton] at hmem
    obtain hmem | rfl := hmem
    exacts [h.held hlater job hmem, hheld]
  · rw [Process.next]
    split <;> trivial

end ProcessOk

/-- What a call does: it changes what is at the temporary path of its process, and what it installs is as it should
be. -/
structure CallOk (old : Disk) (actions : List Action) (pid : ℕ) (change : Option (OutputSpec × Bytes)) (p : Process)
    (v : Volume String) (p' : Process) (v' : Volume String) : Prop where
  moves : ∃ spec ∈ specs, Moves Kept (Good old actions) (tmp_path spec.install_path pid) (change.map placed) v v'
  ok : ProcessOk actions pid p' v'
  payloads : p'.payloads = p.payloads
  installed : p'.installed = p.installed ++ change.toList

namespace ProcessOk

/-- A call that installs nothing, and is followed by another one for the same payload. -/
theorem goes_on (h : ProcessOk actions pid p v) (hjob : p.payloads[p.i]? = some (spec, staged))
    (hphase : p.phase ≠ .returned true) (hchange : p.change result = none) {phase : Phase}
    (hnew : phase ≠ .returned true)
    (hmoves : Moves Kept (Good old actions) (tmp_path spec.install_path pid) none v v')
    (htemp : phase.Temp (tmp_path spec.install_path pid) staged v') :
    CallOk old actions pid (p.change result) p v (p.at phase) v' := by
  rw [hchange]
  refine ⟨⟨spec, (h.staged _ (List.mem_of_getElem? hjob)).1, hmoves⟩,
    h.at_phase hmoves.later hjob hphase hnew htemp, rfl, ?_⟩
  rw [Option.toList_none, List.append_nil, Process.installed_at hphase hnew]

/-- A call that does nothing yet. -/
theorem again (h : ProcessOk actions pid p v) (hsealed : Sealed Kept (Good old actions) v)
    (hjob : p.payloads[p.i]? = some (spec, staged)) (hchange : p.change result = none) :
    CallOk old actions pid (p.change result) p v p v := by
  rw [hchange]
  exact ⟨⟨spec, (h.staged _ (List.mem_of_getElem? hjob)).1, .refl hsealed⟩, h, rfl, (List.append_nil _).symm⟩

section Call

variable (h : ProcessOk actions pid p v) (hsealed : Sealed Kept (Good old actions) v)
  (hjob : p.payloads[p.i]? = some (spec, staged)) (hcall : p.call pid result v = some (p', v'))
include h hsealed hjob hcall

theorem call_open_source (hphase : p.phase = .open_source) :
    CallOk old actions pid (p.change result) p v p' v' := by
  have hchange : p.change result = none := Process.change_of_ne (hphase ▸ nofun)
  simp only [Process.call, hjob, hphase] at hcall
  split at hcall <;> cases hcall
  · exact h.goes_on hjob (hphase ▸ nofun) hchange nofun (.refl hsealed) trivial
  · exact h.goes_on hjob (hphase ▸ nofun) hchange nofun (.refl hsealed) trivial

theorem call_open_temp (hphase : p.phase = .open_temp) :
    CallOk old actions pid (p.change result) p v p' v' := by
  have hchange : p.change result = none := Process.change_of_ne (hphase ▸ nofun)
  have ht := tmp_not_kept (h.staged _ (List.mem_of_getElem? hjob)).1 pid
  simp only [Process.call, hjob, hphase] at hcall
  split at hcall <;> cases hcall
  · obtain ⟨hlink, hempty⟩ :=
      v.open_truncated_spec (tmp_path spec.install_path pid) (Nat.ldiff installed_mode p.umask)
    exact h.goes_on hjob (hphase ▸ nofun) hchange nofun (.open_truncated hsealed ht _)
      ⟨hlink, by rw [hempty]; rfl, by rw [hempty]; rfl⟩
  · exact h.goes_on hjob (hphase ▸ nofun) hchange nofun (.refl hsealed) trivial

/-- The `fread` of the copying loop, which ends the loop at the end of the source. -/
theorem call_read {out_fd offset : ℕ} {source : Bytes}
    (hphase : p.phase = .copying out_fd source [] offset) :
    CallOk old actions pid (p.change result) p v p' v' := by
  have hchange : p.change result = none := Process.change_of_ne (hphase ▸ nofun)
  have htemp := h.temp spec staged hjob
  rw [hphase] at htemp
  obtain ⟨hlink, hoffset, hcopy⟩ := htemp
  simp only [Process.call, hjob, hphase] at hcall
  cases result with
  | intr =>
    cases hcall
    exact h.again hsealed hjob hchange
  | error =>
    cases hcall
    exact h.goes_on hjob (hphase ▸ nofun) hchange nofun (.refl hsealed) trivial
  | done n =>
    dsimp only at hcall
    split at hcall <;> cases hcall
    · rename_i hend
      rw [List.isEmpty_iff.mp hend, List.append_nil, List.append_nil] at hcopy
      exact h.goes_on hjob (hphase ▸ nofun) hchange nofun (.refl hsealed) ⟨hlink, hcopy⟩
    · refine h.goes_on hjob (hphase ▸ nofun) hchange nofun (.refl hsealed) ⟨hlink, hoffset, ?_⟩
      rw [List.append_assoc, List.take_append_drop, ← hcopy, List.append_nil]

/-- The `write` of the copying loop, which may take a part of the chunk. -/
theorem call_write {out_fd offset : ℕ} {source chunk : Bytes} {b : UInt8}
    (hphase : p.phase = .copying out_fd source (b :: chunk) offset) :
    CallOk old actions pid (p.change result) p v p' v' := by
  have hchange : p.change result = none := Process.change_of_ne (hphase ▸ nofun)
  have ht := tmp_not_kept (h.staged _ (List.mem_of_getElem? hjob)).1 pid
  have htemp := h.temp spec staged hjob
  rw [hphase] at htemp
  obtain ⟨hlink, hoffset, hcopy⟩ := htemp
  simp only [Process.call, hjob, hphase] at hcall
  cases result with
  | intr =>
    cases hcall
    exact h.again hsealed hjob hchange
  | error =>
    cases hcall
    exact h.goes_on hjob (hphase ▸ nofun) hchange nofun (.refl hsealed) trivial
  | done n =>
    cases hcall
    refine h.goes_on hjob (hphase ▸ nofun) hchange nofun (.set_file hsealed ht hlink _) ⟨hlink, ?_, ?_⟩
    · rw [Volume.pwrite, Volume.set_file_self, hoffset, Volume.overwrite_length, List.length_append]
    · rw [Volume.pwrite, Volume.set_file_self, hoffset, Volume.overwrite_length]
      rw [List.append_assoc _ (List.take ..), List.take_append_drop, hcopy]

theorem call_fsync {out_fd : ℕ} (hphase : p.phase = .fsync out_fd) :
    CallOk old actions pid (p.change result) p v p' v' := by
  have hchange : p.change result = none := Process.change_of_ne (hphase ▸ nofun)
  have ht := tmp_not_kept (h.staged _ (List.mem_of_getElem? hjob)).1 pid
  have htemp := h.temp spec staged hjob
  rw [hphase] at htemp
  obtain ⟨hlink, hcontent⟩ := htemp
  simp only [Process.call, hjob, hphase] at hcall
  split at hcall <;> cases hcall
  · refine h.goes_on hjob (hphase ▸ nofun) hchange nofun (.set_file hsealed ht hlink _) ⟨out_fd, hlink, ?_⟩
    rw [Volume.fsync, Volume.set_file_self, hcontent]
  · exact h.goes_on hjob (hphase ▸ nofun) hchange nofun (.refl hsealed) trivial

theorem call_close (hphase : p.phase = .close) :
    CallOk old actions pid (p.change result) p v p' v' := by
  have hchange : p.change result = none := Process.change_of_ne (hphase ▸ nofun)
  have htemp := h.temp spec staged hjob
  rw [hphase] at htemp
  simp only [Process.call, hjob, hphase] at hcall
  split at hcall <;> cases hcall
  · exact h.goes_on hjob (hphase ▸ nofun) hchange nofun (.refl hsealed) htemp
  · exact h.goes_on hjob (hphase ▸ nofun) hchange nofun (.refl hsealed) trivial

theorem call_chmod (hphase : p.phase = .chmod) :
    CallOk old actions pid (p.change result) p v p' v' := by
  have hchange : p.change result = none := Process.change_of_ne (hphase ▸ nofun)
  have ht := tmp_not_kept (h.staged _ (List.mem_of_getElem? hjob)).1 pid
  have htemp := h.temp spec staged hjob
  rw [hphase] at htemp
  obtain ⟨out_fd, hlink, hcontent⟩ := htemp
  simp only [Process.call, hjob, hphase] at hcall
  split at hcall <;> cases hcall
  · rename_i hok
    split at hok
    · obtain ⟨i, hi, rfl⟩ := Option.map_eq_some_iff.mp hok
      obtain rfl := Option.some.inj (hlink.symm.trans hi)
      exact h.goes_on hjob (hphase ▸ nofun) hchange nofun (.chmod hsealed ht hok)
        ⟨out_fd, hlink, hcontent, Function.update_self ..⟩
    · cases hok
  · exact h.goes_on hjob (hphase ▸ nofun) hchange nofun (.refl hsealed) trivial

/-- The `rename`, which installs the payload or nothing. -/
theorem call_rename (hphase : p.phase = .rename) :
    CallOk old actions pid (p.change result) p v p' v' := by
  obtain ⟨hspec, hstaged⟩ := h.staged _ (List.mem_of_getElem? hjob)
  have ht := tmp_not_kept hspec pid
  have htemp := h.temp spec staged hjob
  rw [hphase] at htemp
  obtain ⟨out_fd, hlink, hcontent, hmode⟩ := htemp
  have hchange : p.change result = if result.ok then some (spec, staged) else none := by
    rw [Process.change, hphase, hjob]
  simp only [Process.call, hjob, hphase] at hcall
  split at hcall <;> cases hcall
  · rename_i hok
    split at hok
    · have hgood : Good old actions spec.install_path staged (v.names.mode out_fd) :=
        ⟨hmode, .inr ⟨spec, rfl, hstaged⟩⟩
      have hmoves := Moves.rename hsealed ht (kept_install hspec) hlink hcontent hgood hok
      have hheld := Held.rename hsealed ht (kept_install hspec) hlink hcontent hok
      rw [hchange, if_pos ‹_›]
      exact ⟨⟨spec, hspec, hmoves⟩, h.next hmoves.later hjob (hphase ▸ nofun) hheld, Process.payloads_next,
        Process.installed_next (hphase ▸ nofun) hjob⟩
    · cases hok
  · rename_i hfailed
    split at hfailed
    · exact absurd (Option.map_eq_none_iff.mp hfailed) (hlink ▸ nofun)
    · rw [if_neg ‹_›] at hchange
      exact h.goes_on hjob (hphase ▸ nofun) hchange nofun (.refl hsealed) trivial

theorem call_unlink (hphase : p.phase = .unlink) :
    CallOk old actions pid (p.change result) p v p' v' := by
  have hchange : p.change result = none := Process.change_of_ne (hphase ▸ nofun)
  have ht := tmp_not_kept (h.staged _ (List.mem_of_getElem? hjob)).1 pid
  simp only [Process.call, hjob, hphase] at hcall
  cases hcall
  refine h.goes_on hjob (hphase ▸ nofun) hchange nofun ?_ trivial
  cases hunlink : (if result.ok then v.unlink (tmp_path spec.install_path pid) else none) with
  | none => exact .refl hsealed
  | some v' =>
    split at hunlink
    · exact .unlink hsealed ht hunlink
    · cases hunlink

end Call

theorem call (h : ProcessOk actions pid p v) (hsealed : Sealed Kept (Good old actions) v)
    (hcall : p.call pid result v = some (p', v')) : CallOk old actions pid (p.change result) p v p' v' := by
  cases hjob : p.payloads[p.i]? with
  | none => simp [Process.call, hjob] at hcall
  | some job =>
    obtain ⟨spec, staged⟩ := job
    cases hphase : p.phase with
    | open_source => exact h.call_open_source hsealed hjob hcall hphase
    | open_temp => exact h.call_open_temp hsealed hjob hcall hphase
    | copying out_fd source chunk offset =>
      cases chunk with
      | nil => exact h.call_read hsealed hjob hcall hphase
      | cons b chunk => exact h.call_write hsealed hjob hcall hphase
    | fsync out_fd => exact h.call_fsync hsealed hjob hcall hphase
    | close => exact h.call_close hsealed hjob hcall hphase
    | chmod => exact h.call_chmod hsealed hjob hcall hphase
    | rename => exact h.call_rename hsealed hjob hcall hphase
    | unlink => exact h.call_unlink hsealed hjob hcall hphase
    | returned ok => simp [Process.call, hjob, hphase] at hcall

end ProcessOk

def faultless : InstallIo where
  open_source_ok := true
  open_temp_ok := true
  calls := []
  fsync_ok := true
  close_ok := true
  chmod_ok := true
  rename_ok := true

/-- What the installed files hold, as the installation in one step sees them. -/
def contents (v : Volume String) : Disk := fun path => (v.read path).getD []

/-- The installation call by call refines the one in one step: a call leaves the installed files as they are, or
does what a faultless `install_file_atomic` does. -/
theorem ProcessOk.call_refines (h : ProcessOk actions pid p v) (hsealed : Sealed Kept (Good old actions) v)
    (hcall : p.call pid result v = some (p', v')) {path : String} (hpath : Kept path) :
    contents v' path = ((p.change result).elim (contents v) fun job =>
      (install_file_atomic faultless job.2 job.1.install_path (contents v)).2) path := by
  obtain ⟨⟨spec, -, hmoves⟩, -⟩ := h.call hsealed hcall
  have hread := hmoves.read path hpath
  cases hchange : p.change result with
  | none =>
    rw [hchange, Option.map_none, Option.elim_none] at hread
    rw [contents, hread, Option.elim_none, contents]
  | some job =>
    rw [hchange, Option.map_some, Option.elim_some, placed] at hread
    have hatomic : (install_file_atomic faultless job.2 job.1.install_path (contents v)).2 =
        Function.update (contents v) job.1.install_path job.2 := rfl
    rw [contents, hread, Option.elim_some, hatomic]
    obtain rfl | hne := eq_or_ne path job.1.install_path
    · rw [Function.update_self, Function.update_self, Option.getD_some]
    · rw [Function.update_of_ne hne, Function.update_of_ne hne, contents]

theorem process_set_process {pid' : ℕ} {q : Option Process} (hp : (s.set_process pid q).process pid' = some p) :
    (pid' = pid ∧ q = some p) ∨ (pid' ≠ pid ∧ s.process pid' = some p) := by
  simp only [Device.set_process, Function.update_apply] at hp
  split at hp
  · exact .inl ⟨‹_›, hp⟩
  · exact .inr ⟨‹_›, hp⟩

structure Safe (old : Disk) (actions : List Action) (s : Device) : Prop where
  volume : Sealed Kept (Good old actions) s.volume
  process : ∀ pid p, s.process pid = some p → ProcessOk actions pid p s.volume

theorem install_path_inj {spec spec' : OutputSpec} (hspec : spec ∈ specs) (hspec' : spec' ∈ specs)
    (hpath : spec.install_path = spec'.install_path) : spec = spec' := by
  obtain rfl | rfl := mem_specs.mp hspec <;> obtain rfl | rfl := mem_specs.mp hspec'
  exacts [rfl, absurd hpath install_paths_ne, absurd hpath.symm install_paths_ne, rfl]

theorem Staged.mem_specs (h : Staged actions spec staged) : spec ∈ specs := by
  obtain ⟨_, _, _, _, _, hmem⟩ := h
  exact (List.of_mem_zip hmem).1

theorem safe_init (old : Disk) (actions : List Action) : Safe old actions (init old) := by
  have hlink : ∀ path i, (init old).volume.names.link path = some i → Kept path ∧
      i = if path = grand_yeah.install_path then 0 else 1 := by
    intro path i hlink
    simp only [init] at hlink
    split at hlink
    · rename_i hpath
      exact ⟨⟨_, mem_specs.mpr (.inl rfl), hpath.symm⟩, by rw [if_pos hpath]; exact (Option.some.inj hlink).symm⟩
    split at hlink
    · rename_i hpath hpath'
      exact ⟨⟨_, mem_specs.mpr (.inr rfl), hpath'.symm⟩, by rw [if_neg hpath]; exact (Option.some.inj hlink).symm⟩
    · cases hlink
  have hjournal : ∀ n ∈ (init old).volume.journal, n = (init old).volume.names := fun n hn => List.mem_singleton.mp hn
  refine ⟨⟨?_, List.pairwise_singleton _ _, ?_, ?_, ?_⟩, nofun⟩ <;> intro n hn <;> obtain rfl := hjournal n hn
  · rintro _ ⟨spec, hspec, rfl⟩
    obtain rfl | rfl := mem_specs.mp hspec
    · exact ⟨0, _, by simp [init], rfl, rfl, .inl rfl⟩
    · exact ⟨1, _, by simp [init, install_paths_ne.symm], rfl, rfl, .inl rfl⟩
  · exact fun t i ht ht' => absurd (hlink t i ht').1 ht
  · exact fun t t' i ht _ ht' => absurd (hlink t i ht').1 ht
  · intro t i ht
    rw [(hlink t i ht).2]
    split
    · exact Nat.two_pos
    · exact Nat.one_lt_two

theorem safe_step {a : Action} (ha : a ∈ actions) (h : Safe old actions s) (hstep : step s a = some s') :
    Safe old actions s' := by
  have hupdate : ∀ {v : Volume String} {pid : ℕ} {p : Process}, Sealed Kept (Good old actions) v →
      ProcessOk actions pid p v → (∀ pid' p', pid' ≠ pid → s.process pid' = some p' → ProcessOk actions pid' p' v) →
      Safe old actions ({ s with volume := v }.set_process pid (some p)) := by
    intro v pid p hv hp hother
    refine ⟨hv, fun pid' p' hp' => ?_⟩
    obtain ⟨rfl, hself⟩ | ⟨hne, hold⟩ := process_set_process hp'
    · exact Option.some.inj hself ▸ hp
    · exact hother pid' p' hne hold
  cases a with
  | start pid umask staged0 staged1 =>
    simp only [step] at hstep
    split at hstep <;> cases hstep
    refine hupdate h.volume ⟨fun job hjob => ?_, fun job hjob => ?_, fun _ _ _ => trivial⟩
      fun pid' p' _ => h.process pid' p'
    · exact ⟨(List.of_mem_zip hjob).1, pid, umask, staged0, staged1, ha, hjob⟩
    · exact absurd hjob List.not_mem_nil
  | call pid result =>
    obtain ⟨p, hp, hmap⟩ := Option.bind_eq_some_iff.mp hstep
    obtain ⟨⟨p', v'⟩, hcall, rfl⟩ := Option.map_eq_some_iff.mp hmap
    obtain ⟨⟨spec, hspec, hmoves⟩, hok, -⟩ := (h.process pid p hp).call h.volume hcall
    exact hupdate hmoves.sealed hok fun pid' p' hne hp' =>
      (h.process pid' p' hp').moves hmoves fun spec' hspec' => tmp_path_ne hspec' hspec hne
  | ended pid =>
    cases hstep
    refine ⟨h.volume, fun pid' p' hp' => ?_⟩
    obtain ⟨-, hself⟩ | ⟨-, hold⟩ := process_set_process hp'
    · cases hself
    · exact h.process pid' p' hold
  | lose_power n lost =>
    obtain ⟨v', hlose, rfl⟩ := Option.map_eq_some_iff.mp hstep
    exact ⟨h.volume.lose_power hlose, nofun⟩

theorem safe_of_run (hrun : run step (init old) actions = some s) : Safe old actions s :=
  invariant_of_meets (fun _ _ _ h ha hstep => safe_step ha h hstep) (safe_init old actions)
    (meets_of_forall (fun _ ha => ha) _) hrun

/-- In every run of any number of updates at once, with calls that fail, processes that end anywhere and losses of
power, each installed file is synced, executable, and either the one of the start or all that an update has staged
for it; and an update that comes to its end has had each of its payloads installed. -/
theorem installed_files_whole (old : Disk) (actions : List Action) (s : Device)
    (hrun : run step (init old) actions = some s) :
    (∀ spec ∈ specs, ∃ i content, s.volume.names.link spec.install_path = some i ∧
      s.volume.file i = ⟨content, true⟩ ∧ s.volume.names.mode i = installed_mode ∧
      (content = old spec.install_path ∨ Staged actions spec content)) ∧
    ∀ pid p, s.process pid = some p → p.phase = .returned true →
      ∀ job ∈ p.payloads, Held s.volume job.1.install_path job.2 := by
  have hsafe := safe_of_run hrun
  refine ⟨fun spec hspec => ?_, fun pid p hp hphase job hjob => ?_⟩
  · obtain ⟨i, content, hlink, hcontent, hmode, hgood⟩ :=
      hsafe.volume.good _ Sealed.names_mem _ (kept_install hspec)
    refine ⟨i, content, hlink, hcontent, hmode, hgood.imp id ?_⟩
    rintro ⟨spec', hpath, hstaged⟩
    exact install_path_inj (Staged.mem_specs hstaged) hspec hpath ▸ hstaged
  · refine (hsafe.process pid p hp).installed job ?_
    rwa [Process.installed, hphase]

/-- The power fails when the first of two payloads is installed and the second is being copied. -/
def interrupted : List Action :=
  .start 1 0 [1, 2] [3] :: List.replicate 12 (.call 1 (.done 2)) ++ [.lose_power 1 fun _ => []]

theorem installed_files_whole_interrupted :
    ∃ s, run step (init fun _ => [0]) interrupted = some s ∧ ∀ spec ∈ specs, ∃ i content,
      s.volume.names.link spec.install_path = some i ∧ s.volume.file i = ⟨content, true⟩ ∧
      s.volume.names.mode i = installed_mode ∧ (content = [0] ∨ Staged interrupted spec content) := by
  obtain ⟨s, hs⟩ : ∃ s, run step (init fun _ => [0]) interrupted = some s := ⟨_, rfl⟩
  exact ⟨s, hs, (installed_files_whole _ interrupted s hs).1⟩

section InOrder

variable {staged0 staged1 : Bytes} {read : String → Option Bytes}

/-- Both installed files are those of the start, the first is the update's, or both are. -/
def InOrder (old : Disk) (staged0 staged1 : Bytes) (read : String → Option Bytes) : Prop :=
  (read grand_yeah.install_path = some (old grand_yeah.install_path) ∧
    read restful_api_server.install_path = some (old restful_api_server.install_path)) ∨
  (read grand_yeah.install_path = some staged0 ∧
    (read restful_api_server.install_path = some (old restful_api_server.install_path) ∨
      read restful_api_server.install_path = some staged1))

theorem InOrder.congr {read' : String → Option Bytes} (h : InOrder old staged0 staged1 read)
    (hread : ∀ spec ∈ specs, read' spec.install_path = read spec.install_path) :
    InOrder old staged0 staged1 read' := by
  rwa [InOrder, hread _ (mem_specs.mpr (.inl rfl)), hread _ (mem_specs.mpr (.inr rfl))]

/-- All updates are of the same payloads, and one that has installed something has installed the first. -/
structure Updating (old : Disk) (staged0 staged1 : Bytes) (s : Device) : Prop where
  names : ∀ n ∈ s.volume.journal, InOrder old staged0 staged1 (s.volume.read_by n)
  payloads : ∀ pid p, s.process pid = some p → p.payloads = specs.zip [staged0, staged1]
  first : ∀ pid p, s.process pid = some p → p.installed ≠ [] →
    s.volume.read grand_yeah.install_path = some staged0

theorem updating_init (old : Disk) (staged0 staged1 : Bytes) : Updating old staged0 staged1 (init old) := by
  refine ⟨fun n hn => .inl ?_, nofun, nofun⟩
  obtain rfl := List.mem_singleton.mp hn
  simp [Volume.read_by, init, install_paths_ne.symm]

/-- The first thing that a process installs is the first payload. -/
theorem first_of_initial {installed : List (OutputSpec × Bytes)} {job : OutputSpec × Bytes}
    (hinitial : installed ++ [job] <+: specs.zip [staged0, staged1]) :
    job = (grand_yeah, staged0) ∨ (job = (restful_api_server, staged1) ∧ installed ≠ []) := by
  cases installed with
  | nil =>
    rw [List.nil_append, specs, List.zip_cons_cons, List.cons_prefix_cons] at hinitial
    exact .inl hinitial.1
  | cons first rest =>
    have hmem := hinitial.mem (List.mem_append_right _ (List.mem_singleton_self job))
    simp only [specs, List.zip_cons_cons, List.zip_nil_right, List.mem_cons, List.not_mem_nil, or_false] at hmem
    exact hmem.imp id fun h => ⟨h, List.cons_ne_nil _ _⟩

theorem updating_call {result : CallResult} (hsafe : Safe old actions s) (h : Updating old staged0 staged1 s)
    (hp : s.process pid = some p) (hcall : p.call pid result s.volume = some (p', v')) :
    Updating old staged0 staged1 ({ s with volume := v' }.set_process pid (some p')) := by
  obtain ⟨⟨spec, hspec, hmoves⟩, -, hpayloads, hinstalled⟩ := (hsafe.process pid p hp).call hsafe.volume hcall
  have hsame := (h.payloads pid p hp)
  have hinitial := p'.installed_initial
  rw [hpayloads, hsame, hinstalled] at hinitial
  -- the installed files afterwards, by what the call has installed
  have hread : InOrder old staged0 staged1 v'.read ∧
      (s.volume.read grand_yeah.install_path = some staged0 → v'.read grand_yeah.install_path = some staged0) ∧
      (p'.installed ≠ [] → v'.read grand_yeah.install_path = some staged0) := by
    have hold := h.names _ Sealed.names_mem
    have hkept : ∀ spec ∈ specs, v'.read spec.install_path = _ := fun spec hspec => hmoves.read _ (kept_install hspec)
    have hfirst := hkept _ (mem_specs.mpr (.inl rfl))
    have hsecond := hkept _ (mem_specs.mpr (.inr rfl))
    cases hchange : p.change result with
    | none =>
      rw [hchange, Option.map_none, Option.elim_none] at hkept hfirst
      rw [hchange, Option.toList_none, List.append_nil] at hinstalled
      refine ⟨hold.congr hkept, fun h => hfirst.trans h, fun hne => hfirst.trans ?_⟩
      exact h.first pid p hp (hinstalled ▸ hne)
    | some job =>
      rw [hchange, Option.toList_some] at hinitial
      rw [hchange, Option.map_some, Option.elim_some] at hfirst hsecond
      obtain rfl | ⟨rfl, hne⟩ := first_of_initial hinitial
      · rw [placed, Function.update_self] at hfirst
        rw [placed, Function.update_of_ne install_paths_ne.symm] at hsecond
        refine ⟨.inr ⟨hfirst, ?_⟩, fun _ => hfirst, fun _ => hfirst⟩
        rw [hsecond]
        obtain hold | hold := hold
        exacts [.inl hold.2, hold.2]
      · rw [placed, Function.update_of_ne install_paths_ne] at hfirst
        rw [placed, Function.update_self] at hsecond
        rw [h.first pid p hp hne] at hfirst
        exact ⟨.inr ⟨hfirst, .inr hsecond⟩, fun _ => hfirst, fun _ => hfirst⟩
  obtain ⟨hnow, hkept, hfirst⟩ := hread
  refine ⟨fun n hn => ?_, fun pid' q hq => ?_, fun pid' q hq => ?_⟩
  · obtain rfl | hn := hmoves.later.mem_cases hn
    · exact hnow
    · exact (h.names n hn).congr fun spec hspec => hmoves.later.read_by hn (kept_install hspec)
  · obtain ⟨-, hself⟩ | ⟨-, hother⟩ := process_set_process hq
    · rw [← Option.some.inj hself, hpayloads, hsame]
    · exact h.payloads pid' q hother
  · obtain ⟨-, hself⟩ | ⟨-, hother⟩ := process_set_process hq
    · exact Option.some.inj hself ▸ hfirst
    · exact fun hne => hkept (h.first pid' q hother hne)

theorem updating_step {a : Action} (hsafe : Safe old actions s)
    (ha : ∀ pid umask b0 b1, a = .start pid umask b0 b1 → b0 = staged0 ∧ b1 = staged1)
    (h : Updating old staged0 staged1 s) (hstep : step s a = some s') : Updating old staged0 staged1 s' := by
  cases a with
  | start pid umask b0 b1 =>
    obtain ⟨rfl, rfl⟩ := ha pid umask b0 b1 rfl
    simp only [step] at hstep
    split at hstep <;> cases hstep
    refine ⟨h.names, fun pid' q hq => ?_, fun pid' q hq => ?_⟩ <;>
      obtain ⟨-, hself⟩ | ⟨-, hother⟩ := process_set_process hq
    · exact Option.some.inj hself ▸ rfl
    · exact h.payloads pid' q hother
    · exact Option.some.inj hself ▸ fun hne => absurd rfl hne
    · exact h.first pid' q hother
  | call pid result =>
    obtain ⟨p, hp, hmap⟩ := Option.bind_eq_some_iff.mp hstep
    obtain ⟨⟨p', v'⟩, hcall, rfl⟩ := Option.map_eq_some_iff.mp hmap
    exact updating_call hsafe h hp hcall
  | ended pid =>
    cases hstep
    refine ⟨h.names, fun pid' q hq => ?_, fun pid' q hq => ?_⟩ <;>
      obtain ⟨-, hself⟩ | ⟨-, hother⟩ := process_set_process hq
    · cases hself
    · exact h.payloads pid' q hother
    · cases hself
    · exact h.first pid' q hother
  | lose_power n lost =>
    obtain ⟨v', hlose, rfl⟩ := Option.map_eq_some_iff.mp hstep
    obtain ⟨hjournal, hmem, hread⟩ := hsafe.volume.read_lose_power hlose
    refine ⟨fun m hm => ?_, nofun, nofun⟩
    obtain rfl := List.mem_singleton.mp (hjournal ▸ hm)
    exact (h.names _ hmem).congr fun spec hspec => hread _ (kept_install hspec)

/-- Updates to one package, however often they are started, also at once, and wherever they or the power fail: the
second payload is never installed without the first. -/
theorem updates_in_order (old : Disk) (staged0 staged1 : Bytes) (actions : List Action) (s : Device)
    (hsame : ∀ pid umask b0 b1, .start pid umask b0 b1 ∈ actions → b0 = staged0 ∧ b1 = staged1)
    (hrun : run step (init old) actions = some s) :
    (s.volume.read grand_yeah.install_path = some (old grand_yeah.install_path) ∧
      s.volume.read restful_api_server.install_path = some (old restful_api_server.install_path)) ∨
    (s.volume.read grand_yeah.install_path = some staged0 ∧
      (s.volume.read restful_api_server.install_path = some (old restful_api_server.install_path) ∨
        s.volume.read restful_api_server.install_path = some staged1)) := by
  have hkeep : ∀ s a s', Safe old actions s ∧ Updating old staged0 staged1 s → a ∈ actions → step s a = some s' →
      Safe old actions s' ∧ Updating old staged0 staged1 s' := by
    intro s a s' h ha hstep
    refine ⟨safe_step ha h.1 hstep, updating_step h.1 ?_ h.2 hstep⟩
    rintro pid umask b0 b1 rfl
    exact hsame pid umask b0 b1 ha
  have hinit := And.intro (safe_init old actions) (updating_init old staged0 staged1)
  exact (invariant_of_meets hkeep hinit (meets_of_forall (fun _ ha => ha) _) hrun).2.names _ Sealed.names_mem

theorem updates_in_order_interrupted :
    ∃ s, run step (init fun _ => [0]) interrupted = some s ∧
      s.volume.read grand_yeah.install_path = some [1, 2] ∧
      (s.volume.read restful_api_server.install_path = some [0] ∨
        s.volume.read restful_api_server.install_path = some [3]) := by
  obtain ⟨s, hs⟩ : ∃ s, run step (init fun _ => [0]) interrupted = some s := ⟨_, rfl⟩
  have hstart : ∀ pid umask b0 b1, .start pid umask b0 b1 ∈ interrupted → b0 = [1, 2] ∧ b1 = [3] := by
    simp [interrupted]
  obtain ⟨hfirst, -⟩ | hsecond := updates_in_order _ [1, 2] [3] interrupted s hstart hs
  · obtain rfl := Option.some.inj hs
    exact absurd hfirst (by decide)
  · exact ⟨s, hs, hsecond⟩

end InOrder

end k180.gen_fw
