import K180.Netplan.Document
import K180.Schedule.Run

open json_c schedule

namespace k180.modify_sysip_netplan

/-- How far a run of `main` has got. From the moment it has let go of the configuration it has in its
variables what it read there; `version` says after how many stores that was. -/
inductive Phase where
  | started
  | read (version : ℕ) (cfg : SysCfg)
  | opened (version : ℕ) (cfg : SysCfg)
  | locked (version : ℕ) (cfg : SysCfg)
  | flushed (version : ℕ) (cfg : SysCfg)
  | finished (version : ℕ) (cfg : SysCfg)

/-- The two files, the lock on the second, and the runs, each started by the store of its number. The last
of the stores is the content of `user_def_setting.json`. -/
structure State where
  stores : List Settings
  yaml : List UInt8
  lock : Option ℕ
  phase : ℕ → Phase

def init (yaml : List UInt8) : State where
  stores := []
  yaml
  lock := none
  phase _ := .started

/-- A writer stores new values and starts a run, or a run takes its next step. Storing, and reading the
configuration, are one step each, since both are done under its lock. -/
inductive Action where
  | store (settings : Settings)
  | read (i : ℕ)
  | fopen (i : ℕ)
  | flock (i : ℕ)
  | fflush (i : ℕ)
  | unlock (i : ℕ)

def State.set_phase (s : State) (i : ℕ) (phase : Phase) : State :=
  { s with phase := Function.update s.phase i phase }

/-- What `fflush` leaves in the file: the document from offset 0 on, and what lies behind it. -/
def overwritten (yaml document : List UInt8) : List UInt8 := document ++ yaml.drop document.length

/-- One step. `fopen` with mode "w" empties the file whether or not it is locked; `flock` waits for the
lock. -/
def step (JSON_GET_REC_IP : List Char) (s : State) : Action → Option State
  | .store settings => some { s with stores := s.stores ++ [settings] }
  | .read i =>
    if i < s.stores.length then
      match s.phase i, s.stores.getLast? with
      | .started, some settings => some (s.set_phase i (.read s.stores.length settings.sys_cfg))
      | _, _ => none
    else none
  | .fopen i =>
    match s.phase i with
    | .read version cfg => some { s.set_phase i (.opened version cfg) with yaml := [] }
    | _ => none
  | .flock i =>
    match s.phase i, s.lock with
    | .opened version cfg, none => some { s.set_phase i (.locked version cfg) with lock := some i }
    | _, _ => none
  | .fflush i =>
    match s.phase i with
    | .locked version cfg =>
      some { s.set_phase i (.flushed version cfg) with
        yaml := overwritten s.yaml (netplan JSON_GET_REC_IP cfg) }
    | _ => none
  | .unlock i =>
    match s.phase i with
    | .flushed version cfg => some { s.set_phase i (.finished version cfg) with lock := none }
    | _ => none

/-- The version and the values that a run has read. -/
def Phase.values : Phase → Option (ℕ × SysCfg)
  | .started => none
  | .read version cfg | .opened version cfg | .locked version cfg | .flushed version cfg
  | .finished version cfg => some (version, cfg)

/-- The version and the values that a run has written. -/
def Phase.written : Phase → Option (ℕ × SysCfg)
  | .flushed version cfg | .finished version cfg => some (version, cfg)
  | _ => none

/-- The run has opened the file and not written it yet. -/
def Phase.writing : Phase → Bool
  | .opened .. | .locked .. => true
  | _ => false

/-- All runs have finished. -/
def Finished (s : State) : Prop := ∀ i < s.stores.length, ∃ version cfg, s.phase i = .finished version cfg

/-- The file is the document of the values that were stored last. -/
def Current (JSON_GET_REC_IP : List Char) (s : State) : Prop :=
  ∀ settings, s.stores.getLast? = some settings → s.yaml = netplan JSON_GET_REC_IP settings.sys_cfg

/-- A run writes its document only when none that was made from newer values has been written, and when
nothing longer has been written since the file was last opened. -/
def InOrder (JSON_GET_REC_IP : List Char) (s : State) : Action → Prop
  | .fflush i => ∀ version cfg, s.phase i = .locked version cfg →
      s.yaml.length ≤ (netplan JSON_GET_REC_IP cfg).length ∧
      ∀ j version' cfg', (s.phase j).written = some (version', cfg') → version' ≤ version
  | _ => True

variable {JSON_GET_REC_IP : List Char} {s s' : State} {a : Action} {i j : ℕ} {p : Phase}

@[simp] theorem State.phase_set_phase_self : (s.set_phase i p).phase i = p := Function.update_self ..

theorem State.phase_set_phase_of_ne (hne : j ≠ i) : (s.set_phase i p).phase j = s.phase j :=
  Function.update_of_ne hne ..

@[simp] theorem State.stores_set_phase : (s.set_phase i p).stores = s.stores := rfl

/-- What a step can do. -/
theorem step_cases (hstep : step JSON_GET_REC_IP s a = some s') :
    (∃ settings, a = .store settings ∧ s' = { s with stores := s.stores ++ [settings] }) ∨
    (∃ i settings, a = .read i ∧ i < s.stores.length ∧ s.phase i = .started ∧
      s.stores.getLast? = some settings ∧ s' = s.set_phase i (.read s.stores.length settings.sys_cfg)) ∨
    (∃ i version cfg, a = .fopen i ∧ s.phase i = .read version cfg ∧
      s' = { s.set_phase i (.opened version cfg) with yaml := [] }) ∨
    (∃ i version cfg, a = .flock i ∧ s.phase i = .opened version cfg ∧ s.lock = none ∧
      s' = { s.set_phase i (.locked version cfg) with lock := some i }) ∨
    (∃ i version cfg, a = .fflush i ∧ s.phase i = .locked version cfg ∧
      s' = { s.set_phase i (.flushed version cfg) with
        yaml := overwritten s.yaml (netplan JSON_GET_REC_IP cfg) }) ∨
    (∃ i version cfg, a = .unlock i ∧ s.phase i = .flushed version cfg ∧
      s' = { s.set_phase i (.finished version cfg) with lock := none }) := by
  cases a with
  | store settings => exact .inl ⟨settings, rfl, (Option.some.inj hstep).symm⟩
  | read i =>
    rw [step] at hstep
    split at hstep
    · rename_i hstarted
      split at hstep
      · rename_i settings hphase hlast
        exact .inr (.inl ⟨i, settings, rfl, hstarted, hphase, hlast, (Option.some.inj hstep).symm⟩)
      · cases hstep
    · cases hstep
  | fopen i =>
    rw [step] at hstep
    split at hstep
    · rename_i version cfg hphase
      exact .inr (.inr (.inl ⟨i, version, cfg, rfl, hphase, (Option.some.inj hstep).symm⟩))
    · cases hstep
  | flock i =>
    rw [step] at hstep
    split at hstep
    · rename_i version cfg hphase hfree
      exact .inr (.inr (.inr (.inl ⟨i, version, cfg, rfl, hphase, hfree, (Option.some.inj hstep).symm⟩)))
    · cases hstep
  | fflush i =>
    rw [step] at hstep
    split at hstep
    · rename_i version cfg hphase
      exact .inr (.inr (.inr (.inr (.inl ⟨i, version, cfg, rfl, hphase, (Option.some.inj hstep).symm⟩))))
    · cases hstep
  | unlock i =>
    rw [step] at hstep
    split at hstep
    · rename_i version cfg hphase
      exact .inr (.inr (.inr (.inr (.inr ⟨i, version, cfg, rfl, hphase, (Option.some.inj hstep).symm⟩))))
    · cases hstep

end k180.modify_sysip_netplan
