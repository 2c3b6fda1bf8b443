import K180.Netplan.Runs

open json_c schedule

namespace k180.modify_sysip_netplan

variable {JSON_GET_REC_IP : List Char} {s s' : State} {a : Action}

/-- A run has the values of the store that its version counts, which is its own or a later one. -/
def VersionsRead (s : State) : Prop :=
  ∀ i version cfg, (s.phase i).values = some (version, cfg) →
    i < version ∧ version ≤ s.stores.length ∧
      (s.stores[version - 1]?).map Settings.sys_cfg = some cfg

theorem VersionsRead.set_phase {i : ℕ} {p : Phase} (hversions : VersionsRead s)
    (hvalues : p.values = (s.phase i).values) : VersionsRead (s.set_phase i p) := by
  intro j version cfg hj
  by_cases hij : j = i
  · subst hij
    rw [State.phase_set_phase_self, hvalues] at hj
    exact hversions j version cfg hj
  · rw [State.phase_set_phase_of_ne hij] at hj
    exact hversions j version cfg hj

theorem versionsRead_step (hversions : VersionsRead s) (hstep : step JSON_GET_REC_IP s a = some s') :
    VersionsRead s' := by
  obtain ⟨settings, -, rfl⟩ | ⟨i, settings, -, hstarted, -, hlast, rfl⟩ | ⟨i, version, cfg, -, hphase, rfl⟩ |
    ⟨i, version, cfg, -, hphase, -, rfl⟩ | ⟨i, version, cfg, -, hphase, rfl⟩ | ⟨i, version, cfg, -, hphase, rfl⟩ :=
    step_cases hstep
  · intro i version cfg hi
    obtain ⟨hlt, hle, hget⟩ := hversions i version cfg hi
    have hbound : version ≤ (s.stores ++ [settings]).length := by
      rw [List.length_append]
      omega
    refine ⟨hlt, hbound, ?_⟩
    rw [List.getElem?_append_left (by omega)]
    exact hget
  · intro j version cfg hj
    by_cases hij : j = i
    · subst hij
      rw [State.phase_set_phase_self, Phase.values, Option.some.injEq, Prod.mk.injEq] at hj
      obtain ⟨rfl, rfl⟩ := hj
      refine ⟨hstarted, le_refl _, ?_⟩
      rw [State.stores_set_phase, ← List.getLast?_eq_getElem?, hlast, Option.map_some]
    · rw [State.phase_set_phase_of_ne hij] at hj
      exact hversions j version cfg hj
  · exact hversions.set_phase (by rw [hphase]; rfl)
  · exact hversions.set_phase (by rw [hphase]; rfl)
  · exact hversions.set_phase (by rw [hphase]; rfl)
  · exact hversions.set_phase (by rw [hphase]; rfl)

/-- A run has the file open, or none has written it yet, or it is the document of the newest values that a
run has written. -/
def Settled (JSON_GET_REC_IP : List Char) (s : State) : Prop :=
  (∃ i, (s.phase i).writing = true) ∨ (∀ i, (s.phase i).written = none) ∨
    ∃ i version cfg, (s.phase i).written = some (version, cfg) ∧ s.yaml = netplan JSON_GET_REC_IP cfg ∧
      ∀ j version' cfg', (s.phase j).written = some (version', cfg') → version' ≤ version

/-- A step of a run that leaves the file alone, and keeps what the run has written and whether it has the
file open. -/
theorem Settled.set_phase {i : ℕ} {p : Phase} (hsettled : Settled JSON_GET_REC_IP s)
    (hwriting : p.writing = (s.phase i).writing) (hwritten : p.written = (s.phase i).written) :
    Settled JSON_GET_REC_IP (s.set_phase i p) := by
  have hphase_writing : ∀ j, ((s.set_phase i p).phase j).writing = (s.phase j).writing := by
    intro j
    by_cases hij : j = i
    · rw [hij, State.phase_set_phase_self, hwriting]
    · rw [State.phase_set_phase_of_ne hij]
  have hphase_written : ∀ j, ((s.set_phase i p).phase j).written = (s.phase j).written := by
    intro j
    by_cases hij : j = i
    · rw [hij, State.phase_set_phase_self, hwritten]
    · rw [State.phase_set_phase_of_ne hij]
  simp only [Settled, hphase_writing, hphase_written]
  exact hsettled

/-- Over a file that is not longer the document is all that is left. -/
theorem overwritten_of_length_le {yaml document : List UInt8} (hle : yaml.length ≤ document.length) :
    overwritten yaml document = document := by
  rw [overwritten, List.drop_eq_nil_of_le hle, List.append_nil]

theorem settled_step (hsettled : Settled JSON_GET_REC_IP s) (hordered : InOrder JSON_GET_REC_IP s a)
    (hstep : step JSON_GET_REC_IP s a = some s') : Settled JSON_GET_REC_IP s' := by
  obtain ⟨settings, -, rfl⟩ | ⟨i, settings, -, hstarted, hphase, hlast, rfl⟩ | ⟨i, version, cfg, -, hphase, rfl⟩ |
    ⟨i, version, cfg, -, hphase, -, rfl⟩ | ⟨i, version, cfg, rfl, hphase, rfl⟩ |
    ⟨i, version, cfg, -, hphase, rfl⟩ := step_cases hstep
  · exact hsettled
  · exact hsettled.set_phase (by rw [hphase]; rfl) (by rw [hphase]; rfl)
  · exact .inl ⟨i, by rw [State.phase_set_phase_self]; rfl⟩
  · exact hsettled.set_phase (by rw [hphase]; rfl) (by rw [hphase]; rfl)
  · -- whatever the other runs have done, the file is now the document of this one
    obtain ⟨hlength, hnewest⟩ := hordered version cfg hphase
    refine .inr (.inr ⟨i, version, cfg, ?_, overwritten_of_length_le hlength, ?_⟩)
    · rw [State.phase_set_phase_self]
      rfl
    · intro j version' cfg' hj
      by_cases hij : j = i
      · rw [hij, State.phase_set_phase_self, Phase.written, Option.some.injEq, Prod.mk.injEq] at hj
        exact hj.1.symm.le
      · rw [State.phase_set_phase_of_ne hij] at hj
        exact hnewest j version' cfg' hj
  · exact hsettled.set_phase (by rw [hphase]; rfl) (by rw [hphase]; rfl)

/-- Once all runs have finished, the last of them to start has read, and the newest written values are,
those stored last. -/
theorem current_of_settled (hversions : VersionsRead s) (hsettled : Settled JSON_GET_REC_IP s)
    (hfinished : Finished s) : Current JSON_GET_REC_IP s := by
  intro settings hlast
  have hpos : 0 < s.stores.length := by
    apply List.length_pos_of_ne_nil
    rintro hnil
    rw [hnil] at hlast
    cases hlast
  obtain ⟨version_last, cfg_last, hlast_phase⟩ := hfinished (s.stores.length - 1) (by omega)
  have hlast_written : (s.phase (s.stores.length - 1)).written = some (version_last, cfg_last) := by
    rw [hlast_phase]
    rfl
  obtain ⟨hlast_lt, -, -⟩ := hversions (s.stores.length - 1) version_last cfg_last (by rw [hlast_phase]; rfl)
  obtain ⟨i, hwriting⟩ | hnone | ⟨i, version, cfg, hwritten, hyaml, hnewest⟩ := hsettled
  · -- a run that has the file open has not finished
    obtain ⟨version, cfg, hvalues⟩ : ∃ version cfg, (s.phase i).values = some (version, cfg) := by
      cases hphase : s.phase i with
      | opened version cfg => exact ⟨version, cfg, rfl⟩
      | locked version cfg => exact ⟨version, cfg, rfl⟩
      | _ =>
        rw [hphase] at hwriting
        cases hwriting
    obtain ⟨hlt, hle, -⟩ := hversions i version cfg hvalues
    obtain ⟨_, _, hphase⟩ := hfinished i (by omega)
    rw [hphase] at hwriting
    cases hwriting
  · rw [hnone] at hlast_written
    cases hlast_written
  · have hvalues : (s.phase i).values = some (version, cfg) := by
      cases hphase : s.phase i with
      | flushed | finished =>
        rw [hphase] at hwritten
        exact hwritten
      | _ =>
        rw [hphase] at hwritten
        cases hwritten
    obtain ⟨-, hle, hcfg⟩ := hversions i version cfg hvalues
    have hge := hnewest _ _ _ hlast_written
    have hversion : version = s.stores.length := by omega
    rw [hversion, ← List.getLast?_eq_getElem?, hlast, Option.map_some, Option.some.injEq] at hcfg
    rw [hyaml, hcfg]

/-- In every interleaving of stores and runs in which the runs write in order: whenever all runs have
finished, the file is the document of the values stored last. -/
theorem netplan_current {yaml : List UInt8} {actions : List Action}
    (hrun : run (step JSON_GET_REC_IP) (init yaml) actions = some s)
    (hordered : Meets (step JSON_GET_REC_IP) (InOrder JSON_GET_REC_IP) (init yaml) actions)
    (hfinished : Finished s) : Current JSON_GET_REC_IP s := by
  have hversions : VersionsRead s := by
    apply invariant_of_run (fun s a s' => versionsRead_step) _ hrun
    intro i version cfg hi
    cases hi
  have hsettled : Settled JSON_GET_REC_IP s := by
    apply invariant_of_meets (fun s a s' => settled_step) _ hordered hrun
    exact .inr (.inl fun i => rfl)
  exact current_of_settled hversions hsettled hfinished

/-- Two configurations, the first with the longer document. -/
def wide : Settings where
  root_obj := .object [("system_cfg", .object [("ipaddress", .string "192.168.100.100"), ("netmask", .int 24),
    ("gateway", .string "192.168.100.254")])]
  sys_cfg := { ipaddress := "192.168.100.100".toList, netmask := 24, gateway := "192.168.100.254".toList }
  reads := by decide +kernel

def short : Settings where
  root_obj := .object [("system_cfg", .object [("ipaddress", .string "10.0.0.2"), ("netmask", .int 8),
    ("gateway", .string "10.0.0.1")])]
  sys_cfg := { ipaddress := "10.0.0.2".toList, netmask := 8, gateway := "10.0.0.1".toList }
  reads := by decide +kernel

def rescue_ip : List Char := "192.168.145.91".toList

theorem length_short_lt_wide :
    (netplan rescue_ip short.sys_cfg).length < (netplan rescue_ip wide.sys_cfg).length := by
  decide +kernel

theorem finished_of_two {v0 v1 : ℕ} {cfg0 cfg1 : SysCfg} (hstores : s.stores.length = 2)
    (hphase0 : s.phase 0 = .finished v0 cfg0) (hphase1 : s.phase 1 = .finished v1 cfg1) : Finished s := by
  intro i hi
  obtain rfl | rfl : i = 0 ∨ i = 1 := by omega
  · exact ⟨v0, cfg0, hphase0⟩
  · exact ⟨v1, cfg1, hphase1⟩

/-- The second store comes while the first run is writing, and the second run reads after that. -/
def pipelined : List Action :=
  [.store wide, .read 0, .fopen 0, .flock 0, .store short, .fflush 0, .unlock 0, .read 1, .fopen 1, .flock 1,
    .fflush 1, .unlock 1]

theorem pipelined_inOrder : Meets (step rescue_ip) (InOrder rescue_ip) (init []) pipelined := by
  simp only [pipelined, Meets, InOrder, true_and, and_true, implies_true]
  rintro _ ⟨rfl⟩ _ ⟨rfl⟩ _ ⟨rfl⟩ _ ⟨rfl⟩ _ ⟨rfl⟩
  refine ⟨?_, ?_⟩
  · rintro version cfg ⟨rfl⟩
    refine ⟨Nat.zero_le _, fun j version' cfg' hj => ?_⟩
    by_cases hj0 : j = 0
    · subst hj0
      cases hj
    · simp [State.set_phase, hj0, init, Phase.written] at hj
  · rintro _ ⟨rfl⟩ _ ⟨rfl⟩ _ ⟨rfl⟩ _ ⟨rfl⟩ _ ⟨rfl⟩ version cfg ⟨rfl⟩
    refine ⟨Nat.zero_le _, fun j version' cfg' hj => ?_⟩
    by_cases hj0 : j = 0
    · subst hj0
      cases hj
      decide
    · by_cases hj1 : j = 1
      · subst hj1
        cases hj
      · simp [State.set_phase, hj0, hj1, init, Phase.written] at hj

theorem netplan_current_pipelined :
    ∃ s, run (step rescue_ip) (init []) pipelined = some s ∧ Finished s ∧ Current rescue_ip s := by
  obtain ⟨s, hs⟩ : ∃ s, run (step rescue_ip) (init []) pipelined = some s := ⟨_, rfl⟩
  have hfinished : Finished s := by
    obtain rfl := Option.some.inj hs
    exact finished_of_two rfl rfl rfl
  exact ⟨s, hs, hfinished, netplan_current hs pipelined_inOrder hfinished⟩

/-- Both runs empty the file before either writes it, and the shorter document comes second. -/
def mixed : List Action :=
  [.store wide, .read 0, .store short, .read 1, .fopen 0, .fopen 1, .flock 0, .fflush 0, .unlock 0, .flock 1,
    .fflush 1, .unlock 1]

/-- The run that has read first writes last. -/
def stale : List Action :=
  [.store wide, .read 0, .store short, .read 1, .fopen 1, .flock 1, .fflush 1, .unlock 1, .fopen 0, .flock 0,
    .fflush 0, .unlock 0]

theorem overwritten_nil (document : List UInt8) : overwritten [] document = document := by
  rw [overwritten, List.drop_nil, List.append_nil]

/-- Two stores and their runs leave the file with the end of the first document behind the second, or with the
first document alone. -/
theorem netplan_mixed_and_stale :
    (∃ s, run (step rescue_ip) (init []) mixed = some s ∧ Finished s ∧
      s.yaml = overwritten (netplan rescue_ip wide.sys_cfg) (netplan rescue_ip short.sys_cfg) ∧
      ¬ Current rescue_ip s) ∧
    ∃ s, run (step rescue_ip) (init []) stale = some s ∧ Finished s ∧
      s.yaml = netplan rescue_ip wide.sys_cfg ∧ ¬ Current rescue_ip s := by
  have hlength := length_short_lt_wide
  constructor
  · obtain ⟨s, hs⟩ : ∃ s, run (step rescue_ip) (init []) mixed = some s := ⟨_, rfl⟩
    have hlast : s.stores.getLast? = some short := by rw [← Option.some.inj hs]; rfl
    have hyaml : s.yaml = overwritten (overwritten [] (netplan rescue_ip wide.sys_cfg))
        (netplan rescue_ip short.sys_cfg) := by
      rw [← Option.some.inj hs]
      rfl
    rw [overwritten_nil] at hyaml
    refine ⟨s, hs, ?_, hyaml, fun hcurrent => ?_⟩
    · obtain rfl := Option.some.inj hs
      exact finished_of_two rfl rfl rfl
    · have htail := congrArg List.length (hyaml.symm.trans (hcurrent short hlast))
      rw [overwritten, List.length_append, List.length_drop] at htail
      omega
  · obtain ⟨s, hs⟩ : ∃ s, run (step rescue_ip) (init []) stale = some s := ⟨_, rfl⟩
    have hlast : s.stores.getLast? = some short := by rw [← Option.some.inj hs]; rfl
    have hyaml : s.yaml = overwritten [] (netplan rescue_ip wide.sys_cfg) := by
      rw [← Option.some.inj hs]
      rfl
    rw [overwritten_nil] at hyaml
    refine ⟨s, hs, ?_, hyaml, fun hcurrent => ?_⟩
    · obtain rfl := Option.some.inj hs
      exact finished_of_two rfl rfl rfl
    · rw [← hyaml.symm.trans (hcurrent short hlast)] at hlength
      exact lt_irrefl _ hlength

end k180.modify_sysip_netplan
