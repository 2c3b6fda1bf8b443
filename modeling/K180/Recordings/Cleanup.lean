import K180.Recordings.Names

open binary_float

namespace k180.record_cleanup

open recordings

def kDefaultHighWaterPercent : Value := .fin 95

def kDefaultMinFileAgeSec : ℤ := 300

def RECORD_DIR : List Char := "/data".toList

/-- What a call of `statvfs` returns. -/
structure Statvfs where
  ok : Bool
  f_frsize : UInt64
  f_blocks : UInt64
  f_bavail : UInt64

/-- What `lstat` stores. -/
structure Stat where
  S_ISREG : Bool
  st_mtime : ℤ
  st_size : Int64

structure FsUsage where
  total_bytes : UInt64
  avail_bytes : UInt64
  used_percent : Value

structure CandidateFile where
  path : List Char
  mtime : ℤ
  size : UInt64
deriving DecidableEq

/-- What the calls of a cleanup find: each call of `statvfs`, the names in a directory that can be opened, the file of
a path, the clock, and which calls of `unlink` succeed. -/
structure Environment where
  statvfs : ℕ → Statvfs
  opendir : List Char → Option (List (List Char))
  lstat : List Char → Option Stat
  time : ℤ
  unlink : ℕ → Bool

/-- A reading of the disk usage, which can fail, or an attempt to delete a file. -/
inductive Event where
  | reading (usage : Option FsUsage)
  | unlink (path : List Char) (ok : Bool)

def join_path (dir name : List Char) : List Char :=
  if dir = [] ∨ dir = ['/'] then '/' :: name
  else if dir.getLast? = some '/' then dir ++ name
  else dir ++ '/' :: name

def get_fs_usage (st : Statvfs) : Option FsUsage :=
  if st.ok = false then none
  else if st.f_blocks = 0 ∨ st.f_frsize = 0 then none
  else
    let used_blocks := if st.f_bavail < st.f_blocks then st.f_blocks - st.f_bavail else 0
    some ⟨st.f_blocks * st.f_frsize, st.f_bavail * st.f_frsize,
      binary64.div (binary64.mulFin (binary64.ofInt used_blocks.toNat) 100) (binary64.ofInt st.f_blocks.toNat)⟩

/-- The comparison that the files are sorted with. -/
def CandidateFile.before (a b : CandidateFile) : Bool :=
  if a.mtime ≠ b.mtime then a.mtime < b.mtime else a.path < b.path

/-- The body of the loop over the directory, for a name. -/
def candidate (env : Environment) (dir : List Char) (min_file_age_sec : ℤ) (name : List Char) : Option CandidateFile :=
  if name = ['.'] ∨ name = ['.', '.'] then none
  else if is_recording_file_name name = false then none
  else
    let path := join_path dir name
    match env.lstat path with
    | none => none
    | some st =>
      if st.S_ISREG = false then none
      else if 0 < min_file_age_sec ∧ env.time ≠ -1 ∧ env.time - min_file_age_sec < st.st_mtime then none
      else some ⟨path, st.st_mtime, st.st_size.toUInt64⟩

def collect_candidate_files (env : Environment) (dir : List Char) (min_file_age_sec : ℤ) : List CandidateFile :=
  match env.opendir dir with
  | none => []
  | some names => (names.filterMap (candidate env dir min_file_age_sec)).insertionSort fun a b => b.before a = false

/-- The loop over the files, and the reading behind it, from the `k`-th call of `statvfs` on. -/
def delete_files (env : Environment) (high_water_percent : Value) : ℕ → List CandidateFile → Bool × List Event
  | k, [] =>
    match get_fs_usage (env.statvfs k) with
    | none => (false, [.reading none])
    | some usage =>
      if high_water_percent.le usage.used_percent then (false, [.reading (some usage)])
      else (true, [.reading (some usage)])
  | k, f :: rest =>
    match get_fs_usage (env.statvfs k) with
    | none => (false, [.reading none])
    | some usage =>
      if usage.used_percent.lt high_water_percent then (true, [.reading (some usage)])
      else
        let (done, events) := delete_files env high_water_percent (k + 1) rest
        (done, .reading (some usage) :: .unlink f.path (env.unlink k) :: events)

/-- What `cleanup_once` returns, with its readings and attempts in their order. A `dir` of `none` is NULL. -/
def cleanup_once (env : Environment) (dir : Option (List Char)) (high_water_percent : Value) (min_file_age_sec : ℤ) :
    Bool × List Event :=
  let target_dir := if dir.getD [] ≠ [] then dir.getD [] else RECORD_DIR
  let high_water_percent :=
    if high_water_percent.le (.fin 0) || Value.lt (.fin 100) high_water_percent then kDefaultHighWaterPercent
    else high_water_percent
  let min_file_age_sec := if min_file_age_sec < 0 then kDefaultMinFileAgeSec else min_file_age_sec
  match get_fs_usage (env.statvfs 0) with
  | none => (false, [.reading none])
  | some usage =>
    if usage.used_percent.lt high_water_percent then (true, [.reading (some usage)])
    else
      let files := collect_candidate_files env target_dir min_file_age_sec
      if files = [] then (false, [.reading (some usage)])
      else
        let (done, events) := delete_files env high_water_percent 1 files
        (done, .reading (some usage) :: events)

def Event.attempt : Event → Option (List Char)
  | .reading _ => none
  | .unlink path _ => some path

def Event.usage : Event → Option FsUsage
  | .reading usage => usage
  | .unlink _ _ => none

/-- The paths that are attempted, in their order. -/
def attempts (events : List Event) : List (List Char) := events.filterMap Event.attempt

/-- The events are what the calls are answered, in their order, from the `k`-th call of `statvfs` on: each reading is
what that call comes to, and each attempt ends like the call of `unlink` that follows it. -/
def Answered (env : Environment) : ℕ → List Event → Prop
  | _, [] => True
  | k, .reading usage :: rest => usage = get_fs_usage (env.statvfs k) ∧ Answered env (k + 1) rest
  | k, .unlink _ ok :: rest => ok = env.unlink (k - 1) ∧ Answered env k rest

/-- A reading that was successful and not below the mark, behind which an attempt may come. -/
def Event.Allows (high_water_percent : Value) (event : Event) : Prop :=
  ∃ usage, event = .reading (some usage) ∧ usage.used_percent.lt high_water_percent = false

/-- A reading below the mark. -/
def Event.Below (high_water_percent : Value) (event : Event) : Prop :=
  ∃ usage, event = .reading (some usage) ∧ usage.used_percent.lt high_water_percent = true

/-- The last reading that was successful was below the mark. -/
def EndsBelow (high_water_percent : Value) (events : List Event) : Prop :=
  ∃ usage ∈ (events.filterMap Event.usage).getLast?, usage.used_percent.lt high_water_percent = true

/-- A file that may be deleted: a regular one in the directory with the name of a recording, old enough. -/
def Eligible (env : Environment) (dir : List Char) (min_file_age_sec : ℤ) (f : CandidateFile) : Prop :=
  ∃ names name st, env.opendir dir = some names ∧ name ∈ names ∧ is_recording_file_name name = true ∧
    env.lstat (join_path dir name) = some st ∧ st.S_ISREG = true ∧ st.st_mtime ≤ env.time - min_file_age_sec ∧
    f = ⟨join_path dir name, st.st_mtime, st.st_size.toUInt64⟩

/-- The order of the modification times, and of the paths where these are equal. -/
def OldestFirst (a b : CandidateFile) : Prop := a.mtime < b.mtime ∨ a.mtime = b.mtime ∧ a.path ≤ b.path

/-- The events are the environment's answers, a reading first and a reading last, and each attempt directly behind a
reading that was not below the mark. The attempts are made on the first of the eligible files, the oldest ones first,
and on all of them unless the last event is a reading that failed or was below the mark; no attempt comes after a
reading below the mark; and the result tells whether the last successful reading was below it. -/
structure Cleans (env : Environment) (dir : List Char) (high_water_percent : Value) (min_file_age_sec : ℤ)
    (done : Bool) (events : List Event) : Prop where
  answered : Answered env 0 events
  begins : ∃ usage, events.head? = some (.reading usage)
  ends : ∃ usage, events.getLast? = some (.reading usage)
  behind_reading : events.IsChain fun event next => next.attempt ≠ none → event.Allows high_water_percent
  oldest_first : ∃ files : List CandidateFile, (∀ f, f ∈ files ↔ Eligible env dir min_file_age_sec f) ∧
    files.Pairwise OldestFirst ∧ attempts events <+: files.map CandidateFile.path ∧
    (attempts events ≠ files.map CandidateFile.path → ∃ usage, events.getLast? = some (.reading usage) ∧
      ∀ u ∈ usage, u.used_percent.lt high_water_percent = true)
  none_behind_below : events.Pairwise fun event later => event.Below high_water_percent → later.attempt = none
  done_iff : done = true ↔ EndsBelow high_water_percent events

theorem before_eq_false_iff (a b : CandidateFile) : b.before a = false ↔ OldestFirst a b := by
  rw [CandidateFile.before, OldestFirst]
  split
  · rename_i hne
    rw [decide_eq_false_iff_not, not_lt]
    constructor
    · exact fun hle => .inl (lt_of_le_of_ne hle (Ne.symm hne))
    · rintro (hlt | ⟨heq, -⟩)
      · exact hlt.le
      · exact absurd heq.symm hne
  · rename_i heq
    rw [not_not] at heq
    rw [decide_eq_false_iff_not, not_lt]
    constructor
    · exact fun hle => .inr ⟨heq.symm, hle⟩
    · rintro (hlt | ⟨-, hle⟩)
      · exact absurd heq.symm hlt.ne
      · exact hle

instance : Std.Total fun a b : CandidateFile => b.before a = false where
  total a b := by
    rw [before_eq_false_iff, before_eq_false_iff]
    obtain hlt | heq | hlt := lt_trichotomy a.mtime b.mtime
    · exact .inl (.inl hlt)
    · exact (le_total a.path b.path).imp (fun hle => .inr ⟨heq, hle⟩) fun hle => .inr ⟨heq.symm, hle⟩
    · exact .inr (.inl hlt)

instance : IsTrans CandidateFile fun a b => b.before a = false where
  trans a b c := by
    rw [before_eq_false_iff, before_eq_false_iff, before_eq_false_iff]
    rintro (hab | ⟨hab, habPath⟩) (hbc | ⟨hbc, hbcPath⟩)
    · exact .inl (hab.trans hbc)
    · exact .inl (hbc ▸ hab)
    · exact .inl (hab ▸ hbc)
    · exact .inr ⟨hab.trans hbc, habPath.trans hbcPath⟩

section Collect

variable {env : Environment} {dir : List Char} {min_file_age_sec : ℤ}

/-- With an age to check and a clock to check it with, the body of the loop finds the eligible file of a name. -/
theorem candidate_eq_some_iff (hage : 0 < min_file_age_sec) (hclock : env.time ≠ -1) {name : List Char}
    {f : CandidateFile} :
    candidate env dir min_file_age_sec name = some f ↔ is_recording_file_name name = true ∧
      ∃ st, env.lstat (join_path dir name) = some st ∧ st.S_ISREG = true ∧
        st.st_mtime ≤ env.time - min_file_age_sec ∧ f = ⟨join_path dir name, st.st_mtime, st.st_size.toUInt64⟩ := by
  have hdots : name = ['.'] ∨ name = ['.', '.'] → is_recording_file_name name = false := by
    rintro (rfl | rfl) <;> decide
  rw [candidate]
  split
  · rename_i hdot
    simp [hdots hdot]
  cases hname : is_recording_file_name name with
  | false => simp
  | true =>
    cases hstat : env.lstat (join_path dir name) with
    | none => simp [hstat]
    | some st =>
      simp only [hstat, Bool.true_eq_false, if_false, true_and, Option.some.injEq, exists_eq_left']
      cases hreg : st.S_ISREG with
      | false => simp
      | true =>
        simp only [Bool.true_eq_false, if_false, hage, hclock, ne_eq, not_false_eq_true, true_and]
        split
        · rename_i hyoung
          simp only [reduceCtorEq, false_iff, not_and]
          intro hold
          omega
        · rename_i hold
          rw [Option.some.injEq]
          constructor
          · rintro rfl
            exact ⟨not_lt.mp hold, rfl⟩
          · rintro ⟨-, rfl⟩
            rfl

theorem mem_collect_candidate_files (hage : 0 < min_file_age_sec) (hclock : env.time ≠ -1) {f : CandidateFile} :
    f ∈ collect_candidate_files env dir min_file_age_sec ↔ Eligible env dir min_file_age_sec f := by
  rw [collect_candidate_files, Eligible]
  cases hdir : env.opendir dir with
  | none => simp
  | some names =>
    simp only [List.mem_insertionSort, List.mem_filterMap, candidate_eq_some_iff hage hclock]
    constructor
    · rintro ⟨name, hname, hrecording, st, hstat, hreg, hold, rfl⟩
      exact ⟨names, name, st, rfl, hname, hrecording, hstat, hreg, hold, rfl⟩
    · rintro ⟨names', name, st, hsame, hname, hrecording, hstat, hreg, hold, rfl⟩
      obtain rfl := Option.some.inj hsame
      exact ⟨name, hname, hrecording, st, hstat, hreg, hold, rfl⟩

theorem pairwise_collect_candidate_files (env : Environment) (dir : List Char) (min_file_age_sec : ℤ) :
    (collect_candidate_files env dir min_file_age_sec).Pairwise OldestFirst := by
  rw [collect_candidate_files]
  cases env.opendir dir with
  | none => exact List.Pairwise.nil
  | some names => exact (List.pairwise_insertionSort _ _).imp fun {a b} h => (before_eq_false_iff a b).mp h

end Collect

/-- A 64-bit number converted to a double, which is no smaller than 1 unless it is 0. -/
theorem ofInt_toNat (n : UInt64) : ∃ q, binary64.ofInt n.toNat = .fin q ∧ 0 ≤ q ∧ q ≤ 2 ^ 64 ∧ (n ≠ 0 → 1 ≤ q) := by
  have hlt : ((n.toNat : ℤ) : ℚ) ≤ 2 ^ 64 := by exact_mod_cast n.toNat_lt.le
  have htop : binary64.quantize (2 ^ 64) = 2 ^ 64 := by decide +kernel
  obtain ⟨hround, hnonneg, hle⟩ := binary64.round_of_nonneg (by positivity) hlt (by rw [htop]; decide +kernel)
  rw [htop] at hle
  refine ⟨_, hround, hnonneg, hle, fun hne => ?_⟩
  have hpos : (1 : ℚ) ≤ ((n.toNat : ℤ) : ℚ) := by
    have hnat : n.toNat ≠ 0 := fun h => hne (UInt64.toNat_inj.mp h)
    exact_mod_cast Nat.one_le_iff_ne_zero.mpr hnat
  have hone : binary64.quantize 1 = 1 := by decide +kernel
  exact hone.symm.trans_le (binary64.quantize_mono hpos)

/-- The usage that is read is a number. -/
theorem used_percent_eq_fin {st : Statvfs} {usage : FsUsage} (husage : get_fs_usage st = some usage) :
    ∃ q, usage.used_percent = .fin q := by
  rw [get_fs_usage] at husage
  split at husage
  · cases husage
  split at husage
  · cases husage
  rename_i hvalid
  rw [not_or] at hvalid
  obtain rfl := Option.some.inj husage
  generalize (if st.f_bavail < st.f_blocks then st.f_blocks - st.f_bavail else 0) = used_blocks
  obtain ⟨used, hused, hused_nonneg, hused_le, -⟩ := ofInt_toNat used_blocks
  obtain ⟨total, htotal, htotal_nonneg, -, htotal_pos⟩ := ofInt_toNat st.f_blocks
  have htop : binary64.quantize (2 ^ 64 * 100) = 2 ^ 64 * 100 := by decide +kernel
  have hfinite : (2 : ℚ) ^ 64 * 100 < 2 ^ binary64.emax := by decide +kernel
  have hproduct : 0 ≤ used * 100 ∧ used * 100 ≤ 2 ^ 64 * 100 := by constructor <;> linarith
  obtain ⟨hscaled, hscaled_nonneg, hscaled_le⟩ := binary64.round_of_nonneg hproduct.1 hproduct.2
    (by rw [htop]; exact hfinite)
  rw [htop] at hscaled_le
  have hratio := (div_le_self hscaled_nonneg (htotal_pos hvalid.1)).trans hscaled_le
  obtain ⟨hround, -, -⟩ := binary64.round_of_nonneg (div_nonneg hscaled_nonneg htotal_nonneg) hratio
    (by rw [htop]; exact hfinite)
  refine ⟨_, Eq.trans ?_ hround⟩
  dsimp only
  rw [hused, htotal, Format.mulFin, hscaled, Format.div, Format.divFin]

section Events

variable {env : Environment} {mark : Value} {event : Event} {events : List Event} {usage : FsUsage}

theorem endsBelow_singleton : EndsBelow mark [.reading (some usage)] ↔ usage.used_percent.lt mark = true := by
  simp [EndsBelow, Event.usage]

theorem not_endsBelow_failed : ¬ EndsBelow mark [.reading none] := by
  simp [EndsBelow, Event.usage]

/-- An event in front that is no reading below the mark makes no difference for the last reading. -/
theorem endsBelow_cons (hevent : ¬ event.Below mark) : EndsBelow mark (event :: events) ↔ EndsBelow mark events := by
  rw [EndsBelow, EndsBelow]
  cases hread : event.usage with
  | none => rw [List.filterMap_cons_none hread]
  | some usage =>
    rw [List.filterMap_cons_some hread]
    cases events.filterMap Event.usage with
    | nil =>
      simp only [List.getLast?_singleton, List.getLast?_nil, Option.mem_def, Option.some.injEq, exists_eq_left',
        reduceCtorEq, false_and, exists_false, iff_false]
      intro hbelow
      cases event with
      | reading read =>
        obtain rfl : read = some usage := hread
        exact hevent ⟨usage, rfl, hbelow⟩
      | unlink path ok => cases hread
    | cons first rest => rw [List.getLast?_cons_cons]

theorem not_below_unlink (path : List Char) (ok : Bool) : ¬ (Event.unlink path ok).Below mark := by
  rintro ⟨usage, heq, -⟩
  cases heq

theorem not_below_reading (hnot : usage.used_percent.lt mark ≠ true) : ¬ (Event.reading (some usage)).Below mark := by
  rintro ⟨usage', heq, hbelow⟩
  obtain rfl := Option.some.inj (Event.reading.inj heq)
  exact hnot hbelow

theorem getLast?_cons_of_some {last : Event} (hlast : events.getLast? = some last) :
    (event :: events).getLast? = some last := by
  cases events with
  | nil => cases hlast
  | cons first rest => rw [List.getLast?_cons_cons, hlast]

/-- What the loop and the reading behind it do, from the `k`-th call of `statvfs` on: `Cleans` for the files that are
left. -/
structure Deletes (env : Environment) (mark : Value) (k : ℕ) (files : List CandidateFile) (done : Bool)
    (events : List Event) : Prop where
  answered : Answered env k events
  begins : ∃ usage, events.head? = some (.reading usage)
  ends : ∃ usage, events.getLast? = some (.reading usage)
  behind_reading : events.IsChain fun event next => next.attempt ≠ none → event.Allows mark
  attempts_prefix : attempts events <+: files.map CandidateFile.path
  stopped : attempts events ≠ files.map CandidateFile.path → ∃ usage, events.getLast? = some (.reading usage) ∧
    ∀ u ∈ usage, u.used_percent.lt mark = true
  none_behind_below : events.Pairwise fun event later => event.Below mark → later.attempt = none
  done_iff : done = true ↔ EndsBelow mark events

/-- A last reading, which failed or was below the mark where files are left. -/
theorem Deletes.stop {k : ℕ} {files : List CandidateFile} {done : Bool} {read : Option FsUsage}
    (hanswer : get_fs_usage (env.statvfs k) = read)
    (hread : files ≠ [] → ∀ u ∈ read, u.used_percent.lt mark = true)
    (hdone : done = true ↔ EndsBelow mark [.reading read]) : Deletes env mark k files done [.reading read] where
  answered := ⟨hanswer.symm, trivial⟩
  begins := ⟨read, rfl⟩
  ends := ⟨read, rfl⟩
  behind_reading := .singleton _
  attempts_prefix := List.nil_prefix
  stopped hne := ⟨read, rfl, hread fun hnil => hne (hnil ▸ rfl)⟩
  none_behind_below := List.pairwise_singleton _ _
  done_iff := hdone

/-- A reading that is not below the mark, in front of the next one. -/
theorem Deletes.reading {k : ℕ} {files : List CandidateFile} {done : Bool}
    (hanswer : get_fs_usage (env.statvfs k) = some usage) (hnot : usage.used_percent.lt mark ≠ true)
    (hrest : Deletes env mark (k + 1) files done events) :
    Deletes env mark k files done (.reading (some usage) :: events) where
  answered := ⟨hanswer.symm, hrest.answered⟩
  begins := ⟨some usage, rfl⟩
  ends := by
    obtain ⟨read, hlast⟩ := hrest.ends
    exact ⟨read, getLast?_cons_of_some hlast⟩
  behind_reading := by
    obtain ⟨read, hfirst⟩ := hrest.begins
    obtain ⟨tail, rfl⟩ := List.head?_eq_some_iff.mp hfirst
    exact .cons_cons (fun hattempt => absurd rfl hattempt) hrest.behind_reading
  attempts_prefix := hrest.attempts_prefix
  stopped hne := by
    obtain ⟨read, hlast, hread⟩ := hrest.stopped hne
    exact ⟨read, getLast?_cons_of_some hlast, hread⟩
  none_behind_below :=
    List.pairwise_cons.mpr ⟨fun _ _ hbelow => absurd hbelow (not_below_reading hnot), hrest.none_behind_below⟩
  done_iff := hrest.done_iff.trans (endsBelow_cons (not_below_reading hnot)).symm

/-- A reading that is not below the mark and the attempt on the first file, in front of the next reading. -/
theorem Deletes.unlink {k : ℕ} {f : CandidateFile} {rest : List CandidateFile} {done : Bool}
    (hanswer : get_fs_usage (env.statvfs k) = some usage) (hnot : usage.used_percent.lt mark ≠ true)
    (hrest : Deletes env mark (k + 1) rest done events) :
    Deletes env mark k (f :: rest) done (.reading (some usage) :: .unlink f.path (env.unlink k) :: events) where
  answered := ⟨hanswer.symm, rfl, hrest.answered⟩
  begins := ⟨some usage, rfl⟩
  ends := by
    obtain ⟨read, hlast⟩ := hrest.ends
    exact ⟨read, getLast?_cons_of_some (getLast?_cons_of_some hlast)⟩
  behind_reading := by
    obtain ⟨read, hfirst⟩ := hrest.begins
    obtain ⟨tail, rfl⟩ := List.head?_eq_some_iff.mp hfirst
    exact .cons_cons (fun _ => ⟨usage, rfl, Bool.eq_false_of_not_eq_true hnot⟩)
      (.cons_cons (fun hattempt => absurd rfl hattempt) hrest.behind_reading)
  attempts_prefix := (List.prefix_cons_inj f.path).mpr hrest.attempts_prefix
  stopped hne := by
    obtain ⟨read, hlast, hread⟩ := hrest.stopped fun heq => hne (congrArg (f.path :: ·) heq)
    exact ⟨read, getLast?_cons_of_some (getLast?_cons_of_some hlast), hread⟩
  none_behind_below := by
    refine List.pairwise_cons.mpr ⟨fun _ _ hbelow => absurd hbelow (not_below_reading hnot), ?_⟩
    exact List.pairwise_cons.mpr ⟨fun _ _ hbelow => absurd hbelow (not_below_unlink _ _), hrest.none_behind_below⟩
  done_iff := by
    rw [hrest.done_iff, endsBelow_cons (not_below_reading hnot), endsBelow_cons (not_below_unlink _ _)]

/-- Behind the last file the usage is compared the other way round, which is the same for numbers. -/
theorem le_used_percent_iff {st : Statvfs} {m : ℚ} (husage : get_fs_usage st = some usage) :
    (Value.fin m).le usage.used_percent = true ↔ ¬ usage.used_percent.lt (.fin m) = true := by
  obtain ⟨q, hq⟩ := used_percent_eq_fin husage
  rw [hq, Value.le_fin, Value.lt_fin, decide_eq_true_eq, decide_eq_true_eq, not_lt]

theorem deletes_delete_files (env : Environment) (m : ℚ) (k : ℕ) (files : List CandidateFile) :
    Deletes env (.fin m) k files (delete_files env (.fin m) k files).1 (delete_files env (.fin m) k files).2 := by
  induction files generalizing k with
  | nil =>
    rw [delete_files]
    cases husage : get_fs_usage (env.statvfs k) with
    | none => exact .stop husage (fun h => absurd rfl h) (by simp [not_endsBelow_failed])
    | some usage =>
      dsimp only
      split
      · rename_i habove
        rw [le_used_percent_iff husage] at habove
        exact .stop husage (fun h => absurd rfl h) (by simp [endsBelow_singleton, habove])
      · rename_i hbelow
        rw [le_used_percent_iff husage, not_not] at hbelow
        exact .stop husage (fun h => absurd rfl h) (by simp [endsBelow_singleton, hbelow])
  | cons f rest ih =>
    rw [delete_files]
    cases husage : get_fs_usage (env.statvfs k) with
    | none => exact .stop husage (by simp) (by simp [not_endsBelow_failed])
    | some usage =>
      dsimp only
      split
      · rename_i hbelow
        exact .stop husage (by simp [hbelow]) (by simp [endsBelow_singleton, hbelow])
      · rename_i hnot
        exact .unlink husage hnot (ih (k + 1))

end Events

/-- A cleanup with a mark from 0 to 100 and an age to check deletes only what it must, the oldest files first. -/
theorem cleanup_once_cleans (env : Environment) (dir : Option (List Char)) {high_water_percent : Value}
    {min_file_age_sec : ℤ} (hlow : Value.lt (.fin 0) high_water_percent = true)
    (hhigh : high_water_percent.le (.fin 100) = true) (hage : 0 < min_file_age_sec) (hclock : env.time ≠ -1) :
    Cleans env (if dir.getD [] ≠ [] then dir.getD [] else RECORD_DIR) high_water_percent min_file_age_sec
      (cleanup_once env dir high_water_percent min_file_age_sec).1
      (cleanup_once env dir high_water_percent min_file_age_sec).2 := by
  obtain ⟨m, rfl⟩ : ∃ m, high_water_percent = .fin m := by
    cases high_water_percent with
    | nan => cases hhigh
    | inf negative => cases negative <;> simp [Value.lt, Value.le] at hlow hhigh
    | fin m => exact ⟨m, rfl⟩
  have hmark : ((Value.fin m).le (.fin 0) || Value.lt (.fin 100) (.fin m)) = false := by
    rw [Value.not_lt_of_le hhigh, Bool.or_false]
    rw [Value.lt_fin, decide_eq_true_eq] at hlow
    rw [Value.le_fin, decide_eq_false_iff_not]
    exact not_le.mpr hlow
  generalize htarget : (if dir.getD [] ≠ [] then dir.getD [] else RECORD_DIR) = target_dir
  have hdeletes : Deletes env (.fin m) 0 (collect_candidate_files env target_dir min_file_age_sec)
      (cleanup_once env dir (.fin m) min_file_age_sec).1 (cleanup_once env dir (.fin m) min_file_age_sec).2 := by
    simp only [cleanup_once, htarget, hmark, hage.not_gt, Bool.false_eq_true, if_false]
    cases husage : get_fs_usage (env.statvfs 0) with
    | none => exact .stop husage (by simp) (by simp [not_endsBelow_failed])
    | some usage =>
      dsimp only
      split
      · rename_i hbelow
        exact .stop husage (by simp [hbelow]) (by simp [endsBelow_singleton, hbelow])
      · rename_i hnot
        split
        · rename_i hempty
          rw [hempty]
          exact .stop husage (fun h => absurd rfl h) (by simp [endsBelow_singleton, hnot])
        · exact .reading husage hnot (deletes_delete_files env m 1 _)
  exact ⟨hdeletes.answered, hdeletes.begins, hdeletes.ends, hdeletes.behind_reading,
    ⟨_, fun f => mem_collect_candidate_files hage hclock, pairwise_collect_candidate_files env target_dir _,
      hdeletes.attempts_prefix, hdeletes.stopped⟩, hdeletes.none_behind_below, hdeletes.done_iff⟩

/-- Two recordings, of which deleting the older one is enough. -/
def sample_environment : Environment where
  statvfs k := ⟨true, 4096, 100, if k < 2 then 4 else 10⟩
  opendir _ := some ["s1_ch1_20240102_0000.mp4".toList, "s1_ch1_20240101_0000.mp4".toList, "notes.txt".toList]
  lstat path := some ⟨true, if path = "/data/s1_ch1_20240101_0000.mp4".toList then 1000 else 2000, 4096⟩
  time := 10000
  unlink _ := true

example : attempts (cleanup_once sample_environment none (.fin 95) 300).2 =
    ["/data/s1_ch1_20240101_0000.mp4".toList] := by
  decide +kernel

theorem cleanup_once_cleans_sample :
    Cleans sample_environment RECORD_DIR (.fin 95) 300 (cleanup_once sample_environment none (.fin 95) 300).1
      (cleanup_once sample_environment none (.fin 95) 300).2 :=
  cleanup_once_cleans sample_environment none (by decide +kernel) (by decide +kernel) (by decide) (by decide)

end k180.record_cleanup
