import K180.Recordings.Names
import K180.Schedule.Run

open schedule

namespace k180.recordings

abbrev Name := List Char

/-- `basename`: what follows the last slash, but for slashes at the end. -/
def basename (path : List Char) : Name := file_name (path.rdropWhile (· = '/'))

/-- A ZIP file: it is there only with entries, each name once. -/
structure Archive where
  mtime : ℤ
  entries : List Name
  nodup : entries.Nodup
  entries_ne_nil : entries ≠ []

/-- The archives in the directory for them. -/
abbrev Dir := Name → Option Archive

/-- The group of eight digits in the name of a recording. -/
def date_of (file : Name) : List Char := (((file.drop 5).dropWhile Char.isDigit).drop 1).take 8

def dashed (date : List Char) : List Char :=
  date.take 4 ++ ['-'] ++ (date.drop 4).take 2 ++ ['-'] ++ (date.drop 6).take 2

/-- The name of the archive: the first and the last date of its files. -/
def zip_name (validFiles : List Name) : Name :=
  let dates := (validFiles.map date_of).insertionSort (· ≤ ·)
  dashed (dates.headD []) ++ "_to_".toList ++ dashed (dates.getLastD []) ++ ".zip".toList

/-- Archives older than two minutes are deleted. -/
def cleanup (dir : Dir) (now : ℤ) : Dir := fun name => (dir name).filter fun archive => now - archive.mtime ≤ 120

/-- `ZipArchive::addFile`, which replaces an entry of the name. -/
def add_file (entries : List Name) (file : Name) : List Name := if file ∈ entries then entries else entries ++ [file]

def entries_of (archive : Option Archive) : List Name := archive.elim [] Archive.entries

theorem mem_foldl_add_file {files entries : List Name} {file : Name} :
    file ∈ files.foldl add_file entries ↔ file ∈ entries ∨ file ∈ files := by
  induction files generalizing entries with
  | nil => simp
  | cons first rest ih =>
    rw [List.foldl_cons, ih, add_file, List.mem_cons]
    split_ifs with hmem
    · constructor
      · exact Or.imp_right .inr
      · rintro (h | rfl | h)
        · exact .inl h
        · exact .inl hmem
        · exact .inr h
    · rw [List.mem_append, List.mem_singleton, or_assoc]

theorem nodup_foldl_add_file {files entries : List Name} (hnodup : entries.Nodup) :
    (files.foldl add_file entries).Nodup := by
  induction files generalizing entries with
  | nil => exact hnodup
  | cons first rest ih =>
    refine ih ?_
    rw [add_file]
    split_ifs with hmem
    · exact hnodup
    · rw [List.nodup_append_comm, List.singleton_append, List.nodup_cons]
      exact ⟨hmem, hnodup⟩

theorem nodup_entries_of (archive : Option Archive) : (entries_of archive).Nodup := by
  cases archive with
  | none => exact List.nodup_nil
  | some archive => exact archive.nodup

/-- The archive after files are added to the one that was there; without any, nothing is written. -/
def pack (old : Option Archive) (now : ℤ) (files : List Name) : Option Archive :=
  if hfiles : files = [] then old
  else some {
    mtime := now
    entries := files.foldl add_file (entries_of old)
    nodup := nodup_foldl_add_file (nodup_entries_of old)
    entries_ne_nil := by
      obtain ⟨file, hfile⟩ := List.exists_mem_of_ne_nil files hfiles
      exact List.ne_nil_of_mem (mem_foldl_add_file.mpr (.inr hfile)) }

/-- How a request for an archive ends: it is aborted when it has added some files, with the archive written or not, the
archive or the lock cannot be opened, or it comes to its end. -/
inductive Ending where
  | aborted (added : ℕ) (written : Bool)
  | not_opened
  | completed (close_ok : Bool)

/-- A download request that passes the CSRF check: when it comes, what is selected, the size of a recording when it is
checked, and whether it is there when it is packed. -/
structure Request where
  now : ℤ
  selected : List Name
  stored : Name → Option ℕ
  still_stored : Name → Bool
  ending : Ending

def Request.validFiles (r : Request) : List Name :=
  (r.selected.map basename).filter fun file => downloadable file && (r.stored file).isSome

def Request.totalSize (r : Request) : ℕ := (r.validFiles.map fun file => (r.stored file).getD 0).sum

/-- The valid files that are there when they are packed. -/
def Request.packed (r : Request) : List Name := r.validFiles.filter r.still_stored

def maxSize : ℕ := 1000 * 1024 * 1024

/-- The branch for several files, with the entries of the archive that is sent. -/
def send_zip (dir : Dir) (r : Request) : Dir × Option (List Name) :=
  let zipName := zip_name r.validFiles
  match r.ending with
  | .not_opened => (dir, none)
  | .aborted added written =>
    if written then (Function.update dir zipName (pack (dir zipName) r.now (r.packed.take added)), none)
    else (dir, none)
  | .completed close_ok =>
    -- the result of closing is not looked at, only whether there is a file
    match if close_ok then pack (dir zipName) r.now r.packed else dir zipName with
    | none => (dir, none)
    | some archive => (Function.update dir zipName none, some archive.entries)

/-- A download request. A single valid file is sent as it is. -/
def serve (dir : Dir) (r : Request) : Dir × Option (List Name) :=
  if r.selected = [] then (dir, none)
  else if 500 < r.selected.length then (cleanup dir r.now, none)
  else if maxSize < r.totalSize then (cleanup dir r.now, none)
  else if r.validFiles.length ≤ 1 then (cleanup dir r.now, none)
  else send_zip (cleanup dir r.now) r

def step (dir : Dir) (r : Request) : Option Dir := some (serve dir r).1

/-- The archive that is sent, if any, has the valid files that are selected, each once. -/
def SendsSelected (dir : Dir) (r : Request) : Prop :=
  ∀ sent, (serve dir r).2 = some sent → sent.Nodup ∧ ∀ file, file ∈ sent ↔ file ∈ r.packed

/-- The request comes to the branch for several files. -/
def Request.Zips (r : Request) : Prop :=
  r.selected.length ≤ 500 ∧ r.totalSize ≤ maxSize ∧ 1 < r.validFiles.length

/-- An archive of the name that is young enough to stay has none but files of the request, and all of them if the new
one cannot be written. -/
def Clean (dir : Dir) (r : Request) : Prop :=
  ∀ close_ok old, r.ending = .completed close_ok → r.Zips → cleanup dir r.now (zip_name r.validFiles) = some old →
    (∀ file ∈ old.entries, file ∈ r.packed) ∧ (close_ok = false → ∀ file ∈ r.packed, file ∈ old.entries)

section Serve

variable {dir : Dir} {r : Request}

theorem serve_of_zips (hzips : r.Zips) : serve dir r = send_zip (cleanup dir r.now) r := by
  obtain ⟨hcount, hsize, hseveral⟩ := hzips
  have hselected : r.selected ≠ [] := by
    rintro hnil
    rw [Request.validFiles, hnil] at hseveral
    cases hseveral
  rw [serve, if_neg hselected, if_neg (not_lt.mpr hcount), if_neg (not_lt.mpr hsize), if_neg (not_le.mpr hseveral)]

theorem serve_of_not_zips (hzips : ¬ r.Zips) : (serve dir r).2 = none := by
  rw [serve]
  split_ifs with hselected hcount hsize hseveral
  · rfl
  · rfl
  · rfl
  · rfl
  · exact absurd ⟨not_lt.mp hcount, not_lt.mp hsize, not_le.mp hseveral⟩ hzips

/-- What is sent is the archive after closing, where there is one. -/
theorem send_zip_completed {close_ok : Bool} (hending : r.ending = .completed close_ok) :
    (send_zip dir r).2 =
      (if close_ok then pack (dir (zip_name r.validFiles)) r.now r.packed else dir (zip_name r.validFiles)).map
        Archive.entries := by
  simp only [send_zip, hending]
  split <;> rename_i harchive <;> rw [harchive] <;> rfl

theorem send_zip_not_completed (hending : ∀ close_ok, r.ending ≠ .completed close_ok) : (send_zip dir r).2 = none := by
  rw [send_zip]
  cases hend : r.ending with
  | not_opened => rfl
  | aborted added written => cases written <;> rfl
  | completed close_ok => exact absurd hend (hending close_ok)

/-- A new archive has the files that are added and what was there. -/
theorem mem_pack {old : Option Archive} {now : ℤ} {files : List Name} {archive : Archive}
    (hpack : pack old now files = some archive) (file : Name) :
    file ∈ archive.entries ↔ file ∈ entries_of old ∨ file ∈ files := by
  rw [pack] at hpack
  split_ifs at hpack with hfiles
  · rw [hfiles, hpack]
    simp [entries_of]
  · obtain rfl := Option.some.inj hpack
    exact mem_foldl_add_file

theorem exists_pack (old : Archive) (now : ℤ) (files : List Name) :
    ∃ archive, pack (some old) now files = some archive := by
  rw [pack]
  split_ifs with hfiles
  · exact ⟨old, rfl⟩
  · exact ⟨_, rfl⟩

/-- The archive after closing has exactly the files when what was there before is among them, and is all of them in case
it is sent again. -/
theorem sent_iff {close_ok : Bool} {old : Option Archive} {now : ℤ} {files : List Name} :
    (∀ sent, (if close_ok then pack old now files else old).map Archive.entries = some sent →
      sent.Nodup ∧ ∀ file, file ∈ sent ↔ file ∈ files) ↔
    ∀ archive, old = some archive →
      (∀ file ∈ archive.entries, file ∈ files) ∧ (close_ok = false → ∀ file ∈ files, file ∈ archive.entries) := by
  cases close_ok with
  | false =>
    simp only [Bool.false_eq_true, if_false, Option.map_eq_some_iff]
    constructor
    · rintro h archive rfl
      have hsame := (h _ ⟨archive, rfl, rfl⟩).2
      exact ⟨fun file => (hsame file).mp, fun _ file => (hsame file).mpr⟩
    · rintro h _ ⟨archive, rfl, rfl⟩
      obtain ⟨hsub, hall⟩ := h archive rfl
      exact ⟨archive.nodup, fun file => ⟨hsub file, hall trivial file⟩⟩
  | true =>
    simp only [if_true, Option.map_eq_some_iff]
    constructor
    · rintro h archive rfl
      obtain ⟨packed, hpack⟩ := exists_pack archive now files
      have hsame := (h _ ⟨packed, hpack, rfl⟩).2
      exact ⟨fun file hfile => (hsame file).mp ((mem_pack hpack file).mpr (.inl hfile)), nofun⟩
    · rintro h _ ⟨packed, hpack, rfl⟩
      refine ⟨packed.nodup, fun file => ?_⟩
      rw [mem_pack hpack]
      constructor
      · rintro (hold | hnew)
        · cases old with
          | none => cases hold
          | some archive => exact (h archive rfl).1 file hold
        · exact hnew
      · exact .inr

/-- A request sends what is selected exactly when no archive is in its way. -/
theorem sendsSelected_iff_clean : SendsSelected dir r ↔ Clean dir r := by
  by_cases hzips : r.Zips
  · rw [SendsSelected, serve_of_zips hzips]
    by_cases hending : ∃ close_ok, r.ending = .completed close_ok
    · obtain ⟨close_ok, hending⟩ := hending
      have hclean : Clean dir r ↔ ∀ old, cleanup dir r.now (zip_name r.validFiles) = some old →
          (∀ file ∈ old.entries, file ∈ r.packed) ∧ (close_ok = false → ∀ file ∈ r.packed, file ∈ old.entries) := by
        constructor
        · exact fun h old => h close_ok old hending hzips
        · intro h close_ok' old hending' _
          rw [hending, Ending.completed.injEq] at hending'
          exact hending' ▸ h old
      rw [hclean, send_zip_completed hending]
      exact sent_iff
    · rw [not_exists] at hending
      rw [send_zip_not_completed hending]
      refine iff_of_true nofun fun close_ok old hcompleted => ?_
      exact absurd hcompleted (hending close_ok)
  · rw [SendsSelected, serve_of_not_zips hzips]
    exact iff_of_true nofun fun _ _ _ h => absurd h hzips

end Serve

/-- Over any sequence of requests, each archive that is sent has exactly the files selected, if and only if no request
finds an archive with others in its way. -/
theorem sends_selected_iff (dir : Dir) (requests : List Request) :
    Meets step SendsSelected dir requests ↔ Meets step Clean dir requests :=
  ⟨Meets.mono fun _ _ => sendsSelected_iff_clean.mp, Meets.mono fun _ _ => sendsSelected_iff_clean.mpr⟩

def monday_morning : Name := "s1_ch1_20240101_0800.mp4".toList

def tuesday_morning : Name := "s1_ch1_20240102_0800.mp4".toList

def tuesday_evening : Name := "s1_ch1_20240102_1800.mp4".toList

/-- A request at a time for recordings that are all there. -/
def sample_request (now : ℤ) (selected : List Name) (ending : Ending) : Request :=
  ⟨now, selected, fun _ => some 1000000, fun _ => true, ending⟩

/-- The first request is aborted while its archive is sent; the second, a minute later, has the same first and last
date and gets a file of the first. -/
theorem leftover_archive_sent : ¬ ∀ requests, Meets step SendsSelected (fun _ => none) requests := by
  intro hclaim
  have hmeets := hclaim [sample_request 0 [monday_morning, tuesday_morning] (.aborted 2 true),
    sample_request 60 [monday_morning, tuesday_evening] (.completed true)]
  have hsecond := (hmeets.2 _ rfl).1
  have hsent : (serve (serve (fun _ => none) (sample_request 0 [monday_morning, tuesday_morning] (.aborted 2 true))).1
      (sample_request 60 [monday_morning, tuesday_evening] (.completed true))).2 =
        some [monday_morning, tuesday_morning, tuesday_evening] := by decide +kernel
  have hforeign := ((hsecond _ hsent).2 tuesday_morning).mp (by decide)
  exact absurd hforeign (by decide +kernel)

end k180.recordings
