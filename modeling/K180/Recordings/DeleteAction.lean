import K180.FileTree.Resolve
import K180.Recordings.Archives

open file_tree

namespace k180.recordings

abbrev Path := List Name

def directory : List Char := "/data".toList

def component (text : List Char) : Component Name :=
  if text = [] ∨ text = ['.'] then .here else if text = ['.', '.'] then .up else .named text

def components (path : List Char) : List (Component Name) := (path.splitOn '/').map component

/-- `realpath` of an absolute path, which follows 32 symbolic links at most. -/
def realpath (tree : FileTree Name) (path : List Char) : Option Path := resolve tree 32 [] (components path)

def path_text (p : Path) : List Char := if p = [] then ['/'] else p.flatMap fun name => '/' :: name

/-- The path that is made of a name. -/
def joined (safeFile : Name) : List Char := directory ++ '/' :: safeFile

/-- `strpos($filePath, realpath($directory)) === 0`, where the empty needle of a `false` is at 0 too. -/
def inside (tree : FileTree Name) (filePath : Path) : Bool :=
  ((realpath tree directory).elim [] path_text).isPrefixOf (path_text filePath)

/-- What the delete action has unlinked, the tree that is left, and whether no exception has ended it. -/
structure Outcome where
  deleted : List Path
  tree : FileTree Name
  completed : Bool

/-- The loop over `$selectedFiles`; `removable` says where `unlink` succeeds. A NUL in the path of `realpath` is an
exception. -/
def delete_files (removable : Path → Bool) (tree : FileTree Name) : List (List Char) → Outcome
  | [] => ⟨[], tree, true⟩
  | file :: rest =>
    let safeFile := basename file
    if Char.ofNat 0 ∈ safeFile then ⟨[], tree, false⟩
    else
      match realpath tree (joined safeFile) with
      | none => delete_files removable tree rest
      | some filePath =>
        if hfile : inside tree filePath = true ∧ tree.node filePath = some .file then
          if removable filePath then
            let outcome := delete_files removable (remove tree filePath hfile.2) rest
            { outcome with deleted := filePath :: outcome.deleted }
          else delete_files removable tree rest
        else delete_files removable tree rest

inductive Flash where
  | error_no_selection
  | delete_success (deleted : ℕ)
  | delete_fail
deriving DecidableEq

/-- The delete action, with the message for the next page where the script gets there. -/
def delete_action (removable : Path → Bool) (tree : FileTree Name) (selectedFiles : List (List Char)) :
    Outcome × Option Flash :=
  if selectedFiles = [] then (⟨[], tree, true⟩, some .error_no_selection)
  else
    let outcome := delete_files removable tree selectedFiles
    (outcome, if outcome.completed = false then none
      else if 0 < outcome.deleted.length then some (.delete_success outcome.deleted.length) else some .delete_fail)

/-- A regular file directly in the directory, with the name of a recording. -/
def IsRecording (tree : FileTree Name) (p : Path) : Prop :=
  ∃ d name, realpath tree directory = some d ∧ p = d ++ [name] ∧ tree.node p = some .file ∧ listed name = true ∧
    downloadable name = true

/-- The names that the loop comes to. -/
def reached (selectedFiles : List (List Char)) : List (List Char) :=
  selectedFiles.takeWhile fun file => Char.ofNat 0 ∉ basename file

/-- The file that a name stands for, where it is one that the checks of the action let through. -/
structure Stands (removable : Path → Bool) (tree : FileTree Name) (safeFile : Name) (p : Path) : Prop where
  resolves : realpath tree (joined safeFile) = some p
  file : tree.node p = some .file
  inside : inside tree p = true
  removable : removable p = true

/-- A name does no harm: an entry of the directory that is a file matches the pattern or cannot be removed, and a
removable file that one which is a symbolic link leads to matches it too and is in the directory itself, unless its path
does not begin with that of the directory. -/
structure Harmless (removable : Path → Bool) (tree : FileTree Name) (safeFile : Name) : Prop where
  file : ∀ d, component safeFile = .named safeFile → realpath tree directory = some d →
    tree.node (d ++ [safeFile]) = some .file → removable (d ++ [safeFile]) = true →
    listed safeFile = true ∧ downloadable safeFile = true
  symlink : ∀ d absolute target, component safeFile = .named safeFile → realpath tree directory = some d →
    tree.node (d ++ [safeFile]) = some (.symlink absolute target) →
    ∀ p, realpath tree (joined safeFile) = some p → tree.node p = some .file → removable p = true →
      path_text d <+: path_text p → ∃ name, p = d ++ [name] ∧ listed name = true ∧ downloadable name = true

variable {removable : Path → Bool} {tree : FileTree Name} {safeFile : Name} {p q : Path}

theorem slash_not_mem_basename (file : List Char) : '/' ∉ basename file := by
  rw [basename, file_name, List.mem_reverse]
  intro hslash
  have hkept := List.mem_takeWhile_imp hslash
  simp at hkept

theorem components_joined (hslash : '/' ∉ safeFile) :
    components (joined safeFile) = components directory ++ [component safeFile] := by
  rw [components, joined, List.splitOn_append_cons_self, List.splitOn_eq_singleton hslash, List.map_append]
  rfl

theorem component_cases (safeFile : Name) :
    component safeFile = .here ∨ component safeFile = .up ∨ component safeFile = .named safeFile := by
  rw [component]
  split
  · exact .inl rfl
  · split
    · exact .inr (.inl rfl)
    · exact .inr (.inr rfl)

/-- What a name stands for is looked up in the directory. -/
theorem realpath_directory (hslash : '/' ∉ safeFile) (hpath : realpath tree (joined safeFile) = some p) :
    ∃ d, realpath tree directory = some d ∧ tree.node d = some .directory ∧
      ∃ links, resolve tree links d [component safeFile] = some p := by
  rw [realpath, components_joined hslash] at hpath
  exact resolve_of_append hpath

theorem realpath_remove (hfile : tree.node q = some .file) (path : List Char) :
    realpath (remove tree q hfile) path = (realpath tree path).filter fun p => p ≠ q := by
  refine resolve_remove ?_ real_root
  rintro rfl
  rw [tree.root] at hfile
  cases hfile

/-- Once a file is gone a name stands for what it stood for before, unless that is this file. -/
theorem stands_remove_iff (hslash : '/' ∉ safeFile) (hfile : tree.node q = some .file) :
    Stands removable (remove tree q hfile) safeFile p ↔ Stands removable tree safeFile p ∧ p ≠ q := by
  have hresolves : realpath (remove tree q hfile) (joined safeFile) = some p ↔
      realpath tree (joined safeFile) = some p ∧ p ≠ q := by
    rw [realpath_remove, Option.filter_eq_some_iff, decide_eq_true_eq]
  have hsame : realpath tree (joined safeFile) = some p →
      recordings.inside (remove tree q hfile) p = recordings.inside tree p := by
    intro hpath
    obtain ⟨d, hd, hdirectory, -⟩ := realpath_directory hslash hpath
    have hne : d ≠ q := by
      rintro rfl
      rw [hdirectory] at hfile
      cases hfile
    rw [recordings.inside, recordings.inside, realpath_remove, hd, Option.filter_some_pos (by simpa using hne)]
  constructor
  · rintro ⟨hpath, hp, hinside, hremovable⟩
    obtain ⟨hpath, hne⟩ := hresolves.mp hpath
    rw [remove_node_of_ne hne] at hp
    rw [hsame hpath] at hinside
    exact ⟨⟨hpath, hp, hinside, hremovable⟩, hne⟩
  · rintro ⟨⟨hpath, hp, hinside, hremovable⟩, hne⟩
    exact ⟨hresolves.mpr ⟨hpath, hne⟩, by rw [remove_node_of_ne hne, hp], by rw [hsame hpath, hinside], hremovable⟩

theorem stands_unique (hp : Stands removable tree safeFile p) (hq : Stands removable tree safeFile q) : p = q :=
  Option.some.inj (hp.resolves.symm.trans hq.resolves)

/-- What is unlinked is what the names that the loop comes to stand for. -/
theorem mem_deleted_iff (selectedFiles : List (List Char)) :
    p ∈ (delete_files removable tree selectedFiles).deleted ↔
      ∃ file ∈ reached selectedFiles, Stands removable tree (basename file) p := by
  induction selectedFiles generalizing tree with
  | nil => simp [delete_files, reached]
  | cons file rest ih =>
    rw [delete_files, reached]
    by_cases hnul : Char.ofNat 0 ∈ basename file
    · rw [if_pos hnul, List.takeWhile_cons_of_neg (by simpa using hnul)]
      simp
    rw [if_neg hnul, List.takeWhile_cons_of_pos (by simpa using hnul), ← reached, List.exists_mem_cons_iff]
    have hskip : (∀ q, ¬ Stands removable tree (basename file) q) →
        (p ∈ (delete_files removable tree rest).deleted ↔
          Stands removable tree (basename file) p ∨ ∃ file ∈ reached rest, Stands removable tree (basename file) p) := by
      intro hnot
      rw [ih, or_iff_right (hnot p)]
    cases hpath : realpath tree (joined (basename file)) with
    | none =>
      exact hskip fun q hq => by
        rw [hq.resolves] at hpath
        cases hpath
    | some filePath =>
      dsimp only
      split
      · rename_i hfile
        split
        · rename_i hremovable
          have hstands : Stands removable tree (basename file) filePath := ⟨hpath, hfile.2, hfile.1, hremovable⟩
          rw [List.mem_cons, ih]
          simp only [stands_remove_iff (slash_not_mem_basename _) hfile.2]
          constructor
          · rintro (rfl | ⟨other, hother, hstood, -⟩)
            · exact .inl hstands
            · exact .inr ⟨other, hother, hstood⟩
          · rintro (hp | ⟨other, hother, hstood⟩)
            · exact .inl (stands_unique hp hstands)
            · by_cases hsame : p = filePath
              · exact .inl hsame
              · exact .inr ⟨other, hother, hstood, hsame⟩
        · rename_i hremovable
          exact hskip fun q hq => by
            rw [hq.resolves, Option.some.injEq] at hpath
            exact hremovable (hpath ▸ hq.removable)
      · rename_i hnot
        exact hskip fun q hq => by
          rw [hq.resolves, Option.some.injEq] at hpath
          exact hnot (hpath ▸ ⟨hq.inside, hq.file⟩)

theorem inside_iff {d : Path} (hd : realpath tree directory = some d) :
    inside tree p = true ↔ path_text d <+: path_text p := by
  rw [inside, hd, Option.elim_some, List.isPrefixOf_iff_prefix]

theorem path_text_append (d : Path) (name : Name) : path_text d <+: path_text (d ++ [name]) := by
  rw [path_text, path_text]
  split
  · rename_i hroot
    rw [hroot, List.nil_append, if_neg (List.cons_ne_nil _ _), List.flatMap_singleton]
    exact ⟨name, rfl⟩
  · rw [if_neg (by simp), List.flatMap_append]
    exact List.prefix_append _ _

/-- A file of the directory stands for itself. -/
theorem realpath_file {d : Path} (hslash : '/' ∉ safeFile) (hcomponent : component safeFile = .named safeFile)
    (hd : realpath tree directory = some d) (hfile : tree.node (d ++ [safeFile]) = some .file) :
    realpath tree (joined safeFile) = some (d ++ [safeFile]) := by
  have hdirectory : tree.node d = some .directory :=
    tree.closed d safeFile (by rw [hfile]; exact Option.some_ne_none _)
  rw [realpath, components_joined hslash, hcomponent]
  exact resolve_append hdirectory (.inl hfile) hd

/-- The harmless names are those that stand for recordings only. -/
theorem harmless_iff (hslash : '/' ∉ safeFile) :
    Harmless removable tree safeFile ↔ ∀ p, Stands removable tree safeFile p → IsRecording tree p := by
  constructor
  · intro hharmless p hp
    obtain ⟨d, hd, hdirectory, links, hlast⟩ := realpath_directory hslash hp.resolves
    obtain hsecond | ⟨name, hname, hentry⟩ := resolve_singleton hdirectory hlast
    · rw [hp.file] at hsecond
      cases hsecond
    have hcomponent : component safeFile = .named safeFile := by
      obtain h | h | h := component_cases safeFile
      · rw [h] at hname
        cases hname
      · rw [h] at hname
        cases hname
      · exact h
    obtain rfl : safeFile = name := Component.named.inj (hcomponent.symm.trans hname)
    obtain rfl | ⟨absolute, target, hlink⟩ := hentry
    · exact ⟨d, safeFile, hd, rfl, hp.file, hharmless.file d hcomponent hd hp.file hp.removable⟩
    · obtain ⟨name, rfl, hnames⟩ := hharmless.symlink d absolute target hcomponent hd hlink p hp.resolves hp.file
        hp.removable ((inside_iff hd).mp hp.inside)
      exact ⟨d, name, hd, rfl, hp.file, hnames⟩
  · intro hall
    constructor
    · intro d hcomponent hd hfile hremovable
      obtain ⟨d', name, hd', heq, -, hnames⟩ := hall (d ++ [safeFile]) {
        resolves := realpath_file hslash hcomponent hd hfile
        file := hfile
        inside := (inside_iff hd).mpr (path_text_append d safeFile)
        removable := hremovable }
      obtain ⟨-, hname⟩ := List.append_inj' heq rfl
      rw [List.singleton_inj.mp hname]
      exact hnames
    · intro d absolute target hcomponent hd hlink p hpath hfile hremovable hprefix
      obtain ⟨d', name, hd', heq, -, hnames⟩ := hall p ⟨hpath, hfile, (inside_iff hd).mpr hprefix, hremovable⟩
      rw [hd, Option.some.injEq] at hd'
      exact ⟨name, hd' ▸ heq, hnames⟩

theorem delete_action_deleted (selectedFiles : List (List Char)) :
    (delete_action removable tree selectedFiles).1 = delete_files removable tree selectedFiles := by
  rw [delete_action]
  split
  · rename_i hnone
    rw [hnone, delete_files]
  · rfl

/-- The delete action unlinks nothing but recordings exactly if the names that it comes to do no harm. -/
theorem deletes_only_recordings_iff (removable : Path → Bool) (tree : FileTree Name) (selectedFiles : List (List Char)) :
    (∀ p ∈ (delete_action removable tree selectedFiles).1.deleted, IsRecording tree p) ↔
      ∀ file ∈ reached selectedFiles, Harmless removable tree (basename file) := by
  simp only [delete_action_deleted, mem_deleted_iff, harmless_iff (slash_not_mem_basename _)]
  constructor
  · intro hall file hfile p hp
    exact hall p ⟨file, hfile, hp⟩
  · rintro hall p ⟨file, hfile, hp⟩
    exact hall file hfile p hp

/-- A recording and a file of another name, a symbolic link with the name of a recording, and the file that it leads
to, next to the directory. -/
def sample_tree : FileTree Name := of_entries [
  (["data".toList], .directory),
  (["data".toList, "S1_ch0_20240101_0000.mp4".toList], .file),
  (["data".toList, "S1_ch1_20240101_0000.mp4".toList], .symlink true [.named "data2".toList, .named "old".toList]),
  (["data".toList, "notes.txt".toList], .file),
  (["data2".toList], .directory),
  (["data2".toList, "old".toList], .file)] (by decide)

theorem not_isRecording_sample {p : Path} (hp : ∀ name, p = ["data".toList, name] → listed name = false) :
    ¬ IsRecording sample_tree p := by
  rintro ⟨d, name, hd, rfl, -, hlisted, -⟩
  have hdata : realpath sample_tree directory = some ["data".toList] := by decide
  obtain rfl := Option.some.inj (hdata.symm.trans hd)
  rw [hp name rfl] at hlisted
  cases hlisted

/-- Neither the file of another name nor the one that the link leads to is spared. -/
theorem delete_not_only_recordings :
    (delete_action (fun _ => true) sample_tree ["notes.txt".toList, "S1_ch1_20240101_0000.mp4".toList]).1.deleted =
        [["data".toList, "notes.txt".toList], ["data2".toList, "old".toList]] ∧
      ¬ IsRecording sample_tree ["data".toList, "notes.txt".toList] ∧
      ¬ IsRecording sample_tree ["data2".toList, "old".toList] := by
  refine ⟨by decide, not_isRecording_sample ?_, not_isRecording_sample ?_⟩
  · intro name hname
    obtain rfl : "notes.txt".toList = name := by simpa using hname
    decide
  · intro name hname
    have hhead : "data2".toList = "data".toList := List.head_eq_of_cons_eq hname
    cases hhead

end k180.recordings
