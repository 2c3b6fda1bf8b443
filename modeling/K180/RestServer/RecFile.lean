import K180.Recordings.DeleteAction
import K180.RestServer.Handler

open libc file_tree

namespace k180.restful_api_server.http

def RECORD_MP4_DIR : List Char := "/data".toList

/-- The path that `download_rec_file` opens and `delete_rec_file` removes. -/
def filepath (filename : List Char) : List Char := snprintf 512 (RECORD_MP4_DIR ++ '/' :: filename)

/-- The header of a download. -/
def attachment (filename : List Char) : List Char :=
  ("attachment; filename=\"" ++ String.ofList filename ++ "\"").toList

/-- What the buffer holds that `Content-Disposition` is taken from. -/
def content_disp (filename : List Char) : List Char := snprintf 256 (attachment filename)

/-- In a tree without symbolic links, something else than an entry directly inside the directory can be at the path. -/
def CouldLeave (filename : List Char) : Prop :=
  ∃ (tree : FileTree recordings.Name) (p : recordings.Path),
    (∀ q absolute target, tree.node q ≠ some (.symlink absolute target)) ∧
      recordings.realpath tree (RECORD_MP4_DIR ++ '/' :: filename) = some p ∧
      ∀ d, recordings.realpath tree RECORD_MP4_DIR = some d → ∀ name, p ≠ d ++ [name]

/-- The path and the header are whole, and the path goes by one name from the directory. -/
structure Fits (filename : List Char) : Prop where
  path : filepath filename = RECORD_MP4_DIR ++ '/' :: filename
  entry : recordings.components (filepath filename) = recordings.components RECORD_MP4_DIR ++ [.named filename]
  header : content_disp filename = attachment filename

/-- Neither of the functions comes to a file. -/
def Rejected (filename : List Char) : Prop :=
  is_valid_filename filename = false ∧ ∀ lib io,
    (download_rec_file lib io filename).touched = [] ∧ (delete_rec_file lib io filename).touched = []

section Valid

variable {filename : List Char}

theorem rejected_of_invalid (hinvalid : is_valid_filename filename = false) : Rejected filename := by
  refine ⟨hinvalid, fun lib io => ?_⟩
  have hrefuse : (!is_valid_filename filename) = true := by rw [hinvalid, Bool.not_false]
  rw [download_rec_file, delete_rec_file, if_pos hrefuse, if_pos hrefuse]
  exact ⟨rfl, rfl⟩

theorem length_attachment (filename : List Char) : (attachment filename).length = filename.length + 23 := by
  rw [attachment, String.toList_append, String.toList_append, String.toList_ofList]
  simp

/-- The buffer for the header has room for names of 232 bytes. -/
theorem content_disp_eq_iff : content_disp filename = attachment filename ↔ filename.length ≤ 232 := by
  rw [content_disp, snprintf_eq_self_iff, length_attachment]
  omega

variable (hvalid : is_valid_filename filename = true)

include hvalid

theorem length_of_valid : filename.length ≤ 255 := by
  rw [is_valid_filename] at hvalid
  split at hvalid
  · cases hvalid
  · omega

theorem slash_not_mem_of_valid : '/' ∉ filename := by
  intro hslash
  rw [is_valid_filename] at hvalid
  split at hvalid
  · cases hvalid
  · rw [if_pos (.inr (.inl hslash))] at hvalid
    cases hvalid

theorem strrchr_of_valid : strrchr '.' filename = some ".mp4".toList := by
  rw [is_valid_filename] at hvalid
  split at hvalid
  · cases hvalid
  split at hvalid
  · cases hvalid
  split at hvalid
  · cases hvalid
  exact of_decide_eq_true hvalid

/-- A name with the suffix is not that of the directory or of the one above. -/
theorem component_of_valid : recordings.component filename = .named filename := by
  have hsuffix := strrchr_of_valid hvalid
  have hne : ∀ s : List Char, strrchr '.' s ≠ some ".mp4".toList → filename ≠ s := by
    rintro s hs rfl
    exact hs hsuffix
  rw [recordings.component, if_neg (not_or.mpr ⟨hne [] (by decide), hne ['.'] (by decide)⟩),
    if_neg (hne ['.', '.'] (by decide))]

theorem filepath_of_valid : filepath filename = RECORD_MP4_DIR ++ '/' :: filename := by
  have hlen := length_of_valid hvalid
  rw [filepath, snprintf_eq_self_iff, List.length_append, List.length_cons]
  change 5 + (filename.length + 1) ≤ 511
  omega

theorem components_of_valid :
    recordings.components (RECORD_MP4_DIR ++ '/' :: filename) =
      recordings.components RECORD_MP4_DIR ++ [.named filename] := by
  rw [← component_of_valid hvalid]
  exact recordings.components_joined (slash_not_mem_of_valid hvalid)

/-- Without a symbolic link the last name leads to the entry of that name. -/
theorem not_couldLeave_of_valid : ¬ CouldLeave filename := by
  rintro ⟨tree, p, hnolinks, hpath, houtside⟩
  rw [recordings.realpath, components_of_valid hvalid] at hpath
  obtain ⟨d, hd, hdirectory, links, hlast⟩ := resolve_of_append hpath
  exact houtside d hd filename (resolve_named (fun absolute target => hnolinks _ absolute target) hdirectory hlast)

end Valid

/-- The header of a name is whole exactly up to 232 bytes; everything else holds of the names that are accepted. -/
theorem accepted_names_fit_iff (filename : List Char) :
    ((is_valid_filename filename = true → Fits filename) ∧ (CouldLeave filename → Rejected filename)) ↔
      (is_valid_filename filename = true → filename.length ≤ 232) := by
  constructor
  · rintro ⟨hfits, -⟩ hvalid
    exact content_disp_eq_iff.mp (hfits hvalid).header
  · intro hshort
    constructor
    · intro hvalid
      have hpath := filepath_of_valid hvalid
      refine ⟨hpath, ?_, content_disp_eq_iff.mpr (hshort hvalid)⟩
      rw [hpath]
      exact components_of_valid hvalid
    · intro hleave
      refine rejected_of_invalid (Bool.eq_false_iff.mpr fun hvalid => ?_)
      exact not_couldLeave_of_valid hvalid hleave

/-- A name of so many letters is accepted. -/
theorem valid_letters {n : ℕ} (hlen : n ≤ 251) : is_valid_filename (List.replicate n 'a' ++ ".mp4".toList) = true := by
  have hletters : ∀ c, c ≠ 'a' → c ∉ List.replicate n 'a' := fun c hc hmem => hc (List.eq_of_mem_replicate hmem)
  have hmem : ∀ c ∈ List.replicate n 'a' ++ ".mp4".toList, c ∈ ['a', '.', 'm', 'p', '4'] := by
    intro c hc
    obtain hletter | hsuffix := List.mem_append.mp hc
    · rw [List.eq_of_mem_replicate hletter]
      exact List.mem_cons_self
    · exact List.mem_cons_of_mem _ hsuffix
  have hnot : ∀ c, c ∉ ['a', '.', 'm', 'p', '4'] → c ∉ List.replicate n 'a' ++ ".mp4".toList := fun c hc h =>
    hc (hmem c h)
  have hdots : ¬ ['.', '.'] <:+: List.replicate n 'a' ++ ".mp4".toList := by
    intro hinfix
    have hcount := hinfix.sublist.count_le '.'
    rw [List.count_append, List.count_eq_zero_of_not_mem (hletters '.' (by decide)), Nat.zero_add] at hcount
    exact absurd hcount (by decide)
  have hchars : ¬ ∃ c ∈ List.replicate n 'a' ++ ".mp4".toList, !c.isAlphanum ∧ c ≠ '_' ∧ c ≠ '-' ∧ c ≠ '.' := by
    rintro ⟨c, hc, halnum, -, -, hdot⟩
    have hcase := hmem c hc
    simp only [List.mem_cons, List.not_mem_nil, or_false] at hcase
    obtain rfl | rfl | rfl | rfl | rfl := hcase
    all_goals first | exact hdot rfl | exact absurd halnum (by decide)
  have hlength : (List.replicate n 'a' ++ ".mp4".toList).length = n + 4 := by
    rw [List.length_append, List.length_replicate]
    rfl
  have hplain : ¬ (['.', '.'] <:+: List.replicate n 'a' ++ ".mp4".toList ∨
      '/' ∈ List.replicate n 'a' ++ ".mp4".toList ∨ '\\' ∈ List.replicate n 'a' ++ ".mp4".toList) :=
    not_or.mpr ⟨hdots, not_or.mpr ⟨hnot _ (by decide), hnot _ (by decide)⟩⟩
  rw [is_valid_filename, if_neg (by omega), if_neg hplain, if_neg hchars]
  exact decide_eq_true (strrchr_append (by decide))

/-- With 233 bytes the closing quote is lost. -/
theorem long_name_cut : ¬ ∀ filename,
    (is_valid_filename filename = true → Fits filename) ∧ (CouldLeave filename → Rejected filename) := by
  intro hall
  have hfits := (hall (List.replicate 229 'a' ++ ".mp4".toList)).1 (valid_letters (by decide))
  have hlen := content_disp_eq_iff.mp hfits.header
  rw [List.length_append, List.length_replicate] at hlen
  revert hlen
  decide

end k180.restful_api_server.http
