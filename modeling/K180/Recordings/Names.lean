import K180.Libc.Stdio
import K180.Libc.String
import K180.Libc.Time
import K180.Php.Pattern
import K180.Rtsp.StreamKey

open libc

namespace k180.restful_api_server

/-- The check of the REST server on the name of a file to download or to delete. -/
def is_valid_filename (filename : List Char) : Bool :=
  if filename.length = 0 ∨ 255 < filename.length then false
  else if ['.', '.'] <:+: filename ∨ '/' ∈ filename ∨ '\\' ∈ filename then false
  else if ∃ c ∈ filename, !c.isAlphanum ∧ c ≠ '_' ∧ c ≠ '-' ∧ c ≠ '.' then false
  else strrchr '.' filename = some ".mp4".toList

end k180.restful_api_server

namespace k180.recordings

def make_record_prefix (g : StreamGroup) (v : StreamView) : List Char :=
  (group_name g).toList ++ "_ch".toList ++ (toString (view_number v)).toList ++ "_".toList

def record_enabled_for (g : StreamGroup) (v : StreamView) (recorded_mode : ℤ) : Bool :=
  if g ≠ .S1 then false
  else if recorded_mode = 1 then v = .V1234
  else if recorded_mode = 2 then v ≠ .V1234
  else false

/-- The time, down to the minute. -/
def now_yyyymmdd_hhmm (now : tm) : List Char :=
  snprintf 32 (zero_padded 4 (now.tm_year + 1900) ++ zero_padded 2 (now.tm_mon + 1) ++ zero_padded 2 now.tm_mday ++
    ['_'] ++ zero_padded 2 now.tm_hour ++ zero_padded 2 now.tm_min)

/-- The path of a new recording. -/
def on_format_location_full (dir head : List Char) (now : tm) : List Char :=
  dir ++ ['/'] ++ head ++ now_yyyymmdd_hhmm now ++ ".mp4".toList

/-- The name of the file in its directory. -/
def file_name (path : List Char) : List Char := (path.reverse.takeWhile (· ≠ '/')).reverse

def kPrefixes : List String :=
  ["s1_ch1234_", "s1_ch1_", "s1_ch2_", "s1_ch3_", "s1_ch4_", "S1_ch1234_", "S1_ch1_", "S1_ch2_", "S1_ch3_", "S1_ch4_",
    "s1_1234_", "s1_1_", "s1_2_", "s1_3_", "s1_4_"]

/-- The check of the cleanup on what it may delete. -/
def is_recording_file_name (name : List Char) : Bool :=
  if ¬ ".mp4".toList <:+ name then false else kPrefixes.any fun head => head.toList <+: name

open php in
/-- `S1_ch\d+_(\d{8})_\d{4}\.mp4` under the modifier `i`, in the listing and in the download of recordings.php. -/
def recording_pattern : RegularExpression Char :=
  caseless "S1_ch".toList * (one_or_more pattern_digit * (RegularExpression.char '_' * (pattern_digit ^ 8 *
    (RegularExpression.char '_' * (pattern_digit ^ 4 * caseless ".mp4".toList)))))

def listed (name : List Char) : Bool := php.preg_match recording_pattern name

def downloadable (name : List Char) : Bool := php.preg_match recording_pattern name

/-- How the name of a recording is made up. -/
structure NameParts (name number date time : List Char) : Prop where
  parts : name = "s1_ch".toList ++ (number ++ ('_' :: (date ++ ('_' :: (time ++ ".mp4".toList)))))
  number_ne_nil : number ≠ []
  number_length : number.length ≤ 4
  number_digits : ∀ c ∈ number, c.isDigit = true
  known : ∃ head ∈ kPrefixes, head.toList = "s1_ch".toList ++ (number ++ ['_'])
  date_length : date.length = 8
  date_digits : ∀ c ∈ date, c.isDigit = true
  time_length : time.length = 4
  time_digits : ∀ c ∈ time, c.isDigit = true

/-- Streams that are recorded have a prefix that the cleanup knows. -/
theorem prefix_of_recorded {g : StreamGroup} {v : StreamView} {recorded_mode : ℤ}
    (hrecorded : record_enabled_for g v recorded_mode = true) :
    ∃ number, make_record_prefix g v = "s1_ch".toList ++ (number ++ ['_']) ∧ number ≠ [] ∧ number.length ≤ 4 ∧
      (∀ c ∈ number, c.isDigit = true) ∧
      ∃ head ∈ kPrefixes, head.toList = "s1_ch".toList ++ (number ++ ['_']) := by
  have hgroup : g = .S1 := by
    by_contra hne
    rw [record_enabled_for, if_pos hne] at hrecorded
    cases hrecorded
  subst hgroup
  refine ⟨Nat.toDigits 10 (view_number v), ?_⟩
  have hdigits : ∀ c ∈ Nat.toDigits 10 (view_number v), c.isDigit = true := fun c =>
    Nat.isDigit_of_mem_toDigits (by decide) (by decide)
  unfold make_record_prefix
  rw [Nat.toString_eq_repr, Nat.toList_repr]
  cases v with
  | V1234 => exact ⟨rfl, by decide, by decide, hdigits, "s1_ch1234_", by simp [kPrefixes], rfl⟩
  | V1 => exact ⟨rfl, by decide, by decide, hdigits, "s1_ch1_", by simp [kPrefixes], rfl⟩
  | V2 => exact ⟨rfl, by decide, by decide, hdigits, "s1_ch2_", by simp [kPrefixes], rfl⟩
  | V3 => exact ⟨rfl, by decide, by decide, hdigits, "s1_ch3_", by simp [kPrefixes], rfl⟩
  | V4 => exact ⟨rfl, by decide, by decide, hdigits, "s1_ch4_", by simp [kPrefixes], rfl⟩

theorem zero_padded_length {width : ℕ} {n : ℤ} (hwidth : 0 < width) (hpos : 0 ≤ n) (hlt : n < 10 ^ width) :
    (zero_padded width n).length = width := (zero_padded_digits hwidth hpos hlt).1

section Now

variable {now : tm} (hyear : 0 ≤ now.tm_year + 1900 ∧ now.tm_year + 1900 ≤ 9999)

include hyear

/-- The text is as long as its buffer allows. -/
theorem now_text :
    now_yyyymmdd_hhmm now = zero_padded 4 (now.tm_year + 1900) ++ zero_padded 2 (now.tm_mon + 1) ++
      zero_padded 2 now.tm_mday ++ ['_'] ++ zero_padded 2 now.tm_hour ++ zero_padded 2 now.tm_min := by
  have hmon := now.mon_range
  have hmday := now.mday_range
  have hhour := now.hour_range
  have hmin := now.min_range
  rw [now_yyyymmdd_hhmm, snprintf, List.take_of_length_le]
  simp only [List.length_append, zero_padded_length (show 0 < 4 by decide) hyear.1 (by omega),
    zero_padded_length (show 0 < 2 by decide) (show 0 ≤ now.tm_mon + 1 by omega) (by omega),
    zero_padded_length (show 0 < 2 by decide) (show 0 ≤ now.tm_mday by omega) (by omega),
    zero_padded_length (show 0 < 2 by decide) (show 0 ≤ now.tm_hour by omega) (by omega),
    zero_padded_length (show 0 < 2 by decide) (show 0 ≤ now.tm_min by omega) (by omega), List.length_singleton]
  norm_num

/-- The date and the minute have their digits. -/
theorem now_parts :
    ∃ date time : List Char, now_yyyymmdd_hhmm now = date ++ '_' :: time ∧ date.length = 8 ∧
      (∀ c ∈ date, c.isDigit = true) ∧ time.length = 4 ∧ ∀ c ∈ time, c.isDigit = true := by
  have hmon := now.mon_range
  have hmday := now.mday_range
  have hhour := now.hour_range
  have hmin := now.min_range
  obtain ⟨hyearLen, hyearDigits⟩ := zero_padded_digits (show 0 < 4 by decide) hyear.1 (by omega)
  obtain ⟨hmonLen, hmonDigits⟩ := zero_padded_digits (show 0 < 2 by decide) (n := now.tm_mon + 1) (by omega) (by omega)
  obtain ⟨hmdayLen, hmdayDigits⟩ := zero_padded_digits (show 0 < 2 by decide) (n := now.tm_mday) (by omega) (by omega)
  obtain ⟨hhourLen, hhourDigits⟩ := zero_padded_digits (show 0 < 2 by decide) (n := now.tm_hour) (by omega) (by omega)
  obtain ⟨hminLen, hminDigits⟩ := zero_padded_digits (show 0 < 2 by decide) (n := now.tm_min) (by omega) (by omega)
  refine ⟨zero_padded 4 (now.tm_year + 1900) ++ (zero_padded 2 (now.tm_mon + 1) ++ zero_padded 2 now.tm_mday),
    zero_padded 2 now.tm_hour ++ zero_padded 2 now.tm_min, ?_, ?_, ?_, ?_, ?_⟩
  · rw [now_text hyear]
    simp
  · simp only [List.length_append, hyearLen, hmonLen, hmdayLen]
  · intro c hc
    simp only [List.mem_append] at hc
    obtain h | h | h := hc
    · exact hyearDigits c h
    · exact hmonDigits c h
    · exact hmdayDigits c h
  · simp only [List.length_append, hhourLen, hminLen]
  · intro c hc
    obtain h | h := List.mem_append.mp hc
    · exact hhourDigits c h
    · exact hminDigits c h

end Now

/-- The name of the file is what follows the directory, since nothing in it is a slash. -/
theorem file_name_append {dir name : List Char} (hname : '/' ∉ name) : file_name (dir ++ '/' :: name) = name := by
  have htake : ∀ c ∈ name.reverse, decide (c ≠ '/') = true := by
    intro c hc
    refine decide_eq_true fun heq => hname ?_
    rw [← heq]
    exact List.mem_reverse.mp hc
  rw [file_name, List.reverse_append, List.reverse_cons, List.append_assoc, List.takeWhile_append_of_pos htake,
    List.singleton_append, List.takeWhile_cons_of_neg (by simp), List.append_nil, List.reverse_reverse]

section NameParts

variable {name number date time : List Char}

/-- No character of such a name but digits and the letters of its fixed parts. -/
theorem NameParts.char_cases (hname : NameParts name number date time) {c : Char} (hc : c ∈ name) :
    c.isDigit = true ∨ c ∈ ['s', '1', '_', 'c', 'h', '.', 'm', 'p', '4'] := by
  rw [hname.parts] at hc
  simp only [List.mem_append, List.mem_cons] at hc
  obtain h | h | rfl | h | rfl | h | h := hc
  · exact .inr (List.Sublist.mem h (by decide))
  · exact .inl (hname.number_digits c h)
  · exact .inr (by decide)
  · exact .inl (hname.date_digits c h)
  · exact .inr (by decide)
  · exact .inl (hname.time_digits c h)
  · exact .inr (List.Sublist.mem h (by decide))

theorem NameParts.not_mem (hname : NameParts name number date time) {c : Char} (hdigit : c.isDigit = false)
    (hc : c ∉ ['s', '1', '_', 'c', 'h', '.', 'm', 'p', '4']) : c ∉ name := by
  intro hmem
  obtain h | h := hname.char_cases hmem
  · rw [hdigit] at h
    cases h
  · exact hc h

theorem NameParts.isRecording (hname : NameParts name number date time) : is_recording_file_name name = true := by
  obtain ⟨head, hmem, hhead⟩ := hname.known
  have hsuffix : ".mp4".toList <:+ name :=
    ⟨"s1_ch".toList ++ (number ++ ('_' :: (date ++ ('_' :: time)))), by rw [hname.parts]; simp⟩
  rw [is_recording_file_name, if_neg (not_not.mpr hsuffix), List.any_eq_true]
  refine ⟨head, hmem, decide_eq_true ⟨date ++ ('_' :: (time ++ ".mp4".toList)), ?_⟩⟩
  rw [hhead, hname.parts]
  simp

theorem NameParts.matches_pattern (hname : NameParts name number date time) : name ∈ recording_pattern.matches' := by
  have hdigits : ∀ {w : List Char}, (∀ c ∈ w, c.isDigit = true) →
      ∀ c ∈ w, c ∈ ['0', '1', '2', '3', '4', '5', '6', '7', '8', '9'] := fun h c hc => php.isDigit_mem (h c hc)
  rw [hname.parts, recording_pattern]
  simp only [RegularExpression.matches'_mul, Language.mem_mul]
  refine ⟨_, php.mem_caseless (by decide), _, ⟨number, php.mem_one_or_more hname.number_ne_nil
    (hdigits hname.number_digits), _, ⟨['_'], rfl, _, ⟨date, php.mem_one_of_pow_iff.mpr ⟨hname.date_length,
      hdigits hname.date_digits⟩, _, ⟨['_'], rfl, _, ⟨time, php.mem_one_of_pow_iff.mpr ⟨hname.time_length,
        hdigits hname.time_digits⟩, _, php.mem_caseless (by decide), rfl⟩, rfl⟩, rfl⟩, rfl⟩, rfl⟩, rfl⟩

/-- The only dot of such a name is that of its suffix. -/
theorem NameParts.dot_not_mem (hname : NameParts name number date time) :
    '.' ∉ "s1_ch".toList ++ (number ++ ('_' :: (date ++ ('_' :: time)))) := by
  have hdigits : ∀ {w : List Char}, (∀ c ∈ w, c.isDigit = true) → '.' ∉ w := by
    intro w hw hmem
    have hdigit := hw '.' hmem
    revert hdigit
    decide
  simp only [List.mem_append, List.mem_cons, not_or]
  exact ⟨by decide, hdigits hname.number_digits, by decide, hdigits hname.date_digits, by decide,
    hdigits hname.time_digits⟩

theorem NameParts.suffix (hname : NameParts name number date time) :
    name = "s1_ch".toList ++ (number ++ ('_' :: (date ++ ('_' :: time)))) ++ '.' :: ['m', 'p', '4'] := by
  rw [hname.parts]
  simp

theorem NameParts.valid (hname : NameParts name number date time) :
    restful_api_server.is_valid_filename name = true := by
  have hlen : name.length = number.length + 23 := by
    rw [hname.parts]
    simp only [List.length_append, List.length_cons, hname.date_length, hname.time_length]
    simp
    omega
  have hbound := hname.number_length
  -- two dots in a row would both be the one of the suffix
  have hdots : ¬ ['.', '.'] <:+: name := by
    rintro ⟨front, back, heq⟩
    have hcount := congrArg (List.count '.') (heq.trans hname.suffix)
    simp only [List.count_append, List.count_eq_zero_of_not_mem hname.dot_not_mem, List.count_cons, List.count_nil,
      beq_iff_eq] at hcount
    simp at hcount
    omega
  have hchars : ¬ ∃ c ∈ name, !c.isAlphanum ∧ c ≠ '_' ∧ c ≠ '-' ∧ c ≠ '.' := by
    rintro ⟨c, hmem, halnum, hunder, -, hdot⟩
    obtain hdigit | hfixed := hname.char_cases hmem
    · rw [Char.isAlphanum, hdigit, Bool.or_true] at halnum
      cases halnum
    · simp only [List.mem_cons, List.not_mem_nil, or_false] at hfixed
      obtain rfl | rfl | rfl | rfl | rfl | rfl | rfl | rfl | rfl := hfixed
      all_goals first | exact hunder rfl | exact hdot rfl | exact absurd halnum (by decide)
  rw [restful_api_server.is_valid_filename, if_neg (by omega),
    if_neg (not_or.mpr
      ⟨hdots, not_or.mpr ⟨hname.not_mem (by decide) (by decide), hname.not_mem (by decide) (by decide)⟩⟩),
    if_neg hchars, hname.suffix, strrchr_append (by decide)]
  rfl

end NameParts

/-- Every recording made of a stream in a year of four digits has a name that the cleanup, the listing, the download
and the REST server all take. -/
theorem recording_names_agree (dir : List Char) {g : StreamGroup} {v : StreamView} {recorded_mode : ℤ} {now : tm}
    (hrecorded : record_enabled_for g v recorded_mode = true)
    (hyear : 0 ≤ now.tm_year + 1900 ∧ now.tm_year + 1900 ≤ 9999) :
    let head := make_record_prefix g v
    ∃ name, '/' ∉ name ∧ on_format_location_full dir head now = dir ++ '/' :: name ∧
      file_name (on_format_location_full dir head now) = name ∧
      is_recording_file_name name = true ∧ listed name = true ∧ downloadable name = true ∧
      restful_api_server.is_valid_filename name = true := by
  intro head
  obtain ⟨number, hhead, hnonempty, hlen, hdigits, hknown⟩ := prefix_of_recorded hrecorded
  obtain ⟨date, time, hnow, hdateLen, hdate, htimeLen, htime⟩ := now_parts hyear
  have hname : NameParts ("s1_ch".toList ++ (number ++ ('_' :: (date ++ ('_' :: (time ++ ".mp4".toList))))))
      number date time :=
    ⟨rfl, hnonempty, hlen, hdigits, hknown, hdateLen, hdate, htimeLen, htime⟩
  have hpath : on_format_location_full dir head now =
      dir ++ '/' :: ("s1_ch".toList ++ (number ++ ('_' :: (date ++ ('_' :: (time ++ ".mp4".toList)))))) := by
    rw [on_format_location_full, show head = _ from hhead, hnow]
    simp
  have hslash := hname.not_mem (c := '/') (by decide) (by decide)
  have hmatch := php.preg_match_of_mem hname.matches_pattern
  exact ⟨_, hslash, hpath, by rw [hpath, file_name_append hslash], hname.isRecording, hmatch, hmatch, hname.valid⟩

/-- The last minute of a year. -/
def last_minute : tm :=
  ⟨124, 11, 31, 23, 59, by decide, by decide, by decide, by decide⟩

theorem recording_names_agree_last_minute :
    let head := make_record_prefix .S1 .V2
    ∃ name, '/' ∉ name ∧ on_format_location_full "/data".toList head last_minute = "/data".toList ++ '/' :: name ∧
      file_name (on_format_location_full "/data".toList head last_minute) = name ∧
      is_recording_file_name name = true ∧ listed name = true ∧ downloadable name = true ∧
      restful_api_server.is_valid_filename name = true :=
  recording_names_agree "/data".toList (show record_enabled_for .S1 .V2 2 = true by rfl)
    (show 0 ≤ last_minute.tm_year + 1900 ∧ last_minute.tm_year + 1900 ≤ 9999 by decide)

end k180.recordings
