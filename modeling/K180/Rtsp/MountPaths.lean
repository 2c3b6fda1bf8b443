import K180.Rtsp.StreamPath
import K180.Rtsp.ViewerSteps

open libc libc.Reading k180.streambuilder

namespace k180.rtsp_attach

def mount_path (g : StreamGroup) (v : StreamView) : String :=
  "/" ++ group_name g ++ "_" ++ toString (view_number v)

def mount_path_h264 (g : StreamGroup) (v : StreamView) : String :=
  "/" ++ group_name g ++ "_" ++ toString (view_number v) ++ "_h264"

structure ActiveRtspStream where
  key : StreamKey
  is_h264 : Bool
  id : ℕ
deriving DecidableEq

/-- A key and a codec with the number that `active_stream_id` gives them. -/
def active_stream (key : StreamKey) (is_h264 : Bool) : ActiveRtspStream :=
  ⟨key, is_h264, if is_h264 then 1000 + h264_index key.g key.v else stream_index key⟩

/-- A path with the stream of the factory that is mounted there. -/
structure Mount where
  path : String
  stream : ActiveRtspStream

/-- The mounts in the order of the two loops. -/
def attach_factories : List Mount :=
  ([StreamGroup.S1, .S2].flatMap fun g => [StreamView.V1234, .V1, .V2, .V3, .V4].map fun v =>
    ⟨mount_path g v, active_stream ⟨g, v⟩ false⟩) ++
  [StreamGroup.S1, .S2].flatMap fun g => [StreamView.V1, .V2, .V3, .V4].map fun v =>
    ⟨mount_path_h264 g v, active_stream ⟨g, v⟩ true⟩

/-- A part of a string. -/
def part (s : CString) (text : List Char) (hpart : text.Sublist s.text) : CString :=
  ⟨text, fun hnul => s.nul_free (hpart.subset hnul)⟩

/-- What is left of a path that is cut at the first slash behind its first character. -/
def before_second_slash : List Char → List Char
  | [] => []
  | c :: rest => c :: rest.takeWhile (· ≠ '/')

theorem before_second_slash_sublist (text : List Char) : (before_second_slash text).Sublist text := by
  cases text with
  | nil => exact List.Sublist.refl []
  | cons c rest => exact (List.takeWhile_sublist _).cons_cons c

def keep_mount (raw_path : CString) : CString :=
  part raw_path (before_second_slash raw_path.text) (before_second_slash_sublist raw_path.text)

def ends_with (s suffix : List Char) : Bool := suffix <:+ s

/-- The path without the suffix at its end. -/
def strip_h264 (path : CString) : CString :=
  part path (path.text.take (path.text.length - "_h264".length)) (List.take_sublist _ _)

/-- The string that the parser is called with for a request. -/
def parser_argument (raw_path : CString) : CString :=
  let path := keep_mount raw_path
  if ends_with path.text "_h264".toList then strip_h264 path else path

/-- The stream of a request; `none` where the parser has not come to an end. What is behind the NUL of the string that the
parser is called with is `beyond`. -/
def parse_active_stream_path (beyond : ℕ → Char) (raw_path : CString) : Option (Option ActiveRtspStream) :=
  if raw_path.text = [] then some none
  else
    let is_h264 := ends_with (keep_mount raw_path).text "_h264".toList
    let path := parser_argument raw_path
    match (parse_stream_path path.text.length).value (path.memory beyond) with
    | none => none
    | some none => some none
    | some (some key) =>
      if is_h264 ∧ (key.v.toNat < StreamView.V1.toNat ∨ StreamView.V4.toNat < key.v.toNat) then some none
      else some (some (active_stream key is_h264))

/-- A request for a path, or for something below it. -/
def Requests (text path : List Char) : Prop := text = path ∨ ∃ control, text = path ++ '/' :: control

/-- The path of a mount with zeros before the number of its view. -/
def padded_mount (zeros : ℕ) (m : Mount) : List Char :=
  padded_path zeros m.stream.key ++ if m.stream.is_h264 then "_h264".toList else []

/-- A request for a path that is not mounted, since its number begins with a zero. -/
def LeadingZeros (raw_path : CString) : Prop :=
  ∃ m ∈ attach_factories, ∃ zeros, 0 < zeros ∧ Requests raw_path.text (padded_mount zeros m)

/-- A stream comes of a path exactly if the path is that of its mount, or below it. -/
def Grammar (raw_path : CString) : Prop :=
  ∀ beyond stream, parse_active_stream_path beyond raw_path = some (some stream) ↔
    ∃ m ∈ attach_factories, Requests raw_path.text m.path.toList ∧ stream = m.stream

/-- Where the factory of a stream is mounted. -/
def mount : Stream → Mount
  | .h265 k => ⟨mount_path k.g k.v, active_stream k false⟩
  | .h264 g v _ => ⟨mount_path_h264 g v, active_stream ⟨g, v⟩ true⟩

section Mounts

variable {m : Mount} {text path : List Char} {zeros : ℕ}

theorem toList_mount_path (g : StreamGroup) (v : StreamView) :
    (mount_path g v).toList = padded_path 0 ⟨g, v⟩ := by
  rw [mount_path, padded_path, Nat.toString_eq_repr]
  simp [Nat.toList_repr]

theorem toList_mount_path_h264 (g : StreamGroup) (v : StreamView) :
    (mount_path_h264 g v).toList = padded_path 0 ⟨g, v⟩ ++ "_h264".toList := by
  rw [← toList_mount_path, ← String.toList_append]
  rfl

theorem toList_mount (s : Stream) : (mount s).path.toList = padded_mount 0 (mount s) := by
  cases s with
  | h265 k => exact (toList_mount_path k.g k.v).trans (List.append_nil _).symm
  | h264 g v hview => exact toList_mount_path_h264 g v

/-- Every stream is mounted. -/
theorem mem_attach_factories_iff : m ∈ attach_factories ↔ ∃ s, m = mount s := by
  rw [attach_factories, List.mem_append, List.mem_flatMap, List.mem_flatMap]
  constructor
  · rintro (⟨g, -, hg⟩ | ⟨g, -, hg⟩)
    · obtain ⟨v, -, rfl⟩ := List.mem_map.mp hg
      exact ⟨.h265 ⟨g, v⟩, rfl⟩
    · obtain ⟨v, hv, rfl⟩ := List.mem_map.mp hg
      have hview : v ≠ .V1234 := by
        rintro rfl
        exact absurd hv (by decide)
      exact ⟨.h264 g v hview, rfl⟩
  · rintro ⟨s, rfl⟩
    have hgroup (g : StreamGroup) : g ∈ [StreamGroup.S1, .S2] := by cases g <;> decide
    cases s with
    | h265 k =>
      refine .inl ⟨k.g, hgroup k.g, List.mem_map.mpr ⟨k.v, ?_, rfl⟩⟩
      cases k.v <;> decide
    | h264 g v hview =>
      refine .inr ⟨g, hgroup g, List.mem_map.mpr ⟨v, ?_, rfl⟩⟩
      cases v with
      | V1234 => exact absurd rfl hview
      | V1 | V2 | V3 | V4 => decide

/-- The streams are told apart as their viewers are. -/
theorem mount_stream_id (s : Stream) : (mount s).stream.id = active_stream_id s := by
  cases s with
  | h265 k => rfl
  | h264 g v hview => rfl

/-- A request is told by the part before the second slash. -/
theorem requests_iff (hslash : '/' ∉ path) :
    Requests text ('/' :: path) ↔ before_second_slash text = '/' :: path := by
  have hkept : ∀ c ∈ path, decide (c ≠ '/') = true := by
    intro c hc
    refine decide_eq_true ?_
    rintro rfl
    exact hslash hc
  constructor
  · rintro (rfl | ⟨control, rfl⟩)
    · rw [before_second_slash, List.takeWhile_eq_self_iff.mpr hkept]
    · rw [List.cons_append, before_second_slash, List.takeWhile_append_of_pos hkept,
        List.takeWhile_cons_of_neg (by simp), List.append_nil]
  · intro hcut
    cases text with
    | nil => cases hcut
    | cons c rest =>
      obtain ⟨rfl, hpath⟩ := List.cons.inj hcut
      have hsplit := List.takeWhile_append_dropWhile (p := fun c => decide (c ≠ '/')) (l := rest)
      rw [hpath] at hsplit
      cases hdrop : rest.dropWhile fun c => decide (c ≠ '/') with
      | nil =>
        rw [hdrop, List.append_nil] at hsplit
        exact .inl (hsplit ▸ rfl)
      | cons d control =>
        have hne : rest.dropWhile (fun c => decide (c ≠ '/')) ≠ [] := by
          rw [hdrop]
          exact List.cons_ne_nil d control
        have hhead := List.head_dropWhile_not (fun c => decide (c ≠ '/')) hne
        simp only [hdrop, List.head_cons, decide_eq_false_iff_not, not_not] at hhead
        rw [hdrop, hhead] at hsplit
        exact .inr ⟨control, hsplit ▸ rfl⟩

/-- No character of a path is a letter of the suffix, and none but the first is a slash. -/
theorem padded_path_eq (zeros : ℕ) (k : StreamKey) :
    ∃ path, padded_path zeros k = '/' :: path ∧ '/' ∉ path ∧ 'h' ∉ path := by
  have hdigits : ∀ c ∈ List.replicate zeros '0' ++ Nat.toDigits 10 (view_number k.v), c.isDigit = true :=
    ((ofDigitChars_eq_iff (view_number_range k.v).1).mpr ⟨zeros, rfl⟩).1
  have hnot (c : Char) (hc : c.isDigit = false) :
      c ∉ List.replicate zeros '0' ++ Nat.toDigits 10 (view_number k.v) := by
    intro hmem
    rw [hdigits c hmem] at hc
    cases hc
  have hname (c : Char) (hc : c ∉ ['s', '1', '2']) : c ∉ (group_name k.g).toList := by
    intro hmem
    refine hc (List.Sublist.mem hmem ?_)
    cases k.g <;> decide
  refine ⟨(group_name k.g).toList ++ '_' :: (List.replicate zeros '0' ++ Nat.toDigits 10 (view_number k.v)), rfl, ?_, ?_⟩
  · rw [List.mem_append, List.mem_cons, not_or, not_or]
    exact ⟨hname '/' (by decide), by decide, hnot '/' (by decide)⟩
  · rw [List.mem_append, List.mem_cons, not_or, not_or]
    exact ⟨hname 'h' (by decide), by decide, hnot 'h' (by decide)⟩

/-- A path without the suffix is none with the suffix. -/
theorem padded_path_ne_append (zeros : ℕ) (k : StreamKey) (text : List Char) :
    text ++ "_h264".toList ≠ padded_path zeros k ++ [] := by
  intro hsame
  obtain ⟨path, hpath, -, hletter⟩ := padded_path_eq zeros k
  rw [List.append_nil, hpath] at hsame
  have hmem : 'h' ∈ '/' :: path := by
    rw [← hsame]
    exact List.mem_append_right text (by decide)
  obtain hslash | hrest := List.mem_cons.mp hmem
  · exact absurd hslash (by decide)
  · exact hletter hrest

theorem toDigits_view_number (v : StreamView) :
    ∃ c rest, Nat.toDigits 10 (view_number v) = c :: rest ∧ c ≠ '0' := by
  cases v with
  | V1234 => exact ⟨'1', ['2', '3', '4'], by decide, by decide⟩
  | V1 => exact ⟨'1', [], by decide, by decide⟩
  | V2 => exact ⟨'2', [], by decide, by decide⟩
  | V3 => exact ⟨'3', [], by decide, by decide⟩
  | V4 => exact ⟨'4', [], by decide, by decide⟩

/-- The number of a mounted path does not begin with a zero. -/
theorem padded_mount_ne (zeros : ℕ) (m m' : Mount) : padded_mount (zeros + 1) m ≠ padded_mount 0 m' := by
  intro hsame
  have hzero : (padded_mount (zeros + 1) m)[4]? = some '0' := by
    obtain ⟨gch, hname, -⟩ := exists_group_char m.stream.key.g
    rw [padded_mount, padded_path, hname]
    rfl
  obtain ⟨gch, hname, -⟩ := exists_group_char m'.stream.key.g
  obtain ⟨c, rest, hdigits, hc⟩ := toDigits_view_number m'.stream.key.v
  rw [hsame, padded_mount, padded_path, hname, hdigits] at hzero
  exact hc (Option.some.inj hzero)

end Mounts

section Parse

variable {beyond : ℕ → Char} {raw_path : CString} {stream : ActiveRtspStream}

theorem single_view_iff (v : StreamView) :
    (v.toNat < StreamView.V1.toNat ∨ StreamView.V4.toNat < v.toNat) ↔ v = .V1234 := by
  cases v <;> decide

theorem strip_h264_append {path : CString} (hsuffix : ends_with path.text "_h264".toList = true) :
    (strip_h264 path).text ++ "_h264".toList = path.text := by
  obtain ⟨front, hfront⟩ := of_decide_eq_true hsuffix
  have htext : (strip_h264 path).text = front := by
    change path.text.take (path.text.length - 5) = front
    rw [← hfront, List.length_append]
    exact List.take_left' (Nat.add_sub_cancel front.length 5).symm
  rw [htext, hfront]

/-- What the call of the parser comes to. -/
theorem parse_key_eq_iff {path : CString} {is_h264 : Bool} :
    (match (parse_stream_path path.text.length).value (path.memory beyond) with
      | none => none
      | some none => some none
      | some (some key) =>
        if is_h264 = true ∧ (key.v.toNat < StreamView.V1.toNat ∨ StreamView.V4.toNat < key.v.toNat) then some none
        else some (some (active_stream key is_h264))) = some (some stream) ↔
      ∃ key, (∃ zeros, path.text = padded_path zeros key) ∧ (is_h264 = true → key.v ≠ .V1234) ∧
        stream = active_stream key is_h264 := by
  have hparser (key : StreamKey) := @parse_stream_path_eq_iff path beyond _ le_rfl key
  simp only [← hparser, single_view_iff]
  cases (parse_stream_path path.text.length).value (path.memory beyond) with
  | none => simp
  | some parsed =>
    cases parsed with
    | none => simp
    | some key =>
      dsimp only
      split
      · rename_i hview
        refine iff_of_false (by simp) ?_
        rintro ⟨key', hkey, hsingle, -⟩
        obtain rfl := Option.some.inj (Option.some.inj hkey)
        exact hsingle hview.1 hview.2
      · rename_i hview
        rw [Option.some.injEq, Option.some.injEq]
        constructor
        · rintro rfl
          exact ⟨key, rfl, fun hcodec hwhole => hview ⟨hcodec, hwhole⟩, rfl⟩
        · rintro ⟨key', hkey, -, rfl⟩
          obtain rfl := Option.some.inj (Option.some.inj hkey)
          rfl

theorem parse_active_stream_path_eq_iff :
    parse_active_stream_path beyond raw_path = some (some stream) ↔
      ∃ s, stream = (mount s).stream ∧ ∃ zeros, before_second_slash raw_path.text = padded_mount zeros (mount s) := by
  rw [parse_active_stream_path]
  by_cases hempty : raw_path.text = []
  · rw [if_pos hempty, hempty]
    refine iff_of_false (by simp) ?_
    rintro ⟨s, -, zeros, hpath⟩
    cases hpath
  · rw [if_neg hempty]
    refine parse_key_eq_iff.trans ?_
    by_cases hsuffix : ends_with (keep_mount raw_path).text "_h264".toList = true
    · have hstrip := strip_h264_append hsuffix
      rw [hsuffix, parser_argument, if_pos hsuffix]
      constructor
      · rintro ⟨key, ⟨zeros, hkey⟩, hview, rfl⟩
        exact ⟨.h264 key.g key.v (hview rfl), rfl, zeros, by rw [hkey] at hstrip; exact hstrip.symm⟩
      · rintro ⟨s, rfl, zeros, hpath⟩
        cases s with
        | h265 k => exact absurd (hstrip.trans hpath) (padded_path_ne_append zeros k _)
        | h264 g v hview => exact ⟨⟨g, v⟩, ⟨zeros, List.append_cancel_right (hstrip.trans hpath)⟩, fun _ => hview, rfl⟩
    · rw [Bool.eq_false_of_not_eq_true hsuffix, parser_argument, if_neg hsuffix]
      constructor
      · rintro ⟨key, ⟨zeros, hkey⟩, -, rfl⟩
        exact ⟨.h265 key, rfl, zeros, hkey.trans (List.append_nil _).symm⟩
      · rintro ⟨s, rfl, zeros, hpath⟩
        cases s with
        | h265 k =>
          refine ⟨k, ⟨zeros, hpath.trans (List.append_nil _)⟩, ?_, rfl⟩
          rintro ⟨⟩
        | h264 g v hview => exact absurd (decide_eq_true ⟨_, hpath.symm⟩) hsuffix

/-- The parser leaves its argument for two kinds of requests. -/
theorem parser_call_inside_iff (beyond : ℕ → Char) (raw_path : CString) (steps : ℕ) :
    Obeys (parser_argument raw_path).InBounds (parse_stream_path steps) ((parser_argument raw_path).memory beyond) ↔
      before_second_slash raw_path.text ∉ ["/s".toList, "/s_h264".toList] := by
  rw [obeys_parse_stream_path_iff, parser_argument, List.mem_cons, List.mem_singleton, not_or]
  by_cases hsuffix : ends_with (keep_mount raw_path).text "_h264".toList = true
  · have hstrip : (strip_h264 (keep_mount raw_path)).text ++ "_h264".toList = before_second_slash raw_path.text :=
      strip_h264_append hsuffix
    rw [if_pos hsuffix, ← hstrip]
    constructor
    · intro hne
      refine ⟨fun hshort => ?_, fun hshort => hne (List.append_cancel_right hshort)⟩
      have hlen := congrArg List.length hshort
      rw [List.length_append] at hlen
      change _ + 5 = 2 at hlen
      omega
    · rintro ⟨-, hne⟩ hshort
      rw [hshort] at hne
      exact hne rfl
  · rw [if_neg hsuffix]
    constructor
    · intro hne
      refine ⟨hne, fun hlong => hsuffix (decide_eq_true ?_)⟩
      exact ⟨['/', 's'], hlong.symm⟩
    · exact fun hne => hne.1

/-- A mounted path, whole or with zeros, is all of a request that is before the second slash. -/
theorem requests_padded_iff {text : List Char} {zeros : ℕ} {s : Stream} :
    Requests text (padded_mount zeros (mount s)) ↔ before_second_slash text = padded_mount zeros (mount s) := by
  obtain ⟨path, hpath, hslash, -⟩ := padded_path_eq zeros (mount s).stream.key
  rw [padded_mount, hpath, List.cons_append]
  refine requests_iff (List.not_mem_append hslash ?_)
  split <;> decide

/-- The grammar is kept by the requests that have no zeros before the number. -/
theorem grammar_iff : Grammar raw_path ↔ ¬ LeadingZeros raw_path := by
  constructor
  · rintro hgrammar ⟨m, hm, zeros, hpos, hrequest⟩
    obtain ⟨s, rfl⟩ := mem_attach_factories_iff.mp hm
    obtain ⟨m', hm', hmounted, -⟩ := (hgrammar (fun _ => '_') _).mp
      (parse_active_stream_path_eq_iff.mpr ⟨s, rfl, zeros, requests_padded_iff.mp hrequest⟩)
    obtain ⟨s', rfl⟩ := mem_attach_factories_iff.mp hm'
    rw [toList_mount, requests_padded_iff, requests_padded_iff.mp hrequest] at hmounted
    obtain ⟨zeros, rfl⟩ := Nat.exists_eq_succ_of_ne_zero hpos.ne'
    exact padded_mount_ne zeros _ _ hmounted
  · intro hzeros beyond stream
    rw [parse_active_stream_path_eq_iff]
    constructor
    · rintro ⟨s, rfl, zeros, hpath⟩
      have hm : mount s ∈ attach_factories := mem_attach_factories_iff.mpr ⟨s, rfl⟩
      have hnone : zeros = 0 := by
        by_contra hne
        exact hzeros ⟨mount s, hm, zeros, Nat.pos_of_ne_zero hne, requests_padded_iff.mpr hpath⟩
      subst hnone
      exact ⟨mount s, hm, by rw [toList_mount, requests_padded_iff, hpath], rfl⟩
    · rintro ⟨m, hm, hrequest, rfl⟩
      obtain ⟨s, rfl⟩ := mem_attach_factories_iff.mp hm
      rw [toList_mount, requests_padded_iff] at hrequest
      exact ⟨s, rfl, 0, hrequest⟩

theorem parse_active_stream_path_ne_none : parse_active_stream_path beyond raw_path ≠ none := by
  rw [parse_active_stream_path]
  split
  · exact Option.some_ne_none _
  dsimp only
  split
  · rename_i hnone
    exact absurd hnone (parse_stream_path_ne_none le_rfl)
  · exact Option.some_ne_none _
  · split
    · exact Option.some_ne_none _
    · exact Option.some_ne_none _

/-- Requests are told apart by the mounts, but for zeros before a number; mounts have their own numbers, and the path of a
mount is that of its stream. -/
theorem mount_path_grammar (raw_path : CString) :
    (Grammar raw_path ↔ ¬ LeadingZeros raw_path) ∧
      (∀ beyond, parse_active_stream_path beyond raw_path ≠ none) ∧
      (∀ m ∈ attach_factories, ∀ m' ∈ attach_factories, m.stream.id = m'.stream.id → m = m') ∧
      ∀ m ∈ attach_factories, raw_path.text = m.path.toList →
        ∀ beyond, parse_active_stream_path beyond raw_path = some (some m.stream) := by
  refine ⟨grammar_iff, fun _ => parse_active_stream_path_ne_none, ?_, ?_⟩
  · intro m hm m' hm' hid
    obtain ⟨s, rfl⟩ := mem_attach_factories_iff.mp hm
    obtain ⟨s', rfl⟩ := mem_attach_factories_iff.mp hm'
    rw [mount_stream_id, mount_stream_id] at hid
    rw [active_stream_id_inj hid]
  · intro m hm htext beyond
    obtain ⟨s, rfl⟩ := mem_attach_factories_iff.mp hm
    refine parse_active_stream_path_eq_iff.mpr ⟨s, rfl, 0, ?_⟩
    rw [← requests_padded_iff, ← toList_mount]
    exact .inl htext

end Parse

/-- A path that is not mounted. -/
def zero_path : CString := ⟨"/s1_01".toList, by decide⟩

/-- It is taken for the first view. -/
theorem zero_path_accepted :
    (∀ beyond, parse_active_stream_path beyond zero_path = some (some (active_stream ⟨.S1, .V1⟩ false))) ∧
      ∀ m ∈ attach_factories, ¬ Requests zero_path.text m.path.toList := by
  have hpath : before_second_slash zero_path.text = padded_mount 1 (mount (.h265 ⟨.S1, .V1⟩)) := by decide
  constructor
  · exact fun beyond => parse_active_stream_path_eq_iff.mpr ⟨.h265 ⟨.S1, .V1⟩, rfl, 1, hpath⟩
  · intro m hm hrequest
    obtain ⟨s, rfl⟩ := mem_attach_factories_iff.mp hm
    rw [toList_mount, requests_padded_iff, hpath] at hrequest
    exact padded_mount_ne 0 _ _ hrequest

end k180.rtsp_attach
