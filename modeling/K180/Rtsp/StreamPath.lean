import K180.Libc.Digits
import K180.Libc.Reading
import K180.Rtsp.StreamKey

open libc libc.Reading

namespace k180.streambuilder

/-- The loop over the digits, with so many steps at most: `none` where it is not over yet, `some none` for a character
that is no digit. -/
def parse_number : ℕ → ℕ → ℤ → Reading (Option (Option ℤ))
  | 0, _, _ => pure none
  | steps + 1, q, val => do
    let c ← deref q
    if c = Char.ofNat 0 then pure (some (some val))
    else if c < '0' ∨ '9' < c then pure (some none)
    else do
      let scaled ← int (val * 10)
      let val ← int (scaled + ((c.toNat : ℤ) - ('0'.toNat : ℤ)))
      if 1234 < val then pure (some (some val)) else parse_number steps (q + 1) val

def group_of (gch : Char) : Option StreamGroup :=
  if gch = '1' then some .S1 else if gch = '2' then some .S2 else none

def view_of (val : ℤ) : Option StreamView :=
  if val = 1234 then some .V1234
  else if val = 1 then some .V1
  else if val = 2 then some .V2
  else if val = 3 then some .V3
  else if val = 4 then some .V4
  else none

/-- The stream that the string behind a pointer names; `none` where the loop over the digits is not over yet. -/
def parse_stream_path (steps : ℕ) : Reading (Option (Option StreamKey)) := do
  let first ← deref 0
  if first ≠ '/' then pure (some none)
  else do
    let named ← Reading.strncmp_eq 2 0 ['/', 's']
    if named = false then pure (some none)
    else do
      let gch ← deref 2
      let underscore ← deref 3
      if underscore ≠ '_' then pure (some none)
      else
        match group_of gch with
        | none => pure (some none)
        | some g => do
          let c ← deref 4
          if c = Char.ofNat 0 then pure (some none)
          else do
            let parsed ← parse_number steps 4 0
            match parsed with
            | none => pure none
            | some none => pure (some none)
            | some (some val) => pure (some ((view_of val).map fun v => ⟨g, v⟩))

section Bounds

variable {s : CString} {beyond : ℕ → Char} {steps q : ℕ} {val : ℤ}

/-- The loop goes on behind a digit only, and only with a number of at most four digits. -/
theorem obeys_parse_number (hq : q ≤ s.text.length) (hval : 0 ≤ val ∧ val ≤ 1234) :
    Obeys s.InBounds (parse_number steps q val) (s.memory beyond) := by
  induction steps generalizing q val with
  | zero => exact obeys_pure none
  | succ steps ih =>
    rw [parse_number, obeys_bind, obeys_deref, value_deref]
    refine ⟨hq, ?_⟩
    split
    · exact obeys_pure _
    rename_i hnul
    split
    · exact obeys_pure _
    rename_i hdigit
    have hrange : ('0'.toNat : ℤ) ≤ (s.memory beyond q).toNat ∧ ((s.memory beyond q).toNat : ℤ) ≤ '9'.toNat := by
      rw [outside_digits_iff, not_not, Char.isDigit_iff_toNat] at hdigit
      exact ⟨Int.ofNat_le.mpr hdigit.1, Int.ofNat_le.mpr hdigit.2⟩
    have h0 : ('0'.toNat : ℤ) = 48 := rfl
    have h9 : ('9'.toNat : ℤ) = 57 := rfl
    rw [obeys_bind, obeys_int, value_int, obeys_bind, obeys_int, value_int]
    refine ⟨⟨by omega, by omega⟩, ⟨by omega, by omega⟩, ?_⟩
    split
    · exact obeys_pure _
    · exact ih (CString.lt_of_memory_ne hq hnul) ⟨by omega, by omega⟩

theorem named_iff :
    (Reading.strncmp_eq 2 0 ['/', 's']).value (s.memory beyond) = true ↔ ['/', 's'] <+: s.text :=
  CString.strncmp_eq_iff (show s.text = [] ++ s.text from rfl) (show Char.ofNat 0 ∉ ['/', 's'] by decide)

/-- The fourth byte is there to read when the string goes on behind its head, and the number begins behind that one. -/
theorem obeys_parse_stream_path (htext : s.text ≠ ['/', 's']) :
    Obeys s.InBounds (parse_stream_path steps) (s.memory beyond) := by
  rw [parse_stream_path, obeys_bind, obeys_deref, value_deref]
  refine ⟨Nat.zero_le _, ?_⟩
  split
  · exact obeys_pure _
  rw [obeys_bind]
  refine ⟨CString.obeys_strncmp_eq (Nat.zero_le _) _, ?_⟩
  split
  · exact obeys_pure _
  rename_i hnamed
  obtain ⟨rest, hrest⟩ := named_iff.mp (Bool.eq_true_of_not_eq_false hnamed)
  have hlen : 3 ≤ s.text.length := by
    cases rest with
    | nil => exact absurd hrest.symm htext
    | cons c rest => simp [← hrest]
  rw [obeys_bind, obeys_deref, value_deref, obeys_bind, obeys_deref, value_deref]
  refine ⟨(Nat.le_succ 2).trans hlen, hlen, ?_⟩
  split
  · exact obeys_pure _
  rename_i hunderscore
  have hnext : 4 ≤ s.text.length := by
    refine @CString.lt_of_memory_ne s beyond _ hlen ?_
    rw [not_not.mp hunderscore]
    decide
  split
  · exact obeys_pure _
  rw [obeys_bind, obeys_deref, value_deref]
  refine ⟨hnext, ?_⟩
  split
  · exact obeys_pure _
  rw [obeys_bind]
  refine ⟨obeys_parse_number hnext ⟨le_rfl, by decide⟩, ?_⟩
  split
  · exact obeys_pure _
  · exact obeys_pure _
  · exact obeys_pure _

/-- The fourth byte is read before the third one is looked at. -/
theorem accesses_short (htext : s.text = ['/', 's']) :
    (parse_stream_path steps).accesses (s.memory beyond) = [.read 0, .read 0, .read 1, .read 2, .read 3] := by
  have hfirst : s.memory beyond 0 = '/' := CString.memory_append (show s.text = [] ++ ['/', 's'] from htext)
  have hsecond : s.memory beyond 1 = 's' := CString.memory_append (show s.text = ['/'] ++ ['s'] from htext)
  have hend : s.memory beyond 2 = Char.ofNat 0 := CString.memory_append (show s.text = ['/', 's'] ++ [] from htext)
  have hnamed : (Reading.strncmp_eq 2 0 ['/', 's']).value (s.memory beyond) = true := by
    rw [named_iff, htext]
  have hcompared : (Reading.strncmp_eq 2 0 ['/', 's']).accesses (s.memory beyond) = [.read 0, .read 1] := by
    simp [Reading.strncmp_eq, hfirst, hsecond]
  rw [parse_stream_path, accesses_bind, value_deref, if_neg (not_not.mpr hfirst), accesses_bind, hnamed,
    if_neg (by decide), hcompared, accesses_bind, value_deref 2, hend, accesses_bind, value_deref 3]
  split
  · rfl
  · rfl

theorem obeys_parse_stream_path_iff :
    Obeys s.InBounds (parse_stream_path steps) (s.memory beyond) ↔ s.text ≠ ['/', 's'] := by
  constructor
  · intro hobeys htext
    have hread : 3 ≤ s.text.length := hobeys (.read 3) (by rw [accesses_short htext]; decide)
    rw [htext] at hread
    exact absurd hread (by decide)
  · exact obeys_parse_stream_path

/-- Of a single string a byte behind the NUL is read, and no number overflows. -/
theorem parse_stream_path_accesses (s : CString) (beyond : ℕ → Char) (steps : ℕ) :
    (Obeys s.InBounds (parse_stream_path steps) (s.memory beyond) ↔ s.text ≠ ['/', 's']) ∧
      ∀ n, Access.int n ∈ (parse_stream_path steps).accesses (s.memory beyond) → -2 ^ 31 ≤ n ∧ n < 2 ^ 31 := by
  refine ⟨obeys_parse_stream_path_iff, fun n hn => ?_⟩
  by_cases htext : s.text = ['/', 's']
  · rw [accesses_short htext] at hn
    simp at hn
  · exact obeys_parse_stream_path htext _ hn

/-- The parser reads behind the two bytes and the NUL. -/
theorem short_path_overread : ¬ ∀ (s : CString) (beyond : ℕ → Char) (steps : ℕ),
    Obeys s.InBounds (parse_stream_path steps) (s.memory beyond) := by
  intro hall
  have hinside := hall ⟨['/', 's'], by decide⟩ (fun _ => '_') 2
  exact obeys_parse_stream_path_iff.mp hinside rfl

end Bounds

section Value

variable {s : CString} {beyond : ℕ → Char} {steps : ℕ} {front digits : List Char}

/-- With a step for each digit and one for the NUL the loop is over. -/
theorem parse_number_ne_none (htext : s.text = front ++ digits) (hsteps : digits.length < steps) (val : ℤ) :
    (parse_number steps front.length val).value (s.memory beyond) ≠ none := by
  induction steps generalizing front digits val with
  | zero => omega
  | succ steps ih =>
    rw [parse_number, value_bind, value_deref, CString.memory_append htext]
    cases digits with
    | nil => exact Option.some_ne_none _
    | cons c rest =>
      rw [List.headD_cons]
      split
      · exact Option.some_ne_none _
      split
      · exact Option.some_ne_none _
      rw [value_bind, value_int, value_bind, value_int]
      split
      · exact Option.some_ne_none _
      · have hnext := ih (show s.text = (front ++ [c]) ++ rest by simp [htext])
          (by rw [List.length_cons] at hsteps; omega)
        rw [List.length_append, List.length_singleton] at hnext
        exact hnext _

/-- The loop comes to a number that is no greater than 1234 exactly if its digits are the rest of the string. -/
theorem parse_number_eq_iff {n val : ℕ} (htext : s.text = front ++ digits) (hsteps : digits.length < steps)
    (hn : n ≤ 1234) :
    (parse_number steps front.length val).value (s.memory beyond) = some (some (n : ℤ)) ↔
      (∀ c ∈ digits, c.isDigit = true) ∧ Nat.ofDigitChars 10 digits val = n := by
  induction steps generalizing front digits val with
  | zero => omega
  | succ steps ih =>
    rw [parse_number, value_bind, value_deref, CString.memory_append htext]
    cases digits with
    | nil =>
      rw [List.headD_nil, if_pos rfl, value_pure, Nat.ofDigitChars_nil]
      simp
    | cons c rest =>
      have hnul : c ≠ Char.ofNat 0 := by
        rintro rfl
        exact s.nul_free (by simp [htext])
      rw [List.headD_cons, if_neg hnul, List.forall_mem_cons, Nat.ofDigitChars_cons]
      by_cases hdigit : c.isDigit = true
      · have hle : '0'.toNat ≤ c.toNat := (Char.isDigit_iff_toNat.mp hdigit).1
        have hval : (val : ℤ) * 10 + ((c.toNat : ℤ) - ('0'.toNat : ℤ)) =
            ((10 * val + (c.toNat - '0'.toNat) : ℕ) : ℤ) := by
          omega
        rw [if_neg (outside_digits_iff.not.mpr (not_not.mpr hdigit)), value_bind, value_int, value_bind, value_int, hval]
        split
        · rename_i hgreat
          have hgrows := le_ofDigitChars rest (10 * val + (c.toNat - '0'.toNat))
          rw [value_pure]
          constructor
          · intro heq
            have hsame := Option.some.inj (Option.some.inj heq)
            omega
          · rintro ⟨-, heq⟩
            omega
        · have hnext := @ih (front ++ [c]) rest (10 * val + (c.toNat - '0'.toNat)) (by simp [htext])
            (by rw [List.length_cons] at hsteps; omega)
          rw [List.length_append, List.length_singleton] at hnext
          rw [hnext]
          simp [hdigit]
      · rw [if_pos (outside_digits_iff.mpr hdigit), value_pure]
        simp [hdigit]

theorem view_of_eq_some_iff {val : ℤ} {v : StreamView} : view_of val = some v ↔ val = view_number v := by
  rw [view_of]
  cases v with
  | V1234 | V1 | V2 | V3 | V4 =>
    simp only [view_number, StreamView.toNat]
    split_ifs <;> simp_all

theorem view_number_range (v : StreamView) : 0 < view_number v ∧ view_number v ≤ 1234 := by
  cases v with
  | V1234 | V1 | V2 | V3 | V4 => decide

/-- The character of a group in its name. -/
theorem exists_group_char (g : StreamGroup) :
    ∃ gch, (group_name g).toList = ['s', gch] ∧ ∀ c, group_of c = some g ↔ c = gch := by
  have hother : '1' ≠ '2' := by decide
  cases g with
  | S1 =>
    refine ⟨'1', by decide, fun c => ?_⟩
    rw [group_of]
    split_ifs <;> simp_all
  | S2 =>
    refine ⟨'2', by decide, fun c => ?_⟩
    rw [group_of]
    split_ifs <;> simp_all

/-- A string of another form is rejected, whatever is behind its NUL. -/
theorem parse_stream_path_other (hother : ∀ gch digits, s.text ≠ '/' :: 's' :: gch :: '_' :: digits) :
    (parse_stream_path steps).value (s.memory beyond) = some none := by
  rw [parse_stream_path, value_bind, value_deref]
  split
  · rfl
  rw [value_bind]
  split
  · rfl
  rename_i hnamed
  obtain ⟨rest, hrest⟩ := named_iff.mp (Bool.eq_true_of_not_eq_false hnamed)
  rw [value_bind, value_deref, value_bind, value_deref]
  split
  · rfl
  rename_i hunderscore
  rw [not_not] at hunderscore
  cases rest with
  | nil =>
    have hgch : s.memory beyond 2 = Char.ofNat 0 := CString.memory_append hrest.symm
    rw [hgch]
    rfl
  | cons gch rest =>
    have hnext : s.memory beyond 3 = rest.headD (Char.ofNat 0) :=
      CString.memory_append (show s.text = ['/', 's', gch] ++ rest from hrest.symm)
    rw [hnext] at hunderscore
    cases rest with
    | nil => exact absurd hunderscore (by decide)
    | cons c digits =>
      rw [List.headD_cons] at hunderscore
      subst hunderscore
      exact absurd hrest.symm (hother gch digits)

theorem parse_stream_path_named {gch : Char} (htext : s.text = '/' :: 's' :: gch :: '_' :: digits) :
    (parse_stream_path steps).value (s.memory beyond) =
      match group_of gch with
      | none => some none
      | some g =>
        if digits = [] then some none
        else
          match (parse_number steps 4 0).value (s.memory beyond) with
          | none => none
          | some none => some none
          | some (some val) => some ((view_of val).map fun v => ⟨g, v⟩) := by
  have hfirst : s.memory beyond 0 = '/' := CString.memory_append (show s.text = [] ++ _ from htext)
  have hnamed : (Reading.strncmp_eq 2 0 ['/', 's']).value (s.memory beyond) = true := by
    rw [named_iff, htext]
    exact ⟨gch :: '_' :: digits, rfl⟩
  have hgch : s.memory beyond 2 = gch := CString.memory_append (show s.text = ['/', 's'] ++ _ from htext)
  have hunderscore : s.memory beyond 3 = '_' := CString.memory_append (show s.text = ['/', 's', gch] ++ _ from htext)
  have hstart : s.memory beyond 4 = digits.headD (Char.ofNat 0) :=
    CString.memory_append (show s.text = ['/', 's', gch, '_'] ++ digits from htext)
  have hempty : s.memory beyond 4 = Char.ofNat 0 ↔ digits = [] := by
    rw [hstart]
    cases digits with
    | nil => exact iff_of_true rfl rfl
    | cons c rest =>
      refine iff_of_false ?_ (List.cons_ne_nil c rest)
      rintro rfl
      exact s.nul_free (by simp [htext])
  rw [parse_stream_path, value_bind, value_deref, if_neg (not_not.mpr hfirst), value_bind, hnamed, if_neg (by decide),
    value_bind, value_deref, hgch, value_bind, value_deref, if_neg (not_not.mpr hunderscore)]
  cases group_of gch with
  | none => rfl
  | some g =>
    simp only [value_bind, value_deref, hempty]
    split
    · rfl
    rw [value_bind]
    split
    · rfl
    · rfl
    · rfl

/-- The path of a stream with zeros before its number. -/
def padded_path (zeros : ℕ) (k : StreamKey) : List Char :=
  '/' :: (group_name k.g).toList ++ '_' :: (List.replicate zeros '0' ++ Nat.toDigits 10 (view_number k.v))

theorem parse_stream_path_ne_none (hsteps : s.text.length ≤ steps) :
    (parse_stream_path steps).value (s.memory beyond) ≠ none := by
  by_cases hshape : ∃ gch digits, s.text = '/' :: 's' :: gch :: '_' :: digits
  · obtain ⟨gch, digits, htext⟩ := hshape
    have hlen : digits.length < steps := by
      simp only [htext, List.length_cons] at hsteps
      omega
    have hparsed : (parse_number steps 4 0).value (s.memory beyond) ≠ none :=
      parse_number_ne_none (show s.text = ['/', 's', gch, '_'] ++ digits from htext) hlen 0
    rw [parse_stream_path_named htext]
    cases group_of gch with
    | none => exact Option.some_ne_none _
    | some g =>
      dsimp only
      split
      · exact Option.some_ne_none _
      split
      · rename_i hnone
        exact absurd hnone hparsed
      · exact Option.some_ne_none _
      · exact Option.some_ne_none _
  · rw [parse_stream_path_other fun gch digits h => hshape ⟨gch, digits, h⟩]
    exact Option.some_ne_none _

/-- The parser takes exactly the paths of the streams, with or without zeros before the number. -/
theorem parse_stream_path_eq_iff (hsteps : s.text.length ≤ steps) (k : StreamKey) :
    (parse_stream_path steps).value (s.memory beyond) = some (some k) ↔ ∃ zeros, s.text = padded_path zeros k := by
  obtain ⟨kch, hname, hkch⟩ := exists_group_char k.g
  obtain ⟨hpos, hle⟩ := view_number_range k.v
  have hpadded (zeros : ℕ) : padded_path zeros k =
      '/' :: 's' :: kch :: '_' :: (List.replicate zeros '0' ++ Nat.toDigits 10 (view_number k.v)) := by
    rw [padded_path, hname]
    rfl
  by_cases hshape : ∃ gch digits, s.text = '/' :: 's' :: gch :: '_' :: digits
  · obtain ⟨gch, digits, htext⟩ := hshape
    have hsame : (∃ zeros, s.text = padded_path zeros k) ↔
        gch = kch ∧ ∃ zeros, digits = List.replicate zeros '0' ++ Nat.toDigits 10 (view_number k.v) := by
      simp only [htext, hpadded, List.cons.injEq, true_and, exists_and_left]
    have hlen : digits.length < steps := by
      simp only [htext, List.length_cons] at hsteps
      omega
    have hparsed : (parse_number steps 4 0).value (s.memory beyond) = some (some (view_number k.v : ℤ)) ↔
        ∃ zeros, digits = List.replicate zeros '0' ++ Nat.toDigits 10 (view_number k.v) :=
      (parse_number_eq_iff (show s.text = ['/', 's', gch, '_'] ++ digits from htext) hlen hle).trans
        (ofDigitChars_eq_iff hpos)
    rw [parse_stream_path_named htext, hsame, ← hkch, ← hparsed]
    cases hgroup : group_of gch with
    | none => simp
    | some g =>
      dsimp only
      split
      · rename_i hnone
        refine iff_of_false (by simp) ?_
        rintro ⟨-, hnumber⟩
        obtain ⟨zeros, hzeros⟩ := hparsed.mp hnumber
        rw [hnone] at hzeros
        exact Nat.toDigits_ne_nil (List.append_eq_nil_iff.mp hzeros.symm).2
      · cases (parse_number steps 4 0).value (s.memory beyond) with
        | none => simp
        | some parsed =>
          cases parsed with
          | none => simp
          | some val =>
            obtain ⟨kg, kv⟩ := k
            simp [view_of_eq_some_iff, and_comm]
  · rw [parse_stream_path_other fun gch digits h => hshape ⟨gch, digits, h⟩]
    constructor
    · rintro ⟨⟩
    · rintro ⟨zeros, htext⟩
      exact absurd ⟨_, _, htext.trans (hpadded zeros)⟩ hshape

end Value

end k180.streambuilder
