import Mathlib

namespace php

/-- The strings of the language, which are bytes. -/
abbrev Str := List UInt8

/-- The string that a literal of letters and digits stands for. -/
def literal (s : String) : Str := s.toList.map fun c => c.toNat.toUInt8

/-- What `trim` removes: blank, tab, line feed, carriage return, NUL and vertical tab. -/
def is_trimmed (c : UInt8) : Bool := c ∈ [0x20, 0x09, 0x0a, 0x0d, 0x00, 0x0b]

def trim (s : Str) : Str := (s.dropWhile is_trimmed).rdropWhile is_trimmed

/-- `empty($s)`, which the string of a zero is. -/
def empty (s : Str) : Bool := s = [] || s = [0x30]

def is_continuation (c : UInt8) : Bool := 0x80 ≤ c && c ≤ 0xbf

/-- Well-formed UTF-8, which the JSON functions ask of a string. -/
def well_formed_utf8 : Str → Bool
  | [] => true
  | a :: rest =>
    if a < 0x80 then well_formed_utf8 rest
    else match rest with
    | [] => false
    | b :: rest =>
      if 0xc2 ≤ a && a ≤ 0xdf then is_continuation b && well_formed_utf8 rest
      else match rest with
      | [] => false
      | c :: rest =>
        if 0xe0 ≤ a && a ≤ 0xef then
          is_continuation b && is_continuation c && (a ≠ 0xe0 || 0xa0 ≤ b) && (a ≠ 0xed || b ≤ 0x9f) &&
            well_formed_utf8 rest
        else match rest with
        | [] => false
        | d :: rest =>
          0xf0 ≤ a && a ≤ 0xf4 && is_continuation b && is_continuation c && is_continuation d &&
            (a ≠ 0xf0 || 0x90 ≤ b) && (a ≠ 0xf4 || b ≤ 0x8f) && well_formed_utf8 rest

/-- A field of a form: a string, an array where its name ends in brackets, or nothing. -/
inductive Posted where
  | missing
  | string (s : Str)
  | array

/-- `trim($_POST[..])`, where null is the empty string and an array is a type error. -/
def Posted.trimmed : Posted → Option Str
  | .missing => some []
  | .string s => some (trim s)
  | .array => none

/-- `empty($_POST[..])`; an array that is posted has an entry. -/
def Posted.empty : Posted → Bool
  | .missing => true
  | .string s => php.empty s
  | .array => false

/-- Whether the field is the string, by `===`. -/
def Posted.is (p : Posted) (s : Str) : Bool :=
  match p with
  | .string t => t = s
  | _ => false

theorem trim_cons_of_trimmed {c : UInt8} {s : Str} (hc : is_trimmed c = true) : trim (c :: s) = trim s := by
  rw [trim, List.dropWhile_cons_of_pos hc, trim]

/-- What `trim` leaves begins with no white space. -/
theorem not_trimmed_of_trim_eq_cons {c : UInt8} {s rest : Str} (htrim : trim s = c :: rest) : is_trimmed c = false := by
  obtain ⟨tail, htail⟩ := List.rdropWhile_prefix is_trimmed (l := s.dropWhile is_trimmed)
  rw [trim] at htrim
  rw [htrim, List.cons_append] at htail
  have hhead := List.head?_dropWhile_not is_trimmed s
  rw [← htail] at hhead
  exact hhead

theorem trim_subset {s : Str} : trim s ⊆ s := fun _ hc =>
  (List.dropWhile_suffix is_trimmed).subset ((List.rdropWhile_prefix is_trimmed _).subset hc)

theorem trim_trim (s : Str) : trim (trim s) = trim s := by
  have hfront : (trim s).dropWhile is_trimmed = trim s := by
    cases htrim : trim s with
    | nil => rfl
    | cons c rest =>
      refine List.dropWhile_cons_of_neg ?_
      rw [not_trimmed_of_trim_eq_cons htrim]
      exact Bool.false_ne_true
  rw [trim, hfront, trim, List.rdropWhile_idempotent]

end php
