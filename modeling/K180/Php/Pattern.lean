import Mathlib

open RegularExpression

namespace php

/-- A character of a class. -/
def one_of (cs : List Char) : RegularExpression Char := (cs.map char).sum

/-- `\d` -/
def pattern_digit : RegularExpression Char := one_of ['0', '1', '2', '3', '4', '5', '6', '7', '8', '9']

/-- A text under the modifier `i`. -/
def caseless (s : List Char) : RegularExpression Char := (s.map fun c => one_of [c.toLower, c.toUpper]).prod

/-- `P+` -/
def one_or_more (P : RegularExpression Char) : RegularExpression Char := P * P.star

/-- `preg_match` with a pattern between `^` and `$`, which also stands before a newline at the end. -/
def preg_match (P : RegularExpression Char) (s : List Char) : Bool := (P * (1 + char '\n')).rmatch s

theorem mem_one_of_iff {cs w : List Char} : w ∈ (one_of cs).matches' ↔ ∃ c ∈ cs, w = [c] := by
  induction cs with
  | nil => simp [one_of]
  | cons c rest ih =>
    rw [one_of, List.map_cons, List.sum_cons, matches'_add, Language.mem_add, matches'_char, ← one_of, ih,
      List.exists_mem_cons_iff]
    rfl

/-- So many characters of a class. -/
theorem mem_one_of_pow_iff {cs w : List Char} {n : ℕ} :
    w ∈ (one_of cs ^ n).matches' ↔ w.length = n ∧ ∀ c ∈ w, c ∈ cs := by
  rw [matches'_pow]
  induction n generalizing w with
  | zero =>
    rw [pow_zero, Language.mem_one, List.length_eq_zero_iff]
    constructor
    · rintro rfl
      exact ⟨rfl, fun c hc => absurd hc List.not_mem_nil⟩
    · exact fun h => h.1
  | succ n ih =>
    rw [pow_succ', Language.mem_mul]
    constructor
    · rintro ⟨front, hfront, back, hback, rfl⟩
      obtain ⟨c, hc, rfl⟩ := mem_one_of_iff.mp hfront
      obtain ⟨hlen, hall⟩ := ih.mp hback
      rw [List.singleton_append, List.length_cons, List.forall_mem_cons, hlen]
      exact ⟨rfl, hc, hall⟩
    · rintro ⟨hlen, hall⟩
      obtain ⟨c, rest, rfl⟩ := List.exists_cons_of_length_eq_add_one hlen
      obtain ⟨hc, hrest⟩ := List.forall_mem_cons.mp hall
      exact ⟨[c], mem_one_of_iff.mpr ⟨c, hc, rfl⟩, rest, ih.mpr ⟨Nat.succ.inj hlen, hrest⟩, rfl⟩

theorem mem_one_of_star {cs w : List Char} (hall : ∀ c ∈ w, c ∈ cs) : w ∈ (one_of cs).star.matches' := by
  rw [matches'_star, Language.mem_kstar]
  refine ⟨w.map fun c => [c], ?_, fun front hfront => ?_⟩
  · induction w with
    | nil => rfl
    | cons c rest ih =>
      rw [List.map_cons, List.flatten_cons, ← ih (List.forall_mem_cons.mp hall).2, List.singleton_append]
  · obtain ⟨c, hc, rfl⟩ := List.mem_map.mp hfront
    exact mem_one_of_iff.mpr ⟨c, hall c hc, rfl⟩

/-- At least one character of a class. -/
theorem mem_one_or_more {cs w : List Char} (hne : w ≠ []) (hall : ∀ c ∈ w, c ∈ cs) :
    w ∈ (one_or_more (one_of cs)).matches' := by
  obtain ⟨c, rest, rfl⟩ := List.exists_cons_of_ne_nil hne
  obtain ⟨hc, hrest⟩ := List.forall_mem_cons.mp hall
  rw [one_or_more, matches'_mul, Language.mem_mul]
  exact ⟨[c], mem_one_of_iff.mpr ⟨c, hc, rfl⟩, rest, mem_one_of_star hrest, rfl⟩

/-- A text matches itself whatever the case of its letters in the pattern. -/
theorem mem_caseless {s w : List Char} (hsame : List.Forall₂ (fun c d => d = c.toLower ∨ d = c.toUpper) s w) :
    w ∈ (caseless s).matches' := by
  induction hsame with
  | nil => exact Set.mem_singleton _
  | cons hc _ ih =>
    rw [caseless, List.map_cons, List.prod_cons, matches'_mul, Language.mem_mul]
    exact ⟨[_], mem_one_of_iff.mpr ⟨_, by simpa using hc, rfl⟩, _, ih, rfl⟩

theorem isDigit_mem {c : Char} (hc : c.isDigit = true) : c ∈ ['0', '1', '2', '3', '4', '5', '6', '7', '8', '9'] := by
  rw [Char.isDigit, Bool.and_eq_true, decide_eq_true_eq, decide_eq_true_eq, ge_iff_le, UInt32.le_iff_toNat_le,
    UInt32.le_iff_toNat_le] at hc
  have hlo : 48 ≤ c.toNat := hc.1
  have hhi : c.toNat ≤ 57 := hc.2
  rw [← Char.ofNat_toNat c]
  interval_cases c.toNat <;> decide

theorem preg_match_of_mem {P : RegularExpression Char} {s : List Char} (hs : s ∈ P.matches') : preg_match P s = true := by
  rw [preg_match, rmatch_iff_matches', matches'_mul, Language.mem_mul]
  refine ⟨s, hs, [], ?_, List.append_nil s⟩
  rw [matches'_add, Language.mem_add, matches'_epsilon]
  exact .inl rfl

end php
