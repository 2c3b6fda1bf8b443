import Mathlib

namespace k180.restful_api_server

/-- A pass over a list comes to an element that stops it, behind elements that it passes. -/
def StopsAt {α : Type*} (Passed Stops : α → Prop) (list : List α) : Prop :=
  ∃ before a after, list = before ++ a :: after ∧ (∀ b ∈ before, Passed b) ∧ Stops a

section Passes

variable {α : Type*} {Passed Stops : α → Prop}

theorem not_stopsAt_nil : ¬ StopsAt Passed Stops [] := by
  rintro ⟨before, a, after, hsplit, -⟩
  exact absurd hsplit.symm (List.append_ne_nil_of_right_ne_nil before (List.cons_ne_nil a after))

/-- It stops at the first element, or passes it and stops behind it. -/
theorem stopsAt_cons {first : α} {rest : List α} :
    StopsAt Passed Stops (first :: rest) ↔ Stops first ∨ Passed first ∧ StopsAt Passed Stops rest := by
  constructor
  · rintro ⟨before, a, after, hsplit, hbefore, hstops⟩
    cases before with
    | nil =>
      obtain ⟨rfl, rfl⟩ := List.cons.inj hsplit
      exact .inl hstops
    | cons b before =>
      obtain ⟨rfl, rfl⟩ := List.cons.inj hsplit
      obtain ⟨hb, hbefore⟩ := List.forall_mem_cons.mp hbefore
      exact .inr ⟨hb, before, a, after, rfl, hbefore, hstops⟩
  · rintro (hstops | ⟨hfirst, before, a, after, rfl, hbefore, hstops⟩)
    · exact ⟨[], first, rest, rfl, fun b hb => absurd hb List.not_mem_nil, hstops⟩
    · exact ⟨first :: before, a, after, rfl, List.forall_mem_cons.mpr ⟨hfirst, hbefore⟩, hstops⟩

/-- What passes by a weaker condition does so by the stronger one where nothing else comes in between. -/
theorem StopsAt.strengthen {Weak Bad : α → Prop} {list : List α} (hstops : StopsAt Weak Stops list)
    (hnot : ¬ StopsAt Passed Bad list) (hweak : ∀ a, Weak a → Passed a ∨ Bad a) : StopsAt Passed Stops list := by
  induction list with
  | nil => exact absurd hstops not_stopsAt_nil
  | cons first rest ih =>
    rw [stopsAt_cons, not_or] at hnot
    rw [stopsAt_cons] at hstops ⊢
    obtain hfirst | ⟨hfirst, hrest⟩ := hstops
    · exact .inl hfirst
    · have hpassed := (hweak first hfirst).resolve_right hnot.1
      exact .inr ⟨hpassed, ih hrest fun h => hnot.2 ⟨hpassed, h⟩⟩

end Passes

section Loop

variable {α S : Type*} [DecidableEq S] (username password_hash : α → Option S) (crypt : Option S → Option S → Option S)

/-- The loop of `verify_user` over the users: the first one with the name decides. `none` stands for a NULL pointer
among the strings, and as the result for a call of `strcmp` on one. -/
def verify_users (input_user input_pass : Option S) : List α → Option Bool
  | [] => some false
  | user :: rest =>
    match username user, input_user with
    | some name, some input =>
      if name = input then
        match crypt input_pass (password_hash user), password_hash user with
        | some result, some hash => some (result = hash)
        | _, _ => none
      else verify_users input_user input_pass rest
    | _, _ => none

/-- `strcmp` is called on NULL for the user, at the name or, where that is the one, at the hash. -/
def FailsAt (input_user input_pass : Option S) (user : α) : Prop :=
  username user = none ∨ input_user = none ∨
    (username user = input_user ∧ (crypt input_pass (password_hash user) = none ∨ password_hash user = none))

end Loop

variable {α S : Type*} [DecidableEq S] {username password_hash : α → Option S} {crypt : Option S → Option S → Option S}
  {input_user input_pass : Option S}

/-- A user with another name is passed by. -/
theorem verify_users_cons_of_ne {user : α} {rest : List α} {name input : S} (hname : username user = some name)
    (hinput : input_user = some input) (hne : name ≠ input) :
    verify_users username password_hash crypt input_user input_pass (user :: rest) =
      verify_users username password_hash crypt input_user input_pass rest := by
  simp only [verify_users, hname, hinput, if_neg hne]

/-- A user with the name decides. -/
theorem verify_users_cons_of_eq {user : α} {rest : List α} {input : S} (hname : username user = some input)
    (hinput : input_user = some input) :
    verify_users username password_hash crypt input_user input_pass (user :: rest) =
      match crypt input_pass (password_hash user), password_hash user with
      | some result, some hash => some (decide (result = hash))
      | _, _ => none := by
  simp only [verify_users, hname, hinput, if_true]

/-- A user with the name is one that `strcmp` fails at exactly when there is no hash to compare or to be compared. -/
theorem verify_users_cons_eq_none_iff {user : α} {rest : List α} {input : S} (hname : username user = some input)
    (hinput : input_user = some input) :
    verify_users username password_hash crypt input_user input_pass (user :: rest) = none ↔
      FailsAt username password_hash crypt input_user input_pass user := by
  rw [verify_users_cons_of_eq hname hinput, FailsAt, hname, hinput]
  cases hhash : password_hash user with
  | none => cases crypt input_pass none <;> simp
  | some hash => cases crypt input_pass (some hash) <;> simp

/-- The loop calls `strcmp` on NULL exactly when it does so at a user behind users with other names. -/
theorem verify_users_eq_none_iff {users : List α} :
    verify_users username password_hash crypt input_user input_pass users = none ↔
      ∃ before user after, users = before ++ user :: after ∧
        (∀ other ∈ before, username other ≠ input_user ∧ username other ≠ none) ∧
        FailsAt username password_hash crypt input_user input_pass user := by
  change _ ↔ StopsAt (fun other => username other ≠ input_user ∧ username other ≠ none)
    (FailsAt username password_hash crypt input_user input_pass) users
  induction users with
  | nil => exact iff_of_false (by simp [verify_users]) not_stopsAt_nil
  | cons first rest ih =>
    rw [stopsAt_cons, ← ih]
    cases hname : username first with
    | none =>
      refine iff_of_true ?_ (.inl (.inl hname))
      simp only [verify_users, hname]
    | some name =>
      cases hinput : input_user with
      | none =>
        refine iff_of_true ?_ (.inl (.inr (.inl rfl)))
        simp only [verify_users, hname]
      | some input =>
        subst hinput
        by_cases heq : name = input
        · subst heq
          rw [verify_users_cons_eq_none_iff hname rfl]
          exact ⟨.inl, fun h => h.resolve_right fun h => h.1.1 rfl⟩
        · have hpassed : ¬ FailsAt username password_hash crypt (some input) input_pass first := by
            rintro (hnone | hnone | ⟨hsame, -⟩)
            · rw [hname] at hnone
              cases hnone
            · cases hnone
            · rw [hname] at hsame
              exact heq (Option.some.inj hsame)
          rw [verify_users_cons_of_ne hname rfl heq, or_iff_right hpassed]
          exact (and_iff_right ⟨fun h => heq (Option.some.inj h), Option.some_ne_none name⟩).symm

/-- A user that the loop accepts: it has the name, and a hash that `crypt` gives back. -/
def AcceptsAt (username password_hash : α → Option S) (crypt : Option S → Option S → Option S)
    (input_user input_pass : Option S) (user : α) : Prop :=
  ∃ input hash, input_user = some input ∧ username user = some input ∧ password_hash user = some hash ∧
    crypt input_pass (some hash) = some hash

/-- The loop accepts exactly at the first user with the name. -/
theorem verify_users_eq_some_true_iff {users : List α} :
    verify_users username password_hash crypt input_user input_pass users = some true ↔
      StopsAt (fun other => username other ≠ input_user ∧ username other ≠ none)
        (AcceptsAt username password_hash crypt input_user input_pass) users := by
  induction users with
  | nil => exact iff_of_false (by simp [verify_users]) not_stopsAt_nil
  | cons first rest ih =>
    rw [stopsAt_cons, ← ih]
    cases hname : username first with
    | none =>
      have hnone : verify_users username password_hash crypt input_user input_pass (first :: rest) = none := by
        simp only [verify_users, hname]
      simp [AcceptsAt, hname, hnone]
    | some name =>
      cases hinput : input_user with
      | none =>
        have hnone : verify_users username password_hash crypt none input_pass (first :: rest) = none := by
          simp only [verify_users, hname]
        have hrest : verify_users username password_hash crypt none input_pass rest ≠ some true := by
          cases rest with
          | nil => simp [verify_users]
          | cons second rest => cases hsecond : username second <;> simp [verify_users, hsecond]
        simp [AcceptsAt, hname, hnone, hrest]
      | some input =>
        subst hinput
        by_cases heq : name = input
        · subst heq
          rw [verify_users_cons_of_eq hname rfl]
          cases hhash : password_hash first with
          | none => simp [AcceptsAt, hhash]
          | some hash => cases hcrypt : crypt input_pass (some hash) <;> simp [AcceptsAt, hhash, hcrypt, hname]
        · rw [verify_users_cons_of_ne hname rfl heq]
          simp [AcceptsAt, hname, heq]

end k180.restful_api_server
