import K180.Libc.Stdio
import K180.RestServer.VerifyUser
import K180.Users.Manage

open php libc

namespace k180.user_db

/-- The POST handler of login.php: whether it logs somebody in. -/
def login (password_verify : Str → Str → Bool) (file : UsersFile) (username password : Posted) : Bool :=
  match username.trimmed, password.trimmed, file with
  | some username, some password, .saved content =>
    content.users.any fun u => u.username = username && password_verify password u.password_hash
  | _, _, _ => false

/-- The check of the REST server on the users in the file; all its strings end at a NUL. -/
def verify_user (crypt : Option Str → Option Str → Option Str) (file : UsersFile) (input_user input_pass : Str) : Bool :=
  match file with
  | .saved content =>
    restful_api_server.verify_users (fun u => some (c_bytes u.username))
      (fun u : User => some (c_bytes u.password_hash)) crypt
      (some (c_bytes input_user)) (some (c_bytes input_pass)) content.users = some true
  | _ => false

/-- The user can log in with the password everywhere, and with no other that the hash tells from it. -/
structure LogsInExactly (password_verify : Str → Str → Bool) (crypt : Option Str → Option Str → Option Str)
    (file : UsersFile) (u : User) (password : Str) : Prop where
  page : login password_verify file (.string u.username) (.string password) = true
  rest : verify_user crypt file u.username password = true
  only : ∀ other, other ≠ password →
    login password_verify file (.string u.username) (.string other) = true ∨
      verify_user crypt file u.username other = true →
    password_verify other u.password_hash = true

section Login

variable {password_verify : Str → Str → Bool} {p : Post} {u : User} {password : Str}

/-- The page sees what `trim` leaves of the name and of the password. -/
theorem login_saved_iff {content : Saved} {name : Str} :
    login password_verify (.saved content) (.string name) (.string password) = true ↔
      ∃ v ∈ content.users, v.username = trim name ∧ password_verify (trim password) v.password_hash = true := by
  simp only [login, Posted.trimmed, List.any_eq_true, Bool.and_eq_true, decide_eq_true_eq]

theorem Adds.trim_username {list : List User} (hadds : Adds p list u) : trim u.username = u.username := by
  have hname := hadds.2.2.1.username
  cases hposted : p.username with
  | missing =>
    rw [hposted] at hname
    rw [← Option.some.inj hname]
    rfl
  | string s =>
    rw [hposted] at hname
    rw [← Option.some.inj hname, trim_trim]
  | array =>
    rw [hposted] at hname
    cases hname

/-- A user whose name is new is the only one with the name. -/
theorem eq_of_username {list : List User} {v : User} (hfresh : u.username ∉ list.map User.username)
    (hv : v ∈ kept p (list ++ [u])) (hname : v.username = u.username) : v = u := by
  obtain hold | hnew := List.mem_append.mp (kept_sublist.subset hv)
  · exact absurd (List.mem_map.mpr ⟨v, hold, hname⟩) hfresh
  · exact List.mem_singleton.mp hnew

/-- The created user logs in at the page exactly with a password that the hash takes when it is trimmed. -/
theorem login_created_iff {content : Saved} (hadds : Adds p content.users u)
    {file : UsersFile} (hfile : file = write_users (kept p (content.users ++ [u])))
    (hlogin : ∃ q, login password_verify file (.string u.username) (.string q) = true) :
    login password_verify file (.string u.username) (.string password) = true ↔
      password_verify (trim password) u.password_hash = true := by
  obtain ⟨q, hq⟩ := hlogin
  cases file with
  | absent => cases hq
  | blank => cases hq
  | saved content' =>
    have husers := write_users_eq_saved_iff.mp hfile.symm
    have honly : ∀ v ∈ content'.users, v.username = u.username → v = u := by
      rw [husers]
      exact fun v hv => eq_of_username hadds.2.2.1.fresh hv
    rw [login_saved_iff, hadds.trim_username] at hq ⊢
    constructor
    · rintro ⟨v, hv, hname, hverify⟩
      rwa [honly v hv hname] at hverify
    · intro hverify
      obtain ⟨v, hv, hname, -⟩ := hq
      obtain rfl := honly v hv hname
      exact ⟨v, hv, rfl, hverify⟩

/-- A password that the hash takes when it is trimmed begins with no white space. -/
theorem not_trimmed_of_verified {password : Str} (hne : password ≠ [])
    (hsame : (trim password).take 72 = password.take 72) :
    ∃ c rest, password = c :: rest ∧ is_trimmed c = false := by
  obtain ⟨c, rest, rfl⟩ := List.exists_cons_of_ne_nil hne
  refine ⟨c, rest, rfl, ?_⟩
  cases htrim : trim (c :: rest) with
  | nil =>
    rw [htrim] at hsame
    cases hsame
  | cons d tail =>
    rw [htrim] at hsame
    obtain rfl : d = c := (List.cons.inj hsame).1
    exact not_trimmed_of_trim_eq_cons htrim

end Login

/-- No account that is created has exactly its password: login.php trims what is submitted, so that a password with
white space around it is not taken, and each password is taken with a blank before it. -/
theorem created_account_never_exact {password_verify : Str → Str → Bool}
    {crypt : Option Str → Option Str → Option Str} {content : Saved} {p : Post} {u : User} {password : Str}
    (hadds : Adds p content.users u) (hposted : p.password = .string password) (hnul : 0 ∉ password)
    (hverify : ∀ other, 0 ∉ other →
      (password_verify other u.password_hash = true ↔ other.take 72 = password.take 72)) :
    ¬ LogsInExactly password_verify crypt (serve (.saved content) p) u password := by
  rintro ⟨hpage, -, honly⟩
  have hcreated : ∀ q, login password_verify (serve (.saved content) p) (.string u.username) (.string q) = true ↔
      password_verify (trim q) u.password_hash = true := fun q =>
    login_created_iff hadds (serve_of_adds hadds) ⟨password, hpage⟩
  have hgiven : password ≠ [] := by
    rintro rfl
    have hempty := hadds.2.2.1.password_given
    rw [hposted] at hempty
    cases hempty
  have htrimmed := (hcreated password).mp hpage
  have hsame := (hverify _ fun hmem => hnul (trim_subset hmem)).mp htrimmed
  obtain ⟨c, rest, rfl, hc⟩ := not_trimmed_of_verified hgiven hsame
  -- the same password behind a blank
  have hblank : password_verify (0x20 :: c :: rest) u.password_hash = true := by
    refine honly _ (fun heq => ?_) (.inl ((hcreated _).mpr ?_))
    · have hlen := congrArg List.length heq
      simp at hlen
    · rw [trim_cons_of_trimmed rfl]
      exact htrimmed
  have htake := (hverify _ fun hmem => hnul ((List.mem_cons.mp hmem).resolve_left (by decide))).mp hblank
  rw [← (List.cons.inj htake).1] at hc
  cases hc

/-- At the REST server the created user logs in with what the hash takes, untrimmed, where no name has a NUL. -/
theorem verify_user_created_iff {crypt : Option Str → Option Str → Option Str} {content : Saved} {p : Post} {u : User}
    {password : Str} (hadds : Adds p content.users u) (hstays : p.delete = true → p.deletes u = false)
    (hgood : Good (serve (.saved content) p)) (hnul : ∀ v ∈ content.users ++ [u], 0 ∉ v.username) :
    verify_user crypt (serve (.saved content) p) u.username password = true ↔
      crypt (some (c_bytes password)) (some (c_bytes u.password_hash)) = some (c_bytes u.password_hash) := by
  obtain ⟨content', hsaved, -⟩ := hgood
  have husers : content'.users = kept p (content.users ++ [u]) := by
    rw [serve_of_adds hadds] at hsaved
    exact write_users_eq_saved_iff.mp hsaved
  have hwhole : ∀ v ∈ content'.users, c_bytes v.username = v.username := by
    intro v hv
    rw [husers] at hv
    refine List.takeWhile_eq_self_iff.mpr fun c hc => decide_eq_true fun hzero => ?_
    exact hnul v (kept_sublist.subset hv) (hzero ▸ hc)
  have hmem : u ∈ content'.users := by
    rw [husers]
    exact mem_kept_iff.mpr ⟨by simp, hstays⟩
  have honly : ∀ v ∈ content'.users, c_bytes v.username = c_bytes u.username → v = u := by
    intro v hv hsame
    rw [hwhole v hv, hwhole u hmem] at hsame
    rw [husers] at hv
    exact eq_of_username hadds.2.2.1.fresh hv hsame
  rw [hsaved, verify_user, decide_eq_true_eq, restful_api_server.verify_users_eq_some_true_iff]
  constructor
  · rintro ⟨before, v, after, hsplit, -, input, hash, hinput, hname, hhash, hcrypt⟩
    have hv : v ∈ content'.users := by simp [hsplit]
    obtain rfl := honly v hv (Option.some.inj (hname.trans hinput.symm))
    rw [← Option.some.inj hhash] at hcrypt
    exact hcrypt
  · intro hcrypt
    obtain ⟨before, after, hsplit, hnot⟩ := List.eq_append_cons_of_mem hmem
    refine ⟨before, u, after, hsplit, fun v hv => ⟨fun hsame => hnot ?_, Option.some_ne_none _⟩, _, _, rfl, rfl, rfl,
      hcrypt⟩
    have hv' : v ∈ content'.users := by simp [hsplit, hv]
    exact honly v hv' (Option.some.inj hsame) ▸ hv

/-- A hash that was made of a password, for `password_verify` and for `crypt`. -/
def sample_verify (password other hash : Str) : Bool := hash = sample_hash && other.take 72 = password.take 72

def sample_crypt (password : Str) : Option Str → Option Str → Option Str
  | some other, some hash => if sample_verify password other hash then some hash else some (literal "*0")
  | _, _ => some (literal "*0")

theorem sample_verify_iff {password other : Str} :
    sample_verify password other sample_hash = true ↔ other.take 72 = password.take 72 := by
  rw [sample_verify, decide_eq_true rfl, Bool.true_and, decide_eq_true_eq]

theorem adds_bob {p : Post} (hcsrf : p.csrf_ok = true) (hcreate : p.create = true)
    (hname : p.username = .string (literal "bob")) (hpassword : p.password.empty = false)
    (hhash : p.hashed = some sample_hash) : Adds p one_admin.users bob := by
  refine ⟨hcsrf, hcreate, ⟨?_, by decide, hpassword, by decide⟩, hhash, rfl⟩
  rw [hname]
  rfl

/-- A create of bob with a password. -/
def bob_post (password : Str) : Post := { create_post (literal "bob") with password := .string password }

theorem created_account_never_exact_bob :
    Adds (bob_post (literal "secret")) one_admin.users bob ∧
      ¬ LogsInExactly (sample_verify (literal "secret")) (sample_crypt (literal "secret"))
        (serve (.saved one_admin) (bob_post (literal "secret"))) bob (literal "secret") := by
  have hadds : Adds (bob_post (literal "secret")) one_admin.users bob := adds_bob rfl rfl rfl (by decide) rfl
  exact ⟨hadds, created_account_never_exact hadds rfl (by decide) fun _ _ => sample_verify_iff⟩

/-- With a password that begins with a blank, bob cannot log in at the page. -/
theorem padded_password_refused : ¬ ∀ (content : Saved) (p : Post) (u : User) (password : Str),
    Adds p content.users u → p.password = .string password → 0 ∉ password →
      (p.delete = true → p.deletes u = false) →
        LogsInExactly (sample_verify (literal " secret")) (sample_crypt (literal " secret"))
          (serve (.saved content) p) u password := by
  intro hclaim
  have hadds : Adds (bob_post (literal " secret")) one_admin.users bob := adds_bob rfl rfl rfl (by decide) rfl
  have hlogs := hclaim one_admin (bob_post (literal " secret")) bob (literal " secret") hadds rfl (by decide) nofun
  have hrefused : login (sample_verify (literal " secret")) (serve (.saved one_admin) (bob_post (literal " secret")))
      (.string bob.username) (.string (literal " secret")) = false := by decide +kernel
  rw [hlogs.page] at hrefused
  cases hrefused

end k180.user_db
