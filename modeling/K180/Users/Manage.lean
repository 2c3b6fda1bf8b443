import K180.Users.File
import K180.Schedule.Monitor

open php schedule

namespace k180.user_db

/-- A POST to user_manage.php by a logged-in admin: whether its CSRF token is accepted, what is posted, and what
`password_hash` gives in the request, if it takes the password. -/
structure Post where
  csrf_ok : Bool
  create : Bool
  delete : Bool
  username : Posted
  password : Posted
  delete_user : Posted
  password_hash : Str → Option Str
  hash_encodable : ∀ s hash, password_hash s = some hash → well_formed_utf8 hash = true

/-- What a type error or an error of `password_hash` ends, and what goes on with the users as they are. -/
inductive Page where
  | aborted
  | going (users : Option (List User))

/-- `password_hash($newPass, PASSWORD_DEFAULT)`, which takes no array. -/
def Post.hashed (p : Post) : Option Str :=
  match p.password with
  | .string newPass => p.password_hash newPass
  | _ => none

/-- The branch of `create`, with the users it writes. -/
def create (p : Post) (users : Option (List User)) : Page × List (List User) :=
  match p.username.trimmed with
  | none => (.aborted, [])
  | some newUser =>
    if empty newUser || p.password.empty then (.going users, [])
    else match users with
    | none => (.aborted, [])
    | some list =>
      if list.any (·.username = newUser) then (.going list, [])
      else match p.hashed with
      | none => (.aborted, [])
      | some hash => (.going (some (list ++ [⟨newUser, hash, user⟩])), [list ++ [⟨newUser, hash, user⟩]])

/-- Whether the branch of `delete` drops the user. -/
def Post.deletes (p : Post) (u : User) : Bool := p.delete_user.is u.username

/-- The branch of `delete`, with the users it writes. -/
def delete (p : Post) (users : Option (List User)) : List (List User) :=
  match users with
  | none => []
  | some list => [list.filter fun u => !p.deletes u]

/-- The handler of POST: what it hands to `json_encode`, one after the other, given the users it has read. -/
def handle (p : Post) (users : Option (List User)) : List (List User) :=
  if !p.csrf_ok then []
  else
    let created := if p.create then create p users else (.going users, [])
    match created.1 with
    | .aborted => created.2
    | .going users => created.2 ++ if p.delete then delete p users else []

/-- A request that nothing else runs beside. -/
def serve (file : UsersFile) (p : Post) : UsersFile :=
  (handle p (read_users file)).foldl (fun _ users => write_users users) file

/-- The create passes the checks: there are a name and a password, and nobody has the name. -/
structure Asks (p : Post) (list : List User) (newUser : Str) : Prop where
  username : p.username.trimmed = some newUser
  username_given : empty newUser = false
  password_given : p.password.empty = false
  fresh : newUser ∉ list.map User.username

/-- An array for a name, or a password that cannot be hashed. -/
def CreateFails (p : Post) (list : List User) : Prop :=
  p.username.trimmed = none ∨ (∃ newUser, Asks p list newUser) ∧ p.hashed = none

/-- The user that the create adds. -/
def Creates (p : Post) (list : List User) (u : User) : Prop :=
  Asks p list u.username ∧ p.hashed = some u.password_hash ∧ u.role = user

section Create

variable {p : Post} {list : List User} {u : User} {newUser : Str}

theorem any_username_eq_false (hfresh : newUser ∉ list.map User.username) :
    list.any (·.username = newUser) = false := by
  rw [List.any_eq_false]
  intro u hu heq
  exact hfresh (List.mem_map.mpr ⟨u, hu, of_decide_eq_true heq⟩)

theorem create_of_creates (hcreates : Creates p list u) :
    create p (some list) = (.going (some (list ++ [u])), [list ++ [u]]) := by
  obtain ⟨⟨husername, hname, hpassword, hfresh⟩, hhash, hrole⟩ := hcreates
  obtain ⟨username, password_hash, role⟩ := u
  simp only at husername hname hfresh hhash hrole
  subst hrole
  simp only [create, husername, hname, hpassword, Bool.or_false, Bool.false_eq_true, if_false,
    any_username_eq_false hfresh, hhash]

theorem create_of_fails (hfails : CreateFails p list) : create p (some list) = (.aborted, []) := by
  obtain hnone | ⟨⟨newUser, husername, hname, hpassword, hfresh⟩, hhash⟩ := hfails
  · simp only [create, hnone]
  · simp only [create, husername, hname, hpassword, Bool.or_false, Bool.false_eq_true, if_false,
      any_username_eq_false hfresh, hhash]

/-- A create that is refused leaves the users as they are. -/
theorem create_of_refused (hfails : ¬ CreateFails p list) (hcreates : ∀ u, ¬ Creates p list u) :
    create p (some list) = (.going (some list), []) := by
  have hasks : ∀ newUser, ¬ Asks p list newUser := by
    intro newUser hasks
    cases hhash : p.hashed with
    | none => exact hfails (.inr ⟨⟨newUser, hasks⟩, hhash⟩)
    | some hash => exact hcreates ⟨newUser, hash, user⟩ ⟨hasks, hhash, rfl⟩
  cases husername : p.username.trimmed with
  | none => exact absurd (.inl husername) hfails
  | some newUser =>
    simp only [create, husername]
    by_cases hempty : empty newUser || p.password.empty
    · rw [if_pos hempty]
    · rw [if_neg hempty]
      rw [Bool.not_eq_true, Bool.or_eq_false_iff] at hempty
      by_cases hfresh : newUser ∈ list.map User.username
      · obtain ⟨u, hu, rfl⟩ := List.mem_map.mp hfresh
        rw [if_pos (List.any_eq_true.mpr ⟨u, hu, decide_eq_true rfl⟩)]
      · exact absurd ⟨husername, hempty.1, hempty.2, hfresh⟩ (hasks newUser)

/-- A user that can be created is created. -/
theorem Creates.not_fails (hcreates : Creates p list u) : ¬ CreateFails p list := by
  obtain ⟨hasks, hhash, -⟩ := hcreates
  rintro (hnone | ⟨-, hnone⟩)
  · rw [hasks.username] at hnone
    cases hnone
  · rw [hhash] at hnone
    cases hnone

end Create

/-- A request that passes the CSRF check and adds a user. -/
def Adds (p : Post) (list : List User) (u : User) : Prop := p.csrf_ok = true ∧ p.create = true ∧ Creates p list u

/-- A request that comes to its delete. -/
def Drops (p : Post) (list : List User) : Prop :=
  p.csrf_ok = true ∧ p.delete = true ∧ ¬ (p.create = true ∧ CreateFails p list)

/-- The users without those that the request deletes, if it does. -/
def kept (p : Post) (list : List User) : List User :=
  if p.delete then list.filter fun u => !p.deletes u else list

section Handle

variable {p : Post} {list : List User} {u : User}

theorem handle_of_adds (hadds : Adds p list u) :
    handle p (some list) = (list ++ [u]) :: if p.delete then [kept p (list ++ [u])] else [] := by
  obtain ⟨hcsrf, hcreate, hcreates⟩ := hadds
  simp only [handle, hcsrf, hcreate, if_true, create_of_creates hcreates, Bool.not_true, Bool.false_eq_true, if_false]
  cases hdelete : p.delete with
  | false => rfl
  | true => simp only [kept, hdelete, if_true, delete, List.singleton_append]

theorem handle_of_drops (hadds : ∀ u, ¬ Adds p list u) (hdrops : Drops p list) :
    handle p (some list) = [kept p list] := by
  obtain ⟨hcsrf, hdelete, hgoes⟩ := hdrops
  simp only [handle, hcsrf, Bool.not_true, Bool.false_eq_true, if_false, hdelete, if_true, kept]
  cases hcreate : p.create with
  | false => simp only [Bool.false_eq_true, if_false, delete, List.nil_append]
  | true =>
    have hrefused := create_of_refused (fun hfails => hgoes ⟨hcreate, hfails⟩)
      fun u hcreates => hadds u ⟨hcsrf, hcreate, hcreates⟩
    simp only [if_true, hrefused, delete, List.nil_append]

theorem handle_of_neither (hadds : ∀ u, ¬ Adds p list u) (hdrops : ¬ Drops p list) : handle p (some list) = [] := by
  cases hcsrf : p.csrf_ok with
  | false => simp only [handle, hcsrf, Bool.not_false, if_true]
  | true =>
    simp only [handle, hcsrf, Bool.not_true, Bool.false_eq_true, if_false]
    cases hcreate : p.create with
    | false =>
      have hdelete : p.delete = false := by
        by_contra hdelete
        exact hdrops ⟨hcsrf, Bool.not_eq_false _ ▸ hdelete,
          fun h => absurd h.1 (by rw [hcreate]; exact Bool.false_ne_true)⟩
      simp only [hdelete, Bool.false_eq_true, if_false, List.append_nil]
    | true =>
      simp only [if_true]
      by_cases hfails : CreateFails p list
      · simp only [create_of_fails hfails]
      · rw [create_of_refused hfails fun u hcreates => hadds u ⟨hcsrf, hcreate, hcreates⟩]
        have hdelete : p.delete = false := by
          by_contra hdelete
          exact hdrops ⟨hcsrf, Bool.not_eq_false _ ▸ hdelete, fun h => hfails h.2⟩
        simp only [hdelete, Bool.false_eq_true, if_false, List.append_nil]

end Handle

/-- What a request makes of the users in the file. -/
theorem serve_cases (content : Saved) (p : Post) :
    (∃ u, Adds p content.users u ∧ serve (.saved content) p = write_users (kept p (content.users ++ [u]))) ∨
    ((∀ u, ¬ Adds p content.users u) ∧ Drops p content.users ∧
      serve (.saved content) p = write_users (kept p content.users)) ∨
    ((∀ u, ¬ Adds p content.users u) ∧ ¬ Drops p content.users ∧ serve (.saved content) p = .saved content) := by
  simp only [serve, read_users_saved]
  by_cases hadds : ∃ u, Adds p content.users u
  · obtain ⟨u, hu⟩ := hadds
    refine .inl ⟨u, hu, ?_⟩
    rw [handle_of_adds hu]
    cases hdelete : p.delete with
    | false => simp only [Bool.false_eq_true, if_false, List.foldl_cons, List.foldl_nil, kept, hdelete]
    | true => simp only [if_true, List.foldl_cons, List.foldl_nil]
  · rw [not_exists] at hadds
    by_cases hdrops : Drops p content.users
    · exact .inr (.inl ⟨hadds, hdrops, by rw [handle_of_drops hadds hdrops, List.foldl_cons, List.foldl_nil]⟩)
    · exact .inr (.inr ⟨hadds, hdrops, by rw [handle_of_neither hadds hdrops, List.foldl_nil]⟩)

/-- A request adds one user. -/
theorem Adds.unique {p : Post} {list : List User} {u v : User} (hu : Adds p list u) (hv : Adds p list v) : v = u := by
  obtain ⟨⟨hname, -, -, -⟩, hhash, hrole⟩ := hu.2.2
  obtain ⟨⟨hname', -, -, -⟩, hhash', hrole'⟩ := hv.2.2
  obtain ⟨username, password_hash, role⟩ := u
  obtain ⟨username', password_hash', role'⟩ := v
  rw [User.mk.injEq]
  exact ⟨Option.some.inj (hname'.symm.trans hname), Option.some.inj (hhash'.symm.trans hhash), hrole'.trans hrole.symm⟩

theorem serve_of_adds {content : Saved} {p : Post} {u : User} (hadds : Adds p content.users u) :
    serve (.saved content) p = write_users (kept p (content.users ++ [u])) := by
  obtain ⟨v, hv, hserve⟩ | ⟨hnone, -, -⟩ | ⟨hnone, -, -⟩ := serve_cases content p
  · rw [hserve, hadds.unique hv]
  · exact absurd hadds (hnone u)
  · exact absurd hadds (hnone u)

/-- Nobody has the name of another, and somebody manages the users. -/
structure Healthy (list : List User) : Prop where
  distinct : (list.map User.username).Nodup
  managed : ∃ u ∈ list, u.role = admin

def Good (file : UsersFile) : Prop := ∃ content, file = .saved content ∧ Healthy content.users

/-- The name of a user that is added can be encoded, or the request deletes it again, and an admin is left of what the
request deletes. -/
def Safe (file : UsersFile) (p : Post) : Prop :=
  ∀ content, file = .saved content →
    (∀ u, Adds p content.users u → well_formed_utf8 u.username = true ∨ (p.delete = true ∧ p.deletes u = true)) ∧
    (Drops p content.users → ∃ u ∈ content.users, u.role = admin ∧ p.deletes u = false)

/-- Where the request adds a user, that is all it does to the others, its own delete aside. -/
def AddsOne (file : UsersFile) (p : Post) : Prop :=
  ∀ content u, file = .saved content → Adds p content.users u →
    u.role = user ∧ u.username ∉ content.users.map User.username ∧
      ∃ content', serve file p = .saved content' ∧ content'.users = kept p (content.users ++ [u])

section Safe

variable {p : Post} {list : List User} {u : User}

theorem good_write_users_iff : Good (write_users list) ↔ list.all User.encodable = true ∧ Healthy list := by
  constructor
  · rintro ⟨content, hwrite, hhealthy⟩
    obtain rfl := write_users_eq_saved_iff.mp hwrite
    exact ⟨content.encodable, hhealthy⟩
  · rintro ⟨hencodable, hhealthy⟩
    exact ⟨⟨list, hencodable⟩, write_users_of_encodable hencodable, hhealthy⟩

theorem mem_kept_iff : u ∈ kept p list ↔ u ∈ list ∧ (p.delete = true → p.deletes u = false) := by
  rw [kept]
  split_ifs with hdelete
  · simp [List.mem_filter, hdelete]
  · simp [hdelete]

theorem kept_sublist : (kept p list).Sublist list := by
  rw [kept]
  split_ifs
  · exact List.filter_sublist
  · exact List.Sublist.refl list

/-- What is added can be encoded when its name can. -/
theorem Creates.encodable_iff (hcreates : Creates p list u) :
    u.encodable = true ↔ well_formed_utf8 u.username = true := by
  obtain ⟨-, hhash, hrole⟩ := hcreates
  have hhashed : well_formed_utf8 u.password_hash = true := by
    rw [Post.hashed] at hhash
    split at hhash
    · exact p.hash_encodable _ _ hhash
    · cases hhash
  have huser : well_formed_utf8 u.role = true := by
    rw [hrole]
    rfl
  rw [User.encodable, hhashed, huser, Bool.and_true, Bool.and_true]

theorem Adds.drops (hadds : Adds p list u) (hdelete : p.delete = true) : Drops p list :=
  ⟨hadds.1, hdelete, fun h => hadds.2.2.not_fails h.2⟩

/-- An admin is left exactly when one is not deleted. -/
theorem managed_kept_iff :
    (∃ u ∈ kept p list, u.role = admin) ↔
      ∃ u ∈ list, u.role = admin ∧ (p.delete = true → p.deletes u = false) := by
  constructor
  · rintro ⟨u, hmem, hrole⟩
    obtain ⟨hu, hstays⟩ := mem_kept_iff.mp hmem
    exact ⟨u, hu, hrole, hstays⟩
  · rintro ⟨u, hu, hrole, hstays⟩
    exact ⟨u, mem_kept_iff.mpr ⟨hu, hstays⟩, hrole⟩

/-- The file is good after a request that adds a user exactly when the request is safe. -/
theorem good_adds_iff {content : Saved} (hhealthy : Healthy content.users) (hadds : Adds p content.users u) :
    Good (write_users (kept p (content.users ++ [u]))) ↔
      (well_formed_utf8 u.username = true ∨ (p.delete = true ∧ p.deletes u = true)) ∧
        (Drops p content.users → ∃ v ∈ content.users, v.role = admin ∧ p.deletes v = false) := by
  have hcreates := hadds.2.2
  have hadmin : u.role ≠ admin := by
    rw [hcreates.2.2]
    decide
  rw [good_write_users_iff, List.all_eq_true]
  constructor
  · rintro ⟨hencodable, hhealthy'⟩
    constructor
    · by_cases hgone : p.delete = true ∧ p.deletes u = true
      · exact .inr hgone
      · have hstays : p.delete = true → p.deletes u = false := fun hdelete =>
          Bool.not_eq_true _ ▸ fun hdeletes => hgone ⟨hdelete, hdeletes⟩
        have hmem : u ∈ kept p (content.users ++ [u]) := mem_kept_iff.mpr ⟨by simp, hstays⟩
        exact .inl (hcreates.encodable_iff.mp (hencodable u hmem))
    · intro hdrops
      obtain ⟨v, hv, hrole, hstays⟩ := managed_kept_iff.mp hhealthy'.managed
      obtain hv | rfl := List.mem_append.mp hv |>.imp_right List.mem_singleton.mp
      · exact ⟨v, hv, hrole, hstays hdrops.2.1⟩
      · exact absurd hrole hadmin
  · rintro ⟨hname, hmanaged⟩
    refine ⟨fun v hv => ?_, ⟨?_, ?_⟩⟩
    · obtain ⟨hv, hstays⟩ := mem_kept_iff.mp hv
      obtain hv | rfl := List.mem_append.mp hv |>.imp_right List.mem_singleton.mp
      · exact List.all_eq_true.mp content.encodable v hv
      · obtain hvalid | ⟨hdelete, hdeletes⟩ := hname
        · exact hcreates.encodable_iff.mpr hvalid
        · rw [hstays hdelete] at hdeletes
          cases hdeletes
    · have hnodup : ((content.users ++ [u]).map User.username).Nodup := by
        rw [List.map_append, List.map_singleton, List.nodup_append_comm, List.singleton_append, List.nodup_cons]
        exact ⟨hcreates.1.fresh, hhealthy.distinct⟩
      exact (kept_sublist.map User.username).nodup hnodup
    · obtain ⟨w, hw, hrole⟩ := hhealthy.managed
      by_cases hdelete : p.delete = true
      · obtain ⟨v, hv, hvrole, hstays⟩ := hmanaged (hadds.drops hdelete)
        exact managed_kept_iff.mpr ⟨v, by simp [hv], hvrole, fun _ => hstays⟩
      · exact managed_kept_iff.mpr ⟨w, by simp [hw], hrole, fun h => absurd h hdelete⟩

/-- The file is good after a request that only deletes exactly when an admin is left. -/
theorem good_drops_iff {content : Saved} (hhealthy : Healthy content.users) (hdrops : Drops p content.users) :
    Good (write_users (kept p content.users)) ↔ ∃ u ∈ content.users, u.role = admin ∧ p.deletes u = false := by
  rw [good_write_users_iff]
  constructor
  · rintro ⟨-, hhealthy'⟩
    obtain ⟨v, hv, hrole, hstays⟩ := managed_kept_iff.mp hhealthy'.managed
    exact ⟨v, hv, hrole, hstays hdrops.2.1⟩
  · rintro ⟨v, hv, hrole, hstays⟩
    refine ⟨?_, (kept_sublist.map User.username).nodup hhealthy.distinct,
      managed_kept_iff.mpr ⟨v, hv, hrole, fun _ => hstays⟩⟩
    exact List.all_eq_true.mpr fun w hw => List.all_eq_true.mp content.encodable w (kept_sublist.subset hw)

end Safe

/-- From a good file, a request leaves a good file exactly when it is safe. -/
theorem good_serve_iff {file : UsersFile} {p : Post} (hgood : Good file) : Safe file p ↔ Good (serve file p) := by
  obtain ⟨content, rfl, hhealthy⟩ := hgood
  have hsafe : Safe (.saved content) p ↔
      (∀ u, Adds p content.users u → well_formed_utf8 u.username = true ∨ (p.delete = true ∧ p.deletes u = true)) ∧
        (Drops p content.users → ∃ u ∈ content.users, u.role = admin ∧ p.deletes u = false) := by
    constructor
    · exact fun h => h content rfl
    · rintro h _ ⟨⟩
      exact h
  rw [hsafe]
  obtain ⟨u, hadds, hserve⟩ | ⟨hadds, hdrops, hserve⟩ | ⟨hadds, hdrops, hserve⟩ := serve_cases content p
  · rw [hserve, good_adds_iff hhealthy hadds]
    exact and_congr_left fun _ => ⟨fun h => h u hadds, fun h v hv => hadds.unique hv ▸ h⟩
  · rw [hserve, good_drops_iff hhealthy hdrops]
    exact ⟨fun h => h.2 hdrops, fun h => ⟨fun u hu => absurd hu (hadds u), fun _ => h⟩⟩
  · rw [hserve]
    exact ⟨fun _ => ⟨content, rfl, hhealthy⟩, fun _ => ⟨fun u hu => absurd hu (hadds u), fun h => absurd h hdrops⟩⟩

/-- A safe request that adds a user adds that one only. -/
theorem addsOne_of_safe {file : UsersFile} {p : Post} (hgood : Good file) (hsafe : Safe file p) : AddsOne file p := by
  rintro content u rfl hadds
  obtain ⟨content', hsaved, -⟩ := (good_serve_iff hgood).mp hsafe
  refine ⟨hadds.2.2.2.2, hadds.2.2.1.fresh, content', hsaved, ?_⟩
  rw [serve_of_adds hadds] at hsaved
  exact write_users_eq_saved_iff.mp hsaved

/-- The requests one at a time. -/
def step (file : UsersFile) (p : Post) : Option UsersFile := some (serve file p)

/-- From a good file, the file stays good and every create adds its user and no more, exactly when every request is safe
in the file it finds. -/
theorem users_kept_iff {file : UsersFile} (posts : List Post) (hgood : Good file) :
    GoodAlong step Good file posts ∧ Meets step AddsOne file posts ↔ Meets step Safe file posts := by
  have hkeep : ∀ s p s', Good s → Safe s p → step s p = some s' → Good s' := by
    intro s p s' hs hsafe hstep
    obtain rfl := Option.some.inj hstep
    exact (good_serve_iff hs).mp hsafe
  have hexact : ∀ s p s', Good s → step s p = some s' → (Safe s p ↔ Good s') := by
    intro s p s' hs hstep
    obtain rfl := Option.some.inj hstep
    exact good_serve_iff hs
  have halong := meets_iff_goodAlong hkeep hexact hgood (run_some serve file posts)
  constructor
  · exact fun h => halong.mpr h.1
  · intro hsafe
    refine ⟨halong.mp hsafe, ?_⟩
    exact (hsafe.with_invariant hkeep hgood).mono fun s p h => addsOne_of_safe h.1 h.2

/-- A hash, and the file with one admin. -/
def sample_hash : Str := literal "$2y$10$"

theorem sample_hash_encodable : well_formed_utf8 sample_hash = true := by decide +kernel

def sample_admin : User := ⟨admin, sample_hash, admin⟩

def ann : User := ⟨literal "ann", sample_hash, user⟩

def bob : User := ⟨literal "bob", sample_hash, user⟩

def one_admin : Saved := ⟨[sample_admin], by decide +kernel⟩

/-- A create of a user with a name, or a delete of one. -/
def create_post (name : Str) : Post :=
  ⟨true, true, false, .string name, .string (literal "secret"), .missing, fun _ => some sample_hash,
    fun _ _ hhash => Option.some.inj hhash ▸ sample_hash_encodable⟩

def delete_post (name : Str) : Post :=
  ⟨true, false, true, .missing, .missing, .string name, fun _ => some sample_hash,
    fun _ _ hhash => Option.some.inj hhash ▸ sample_hash_encodable⟩

theorem good_one_admin : Good (.saved one_admin) :=
  ⟨one_admin, rfl, List.nodup_singleton _, sample_admin, List.mem_singleton_self _, rfl⟩

theorem users_kept_iff_create_delete :
    GoodAlong step Good (.saved one_admin) [create_post (literal "bob"), delete_post (literal "bob")] ∧
        Meets step AddsOne (.saved one_admin) [create_post (literal "bob"), delete_post (literal "bob")] ↔
      Meets step Safe (.saved one_admin) [create_post (literal "bob"), delete_post (literal "bob")] :=
  users_kept_iff [create_post (literal "bob"), delete_post (literal "bob")] good_one_admin

/-- The only admin deletes himself, which the page has no button for. -/
theorem users_lost : ¬ ∀ file posts, Good file → GoodAlong step Good file posts ∧ Meets step AddsOne file posts := by
  intro hclaim
  have hgood :=
    (hclaim (.saved one_admin) [delete_post admin] good_one_admin).1 [delete_post admin] [] (.saved ⟨[], rfl⟩) rfl
    (List.cons_ne_nil _ _) rfl
  obtain ⟨content, hcontent, hhealthy⟩ := hgood
  obtain rfl := UsersFile.saved.inj hcontent
  obtain ⟨u, hu, -⟩ := hhealthy.managed
  cases hu

/-- A name in Latin-1 empties the file. -/
example : read_users (serve (.saved one_admin) (create_post [0xe9])) = none := by decide +kernel

end k180.user_db
