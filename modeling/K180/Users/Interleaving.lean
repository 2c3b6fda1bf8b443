import K180.SharedFile.Serial
import K180.Users.Manage

open php schedule shared_file

namespace k180.user_db

section Requests

variable {ι : Type*} (json_decode : List UInt8 → Option (List User)) (hblank : json_decode [] = none)
  (posts : ι → Post)

/-- The file users.json: `json_encode` gives a text that says the users, and what cannot be encoded leaves it empty. -/
def users_coding : Coding (Option (List User)) where
  decode := json_decode
  writes users text :=
    match users with
    | some list => json_decode text = some list
    | none => text = []
  decode_of_writes := by
    intro users text hwrites
    cases users with
    | none => rw [of_decide_eq_true hwrites, hblank]
    | some list => exact of_decide_eq_true hwrites

/-- What the request writes of the users it has read, as it is read again. -/
def work (i : ι) (users : Option (List User)) : List (Option (List User)) :=
  (handle (posts i) users).map fun list => read_users (write_users list)

/-- The steps of requests to user_manage.php, and of login.php and the REST server, which look at the file. Nothing here
takes a lock on the file: the shared lock of the REST server waits for nobody. -/
def page_step [DecidableEq ι] (s : Sys ι (Option (List User))) (a : Action ι) : Option (Sys ι (Option (List User))) :=
  shared_file.step (users_coding json_decode hblank) (work posts) s a

end Requests

theorem read_users_foldl (writes : List (List User)) (file : UsersFile) :
    read_users (writes.foldl (fun _ list => write_users list) file) =
      (writes.map fun list => read_users (write_users list)).getLastD (read_users file) := by
  induction writes generalizing file with
  | nil => rfl
  | cons list rest ih => rw [List.foldl_cons, ih, List.map_cons, List.getLastD_cons]

variable {ι : Type*} {posts : ι → Post}

/-- One after the other, the requests make of the file what they make of its users. -/
theorem serial_work (file : UsersFile) (order : List ι) :
    serial (work posts) (read_users file) order = read_users (order.foldl (fun file i => serve file (posts i)) file) := by
  induction order generalizing file with
  | nil => rfl
  | cons i rest ih =>
    rw [List.foldl_cons, ← ih, serve, read_users_foldl, serial, List.foldl_cons]
    rfl

/-- Where each request empties the file only as long as it holds what the request has read and nobody else is at it, and
nobody reads it meanwhile, the users in the file are those that the requests served leave one after the other, and
nobody sees a text that is partly written. -/
theorem no_lost_update [DecidableEq ι] {json_decode : List UInt8 → Option (List User)} (hblank : json_decode [] = none)
    {file : UsersFile} {content : List UInt8} (hfile : json_decode content = read_users file)
    {actions : List (Action ι)} {s : Sys ι (Option (List User))}
    (hrun : run (page_step json_decode hblank posts) (init content) actions = some s)
    (hexclusive : Meets (page_step json_decode hblank posts) Exclusive (init content) actions) :
    (Settled s → ∃ order : List ι, order.Nodup ∧ (∀ i, i ∈ order ↔ (s.phase i).Served) ∧
      json_decode s.content = read_users (order.foldl (fun file i => serve file (posts i)) file)) ∧
    Meets (page_step json_decode hblank posts) SeesText (init content) actions := by
  obtain ⟨hserial, hsees⟩ := serial_of_exclusive content hexclusive hrun
  refine ⟨fun hsettled => ?_, hsees⟩
  obtain ⟨order, hnodup, hmem, hdecode⟩ := hserial hsettled
  refine ⟨order, hnodup, hmem, ?_⟩
  rw [← serial_work, ← hfile]
  exact hdecode

/-- The text of users whose names and hashes need no escape. -/
def sample_entry (u : User) : Str :=
  literal "    \x7b\n        \"username\": \"" ++ u.username ++
    literal "\",\n        \"password_hash\": \"" ++ u.password_hash ++
    literal "\",\n        \"role\": \"" ++ u.role ++ literal "\"\n    \x7d"

def sample_text (list : List User) : List UInt8 :=
  literal "[\n" ++ ((list.map sample_entry).intersperse (literal ",\n")).flatten ++ literal "\n]"

/-- `json_decode` on the texts of some users. -/
def sample_decode (text : List UInt8) : Option (List User) :=
  [[sample_admin], [sample_admin, ann], [sample_admin, bob], [sample_admin, ann, bob], [sample_admin, bob, ann]].find?
    fun list => sample_text list = text

theorem sample_decode_nil : sample_decode [] = none := by decide +kernel

/-- Two requests, one that creates ann and one that creates bob. -/
def two_creates : Bool → Post := Bool.rec (create_post (literal "ann")) (create_post (literal "bob"))

/-- All of what a request does to write a text. -/
def write_actions (i : Bool) (text : List UInt8) : List (Action Bool) :=
  [.truncate i text, .put i text.length, .close i]

/-- The second request has read the file before the first writes it. -/
def lost_update_actions : List (Action Bool) :=
  [.read false, .read true] ++ write_actions false (sample_text [sample_admin, ann]) ++
    write_actions true (sample_text [sample_admin, bob])

/-- The second request reads what the first has written. -/
def exclusive_actions : List (Action Bool) :=
  .read false :: write_actions false (sample_text [sample_admin, ann]) ++
    .look :: .read true :: write_actions true (sample_text [sample_admin, ann, bob])

/-- Both creates are answered with success, and ann is lost. -/
theorem update_lost : ¬ ∀ (actions : List (Action Bool)) (s : Sys Bool (Option (List User))),
    run (page_step sample_decode sample_decode_nil two_creates) (init (sample_text [sample_admin])) actions = some s →
      (Settled s → ∃ order : List Bool, order.Nodup ∧ (∀ i, i ∈ order ↔ (s.phase i).Served) ∧
        sample_decode s.content =
          read_users (order.foldl (fun file i => serve file (two_creates i)) (.saved one_admin))) ∧
      Meets (page_step sample_decode sample_decode_nil two_creates) SeesText (init (sample_text [sample_admin]))
        actions := by
  intro hclaim
  have hends : ((run (page_step sample_decode sample_decode_nil two_creates) (init (sample_text [sample_admin]))
      lost_update_actions).any fun s => decide (Settled s ∧ (∀ i, (s.phase i).Served) ∧
        sample_decode s.content = some [sample_admin, bob])) = true := by decide +kernel
  obtain ⟨s, hrun, hs⟩ := (Option.any_eq_true _ _).mp hends
  obtain ⟨hsettled, hserved, hcontent⟩ := of_decide_eq_true hs
  obtain ⟨order, hnodup, hmem, hserial⟩ := (hclaim lost_update_actions s hrun).1 hsettled
  have hperm : order.Perm [false, true] := by
    refine (List.perm_ext_iff_of_nodup hnodup (by decide)).mpr fun i => ?_
    exact iff_of_true ((hmem i).mpr (hserved i)) (by cases i <;> decide)
  obtain ⟨i, j, rfl⟩ := List.length_eq_two.mp hperm.length_eq
  have hboth : ∀ i j : Bool, [i, j].Nodup →
      read_users ([i, j].foldl (fun file i => serve file (two_creates i)) (.saved one_admin)) ≠
        some [sample_admin, bob] := by decide +kernel
  exact hboth i j hnodup (hserial.symm.trans hcontent)

theorem no_lost_update_two_creates : ∃ s,
    run (page_step sample_decode sample_decode_nil two_creates) (init (sample_text [sample_admin])) exclusive_actions =
      some s ∧
    (Settled s → ∃ order : List Bool, order.Nodup ∧ (∀ i, i ∈ order ↔ (s.phase i).Served) ∧
      sample_decode s.content =
        read_users (order.foldl (fun file i => serve file (two_creates i)) (.saved one_admin))) ∧
    Meets (page_step sample_decode sample_decode_nil two_creates) SeesText (init (sample_text [sample_admin]))
      exclusive_actions := by
  have hsome : (run (page_step sample_decode sample_decode_nil two_creates) (init (sample_text [sample_admin]))
      exclusive_actions).isSome = true := by decide +kernel
  obtain ⟨s, hrun⟩ := Option.isSome_iff_exists.mp hsome
  have hfile : sample_decode (sample_text [sample_admin]) = read_users (.saved one_admin) := by decide +kernel
  exact ⟨s, hrun, no_lost_update sample_decode_nil hfile hrun (by decide +kernel)⟩

end k180.user_db
