import K180.Php.String

open php

namespace k180.user_db

structure User where
  username : Str
  password_hash : Str
  role : Str
deriving DecidableEq

def admin : Str := literal "admin"

def user : Str := literal "user"

/-- Whether `json_encode` takes the entry. -/
def User.encodable (u : User) : Bool :=
  well_formed_utf8 u.username && well_formed_utf8 u.password_hash && well_formed_utf8 u.role

/-- Users as a JSON text has them. -/
structure Saved where
  users : List User
  encodable : users.all User.encodable = true

/-- The file users.json. -/
inductive UsersFile where
  | absent
  | blank
  | saved (content : Saved)

/-- `file_exists($usersFile) ? json_decode(file_get_contents($usersFile), true) : []`, null for a file without a text. -/
def read_users : UsersFile → Option (List User)
  | .absent => some []
  | .blank => none
  | .saved content => some content.users

/-- `file_put_contents($usersFile, json_encode($users, ..))`; what cannot be encoded is `false`, which is no bytes. -/
def write_users (users : List User) : UsersFile :=
  if h : users.all User.encodable = true then .saved ⟨users, h⟩ else .blank

@[simp] theorem read_users_saved (content : Saved) : read_users (.saved content) = some content.users := rfl

theorem write_users_of_encodable {users : List User} (h : users.all User.encodable = true) :
    write_users users = .saved ⟨users, h⟩ := dif_pos h

theorem write_users_eq_saved_iff {users : List User} {content : Saved} :
    write_users users = .saved content ↔ content.users = users := by
  rw [write_users]
  constructor
  · intro hwrite
    split at hwrite
    · rw [← UsersFile.saved.inj hwrite]
    · cases hwrite
  · rintro rfl
    rw [dif_pos content.encodable]

end k180.user_db
