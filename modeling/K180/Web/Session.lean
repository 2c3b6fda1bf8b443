import K180.Users.Manage

open php k180.user_db

namespace k180.web

/-- `$_SESSION`, as far as the pages read it. -/
structure Session where
  username : Option Str
  role : Option Str
  last_activity : Option ℤ
  csrf_token : Option Str
  csrf_token_time : Option ℤ
  lang : Option Str

/-- A session that is new, or has been destroyed. -/
def Session.blank : Session := ⟨none, none, none, none, none, none⟩

inductive Page where
  | index
  /-- `form` is the user name and the password where the form is posted. -/
  | login (form : Option (Posted × Posted))
  | logout
  | setting
  | upload
  | recordings
  | sysinfo
  | user_manage (post : Post)

structure Request where
  /-- the session that the cookie names, whoever sends it -/
  session : ℕ
  time : ℤ
  /-- `$_GET['lang']` -/
  lang : Option Str
  page : Page
  /-- The form of the page is posted. -/
  posts : Bool
  csrf_token : Posted
  /-- what `random_bytes(32)` gives in the request -/
  random_bytes : List UInt8
  /-- The files that the page cannot do without are there. -/
  available : Bool

inductive Outcome where
  | forwarded
  | login_page
  | logged_in (u : User)
  | logged_out
  /-- `Location: login.php` -/
  | to_login
  | died
  | shown
  /-- `error_csrf` -/
  | refused
  /-- a type error -/
  | aborted
  /-- The request gets past all checks, to what its form is for. -/
  | acted
deriving DecidableEq

def hex_digit (n : ℕ) : UInt8 := (if n < 10 then 0x30 + n else 0x57 + n).toUInt8

def bin2hex (bytes : List UInt8) : Str := bytes.flatMap fun b => [hex_digit (b.toNat / 16), hex_digit (b.toNat % 16)]

def lang_init (s : Session) (lang : Option Str) : Session :=
  match lang with
  | some code => if code ∈ [literal "zh", literal "en"] then { s with lang := some code } else s
  | none => s

/-- `$langCode`, which names the file that lang_init.php requires. -/
def lang_code (s : Session) : Str := s.lang.getD (literal "zh")

/-- A session that is idle for more than 300 seconds is destroyed. -/
def is_logged_in (s : Session) (now : ℤ) : Bool × Session :=
  match s.username with
  | none => (false, s)
  | some _ =>
    match s.last_activity with
    | some last => if now - last > 300 then (false, .blank) else (true, { s with last_activity := some now })
    | none => (true, { s with last_activity := some now })

/-- Whether the pages are for a role. -/
def Page.admits (page : Page) (role : Option Str) : Bool :=
  match page with
  | .user_manage _ => role = some admin
  | _ => role = some admin || role = some user

/-- `empty($_SESSION['csrf_token_time']) || time() - $_SESSION['csrf_token_time'] > 600` -/
def csrf_expired (s : Session) (now : ℤ) : Bool :=
  match s.csrf_token_time with
  | none => true
  | some since => since = 0 || now - since > 600

def renew_csrf (s : Session) (now : ℤ) (token : Str) : Session :=
  if s.csrf_token.elim true empty || csrf_expired s now then
    { s with csrf_token := some token, csrf_token_time := some now }
  else s

/-- Whether the posted token is accepted; `hash_equals` takes no array. -/
def csrf_check (s : Session) (now : ℤ) (posted : Posted) : Option Bool :=
  if posted.empty || s.csrf_token.elim true empty then some false
  else match posted with
  | .array => none
  | posted => some (s.csrf_token.any posted.is && !csrf_expired s now)

/-- A page for users. -/
def visit (s : Session) (r : Request) : Outcome × Session :=
  match is_logged_in (lang_init s r.lang) r.time with
  | (false, s) => (.to_login, s)
  | (true, s) =>
    if !r.page.admits s.role then (.to_login, s)
    else match r.page, r.available with
    | .sysinfo, available => (if available then .shown else .died, s)
    | .setting, false => (.died, s)
    | _, _ =>
      let s := renew_csrf s r.time (bin2hex r.random_bytes)
      if !r.posts then (.shown, s)
      else match csrf_check s r.time r.csrf_token with
      | none => (.aborted, s)
      | some false => (.refused, s)
      | some true => (.acted, s)

/-- The user that login.php logs in: the first one with the name and the password. -/
def login_user (password_verify : Str → Str → Bool) (file : UsersFile) (username password : Str) : Option User :=
  match file with
  | .saved content => content.users.find? fun u => u.username = username && password_verify password u.password_hash
  | _ => none

def login_page (password_verify : Str → Str → Bool) (file : UsersFile) (form : Option (Posted × Posted)) (s : Session)
    (r : Request) : Outcome × Session :=
  let s := lang_init s r.lang
  match form with
  | none => (.login_page, s)
  | some (username, password) =>
    match username.trimmed, password.trimmed with
    | some username, some password =>
      match login_user password_verify file username password with
      | some u =>
        (.logged_in u, { s with username := some u.username, role := some u.role, last_activity := some r.time })
      | none => (.login_page, s)
    | _, _ => (.aborted, s)

structure Site where
  users : UsersFile
  session : ℕ → Session

/-- A session before its first request is blank. -/
def init (file : UsersFile) : Site := ⟨file, fun _ => .blank⟩

/-- What a page makes of a session. -/
def open_page (password_verify : Str → Str → Bool) (file : UsersFile) (s : Session) (r : Request) : Outcome × Session :=
  match r.page with
  | .index => (.forwarded, s)
  | .login form => login_page password_verify file form s r
  | .logout => (.logged_out, .blank)
  | _ => visit s r

/-- What a request that gets past all checks makes of the users. -/
def Page.users (page : Page) (file : UsersFile) : UsersFile :=
  match page with
  | .user_manage post => serve file { post with csrf_ok := true }
  | _ => file

def respond (password_verify : Str → Str → Bool) (site : Site) (r : Request) : Outcome × Site :=
  let result := open_page password_verify site.users (site.session r.session) r
  (result.1,
    { users := if result.1 = .acted then r.page.users site.users else site.users
      session := Function.update site.session r.session result.2 })

/-- The requests and their outcomes, the latest first. -/
abbrev Log := List (Request × Outcome)

def respond_log (password_verify : Str → Str → Bool) (x : Site × Log) (r : Request) : Site × Log :=
  let result := respond password_verify x.1 r
  (result.2, (r, result.1) :: x.2)

/-- Requests one after the other. -/
def respond_all (password_verify : Str → Str → Bool) (file : UsersFile) (requests : List Request) : Site × Log :=
  requests.foldl (respond_log password_verify) (init file, [])

end k180.web
