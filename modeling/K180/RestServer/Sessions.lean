import K180.Json.Object
import K180.Libc.Time

open json_c libc binary_float

namespace k180.restful_api_server

def TOKEN_EXPIRY_SECONDS : ℤ := 300

/-- What `/login` stores for a token it has generated, after a successful `verify_user`. -/
def login (session_map : List (String × Json)) (token : String) (now : time_t) : List (String × Json) :=
  let session := Members.add "last_used" (.int now.toInt) []
  Members.add token (.object session) session_map

/-- `is_token_valid`, with the sessions it leaves. Every session holds its last use as an integer. -/
def is_token_valid (session_map : List (String × Json)) (token : String) (now : time_t) :
    Bool × List (String × Json) :=
  match Members.get token session_map with
  | some (.object session) =>
    match Members.get "last_used" session with
    | some (.int i) =>
      if (difftime now.toInt (json_object_get_int64 i)).le (.fin TOKEN_EXPIRY_SECONDS) then
        (true, Members.add token (.object (Members.add "last_used" (.int now.toInt) session)) session_map)
      else (false, session_map)
    | _ => (false, session_map)
  | _ => (false, session_map)

/-- The test a pass of `session_cleaner_thread` makes on a session. -/
def is_expired (now : time_t) (val : Json) : Bool :=
  match json_object_object_get_ex val "last_used" with
  | some (.int i) => Value.lt (.fin TOKEN_EXPIRY_SECONDS) (difftime now.toInt (json_object_get_int64 i))
  | _ => false

/-- The loop that fills `to_delete`, which has room for 128 keys. -/
def to_delete (now : time_t) : List (String × Json) → ℕ → List String
  | [], _ => []
  | (key, val) :: rest, count =>
    if count < 128 then
      if is_expired now val then key :: to_delete now rest (count + 1) else to_delete now rest count
    else []

/-- One pass of `session_cleaner_thread`. -/
def session_cleaner (session_map : List (String × Json)) (now : time_t) : List (String × Json) :=
  (to_delete now session_map 0).foldl (fun session_map key => Members.del key session_map) session_map

/-- What happens to the sessions, one after the other under their lock: a successful login that has
generated a token, the check of the token of a request, a pass of the cleaner. -/
inductive SessionEvent where
  | login (token : String) (now : time_t)
  | check (token : String) (now : time_t)
  | clean (now : time_t)

namespace SessionEvent

def time : SessionEvent → ℤ
  | login _ now | check _ now | clean now => now.toInt

def is_login : SessionEvent → Bool
  | login _ _ => true
  | _ => false

end SessionEvent

def session_step (session_map : List (String × Json)) : SessionEvent → List (String × Json)
  | .login token now => login session_map token now
  | .check token now => (is_token_valid session_map token now).2
  | .clean now => session_cleaner session_map now

/-- The sessions after a run of the server. -/
def sessions (events : List SessionEvent) : List (String × Json) := events.foldl session_step []

/-- The tokens that have been generated, in their order. -/
def issued : List SessionEvent → List String
  | [] => []
  | .login token _ :: rest => token :: issued rest
  | _ :: rest => issued rest

/-- The time of an event at which a token is issued or passes its check. -/
def use (token : String) (session_map : List (String × Json)) : SessionEvent → List ℤ
  | .login token' now => if token' = token then [now.toInt] else []
  | .check token' now =>
    if token' = token ∧ (is_token_valid session_map token' now).1 = true then [now.toInt] else []
  | .clean _ => []

/-- The times at which a token is issued or passes its check, in a run from given sessions. -/
def uses (token : String) : List (String × Json) → List SessionEvent → List ℤ
  | _, [] => []
  | session_map, e :: rest => use token session_map e ++ uses token (session_step session_map e) rest

/-- The clock does not go back. Only a login can come late: it reads the clock before it takes the
lock. -/
def NonDecreasing (events : List SessionEvent) : Prop :=
  events.Pairwise fun e e' => e'.is_login = true ∨ e.time ≤ e'.time

/-- At most `TOKEN_EXPIRY_SECONDS` pass from each time to the next. -/
def NoGap (times : List ℤ) : Prop :=
  times.IsChain fun time0 time1 => time1 - time0 ≤ TOKEN_EXPIRY_SECONDS

end k180.restful_api_server
