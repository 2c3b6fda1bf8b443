import K180.RestServer.OneResponse
import K180.Schedule.Run

open libc schedule

namespace k180.restful_api_server.http

def MAX_UPLOAD_SIZE : ℕ := 2048

/-- What the handler keeps of a request: the bytes behind `data`, and `size`. The offsets it has written are in
`written`. -/
structure ConnectionInfo where
  data : ℕ → UInt8
  size : ℕ
  written : List ℕ

/-- The allocation is zeroed, and behind it there is whatever there is. -/
def allocated (beyond : ℕ → UInt8) (i : ℕ) : UInt8 := if i < MAX_UPLOAD_SIZE then 0 else beyond i

def fresh_info (beyond : ℕ → UInt8) : ConnectionInfo := ⟨allocated beyond, 0, []⟩

/-- The contents of the allocation. -/
def ConnectionInfo.bytes (info : ConnectionInfo) : List UInt8 := (List.range MAX_UPLOAD_SIZE).map info.data

/-- The branch for `*upload_data_size > 0`; `none` for `MHD_NO`. The sum is one of `size_t`. -/
def receive (info : ConnectionInfo) (upload_data : List UInt8) : Option ConnectionInfo :=
  let size := (info.size + upload_data.length) % 2 ^ 64
  if MAX_UPLOAD_SIZE ≤ size then none
  else some {
    data := memcpy info.data info.size upload_data
    size := size
    written := info.written ++ List.range' info.size upload_data.length }

/-- How a call of the handler ends: with `MHD_YES` and everything taken, with `MHD_NO`, or with the request handled. -/
inductive Called where
  | received
  | refused
  | handled (h : Handled)

section Calls

variable (lib : Library) (max_fps : ℤ) (beyond : ℕ → UInt8) (r : HttpRequest) (io : Io)

/-- A call of the handler with `*con_cls` and the upload data. -/
def call (con_cls : Option ConnectionInfo) (s : State) (upload_data : List UInt8) :
    Called × Option ConnectionInfo × State :=
  match con_cls with
  | none => (.received, some (fresh_info beyond), s)
  | some info =>
    if 0 < upload_data.length then
      match receive info upload_data with
      | none => (.refused, some info, s)
      | some info => (.received, some info, s)
    else
      let (h, s) := handler lib max_fps s { r with body := info.bytes } io
      (.handled h, some info, s)

/-- The calls that the daemon makes for a request, as long as they return `MHD_YES` without a response. -/
def calls (con_cls : Option ConnectionInfo) (s : State) : List (List UInt8) → Called × Option ConnectionInfo × State
  | [] => (.received, con_cls, s)
  | upload_data :: rest =>
    match call lib max_fps beyond r io con_cls s upload_data with
    | (.received, con_cls, s) => calls con_cls s rest
    | ended => ended

/-- A request whose body comes in chunks: a call without data before them, and one behind. -/
def serve (s : State) (chunks : List (List UInt8)) : Called × Option ConnectionInfo × State :=
  calls lib max_fps beyond r io none s ([] :: chunks ++ [[]])

end Calls

/-- The buffer once a body has been received. -/
structure Received (beyond : ℕ → UInt8) (body : List UInt8) (info : ConnectionInfo) : Prop where
  fits : body.length < MAX_UPLOAD_SIZE
  size : info.size = body.length
  data : info.data = memcpy (allocated beyond) 0 body
  written : ∀ i ∈ info.written, i < body.length

section Receive

variable {beyond : ℕ → UInt8} {body chunk : List UInt8} {info : ConnectionInfo} {chunks : List (List UInt8)}

theorem received_fresh (beyond : ℕ → UInt8) : Received beyond [] (fresh_info beyond) := by
  refine ⟨by decide, rfl, ?_, fun i hi => by cases hi⟩
  funext i
  exact (memcpy_of_ge (Nat.zero_le i)).symm

/-- A chunk is appended where the body stays below the limit. -/
theorem receive_fits (hreceived : Received beyond body info) (hfits : body.length + chunk.length < MAX_UPLOAD_SIZE) :
    ∃ info', receive info chunk = some info' ∧ Received beyond (body ++ chunk) info' := by
  have hsum : (info.size + chunk.length) % 2 ^ 64 = body.length + chunk.length := by
    rw [hreceived.size]
    refine Nat.mod_eq_of_lt (hfits.trans ?_)
    decide
  rw [receive, hsum, if_neg (Nat.not_le.mpr hfits)]
  refine ⟨_, rfl, ?_, ?_, ?_, ?_⟩
  · rw [List.length_append]
    exact hfits
  · rw [List.length_append]
  · have hdata := @memcpy_append (allocated beyond) 0 body chunk
    rw [Nat.zero_add] at hdata
    rw [hreceived.size, hreceived.data, hdata]
  · intro i hi
    rw [List.length_append]
    obtain hbefore | hnow := List.mem_append.mp hi
    · exact (hreceived.written i hbefore).trans_le (Nat.le_add_right _ _)
    · rw [List.mem_range'_1, hreceived.size] at hnow
      exact hnow.2

/-- A chunk that reaches the limit is refused. -/
theorem receive_refused (hreceived : Received beyond body info) (hlimit : MAX_UPLOAD_SIZE ≤ body.length + chunk.length)
    (hsize : chunk.length < 2 ^ 63) : receive info chunk = none := by
  have hfits := hreceived.fits
  have hsum : (info.size + chunk.length) % 2 ^ 64 = body.length + chunk.length := by
    rw [hreceived.size]
    refine Nat.mod_eq_of_lt ?_
    rw [MAX_UPLOAD_SIZE] at hfits
    omega
  rw [receive, hsum]
  exact if_pos hlimit

theorem run_receive_fits (hreceived : Received beyond body info)
    (hfits : body.length + chunks.flatten.length < MAX_UPLOAD_SIZE) :
    ∃ info', run receive info chunks = some info' ∧ Received beyond (body ++ chunks.flatten) info' := by
  induction chunks generalizing body info with
  | nil =>
    rw [List.flatten_nil, List.append_nil]
    exact ⟨info, rfl, hreceived⟩
  | cons chunk rest ih =>
    rw [List.flatten_cons, List.length_append] at hfits
    obtain ⟨next, hnext, hreceived'⟩ := receive_fits hreceived (show body.length + chunk.length < _ by omega)
    obtain ⟨info', hrun, hall⟩ := ih hreceived' (by rw [List.length_append]; omega)
    refine ⟨info', run_cons_eq_some_iff.mpr ⟨next, hnext, hrun⟩, ?_⟩
    rw [List.flatten_cons, ← List.append_assoc]
    exact hall

/-- The first chunk that reaches the limit is the one that is refused. -/
theorem run_receive_refused (hreceived : Received beyond body info)
    (hlimit : MAX_UPLOAD_SIZE ≤ body.length + chunks.flatten.length) (hsize : chunks.flatten.length < 2 ^ 63) :
    ∃ front chunk back info', chunks = front ++ chunk :: back ∧ run receive info front = some info' ∧
      Received beyond (body ++ front.flatten) info' ∧ receive info' chunk = none ∧
      MAX_UPLOAD_SIZE ≤ (body ++ front.flatten).length + chunk.length := by
  induction chunks generalizing body info with
  | nil =>
    have hfits := hreceived.fits
    rw [List.flatten_nil, List.length_nil] at hlimit
    omega
  | cons chunk rest ih =>
    rw [List.flatten_cons, List.length_append] at hlimit hsize
    by_cases hchunk : body.length + chunk.length < MAX_UPLOAD_SIZE
    · obtain ⟨next, hnext, hreceived'⟩ := receive_fits hreceived hchunk
      obtain ⟨front, last, back, info', rfl, hrun, hall, hrefused, hlast⟩ :=
        ih hreceived' (by rw [List.length_append]; omega) (by omega)
      rw [List.append_assoc, ← List.flatten_cons] at hall hlast
      exact ⟨chunk :: front, last, back, info', rfl, run_cons_eq_some_iff.mpr ⟨next, hnext, hrun⟩, hall, hrefused, hlast⟩
    · refine ⟨[], chunk, rest, info, rfl, rfl, ?_, receive_refused hreceived (Nat.not_lt.mp hchunk) (by omega), ?_⟩
      · rw [List.flatten_nil, List.append_nil]
        exact hreceived
      · rw [List.flatten_nil, List.append_nil]
        exact Nat.not_lt.mp hchunk

/-- In the buffer the body is followed by zeros. -/
theorem Received.bytes (hreceived : Received beyond body info) :
    info.bytes = body ++ List.replicate (MAX_UPLOAD_SIZE - body.length) 0 := by
  have hfits := hreceived.fits
  refine List.ext_getElem ?_ fun i hi hi' => ?_
  · rw [ConnectionInfo.bytes, List.length_map, List.length_range, List.length_append, List.length_replicate]
    omega
  · rw [ConnectionInfo.bytes, List.length_map, List.length_range] at hi
    simp only [ConnectionInfo.bytes, List.getElem_map, List.getElem_range, hreceived.data]
    by_cases hbody : i < body.length
    · have hcopied := @memcpy_of_lt (allocated beyond) 0 i body hbody
      rw [Nat.zero_add] at hcopied
      rw [hcopied, List.getElem_append_left hbody]
    · rw [memcpy_of_ge (by omega), allocated, if_pos hi, List.getElem_append_right (by omega), List.getElem_replicate]

theorem Received.c_bytes (hreceived : Received beyond body info) : c_bytes info.bytes = c_bytes body := by
  obtain ⟨zeros, hzeros⟩ := Nat.exists_eq_add_of_lt hreceived.fits
  have hcount : MAX_UPLOAD_SIZE - body.length = zeros + 1 := by omega
  rw [libc.c_bytes, libc.c_bytes, hreceived.bytes, hcount, List.replicate_succ, List.takeWhile_append]
  split
  · rename_i hwhole
    rw [List.takeWhile_cons_of_neg (by simp), List.append_nil]
    exact ((List.takeWhile_sublist _).eq_of_length hwhole).symm
  · rfl

end Receive

section Serve

variable {lib : Library} {max_fps : ℤ} {beyond : ℕ → UInt8} {r : HttpRequest} {io : Io} {s : State}
  {info info' : ConnectionInfo} {front rest : List (List UInt8)}

theorem post_login_congr {body body' : List UInt8} (hsame : c_bytes body = c_bytes body') :
    post_login lib s { r with body := body } io = post_login lib s { r with body := body' } io := by
  rw [post_login, post_login, hsame]

theorem api_messages_congr {server : Server} {method : String} {config : ConfigIo} {body body' : List UInt8}
    (hsame : c_bytes body = c_bytes body') :
    api_messages lib.text max_fps server ⟨method, true, body, config⟩ =
      api_messages lib.text max_fps server ⟨method, true, body', config⟩ := by
  rw [api_messages, api_messages, hsame]

/-- The handler sees of a body what is before its first NUL. -/
theorem handler_congr {body body' : List UInt8} (hsame : c_bytes body = c_bytes body') :
    handler lib max_fps s { r with body := body } io = handler lib max_fps s { r with body := body' } io := by
  rw [handler, handler, post_login_congr hsame]
  simp only [api_messages_congr hsame]
  rfl

/-- Chunks that are taken leave the calls that come after them. -/
theorem calls_append (hrun : run receive info front = some info') (hfront : ∀ chunk ∈ front, chunk ≠ []) :
    calls lib max_fps beyond r io (some info) s (front ++ rest) =
      calls lib max_fps beyond r io (some info') s rest := by
  induction front generalizing info with
  | nil =>
    obtain rfl := Option.some.inj hrun
    rfl
  | cons chunk front ih =>
    obtain ⟨next, hnext, hrest⟩ := run_cons_eq_some_iff.mp hrun
    obtain ⟨hchunk, hfront⟩ := List.forall_mem_cons.mp hfront
    rw [List.cons_append, calls, call]
    dsimp only
    rw [if_pos (List.length_pos_of_ne_nil hchunk), hnext]
    exact ih hrest hfront

theorem calls_refused {chunk : List UInt8} (hrefused : receive info chunk = none) (hchunk : chunk ≠ []) :
    calls lib max_fps beyond r io (some info) s (chunk :: rest) = (.refused, some info, s) := by
  rw [calls, call]
  dsimp only
  rw [if_pos (List.length_pos_of_ne_nil hchunk), hrefused]

theorem calls_last :
    calls lib max_fps beyond r io (some info) s [[]] =
      (.handled (handler lib max_fps s { r with body := info.bytes } io).1, some info,
        (handler lib max_fps s { r with body := info.bytes } io).2) := rfl

theorem serve_eq (chunks : List (List UInt8)) :
    serve lib max_fps beyond r io s chunks =
      calls lib max_fps beyond r io (some (fresh_info beyond)) s (chunks ++ [[]]) := rfl

end Serve

/-- A body that stays below the limit is handled as a whole however it comes, and is followed by a NUL in the buffer;
another one is refused at the chunk that reaches the limit. No byte is written at the last index of the buffer or behind
it. -/
theorem serve_chunks (lib : Library) (max_fps : ℤ) (beyond : ℕ → UInt8) (r : HttpRequest) (io : Io) (s : State)
    (body : List UInt8) (chunks : List (List UInt8)) (hsplit : chunks.flatten = body)
    (hchunks : ∀ chunk ∈ chunks, chunk ≠ []) (hsize : body.length < 2 ^ 63) :
    (body.length < MAX_UPLOAD_SIZE → ∃ info,
      serve lib max_fps beyond r io s chunks =
          (.handled (handler lib max_fps s { r with body := body } io).1, some info,
            (handler lib max_fps s { r with body := body } io).2) ∧
        info.data = memcpy (allocated beyond) 0 body ∧ info.bytes.take (body.length + 1) = body ++ [0] ∧
        ∀ i ∈ info.written, i < MAX_UPLOAD_SIZE - 1) ∧
    (MAX_UPLOAD_SIZE ≤ body.length → ∃ front chunk back info, chunks = front ++ chunk :: back ∧
      front.flatten.length < MAX_UPLOAD_SIZE ∧ MAX_UPLOAD_SIZE ≤ front.flatten.length + chunk.length ∧
        calls lib max_fps beyond r io none s ([] :: front) = (.received, some info, s) ∧
        serve lib max_fps beyond r io s chunks = (.refused, some info, s) ∧
        ∀ i ∈ info.written, i < MAX_UPLOAD_SIZE - 1) := by
  subst hsplit
  constructor
  · intro hfits
    obtain ⟨info, hrun, hreceived⟩ := run_receive_fits (received_fresh beyond) (by simpa using hfits)
    rw [List.nil_append] at hreceived
    refine ⟨info, ?_, hreceived.data, ?_, fun i hi => ?_⟩
    · rw [serve_eq, calls_append hrun hchunks, calls_last, handler_congr hreceived.c_bytes]
    · have hzeros : 0 < MAX_UPLOAD_SIZE - chunks.flatten.length := Nat.sub_pos_of_lt hfits
      rw [hreceived.bytes, List.take_append, List.take_of_length_le (Nat.le_succ _), Nat.add_sub_cancel_left,
        List.take_replicate, Nat.min_eq_left hzeros]
      rfl
    · have hi' := hreceived.written i hi
      omega
  · intro hlimit
    obtain ⟨front, chunk, back, info, rfl, hrun, hreceived, hrefused, hreached⟩ :=
      run_receive_refused (received_fresh beyond) (by simpa using hlimit) hsize
    rw [List.nil_append] at hreceived hreached
    have hfits := hreceived.fits
    obtain ⟨hfront, hback⟩ := List.forall_mem_append.mp hchunks
    refine ⟨front, chunk, back, info, rfl, hfits, hreached, ?_, ?_, fun i hi => ?_⟩
    · have hcalls := @calls_append lib max_fps beyond r io s _ _ _ [] hrun hfront
      rw [List.append_nil] at hcalls
      exact hcalls
    · rw [serve_eq, List.append_assoc, calls_append hrun hfront]
      exact calls_refused hrefused (hback chunk List.mem_cons_self)
    · have hi' := hreceived.written i hi
      omega

/-- A body of two bytes, in two chunks. -/
theorem serve_chunks_two :
    ∃ info, serve sample_library 60 (fun _ => 255) sample_reboot sample_http_io sample_state [[91], [93]] =
          (.handled (handler sample_library 60 sample_state { sample_reboot with body := [91, 93] } sample_http_io).1,
            some info,
            (handler sample_library 60 sample_state { sample_reboot with body := [91, 93] } sample_http_io).2) ∧
        info.data = memcpy (allocated fun _ => 255) 0 [91, 93] ∧ info.bytes.take 3 = [91, 93] ++ [0] ∧
        ∀ i ∈ info.written, i < MAX_UPLOAD_SIZE - 1 :=
  (serve_chunks sample_library 60 (fun _ => 255) sample_reboot sample_http_io sample_state [91, 93] [[91], [93]] rfl
    (by decide) (by decide)).1 (by decide)

end k180.restful_api_server.http
