import K180.Rtsp.StreamKey
import K180.Schedule.Run

namespace k180.rtsp_attach

/-- How `start_client_stream` and `stop_client_stream` tell streams apart. -/
def active_stream_id : Stream → ℕ
  | .h265 k => stream_index k
  | .h264 g v _ => 1000 + h264_index g v

/-- In `g_factory_ctx_by_id`, erased from it by `destroy_ctx`, or deleted. -/
inductive CtxPhase where
  | registered
  | erased
  | deleted
deriving DecidableEq

/-- The context of a stream's factory; `configured` once a media has its handlers connected. -/
structure FactoryCtx where
  phase : CtxPhase
  bootstrap_active : Bool
  configured : Bool

/-- A client with its `ClientTrackState`; `locked` while a callback holds the mutex of the state. -/
structure ClientTrackState where
  live : Bool
  locked : Bool
  active : List Stream

/-- The single operations on shared data. A compare and exchange is only tried with a positive count. -/
inductive Op where
  | fetch_add (s : Stream)
  | load (s : Stream)
  | compare_exchange_weak (s : Stream) (cur : ℤ) (hcur : 0 < cur)
  | find_ctx (s : Stream)
  | exchange_false (s : Stream)
  | exchange_true (s : Stream)
  | connect_signals (s : Stream)
  | delete_ctx (s : Stream)
  | unlock (c : ℕ)
deriving DecidableEq

/-- The shared data, and what the callbacks in progress have still to do. -/
structure State where
  viewers : Stream → ℤ
  record_enabled : StreamKey → Bool
  ctx : Stream → FactoryCtx
  clients : List ClientTrackState
  callbacks : List (List Op)

/-- The state after `attach_factories`, before the first client. -/
def attached (record_enabled : StreamKey → Bool) : State where
  viewers _ := 0
  record_enabled := record_enabled
  ctx _ := ⟨.registered, false, false⟩
  clients := []
  callbacks := []

/-- What the CAS loop of `viewer_dec` does with the count it has just read. -/
def try_dec (s : Stream) (cur : ℤ) : List Op :=
  if hcur : 0 < cur then [.compare_exchange_weak s cur hcur] else []

def State.set_viewers (σ : State) (s : Stream) (count : ℤ) : State :=
  { σ with viewers := Function.update σ.viewers s count }

def State.set_ctx (σ : State) (s : Stream) (ctx : FactoryCtx) : State :=
  { σ with ctx := Function.update σ.ctx s ctx }

/-- One operation, and what its callback does next because of it. A weak compare and exchange can also
fail when the count is the expected one. -/
def exec (σ : State) (spurious : Bool) : Op → State × List Op
  | .fetch_add s => (σ.set_viewers s (σ.viewers s + 1), [])
  | .load s => (σ, try_dec s (σ.viewers s))
  | .compare_exchange_weak s cur _ =>
    if σ.viewers s = cur ∧ spurious = false then (σ.set_viewers s (cur - 1), [])
    else (σ, try_dec s (σ.viewers s))
  | .find_ctx s => (σ, if (σ.ctx s).phase = .registered then [.exchange_false s] else [])
  | .exchange_false s =>
    (σ.set_ctx s { σ.ctx s with bootstrap_active := false },
      if (σ.ctx s).bootstrap_active then [.load s] else [])
  | .exchange_true s =>
    (σ.set_ctx s { σ.ctx s with bootstrap_active := true },
      if (σ.ctx s).bootstrap_active then [] else [.fetch_add s])
  | .connect_signals s => (σ.set_ctx s { σ.ctx s with configured := true }, [])
  | .delete_ctx s => (σ.set_ctx s { σ.ctx s with phase := .deleted }, [])
  | .unlock c => ({ σ with clients := σ.clients.modify c fun client => { client with locked := false } }, [])

def ClientTrackState.is_active (client : ClientTrackState) (s : Stream) : Bool :=
  client.active.any fun t => active_stream_id t == active_stream_id s

/-- The section of `start_client_stream`: the client it leaves, and what it does to the counts. -/
def start_client_stream (client : ClientTrackState) (s : Stream) : ClientTrackState × List Op :=
  if client.is_active s then (client, [.find_ctx s])
  else ({ client with active := client.active ++ [s] }, [.fetch_add s, .find_ctx s])

def release_all_streams_locked (client : ClientTrackState) : ClientTrackState × List Op :=
  ({ client with active := [] }, client.active.map .load)

/-- The section of `stop_client_stream`, for a request with or without the path of a stream. -/
def stop_client_stream (client : ClientTrackState) : Option Stream → ClientTrackState × List Op
  | none => release_all_streams_locked client
  | some s =>
    if client.is_active s then
      ({ client with
          active := client.active.eraseP fun t => active_stream_id t == active_stream_id s }, [.load s])
    else (client, [])

/-- A callback of client `c` takes the mutex and starts its section; the other callbacks of the client
wait until it unlocks. Nobody else reads the list of the client meanwhile. -/
def State.lock_guard (σ : State) (c : ℕ)
    (locked_section : ClientTrackState → ClientTrackState × List Op) : Option State :=
  match σ.clients[c]? with
  | some client =>
    if client.live ∧ client.locked = false then
      some { σ with
        clients := σ.clients.set c { (locked_section client).1 with locked := true }
        callbacks := σ.callbacks ++ [(locked_section client).2 ++ [.unlock c]] }
    else none
  | none => none

/-- `destroy_client_track_state`, when no other callback of the client is left. -/
def State.destroy_client_track_state (σ : State) (c : ℕ) : Option State :=
  match σ.clients[c]? with
  | some client =>
    if client.live ∧ client.locked = false then
      some { σ with
        clients := σ.clients.set c { (release_all_streams_locked client).1 with live := false }
        callbacks := σ.callbacks ++ [(release_all_streams_locked client).2] }
    else none
  | none => none

def State.spawn (σ : State) (ops : List Op) : State := { σ with callbacks := σ.callbacks ++ [ops] }

/-- What can happen next: a callback starts, recording is switched, or callback `i` does its next
operation. A request comes with the stream that its path names, if it names one. -/
inductive Action where
  | client_connected
  | start_request (c : ℕ) (path : Option Stream)
  | stop_request (c : ℕ) (path : Option Stream)
  | closed (c : ℕ)
  | destroy_client (c : ℕ)
  | media_configure (s : Stream)
  | media_unprepared (s : Stream)
  | destroy_ctx (s : Stream)
  | set_record (k : StreamKey) (on : Bool)
  | op (i : ℕ) (spurious : Bool)

/-- A factory is only destroyed once none of its media is being configured. -/
def State.configuring (σ : State) (s : Stream) : Bool :=
  σ.callbacks.any fun ops => .exchange_true s ∈ ops ∨ .connect_signals s ∈ ops

def step (σ : State) : Action → Option State
  | .client_connected => some { σ with clients := σ.clients ++ [⟨true, false, []⟩] }
  | .start_request _ none => some σ
  | .start_request c (some s) => σ.lock_guard c fun client => start_client_stream client s
  | .stop_request c path => σ.lock_guard c fun client => stop_client_stream client path
  | .closed c => σ.lock_guard c release_all_streams_locked
  | .destroy_client c => σ.destroy_client_track_state c
  | .media_configure s =>
    if (σ.ctx s).phase = .registered then some (σ.spawn [.exchange_true s, .connect_signals s]) else none
  | .media_unprepared s => if (σ.ctx s).configured then some (σ.spawn [.exchange_false s]) else none
  | .destroy_ctx s =>
    if (σ.ctx s).phase = .registered ∧ σ.configuring s = false then
      some ((σ.set_ctx s { σ.ctx s with phase := .erased }).spawn [.exchange_false s, .delete_ctx s])
    else none
  | .set_record k on => some { σ with record_enabled := Function.update σ.record_enabled k on }
  | .op i spurious =>
    match σ.callbacks[i]? with
    | some (next :: rest) =>
      some { (exec σ spurious next).1 with
        callbacks := σ.callbacks.set i ((exec σ spurious next).2 ++ rest) }
    | _ => none

def State.Idle (σ : State) : Prop := ∀ ops ∈ σ.callbacks, ops = []

def ClientTrackState.watches (client : ClientTrackState) (s : Stream) : Bool :=
  client.live && decide (s ∈ client.active)

/-- How many live clients have the stream in their list. -/
def State.watching (σ : State) (s : Stream) : ℕ := σ.clients.countP fun client => client.watches s

def State.recording (σ : State) : Stream → Bool
  | .h265 k => σ.record_enabled k
  | .h264 .. => false

/-- `HubManager::want_push` and `HubManager::want_push_h264`. -/
def State.want_push (σ : State) (s : Stream) : Bool := 0 < σ.viewers s || σ.recording s

end k180.rtsp_attach
