import K180.Rtsp.Viewers

namespace k180.rtsp_attach

/-- What an operation does to the count of `s` in the end. -/
def weight (s : Stream) : Op → ℤ
  | .fetch_add t => if t = s then 1 else 0
  | .load t => if t = s then -1 else 0
  | .compare_exchange_weak t _ _ => if t = s then -1 else 0
  | _ => 0

def State.next_op (σ : State) : Action → Option Op
  | .op i _ => σ.callbacks[i]?.bind List.head?
  | _ => none

theorem active_stream_id_inj {s t : Stream} (hid : active_stream_id s = active_stream_id t) : s = t := by
  cases s with
  | h265 k =>
    cases t with
    | h265 k' =>
      obtain rfl := stream_index_inj k k' hid
      rfl
    | h264 g v _ =>
      have hlt := stream_index_lt k
      simp only [active_stream_id, kStreams] at hid hlt
      omega
  | h264 g v hview =>
    cases t with
    | h265 k =>
      have hlt := stream_index_lt k
      simp only [active_stream_id, kStreams] at hid hlt
      omega
    | h264 g' v' hview' =>
      obtain ⟨rfl, rfl⟩ := h264_index_inj g g' v v' hview hview' (Nat.add_left_cancel hid)
      rfl

theorem active_stream_id_beq (s t : Stream) :
    (active_stream_id t == active_stream_id s) = (t == s) := by
  apply Bool.eq_iff_iff.mpr
  rw [beq_iff_eq, beq_iff_eq]
  exact ⟨active_stream_id_inj, fun h => h ▸ rfl⟩

theorem is_active_eq (client : ClientTrackState) (s : Stream) :
    client.is_active s = decide (s ∈ client.active) := by
  simp only [ClientTrackState.is_active, active_stream_id_beq, List.any_beq']
  exact List.contains_eq_mem s client.active

section Sections

/-- What the section of a client callback must do: keep the list free of duplicates, and change the
counts as it changes the list. -/
def Accounted (client : ClientTrackState) (after : ClientTrackState × List Op) : Prop :=
  after.1.live = client.live ∧ after.1.active.Nodup ∧
    (∀ s, (after.2.map (weight s)).sum =
      (if s ∈ after.1.active then 1 else 0) - if s ∈ client.active then 1 else 0) ∧
    ∀ s, .exchange_true s ∉ after.2 ∧ .connect_signals s ∉ after.2 ∧ .delete_ctx s ∉ after.2

variable {client : ClientTrackState} (hnodup : client.active.Nodup)
include hnodup

theorem start_client_stream_accounted (t : Stream) :
    Accounted client (start_client_stream client t) := by
  rw [start_client_stream, is_active_eq]
  by_cases ht : t ∈ client.active
  · rw [if_pos (decide_eq_true ht)]
    refine ⟨rfl, hnodup, fun s => ?_, fun s => by simp⟩
    simp [weight]
  · rw [if_neg (by simpa using ht)]
    refine ⟨rfl, ?_, fun s => ?_, fun s => by simp⟩
    · apply List.nodup_append.mpr
      refine ⟨hnodup, List.nodup_singleton t, ?_⟩
      rintro a ha b hb rfl
      exact ht (List.mem_singleton.mp hb ▸ ha)
    · by_cases hs : t = s
      · subst hs
        simp [weight, ht]
      · have hst : s ≠ t := fun h => hs h.symm
        simp [weight, hs, hst]

theorem release_all_streams_locked_accounted :
    Accounted client (release_all_streams_locked client) := by
  refine ⟨rfl, List.nodup_nil, fun s => ?_, fun s => by simp [release_all_streams_locked]⟩
  have hcount : ∀ streams : List Stream,
      ((streams.map Op.load).map (weight s)).sum = -(streams.count s : ℤ) := by
    intro streams
    induction streams with
    | nil => rfl
    | cons t rest ih =>
      rw [List.map_cons, List.map_cons, List.sum_cons, ih, List.count_cons]
      by_cases hs : t = s
      · simp [weight, hs]
      · simp [weight, hs]
  rw [release_all_streams_locked, hcount, hnodup.count]
  simp

theorem stop_client_stream_accounted (path : Option Stream) :
    Accounted client (stop_client_stream client path) := by
  cases path with
  | none => exact release_all_streams_locked_accounted hnodup
  | some t =>
    rw [stop_client_stream, is_active_eq]
    by_cases ht : t ∈ client.active
    · rw [if_pos (decide_eq_true ht)]
      simp only [active_stream_id_beq]
      rw [← List.erase_eq_eraseP']
      refine ⟨rfl, hnodup.erase t, fun s => ?_, fun s => by simp⟩
      by_cases hs : t = s
      · subst hs
        simp [weight, ht, hnodup.mem_erase_iff]
      · have hst : s ≠ t := fun h => hs h.symm
        simp [weight, hs, hst, hnodup.mem_erase_iff]
    · rw [if_neg (by simpa using ht)]
      refine ⟨rfl, hnodup, fun s => ?_, fun s => by simp⟩
      simp

end Sections

theorem watches_eq (client : ClientTrackState) (s : Stream) :
    client.watches s = (client.live && decide (s ∈ client.active)) := rfl

section Updates

variable (σ : State) (s t : Stream)

@[simp] theorem viewers_set_viewers (count : ℤ) :
    (σ.set_viewers t count).viewers s = if t = s then count else σ.viewers s := by
  simp only [State.set_viewers, Function.update_apply, eq_comm]

@[simp] theorem viewers_set_ctx (ctx : FactoryCtx) : (σ.set_ctx t ctx).viewers = σ.viewers := rfl

@[simp] theorem ctx_set_ctx (ctx : FactoryCtx) :
    (σ.set_ctx t ctx).ctx s = if t = s then ctx else σ.ctx s := by
  simp only [State.set_ctx, Function.update_apply, eq_comm]

end Updates

/-- No client has a stream in its list twice. -/
def ListsNodup (σ : State) : Prop := ∀ client ∈ σ.clients, client.active.Nodup

theorem lock_guard_cases {σ σ' : State} {c : ℕ}
    {locked_section : ClientTrackState → ClientTrackState × List Op}
    (hguard : σ.lock_guard c locked_section = some σ') :
    ∃ client, σ.clients[c]? = some client ∧ client.live = true ∧ σ' =
      { σ with
        clients := σ.clients.set c { (locked_section client).1 with locked := true }
        callbacks := σ.callbacks ++ [(locked_section client).2 ++ [.unlock c]] } := by
  rw [State.lock_guard] at hguard
  split at hguard
  · rename_i client hget
    split at hguard
    · rename_i hfree
      exact ⟨client, hget, hfree.1, (Option.some.inj hguard).symm⟩
    · cases hguard
  · cases hguard

theorem destroy_client_track_state_cases {σ σ' : State} {c : ℕ}
    (hdestroy : σ.destroy_client_track_state c = some σ') :
    ∃ client, σ.clients[c]? = some client ∧ client.live = true ∧ σ' =
      { σ with
        clients := σ.clients.set c { (release_all_streams_locked client).1 with live := false }
        callbacks := σ.callbacks ++ [(release_all_streams_locked client).2] } := by
  rw [State.destroy_client_track_state] at hdestroy
  split at hdestroy
  · rename_i client hget
    split at hdestroy
    · rename_i hfree
      exact ⟨client, hget, hfree.1, (Option.some.inj hdestroy).symm⟩
    · cases hdestroy
  · cases hdestroy

theorem op_cases {σ σ' : State} {i : ℕ} {spurious : Bool} (hstep : step σ (.op i spurious) = some σ') :
    ∃ next rest, σ.callbacks[i]? = some (next :: rest) ∧ σ.next_op (.op i spurious) = some next ∧
      σ' = { (exec σ spurious next).1 with
        callbacks := σ.callbacks.set i ((exec σ spurious next).2 ++ rest) } := by
  rw [step] at hstep
  split at hstep
  · rename_i next rest hget
    refine ⟨next, rest, hget, ?_, (Option.some.inj hstep).symm⟩
    simp [State.next_op, hget]
  · cases hstep

/-- What a step can do that is not the next operation of a callback. -/
inductive Starts (σ : State) : State → Prop
  | nothing : Starts σ σ
  | connected : Starts σ { σ with clients := σ.clients ++ [⟨true, false, []⟩] }
  | client {c : ℕ} {client client' : ClientTrackState} {ops : List Op}
      (hget : σ.clients[c]? = some client) (hnodup : client'.active.Nodup)
      (hops : ∀ s, (ops.map (weight s)).sum =
        (if client'.watches s then 1 else 0) - if client.watches s then 1 else 0)
      (hmedia : ∀ s, .exchange_true s ∉ ops ∧ .connect_signals s ∉ ops ∧ .delete_ctx s ∉ ops) :
      Starts σ { σ with clients := σ.clients.set c client', callbacks := σ.callbacks ++ [ops] }
  | configure {s : Stream} (hphase : (σ.ctx s).phase = .registered) :
      Starts σ (σ.spawn [.exchange_true s, .connect_signals s])
  | unprepared {s : Stream} : Starts σ (σ.spawn [.exchange_false s])
  | destroy {s : Stream} (hphase : (σ.ctx s).phase = .registered) (hidle : σ.configuring s = false) :
      Starts σ ((σ.set_ctx s { σ.ctx s with phase := .erased }).spawn [.exchange_false s, .delete_ctx s])
  | record {k : StreamKey} {on : Bool} :
      Starts σ { σ with record_enabled := Function.update σ.record_enabled k on }

theorem starts_lock_guard {σ σ' : State} {c : ℕ}
    {locked_section : ClientTrackState → ClientTrackState × List Op}
    (haccounted : ∀ client ∈ σ.clients, Accounted client (locked_section client))
    (hguard : σ.lock_guard c locked_section = some σ') : Starts σ σ' := by
  obtain ⟨client, hget, hlive, rfl⟩ := lock_guard_cases hguard
  obtain ⟨hlive', hnodup, hops, hmedia⟩ := haccounted client (List.mem_of_getElem? hget)
  refine .client hget hnodup (fun s => ?_) (fun s => ?_)
  · simp [hops, watches_eq, hlive, hlive', weight]
  · simpa using hmedia s

theorem starts_destroy_client {σ σ' : State} {c : ℕ} (hlists : ListsNodup σ)
    (hdestroy : σ.destroy_client_track_state c = some σ') : Starts σ σ' := by
  obtain ⟨client, hget, hlive, rfl⟩ := destroy_client_track_state_cases hdestroy
  obtain ⟨_, hnodup, hops, hmedia⟩ :=
    release_all_streams_locked_accounted (hlists client (List.mem_of_getElem? hget))
  refine .client hget hnodup (fun s => ?_) hmedia
  rw [hops]
  simp [watches_eq, hlive, release_all_streams_locked]

/-- A step does the next operation of a callback, or it starts something. -/
theorem step_cases {σ σ' : State} {a : Action} (hlists : ListsNodup σ) (hstep : step σ a = some σ') :
    (∃ i spurious next rest, σ.callbacks[i]? = some (next :: rest) ∧ σ.next_op a = some next ∧
      σ' = { (exec σ spurious next).1 with
        callbacks := σ.callbacks.set i ((exec σ spurious next).2 ++ rest) }) ∨
    σ.next_op a = none ∧ Starts σ σ' := by
  cases a with
  | op i spurious =>
    obtain ⟨next, rest, hget, hnext, hafter⟩ := op_cases hstep
    exact .inl ⟨i, spurious, next, rest, hget, hnext, hafter⟩
  | client_connected =>
    obtain rfl := Option.some.inj hstep
    exact .inr ⟨rfl, .connected⟩
  | start_request c path =>
    refine .inr ⟨rfl, ?_⟩
    cases path with
    | none =>
      obtain rfl := Option.some.inj hstep
      exact .nothing
    | some t =>
      apply starts_lock_guard (fun client hclient => ?_) hstep
      exact start_client_stream_accounted (hlists client hclient) t
  | stop_request c path =>
    refine .inr ⟨rfl, starts_lock_guard (fun client hclient => ?_) hstep⟩
    exact stop_client_stream_accounted (hlists client hclient) path
  | closed c =>
    refine .inr ⟨rfl, starts_lock_guard (fun client hclient => ?_) hstep⟩
    exact release_all_streams_locked_accounted (hlists client hclient)
  | destroy_client c => exact .inr ⟨rfl, starts_destroy_client hlists hstep⟩
  | media_configure t =>
    rw [step] at hstep
    split at hstep
    · rename_i hphase
      obtain rfl := Option.some.inj hstep
      exact .inr ⟨rfl, .configure hphase⟩
    · cases hstep
  | media_unprepared t =>
    rw [step] at hstep
    split at hstep
    · obtain rfl := Option.some.inj hstep
      exact .inr ⟨rfl, .unprepared⟩
    · cases hstep
  | destroy_ctx t =>
    rw [step] at hstep
    split at hstep
    · rename_i hfree
      obtain rfl := Option.some.inj hstep
      exact .inr ⟨rfl, .destroy hfree.1 hfree.2⟩
    · cases hstep
  | set_record k on =>
    obtain rfl := Option.some.inj hstep
    exact .inr ⟨rfl, .record⟩

theorem exec_listsNodup {σ : State} (hlists : ListsNodup σ) (spurious : Bool) (next : Op) :
    ListsNodup (exec σ spurious next).1 := by
  cases next with
  | compare_exchange_weak s cur hcur =>
    rw [exec]
    split
    · exact hlists
    · exact hlists
  | unlock c =>
    intro client hclient
    obtain ⟨i, hi⟩ := List.mem_iff_getElem?.mp hclient
    rw [exec, List.getElem?_modify] at hi
    obtain ⟨before, hbefore, rfl⟩ := Option.map_eq_some_iff.mp hi
    have hnodup := hlists before (List.mem_of_getElem? hbefore)
    split
    · exact hnodup
    · exact hnodup
  | _ => exact hlists

theorem step_listsNodup {σ σ' : State} {a : Action} (hlists : ListsNodup σ)
    (hstep : step σ a = some σ') : ListsNodup σ' := by
  obtain ⟨i, spurious, next, rest, hget, hnext, rfl⟩ | ⟨hnext, hstarts⟩ := step_cases hlists hstep
  · exact exec_listsNodup hlists spurious next
  · cases hstarts with
    | connected =>
      intro client hclient
      obtain hmem | hmem := List.mem_append.mp hclient
      · exact hlists client hmem
      · obtain rfl := List.mem_singleton.mp hmem
        exact List.nodup_nil
    | client hget hnodup hops hmedia =>
      intro client hclient
      obtain hmem | rfl := List.mem_or_eq_of_mem_set hclient
      · exact hlists client hmem
      · exact hnodup
    | _ => exact hlists

end k180.rtsp_attach
