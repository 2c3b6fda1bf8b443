import K180.Rtsp.ViewerContexts
import K180.Schedule.Owed

open schedule

namespace k180.rtsp_attach

/-- What the count of `s` should be: the live clients that have it in their list, and one for the
bootstrap. -/
def State.expected (σ : State) (s : Stream) : ℤ :=
  σ.watching s + if (σ.ctx s).bootstrap_active then 1 else 0

/-- How far the count of `s` will be off when the callbacks in progress have finished. -/
def State.excess (σ : State) (s : Stream) : ℤ :=
  σ.viewers s + owed (weight s) σ.callbacks - σ.expected s

/-- The stream whose count a decrement takes from. -/
def Op.takes : Op → Option Stream
  | .load s | .compare_exchange_weak s _ _ => some s
  | _ => none

/-- The stream whose factory context an operation reads or writes. -/
def Op.uses_ctx : Op → Option Stream
  | .exchange_false s | .exchange_true s | .connect_signals s => some s
  | _ => none

/-- No decrement finds the count at zero. -/
def DecrementsCount (σ : State) (a : Action) : Prop :=
  ∀ next ∈ σ.next_op a, ∀ s ∈ next.takes, 0 < σ.viewers s

/-- No factory context is used after it has been deleted. -/
def CtxAlive (σ : State) (a : Action) : Prop :=
  ∀ next ∈ σ.next_op a, ∀ s ∈ next.uses_ctx, (σ.ctx s).phase ≠ .deleted

instance (σ : State) (a : Action) : Decidable (DecrementsCount σ a) :=
  inferInstanceAs (Decidable (∀ next ∈ σ.next_op a, ∀ s ∈ next.takes, 0 < σ.viewers s))

instance (σ : State) (a : Action) : Decidable (CtxAlive σ a) :=
  inferInstanceAs (Decidable (∀ next ∈ σ.next_op a, ∀ s ∈ next.uses_ctx, (σ.ctx s).phase ≠ .deleted))

instance (σ : State) : Decidable σ.Idle :=
  inferInstanceAs (Decidable (∀ ops ∈ σ.callbacks, ops = []))

/-- The decrements of `s` that an operation gives up because it finds no count to take from. -/
def dropped (σ : State) (s : Stream) (next : Op) : ℤ :=
  if next.takes = some s ∧ σ.viewers s ≤ 0 then 1 else 0

/-- The decrements of `s` that a step gives up. -/
def dropped_by (σ : State) (a : Action) (s : Stream) : ℤ := (σ.next_op a).elim 0 (dropped σ s)

/-- A client is replaced: the clients that have `s` in their list are counted as before but for it. -/
theorem countP_watches_set {clients : List ClientTrackState} {c : ℕ} {client : ClientTrackState}
    (hget : clients[c]? = some client) (client' : ClientTrackState) (s : Stream) :
    ((clients.set c client').countP fun client => client.watches s : ℤ) =
      (clients.countP fun client => client.watches s : ℤ) - (if client.watches s then 1 else 0) +
        if client'.watches s then 1 else 0 := by
  obtain ⟨hlt, rfl⟩ := List.getElem?_eq_some_iff.mp hget
  rw [List.countP_set hlt]
  have hle : (if (clients[c]).watches s then 1 else 0) ≤
      clients.countP fun client => client.watches s := by
    split
    · rename_i hwatches
      exact List.countP_pos_iff.mpr ⟨clients[c], List.getElem_mem hlt, hwatches⟩
    · exact Nat.zero_le _
  push_cast [hle]
  rfl

theorem countP_watches_unlock (clients : List ClientTrackState) (c : ℕ) (s : Stream) :
    (clients.modify c fun client => { client with locked := false }).countP
        (fun client => client.watches s) = clients.countP fun client => client.watches s := by
  induction clients generalizing c with
  | nil => simp
  | cons client rest ih =>
    cases c with
    | zero => rw [List.modify_zero_cons, List.countP_cons, List.countP_cons, watches_eq, watches_eq]
    | succ c => rw [List.modify_succ_cons, List.countP_cons, List.countP_cons, ih]

/-- The loop of a decrement goes on, or it gives the decrement up. -/
theorem sum_weight_try_dec (s t : Stream) (cur : ℤ) :
    ((try_dec t cur).map (weight s)).sum =
      (if t = s then -1 else 0) + if t = s ∧ cur ≤ 0 then 1 else 0 := by
  rw [try_dec]
  by_cases hs : t = s
  · by_cases hcur : 0 < cur
    · simp [hs, hcur, weight]
    · simp [hs, hcur, not_lt.mp hcur]
  · split <;> simp [hs, weight]

@[simp] theorem expected_set_viewers (σ : State) (s t : Stream) (count : ℤ) :
    (σ.set_viewers t count).expected s = σ.expected s := rfl

theorem expected_set_ctx (σ : State) (s t : Stream) (ctx : FactoryCtx) :
    (σ.set_ctx t ctx).expected s =
      σ.watching s + if (if t = s then ctx else σ.ctx s).bootstrap_active then 1 else 0 := by
  rw [State.expected, ctx_set_ctx]
  rfl

/-- One operation moves the count and what is owed to it as its weight says, unless it drops a
decrement. -/
theorem exec_accounted (σ : State) (spurious : Bool) (next : Op) (s : Stream) :
    (exec σ spurious next).1.viewers s + ((exec σ spurious next).2.map (weight s)).sum -
        (exec σ spurious next).1.expected s =
      σ.viewers s + weight s next - σ.expected s + dropped σ s next := by
  cases next with
  | fetch_add t =>
    by_cases hs : t = s
    · simp [exec, weight, dropped, Op.takes, hs]
    · simp [exec, weight, dropped, Op.takes, hs]
  | load t =>
    simp only [exec, sum_weight_try_dec, weight, dropped, Op.takes, Option.some.injEq]
    by_cases hs : t = s
    · subst hs
      ring
    · simp [hs]
  | compare_exchange_weak t cur hcur =>
    rw [exec]
    by_cases hequal : σ.viewers t = cur ∧ spurious = false
    · rw [if_pos hequal]
      obtain ⟨rfl, _⟩ := hequal
      by_cases hs : t = s
      · subst hs
        have hpos : ¬ σ.viewers t ≤ 0 := not_le.mpr hcur
        simp [weight, dropped, Op.takes, hpos]
        ring
      · simp [weight, dropped, Op.takes, hs]
    · simp only [if_neg hequal, sum_weight_try_dec, weight, dropped, Op.takes, Option.some.injEq]
      by_cases hs : t = s
      · subst hs
        ring
      · simp [hs]
  | find_ctx t =>
    rw [exec]
    split <;> simp [weight, dropped, Op.takes]
  | exchange_false t =>
    rw [exec, expected_set_ctx, State.expected]
    by_cases hs : t = s
    · subst hs
      cases hflag : (σ.ctx t).bootstrap_active with
      | true => simp [weight, dropped, Op.takes]; ring
      | false => simp [weight, dropped, Op.takes]
    · cases (σ.ctx t).bootstrap_active <;> simp [weight, dropped, Op.takes, hs]
  | exchange_true t =>
    rw [exec, expected_set_ctx, State.expected]
    by_cases hs : t = s
    · subst hs
      cases hflag : (σ.ctx t).bootstrap_active with
      | true => simp [weight, dropped, Op.takes]
      | false => simp [weight, dropped, Op.takes]
    · cases (σ.ctx t).bootstrap_active <;> simp [weight, dropped, Op.takes, hs]
  | connect_signals t =>
    rw [exec, expected_set_ctx, State.expected]
    by_cases hs : t = s
    · subst hs
      simp [weight, dropped, Op.takes]
    · simp [weight, dropped, Op.takes, hs]
  | delete_ctx t =>
    rw [exec, expected_set_ctx, State.expected]
    by_cases hs : t = s
    · subst hs
      simp [weight, dropped, Op.takes]
    · simp [weight, dropped, Op.takes, hs]
  | unlock c =>
    simp [exec, weight, dropped, Op.takes, State.expected, State.watching, countP_watches_unlock]
    rfl

theorem excess_spawn {σ : State} {ops : List Op} (s : Stream) (hops : (ops.map (weight s)).sum = 0) :
    (σ.spawn ops).excess s = σ.excess s := by
  have howed := owed_append (weight s) σ.callbacks ops
  rw [hops, add_zero] at howed
  rw [State.excess, State.spawn, howed]
  rfl

/-- A callback that starts leaves nothing off that was not before. -/
theorem starts_excess {σ σ' : State} (hstarts : Starts σ σ') (s : Stream) :
    σ'.excess s = σ.excess s := by
  cases hstarts with
  | nothing => rfl
  | connected => simp [State.excess, State.expected, State.watching, watches_eq]
  | client hget hnodup hops hmedia =>
    simp only [State.excess, State.expected, State.watching, owed_append, hops,
      countP_watches_set hget]
    ring
  | configure hphase => exact excess_spawn s rfl
  | unprepared => exact excess_spawn s rfl
  | destroy hphase hidle =>
    rename_i t
    rw [excess_spawn s rfl, State.excess, expected_set_ctx, State.excess, State.expected]
    by_cases hs : t = s
    · rw [if_pos hs, hs]
      rfl
    · rw [if_neg hs]
      rfl
  | record => rfl

theorem excess_op {σ : State} {i : ℕ} {next : Op} {rest : List Op} (spurious : Bool)
    (hget : σ.callbacks[i]? = some (next :: rest)) (s : Stream) :
    State.excess { (exec σ spurious next).1 with
      callbacks := σ.callbacks.set i ((exec σ spurious next).2 ++ rest) } s =
        σ.excess s + dropped σ s next := by
  have haccounted := exec_accounted σ spurious next s
  have howed := owed_set (weight s) hget ((exec σ spurious next).2 ++ rest)
  rw [List.map_append, List.sum_append, List.map_cons, List.sum_cons] at howed
  have hexpected : State.expected { (exec σ spurious next).1 with
      callbacks := σ.callbacks.set i ((exec σ spurious next).2 ++ rest) } s =
        (exec σ spurious next).1.expected s := rfl
  rw [State.excess, State.excess, hexpected, howed]
  linarith

/-- One step changes how far the counts will be off only by the decrements it gives up. -/
theorem step_excess {σ σ' : State} {a : Action} (hlists : ListsNodup σ) (hstep : step σ a = some σ')
    (s : Stream) : σ'.excess s = σ.excess s + dropped_by σ a s := by
  obtain ⟨i, spurious, next, rest, hget, hnext, rfl⟩ | ⟨hnext, hstarts⟩ := step_cases hlists hstep
  · rw [excess_op spurious hget, dropped_by, hnext, Option.elim_some]
  · rw [starts_excess hstarts, dropped_by, hnext, Option.elim_none, add_zero]

/-- The loop of `viewer_dec` keeps every count at zero or above. -/
theorem step_viewers_nonneg {σ σ' : State} {a : Action} (hlists : ListsNodup σ)
    (hnonneg : ∀ s, 0 ≤ σ.viewers s) (hstep : step σ a = some σ') (s : Stream) : 0 ≤ σ'.viewers s := by
  have hs := hnonneg s
  obtain ⟨i, spurious, next, rest, hget, hnext, rfl⟩ | ⟨hnext, hstarts⟩ := step_cases hlists hstep
  · cases next with
    | fetch_add t =>
      have ht := hnonneg t
      simp only [exec, viewers_set_viewers]
      split <;> omega
    | compare_exchange_weak t cur hcur =>
      simp only [exec]
      split
      · rw [viewers_set_viewers]
        split <;> omega
      · exact hs
    | _ => exact hs
  · cases hstarts with
    | _ => exact hs

/-- What holds of every state the server can reach. -/
structure Reached (σ : State) : Prop where
  lists : ListsNodup σ
  contexts : ContextsOk σ
  nonneg : ∀ s, 0 ≤ σ.viewers s

theorem attached_reached (record_enabled : StreamKey → Bool) : Reached (attached record_enabled) where
  lists client hclient := by cases hclient
  contexts := by
    constructor
    · intro s ops hmem
      cases hmem
    · intro s ops hmem
      cases hmem
    · intro s ops hmem
      cases hmem
    · intro s hdeleted
      rfl
  nonneg s := le_rfl

theorem step_reached {σ σ' : State} {a : Action} (hreached : Reached σ)
    (hstep : step σ a = some σ') : Reached σ' where
  lists := step_listsNodup hreached.lists hstep
  contexts := by
    obtain ⟨i, spurious, next, rest, hget, hnext, rfl⟩ | ⟨hnext, hstarts⟩ :=
      step_cases hreached.lists hstep
    · exact op_contextsOk hreached.contexts spurious hget
    · exact starts_contextsOk hreached.contexts hstarts
  nonneg := step_viewers_nonneg hreached.lists hreached.nonneg hstep

theorem dropped_by_nonneg (σ : State) (a : Action) (s : Stream) : 0 ≤ dropped_by σ a s := by
  rw [dropped_by]
  cases σ.next_op a with
  | none => exact le_rfl
  | some next =>
    rw [Option.elim_some, dropped]
    split
    · exact zero_le_one
    · exact le_rfl

theorem decrementsCount_iff (σ : State) (a : Action) :
    DecrementsCount σ a ↔ ∀ s, dropped_by σ a s = 0 := by
  rw [DecrementsCount]
  simp only [dropped_by]
  cases σ.next_op a with
  | none => simp
  | some next =>
    simp only [Option.mem_def, Option.some.injEq, forall_eq', Option.elim_some, dropped]
    apply forall_congr'
    intro s
    by_cases htakes : next.takes = some s
    · simp [htakes]
    · simp [htakes]

theorem excess_of_idle {σ : State} (hidle : σ.Idle) (s : Stream) :
    σ.excess s = σ.viewers s - σ.expected s := by
  rw [State.excess, owed_of_idle _ hidle, add_zero]

theorem run_reached {σ σ' : State} {actions : List Action} (hreached : Reached σ)
    (hrun : run step σ actions = some σ') : Reached σ' :=
  invariant_of_run (fun _ _ _ => step_reached) hreached hrun

/-- What a count is off never goes down again. -/
theorem run_excess_le {σ σ' : State} {actions : List Action} (hreached : Reached σ)
    (hrun : run step σ actions = some σ') (s : Stream) : σ.excess s ≤ σ'.excess s := by
  induction actions generalizing σ with
  | nil =>
    obtain rfl := Option.some.inj hrun
    exact le_rfl
  | cons a rest ih =>
    obtain ⟨mid, hmid, hrest⟩ := run_cons_eq_some_iff.mp hrun
    have hle := ih (step_reached hreached hmid) hrest
    have hnonneg := dropped_by_nonneg σ a s
    rw [step_excess hreached.lists hmid] at hle
    omega

/-- A run leaves the counts off exactly by the decrements that are given up in it. -/
theorem run_excess_iff {σ σ' : State} {actions : List Action} (hreached : Reached σ)
    (hrun : run step σ actions = some σ') :
    (∀ s, σ'.excess s = σ.excess s) ↔ Meets step DecrementsCount σ actions := by
  induction actions generalizing σ with
  | nil =>
    obtain rfl := Option.some.inj hrun
    exact ⟨fun _ => trivial, fun _ s => rfl⟩
  | cons a rest ih =>
    obtain ⟨mid, hmid, hrest⟩ := run_cons_eq_some_iff.mp hrun
    have hreached' := step_reached hreached hmid
    have hstep := step_excess hreached.lists hmid
    constructor
    · intro hequal
      have hzero : ∀ s, dropped_by σ a s = 0 := by
        intro s
        have hle := run_excess_le hreached' hrest s
        have hnonneg := dropped_by_nonneg σ a s
        rw [hequal, hstep] at hle
        omega
      refine ⟨(decrementsCount_iff σ a).mpr hzero, fun next hnext => ?_⟩
      obtain rfl := Option.some.inj (hmid.symm.trans hnext)
      apply (ih hreached' hrest).mp
      intro s
      rw [hequal, hstep, hzero, add_zero]
    · rintro ⟨hcount, hmeets⟩ s
      rw [(ih hreached' hrest).mpr (hmeets mid hmid) s, hstep, (decrementsCount_iff σ a).mp hcount,
        add_zero]

theorem attached_excess (record_enabled : StreamKey → Bool) (s : Stream) :
    (attached record_enabled).excess s = 0 := rfl

/-- Once no callback is left, the counts are right exactly when no decrement was given up on the way. -/
theorem viewers_eq_expected_iff {record_enabled : StreamKey → Bool} {actions : List Action} {σ : State}
    (hrun : run step (attached record_enabled) actions = some σ) (hidle : σ.Idle) :
    (∀ s, σ.viewers s = σ.expected s) ↔
      Meets step DecrementsCount (attached record_enabled) actions := by
  rw [← run_excess_iff (attached_reached record_enabled) hrun]
  apply forall_congr'
  intro s
  rw [excess_of_idle hidle, attached_excess, sub_eq_zero]

/-- The encoder of `s` is fed exactly when somebody watches. -/
theorem want_push_eq_false_iff {σ : State} {s : Stream} (hequal : σ.viewers s = σ.expected s) :
    σ.want_push s = false ↔
      σ.watching s = 0 ∧ (σ.ctx s).bootstrap_active = false ∧ σ.recording s = false := by
  rw [State.want_push, hequal, State.expected, Bool.or_eq_false_iff, decide_eq_false_iff_not, ← and_assoc]
  apply and_congr_left
  intro _
  cases (σ.ctx s).bootstrap_active with
  | true =>
    have hpos : 0 < (σ.watching s : ℤ) + 1 := by positivity
    simp [hpos]
  | false => simp

/-- In every run in which no decrement finds the count at zero and no deleted context is used, the
counts are never negative, and right whenever no callback is in progress. -/
theorem viewers_accounted {record_enabled : StreamKey → Bool} {actions : List Action} {σ : State}
    (hrun : run step (attached record_enabled) actions = some σ)
    (hmeets : Meets step (fun σ a => DecrementsCount σ a ∧ CtxAlive σ a) (attached record_enabled)
      actions) (s : Stream) :
    0 ≤ σ.viewers s ∧ ((σ.ctx s).phase = .deleted → (σ.ctx s).bootstrap_active = false) ∧
      (σ.Idle → σ.viewers s = σ.watching s + (if (σ.ctx s).bootstrap_active then 1 else 0) ∧
        (σ.want_push s = false ↔
          σ.watching s = 0 ∧ (σ.ctx s).bootstrap_active = false ∧ σ.recording s = false)) := by
  have hreached := run_reached (attached_reached record_enabled) hrun
  refine ⟨hreached.nonneg s, hreached.contexts.deleted_released s, fun hidle => ?_⟩
  have hcounts := hmeets.mono fun _ _ hcond => hcond.1
  have hequal := (viewers_eq_expected_iff hrun hidle).mpr hcounts s
  exact ⟨hequal, want_push_eq_false_iff hequal⟩

def sample_stream : Stream := .h265 ⟨.S1, .V1⟩

/-- Callback `i` does its next `count` operations. -/
def ops (i count : ℕ) : List Action := List.replicate count (.op i false)

/-- A media is configured, and a client watches it until it is closed. -/
def watch_once : List Action :=
  [.media_configure sample_stream] ++ ops 0 3 ++
    [.client_connected, .start_request 0 (some sample_stream)] ++ ops 1 6 ++ [.closed 0] ++ ops 2 3

/-- After `watch_once`, a second media is configured, and the first one is unprepared between the
exchange of the flag and the count. -/
def split_bootstrap : List Action :=
  watch_once ++ [.media_configure sample_stream] ++ ops 3 1 ++ [.media_unprepared sample_stream] ++
    ops 4 2 ++ ops 3 2

theorem viewers_accounted_sample :
    ∃ σ, run step (attached fun _ => false) watch_once = some σ ∧ σ.Idle ∧
      σ.viewers sample_stream = σ.watching sample_stream +
        (if (σ.ctx sample_stream).bootstrap_active then 1 else 0) := by
  obtain ⟨σ, hrun, hidle⟩ : ∃ σ, run step (attached fun _ => false) watch_once = some σ ∧ σ.Idle :=
    ⟨_, rfl, by decide⟩
  have haccounted := viewers_accounted hrun (by decide) sample_stream
  exact ⟨σ, hrun, hidle, (haccounted.2.2 hidle).1⟩

/-- Nobody watches after this run and no bootstrap is left, but the encoder is fed for ever. -/
theorem split_bootstrap_leaves_viewer :
    ∃ σ, run step (attached fun _ => false) split_bootstrap = some σ ∧ σ.Idle ∧
      σ.viewers sample_stream = 1 ∧ σ.watching sample_stream = 0 ∧
      (σ.ctx sample_stream).bootstrap_active = false ∧ σ.recording sample_stream = false ∧
      σ.want_push sample_stream = true := by
  refine ⟨_, rfl, ?_, rfl, rfl, rfl, rfl, rfl⟩
  decide
end k180.rtsp_attach
