import K180.Rtsp.ViewerSteps

namespace k180.rtsp_attach

/-- The callbacks that set or delete a factory context, and the flag it ends with. -/
structure ContextsOk (σ : State) : Prop where
  exchange_registered : ∀ s, ∀ ops ∈ σ.callbacks, .exchange_true s ∈ ops →
    (σ.ctx s).phase = .registered
  delete_erased : ∀ s, ∀ ops ∈ σ.callbacks, .delete_ctx s ∈ ops → (σ.ctx s).phase ≠ .registered
  delete_released : ∀ s, ∀ ops ∈ σ.callbacks, .delete_ctx s ∈ ops →
    ops = [.exchange_false s, .delete_ctx s] ∨ (σ.ctx s).bootstrap_active = false
  deleted_released : ∀ s, (σ.ctx s).phase = .deleted → (σ.ctx s).bootstrap_active = false

theorem mem_exec {σ : State} {spurious : Bool} {next op : Op} (hmem : op ∈ (exec σ spurious next).2)
    (s : Stream) : op ≠ .exchange_true s ∧ op ≠ .delete_ctx s := by
  have htry : ∀ t cur, op ∈ try_dec t cur → op ≠ .exchange_true s ∧ op ≠ .delete_ctx s := by
    intro t cur hop
    rw [try_dec] at hop
    split at hop
    · rw [List.mem_singleton] at hop
      simp [hop]
    · cases hop
  cases next with
  | load t => exact htry t _ hmem
  | compare_exchange_weak t cur hcur =>
    rw [exec] at hmem
    split at hmem
    · cases hmem
    · exact htry t _ hmem
  | find_ctx t =>
    rw [exec] at hmem
    split at hmem
    · rw [List.mem_singleton] at hmem
      simp [hmem]
    · cases hmem
  | exchange_false t =>
    rw [exec] at hmem
    split at hmem
    · rw [List.mem_singleton] at hmem
      simp [hmem]
    · cases hmem
  | exchange_true t =>
    rw [exec] at hmem
    split at hmem
    · cases hmem
    · rw [List.mem_singleton] at hmem
      simp [hmem]
  | _ => cases hmem

theorem phase_exec (σ : State) (spurious : Bool) (next : Op) (s : Stream) :
    ((exec σ spurious next).1.ctx s).phase =
      if next = .delete_ctx s then .deleted else (σ.ctx s).phase := by
  cases next with
  | compare_exchange_weak t cur hcur =>
    rw [exec]
    split
    · simp [State.set_viewers]
    · simp
  | exchange_false t | exchange_true t | connect_signals t | delete_ctx t =>
    by_cases hs : t = s
    · simp [exec, hs]
    · simp [exec, hs]
  | _ => simp [exec, State.set_viewers]

theorem bootstrap_active_exec (σ : State) (spurious : Bool) (next : Op) (s : Stream) :
    ((exec σ spurious next).1.ctx s).bootstrap_active =
      if next = .exchange_true s then true
      else if next = .exchange_false s then false else (σ.ctx s).bootstrap_active := by
  cases next with
  | compare_exchange_weak t cur hcur =>
    rw [exec]
    split
    · simp [State.set_viewers]
    · simp
  | exchange_false t | exchange_true t | connect_signals t | delete_ctx t =>
    by_cases hs : t = s
    · simp [exec, hs]
    · simp [exec, hs]
  | _ => simp [exec, State.set_viewers]

theorem op_contextsOk {σ : State} {i : ℕ} {next : Op} {rest : List Op} (hok : ContextsOk σ)
    (spurious : Bool) (hget : σ.callbacks[i]? = some (next :: rest)) :
    ContextsOk { (exec σ spurious next).1 with
      callbacks := σ.callbacks.set i ((exec σ spurious next).2 ++ rest) } := by
  have hops : next :: rest ∈ σ.callbacks := List.mem_of_getElem? hget
  -- a callback that still has to set or delete a context had to before the step
  have hbefore : ∀ s, ∀ op, op = .exchange_true s ∨ op = .delete_ctx s →
      ∀ ops ∈ σ.callbacks.set i ((exec σ spurious next).2 ++ rest), op ∈ ops →
        ops ∈ σ.callbacks ∨ op ∈ rest := by
    intro s op hop ops hmem hin
    obtain hold | rfl := List.mem_or_eq_of_mem_set hmem
    · exact .inl hold
    · obtain hmore | hrest := List.mem_append.mp hin
      · exact absurd hop (not_or.mpr (mem_exec hmore s))
      · exact .inr hrest
  have hregistered : ∀ s, ∀ ops ∈ σ.callbacks.set i ((exec σ spurious next).2 ++ rest),
      .exchange_true s ∈ ops → (σ.ctx s).phase = .registered := by
    intro s ops hmem hin
    obtain hold | hrest := hbefore s _ (.inl rfl) ops hmem hin
    · exact hok.exchange_registered s ops hold hin
    · exact hok.exchange_registered s _ hops (List.mem_cons_of_mem next hrest)
  have herased : ∀ s, ∀ ops ∈ σ.callbacks.set i ((exec σ spurious next).2 ++ rest),
      .delete_ctx s ∈ ops → (σ.ctx s).phase ≠ .registered := by
    intro s ops hmem hin
    obtain hold | hrest := hbefore s _ (.inr rfl) ops hmem hin
    · exact hok.delete_erased s ops hold hin
    · exact hok.delete_erased s _ hops (List.mem_cons_of_mem next hrest)
  have hnot_set : ∀ s, (σ.ctx s).phase ≠ .registered → next ≠ .exchange_true s := by
    rintro s hphase rfl
    exact hphase (hok.exchange_registered s _ hops List.mem_cons_self)
  constructor
  · intro s ops hmem hin
    change ((exec σ spurious next).1.ctx s).phase = .registered
    rw [phase_exec, if_neg]
    · exact hregistered s ops hmem hin
    · rintro rfl
      exact hok.delete_erased s _ hops List.mem_cons_self (hregistered s ops hmem hin)
  · intro s ops hmem hin
    change ((exec σ spurious next).1.ctx s).phase ≠ .registered
    rw [phase_exec]
    split
    · decide
    · exact herased s ops hmem hin
  · intro s ops hmem hin
    change ops = _ ∨ ((exec σ spurious next).1.ctx s).bootstrap_active = false
    rw [bootstrap_active_exec, if_neg (hnot_set s (herased s ops hmem hin))]
    by_cases hclear : next = .exchange_false s
    · exact .inr (if_pos hclear)
    · rw [if_neg hclear]
      obtain hold | hrest := List.mem_or_eq_of_mem_set hmem
      · exact hok.delete_released s ops hold hin
      · have hin' : .delete_ctx s ∈ rest := by
          rw [hrest] at hin
          refine (List.mem_append.mp hin).resolve_left fun hmore => ?_
          exact (mem_exec hmore s).2 rfl
        obtain hform | hflag := hok.delete_released s _ hops (List.mem_cons_of_mem next hin')
        · exact absurd (List.cons_eq_cons.mp hform).1 hclear
        · exact .inr hflag
  · intro s hdeleted
    change ((exec σ spurious next).1.ctx s).phase = .deleted at hdeleted
    change ((exec σ spurious next).1.ctx s).bootstrap_active = false
    rw [phase_exec] at hdeleted
    rw [bootstrap_active_exec]
    have hflag : (σ.ctx s).phase ≠ .registered ∧ (σ.ctx s).bootstrap_active = false := by
      by_cases hdelete : next = .delete_ctx s
      · subst hdelete
        refine ⟨hok.delete_erased s _ hops List.mem_cons_self, ?_⟩
        obtain hform | hflag := hok.delete_released s _ hops List.mem_cons_self
        · cases hform
        · exact hflag
      · rw [if_neg hdelete] at hdeleted
        refine ⟨?_, hok.deleted_released s hdeleted⟩
        rw [hdeleted]
        decide
    rw [if_neg (hnot_set s hflag.1), hflag.2, ite_self]

/-- A callback starts that does not delete a context, and sets only a registered one. -/
theorem ContextsOk.append {σ σ' : State} {ops : List Op} (hok : ContextsOk σ) (hctx : σ'.ctx = σ.ctx)
    (hcallbacks : σ'.callbacks = σ.callbacks ++ [ops])
    (hset : ∀ s, .exchange_true s ∈ ops → (σ.ctx s).phase = .registered)
    (hdelete : ∀ s, .delete_ctx s ∉ ops) : ContextsOk σ' := by
  constructor
  · intro s ops' hmem hin
    rw [hctx]
    rw [hcallbacks, List.mem_append, List.mem_singleton] at hmem
    obtain hold | rfl := hmem
    · exact hok.exchange_registered s ops' hold hin
    · exact hset s hin
  · intro s ops' hmem hin
    rw [hctx]
    rw [hcallbacks, List.mem_append, List.mem_singleton] at hmem
    obtain hold | rfl := hmem
    · exact hok.delete_erased s ops' hold hin
    · exact absurd hin (hdelete s)
  · intro s ops' hmem hin
    rw [hctx]
    rw [hcallbacks, List.mem_append, List.mem_singleton] at hmem
    obtain hold | rfl := hmem
    · exact hok.delete_released s ops' hold hin
    · exact absurd hin (hdelete s)
  · rw [hctx]
    exact hok.deleted_released

theorem contextsOk_destroy {σ : State} {t : Stream} (hok : ContextsOk σ)
    (hphase : (σ.ctx t).phase = .registered) (hidle : σ.configuring t = false) :
    ContextsOk
      ((σ.set_ctx t { σ.ctx t with phase := .erased }).spawn [.exchange_false t, .delete_ctx t]) := by
  have hcallbacks : ∀ ops ∈ (σ.set_ctx t { σ.ctx t with phase := .erased }).callbacks ++
      [[.exchange_false t, .delete_ctx t]], ops ∈ σ.callbacks ∨
        ops = [.exchange_false t, .delete_ctx t] := by
    intro ops hmem
    rw [List.mem_append, List.mem_singleton] at hmem
    exact hmem
  constructor
  · intro s ops hmem hin
    change ((σ.set_ctx t _).ctx s).phase = .registered
    obtain hold | rfl := hcallbacks ops hmem
    · have hne : t ≠ s := by
        rintro rfl
        have hsome : σ.configuring t = true := by
          apply List.any_eq_true.mpr
          exact ⟨ops, hold, decide_eq_true (.inl hin)⟩
        rw [hidle] at hsome
        cases hsome
      rw [ctx_set_ctx, if_neg hne]
      exact hok.exchange_registered s ops hold hin
    · simp at hin
  · intro s ops hmem hin
    change ((σ.set_ctx t _).ctx s).phase ≠ .registered
    rw [ctx_set_ctx]
    split
    · simp
    · rename_i hne
      obtain hold | rfl := hcallbacks ops hmem
      · exact hok.delete_erased s ops hold hin
      · simp at hin
        exact absurd hin.symm hne
  · intro s ops hmem hin
    change ops = _ ∨ ((σ.set_ctx t _).ctx s).bootstrap_active = false
    obtain hold | rfl := hcallbacks ops hmem
    · by_cases hs : t = s
      · subst hs
        exact absurd hphase (hok.delete_erased t ops hold hin)
      · rw [ctx_set_ctx, if_neg hs]
        exact hok.delete_released s ops hold hin
    · simp at hin
      rw [hin]
      exact .inl rfl
  · intro s hdeleted
    change ((σ.set_ctx t _).ctx s).phase = .deleted at hdeleted
    change ((σ.set_ctx t _).ctx s).bootstrap_active = false
    rw [ctx_set_ctx] at hdeleted ⊢
    split at hdeleted
    · cases hdeleted
    · rename_i hs
      rw [if_neg hs]
      exact hok.deleted_released s hdeleted

theorem starts_contextsOk {σ σ' : State} (hok : ContextsOk σ) (hstarts : Starts σ σ') :
    ContextsOk σ' := by
  cases hstarts with
  | nothing => exact hok
  | connected => exact ⟨hok.1, hok.2, hok.3, hok.4⟩
  | client hget hnodup hops hmedia =>
    refine hok.append rfl rfl ?_ ?_
    · intro s hin
      exact absurd hin (hmedia s).1
    · intro s
      exact (hmedia s).2.2
  | configure hphase =>
    refine hok.append rfl rfl ?_ ?_
    · intro s hin
      simp at hin
      rw [hin]
      exact hphase
    · simp
  | unprepared =>
    refine hok.append rfl rfl ?_ ?_
    · simp
    · simp
  | destroy hphase hidle => exact contextsOk_destroy hok hphase hidle
  | record => exact ⟨hok.1, hok.2, hok.3, hok.4⟩

end k180.rtsp_attach
