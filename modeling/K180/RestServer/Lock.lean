import K180.RestServer.Atomicity
import K180.Schedule.Run

open json_c libc schedule

namespace k180.restful_api_server

/-- Between requests: nobody holds the lock and the configuration file is not open. -/
def LockFree (s : Server) : Prop := s.lock_held = false ∧ s.open_fds = 0

/-- The branch of a method gives the lock back: the one for GET, the one for PUT, and no other. -/
def has_branch (method : String) : Bool := method = "GET" || method = "PUT"

/-- The handler never gets to the code after the branches with the configuration locked. -/
def KeepsOut (text : JsonText) (s : Server) (r : Request) : Prop :=
  has_branch r.method = true ∨ ¬ ReachesMethod text s r

/-- If the handler returns, then with the lock free again and no descriptor left open. -/
def Releases (text : JsonText) (max_fps : ℤ) (s : Server) (r : Request) : Prop :=
  ∀ code body, (handler text max_fps s r).1 = .answer code body → LockFree (handler text max_fps s r).2

/-- The process after a failed assertion: its descriptors are closed, which drops its lock, and it
is started again. -/
def Server.restarted (s : Server) : Server :=
  { s with open_fds := 0, lock_held := false, sys_cfg_change := false }

/-- Serve one request to its end, which a request that waits for the lock for ever does not have. -/
def serve (text : JsonText) (max_fps : ℤ) (s : Server) (r : Request) : Option Server :=
  match handler text max_fps s r with
  | (.answer _ _, s') => some s'
  | (.blocked, _) => none
  | (.aborted, s') => some s'.restarted

theorem LockFree.released {s : Server} (hfree : LockFree s) : LockFree s.opened.locked.unlocked.closed := by
  rw [Server.released_eq hfree.1]
  exact hfree

/-- Every return of the GET branch gives back what was taken before it. -/
theorem get_messages_released (s : Server) (config query : Json) :
    ∃ code body, get_messages s config query = (.answer code body, s.unlocked.closed) := by
  unfold get_messages
  split
  · exact ⟨_, _, rfl⟩
  split
  · exact ⟨_, _, rfl⟩
  split
  · exact ⟨_, _, rfl⟩
  · exact ⟨_, _, rfl⟩

/-- Every return of the PUT branch gives back what was taken before it; it can also end on a failed
assertion, but never waits. -/
theorem put_messages_released (text : JsonText) (max_fps : ℤ) (s : Server) (io : ConfigIo)
    (config query : Json) :
    (∃ s', put_messages text max_fps s io config query = (.aborted, s')) ∨
    ∃ code body s', put_messages text max_fps s io config query = (.answer code body, s') ∧
      s'.lock_held = false ∧ s'.open_fds = s.open_fds - 1 := by
  unfold put_messages
  obtain ⟨result, flag⟩ := put_update max_fps config query s.sys_cfg_change
  cases result with
  | refused message => exact .inr ⟨_, _, _, rfl, rfl, rfl⟩
  | aborted => exact .inl ⟨_, rfl⟩
  | updated config' =>
    refine .inr ?_
    dsimp only
    split
    · exact ⟨_, _, _, rfl, rfl, rfl⟩
    split
    · exact ⟨_, _, _, rfl, rfl, rfl⟩
    split
    · split
      · exact ⟨_, _, _, rfl, rfl, rfl⟩
      · exact ⟨_, _, _, rfl, rfl, rfl⟩
    · exact ⟨_, _, _, rfl, rfl, rfl⟩

/-- A request kept out of the code after the branches ends with the lock free, unless the process
ends first; it never has to wait. -/
theorem handler_of_keepsOut (text : JsonText) (max_fps : ℤ) {s : Server} {r : Request}
    (hfree : LockFree s) (hkeep : KeepsOut text s r) :
    (∃ s', handler text max_fps s r = (.aborted, s')) ∨
    ∃ code body s', handler text max_fps s r = (.answer code body, s') ∧ LockFree s' := by
  by_cases hreach : ReachesMethod text s r
  swap
  · obtain ⟨code, message, _, hearly⟩ := handler_early text max_fps hfree.1 hreach
    exact .inr ⟨code, _, s, hearly, hfree⟩
  have hbranch : has_branch r.method = true := hkeep.resolve_right fun h => h hreach
  rw [handler_reached text max_fps hreach]
  by_cases hget : r.method = "GET"
  · rw [if_pos hget]
    obtain ⟨code, body, hanswer⟩ :=
      get_messages_released s.opened.locked (parsed_config text s) (parsed_body text r)
    exact .inr ⟨code, body, _, hanswer, hfree.released⟩
  · have hput : r.method = "PUT" := by simpa [has_branch, hget] using hbranch
    rw [if_neg hget, if_pos hput]
    obtain haborted | ⟨code, body, s', hanswer, hlock, hfds⟩ := put_messages_released text max_fps
      s.opened.locked r.io (parsed_config text s) (parsed_body text r)
    · exact .inl haborted
    · exact .inr ⟨code, body, s', hanswer, hlock, hfds.trans hfree.2⟩

/-- A request with another method that gets as far as its method is answered 404 with the lock held
and the descriptor open. -/
theorem handler_falls_through (text : JsonText) (max_fps : ℤ) {s : Server} {r : Request}
    (hkeep : ¬ KeepsOut text s r) :
    handler text max_fps s r = (.answer 404 (error_body "Not found"), s.opened.locked) := by
  obtain ⟨hbranch, hreach⟩ := not_or.mp hkeep
  obtain ⟨hget, hput⟩ : r.method ≠ "GET" ∧ r.method ≠ "PUT" := by simpa [has_branch] using hbranch
  rw [handler_reached text max_fps (not_not.mp hreach), if_neg hget, if_neg hput]

/-- A handler that returns has released the lock exactly when it was kept out of the code after the
branches. -/
theorem releases_iff (text : JsonText) (max_fps : ℤ) {s : Server} (r : Request) (hfree : LockFree s) :
    Releases text max_fps s r ↔ KeepsOut text s r := by
  constructor
  · intro hreleases
    by_contra hkeep
    have hfall := handler_falls_through text max_fps hkeep
    have hlock := (hreleases 404 (error_body "Not found") (by rw [hfall])).1
    rw [hfall] at hlock
    exact absurd hlock (by simp [Server.locked])
  · intro hkeep code body hanswer
    obtain ⟨s', haborted⟩ | ⟨code', body', s', hreturned, hlock⟩ :=
      handler_of_keepsOut text max_fps hfree hkeep
    · rw [haborted] at hanswer
      injection hanswer
    · rw [hreturned]
      exact hlock

theorem serve_of_keepsOut (text : JsonText) (max_fps : ℤ) {s : Server} {r : Request}
    (hfree : LockFree s) (hkeep : KeepsOut text s r) :
    ∃ s', serve text max_fps s r = some s' ∧ LockFree s' := by
  unfold serve
  obtain ⟨s', haborted⟩ | ⟨code, body, s', hanswer, hlock⟩ :=
    handler_of_keepsOut text max_fps hfree hkeep
  · rw [haborted]
    exact ⟨_, rfl, rfl, rfl⟩
  · rw [hanswer]
    exact ⟨s', rfl, hlock⟩

/-- Nothing that happens after a leak gives the lock back. -/
theorem serve_held (text : JsonText) (max_fps : ℤ) (s : Server) (r : Request) (s' : Server)
    (hheld : s.lock_held = true) (hserve : serve text max_fps s r = some s') :
    s'.lock_held = true := by
  unfold serve at hserve
  obtain ⟨code, message, _, hanswer⟩ | hblocked := handler_held text max_fps r hheld
  · rw [hanswer, Option.some.injEq] at hserve
    exact hserve ▸ hheld
  · rw [hblocked] at hserve
    simp at hserve

/-- A sequence of requests is served to its end with the lock free exactly when each of its requests
is kept out of the code after the branches. -/
theorem run_lockFree_iff (text : JsonText) (max_fps : ℤ) {s : Server} (requests : List Request)
    (hfree : LockFree s) :
    (∃ s', run (serve text max_fps) s requests = some s' ∧ LockFree s') ↔
      Meets (serve text max_fps) (KeepsOut text) s requests := by
  constructor
  · intro hrun
    induction requests generalizing s with
    | nil => trivial
    | cons r rest ih =>
      obtain ⟨last, hlast, hlastFree⟩ := hrun
      obtain ⟨mid, hmid, hrest⟩ := run_cons_eq_some_iff.mp hlast
      have hkeep : KeepsOut text s r := by
        by_contra hkeep
        have hleak : mid = s.opened.locked := by
          rw [serve, handler_falls_through text max_fps hkeep, Option.some.injEq] at hmid
          exact hmid.symm
        have hheld : mid.lock_held = true := by rw [hleak]; rfl
        have hstuck := invariant_of_run (serve_held text max_fps) hheld hrest
        exact absurd (hlastFree.1.symm.trans hstuck) (by decide)
      obtain ⟨s', hserve, hfree'⟩ := serve_of_keepsOut text max_fps hfree hkeep
      obtain rfl : s' = mid := Option.some.inj (hserve.symm.trans hmid)
      refine ⟨hkeep, fun next hnext => ?_⟩
      obtain rfl : s' = next := Option.some.inj (hserve.symm.trans hnext)
      exact ih hfree' ⟨last, hrest, hlastFree⟩
  · intro hmeets
    refine exists_run_of_meets (fun s r hfree hkeep => ?_) (fun s r s' hfree hkeep hs' => ?_) hfree
      hmeets
    · obtain ⟨s', hserve, _⟩ := serve_of_keepsOut text max_fps hfree hkeep
      exact ⟨s', hserve⟩
    · obtain ⟨next, hserve, hlock⟩ := serve_of_keepsOut text max_fps hfree hkeep
      obtain rfl : next = s' := Option.some.inj (hserve.symm.trans hs')
      exact hlock

/-- The lock is given back by exactly the requests whose method has a branch and those turned away
before the method is looked at; a sequence of requests never has to wait for the lock, and leaves it
free, exactly when all of its requests are of these kinds. -/
theorem config_lock_released_iff (text : JsonText) (max_fps : ℤ) (s : Server) (hfree : LockFree s) :
    (∀ r, Releases text max_fps s r ↔ KeepsOut text s r) ∧
    ∀ requests, (∃ s', run (serve text max_fps) s requests = some s' ∧ LockFree s') ↔
      Meets (serve text max_fps) (KeepsOut text) s requests :=
  ⟨fun r => releases_iff text max_fps r hfree,
    fun requests => run_lockFree_iff text max_fps requests hfree⟩

theorem config_lock_released_iff_sample :
    LockFree sample_server ∧
      (∀ r, Releases sample_text 60 sample_server r ↔ KeepsOut sample_text sample_server r) ∧
      ∀ requests,
        (∃ s', run (serve sample_text 60) sample_server requests = some s' ∧ LockFree s') ↔
          Meets (serve sample_text 60) (KeepsOut sample_text) sample_server requests :=
  ⟨⟨rfl, rfl⟩, config_lock_released_iff sample_text 60 sample_server ⟨rfl, rfl⟩⟩

def sample_post : Request := { sample_put with method := "POST" }

def sample_get : Request := { sample_put with method := "GET" }

/-- After a POST with a JSON body no request that opens the configuration is ever answered again. -/
theorem post_leaks_config_lock :
    LockFree sample_server ∧
      handler sample_text 60 sample_server sample_post =
        (.answer 404 (error_body "Not found"), sample_server.opened.locked) ∧
      ¬ LockFree sample_server.opened.locked ∧
      run (serve sample_text 60) sample_server [sample_post, sample_get] = none :=
  ⟨⟨rfl, rfl⟩, rfl, fun h => absurd h.1 (by decide), rfl⟩

end k180.restful_api_server
