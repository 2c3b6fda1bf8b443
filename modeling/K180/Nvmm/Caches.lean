import K180.Ledger.Accounts
import K180.Schedule.Run

open ledger

namespace k180.nvmm

/-- What the driver hands out: the mapping of a surface as an EGL image, a graphics resource registered for an image,
an event. -/
inductive Resource where
  | mapping (surf : ℕ)
  | registration (res : ℕ)
  | event (done : ℕ)
deriving DecidableEq

inductive Thread where
  | main
  | capture (id : ℕ)
  | apply (id : ℕ)
deriving DecidableEq

/-- An entry with `inited`; one without is `none` in the cache. -/
structure InCuCacheEntry where
  surf : ℕ
  egl : ℕ
  res : ℕ

structure NvmmCudaCacheEntry where
  surf : ℕ
  eglImage : ℕ
  cuRes : ℕ
  done : ℕ

def InCuCacheEntry.resources (e : InCuCacheEntry) : List Resource := [.registration e.res, .mapping e.surf]

/-- The mapping goes with the entry, although no path unmaps it. -/
def NvmmCudaCacheEntry.resources (e : NvmmCudaCacheEntry) : List Resource :=
  [.registration e.cuRes, .event e.done, .mapping e.surf]

def holds {E : Type*} (resources : E → List Resource) (entry : Option E) : List Resource := entry.elim [] resources

/-- The driver numbers what it hands out. -/
structure Driver where
  ledger : Ledger Resource
  next : ℕ

/-- The caches of all threads, by thread and `GstBuffer`. `lost` has the resources whose last reference is gone. -/
structure State where
  tl_in_cu_cache : AList fun _ : Thread × ℕ => Option InCuCacheEntry
  tl_nvmm_cache : AList fun _ : Thread × ℕ => Option NvmmCudaCacheEntry
  driver : Driver
  lost : List Resource

def start : State := ⟨∅, ∅, ⟨.empty, 0⟩, []⟩

/-- How `NvBufSurfaceMapEglImage` ends, the image that the surface has then, and how `cuGraphicsEGLRegisterImage`
ends. -/
structure EglIo where
  map_ok : Bool
  eglImage : Option ℕ
  register_ok : Bool

/-- How the calls of `gstbuffer_to_gpu_rgba` end; `egl_frame_ok` is that of `cuGraphicsResourceGetMappedEglFrame`, and
`pitch_ok` what the checks of its result come to. -/
structure InputIo where
  buffer_map_ok : Bool
  size_ok : Bool
  surf : ℕ
  cur_egl : Option ℕ
  egl : EglIo
  egl_frame_ok : Bool
  pitch_ok : Bool

/-- How the calls of `nvmm_copy_rgba_to_outbuf_cached` end. `validate_map_ok` is the map of the buffer that looks for
its image, `init_map` the one that finds its surface. -/
structure OutputIo where
  source_ok : Bool
  validate_map_ok : Bool
  cur_egl : Option ℕ
  init_map : Option ℕ
  egl : EglIo
  egl_frame_ok : Bool
  event_ok : Bool
  copy_ok : Bool

namespace Driver

def acquire (d : Driver) (r : Resource) : Driver := { d with ledger := d.ledger.acquire r }

def release (d : Driver) (r : Resource) : Driver := { d with ledger := d.ledger.release r }

def release_all (d : Driver) (rs : List Resource) : Driver := { d with ledger := d.ledger.release_all rs }

/-- The surface is mapped, and its image registered; the mapping is undone when there is no image, or it cannot be
registered. -/
def register_image (d : Driver) (surf : ℕ) (io : EglIo) : Driver × Option (ℕ × ℕ) :=
  if !io.map_ok then (d, none)
  else
    let d := d.acquire (.mapping surf)
    match io.eglImage with
    | none => (d.release (.mapping surf), none)
    | some egl =>
      if !io.register_ok then (d.release (.mapping surf), none)
      else ({ d.acquire (.registration d.next) with next := d.next + 1 }, some (egl, d.next))

end Driver

namespace State

def in_entry (s : State) (key : Thread × ℕ) : Option InCuCacheEntry := (s.tl_in_cu_cache.lookup key).join

def set_in (s : State) (key : Thread × ℕ) (entry : Option InCuCacheEntry) : State :=
  { s with tl_in_cu_cache := s.tl_in_cu_cache.insert key entry }

def out_entry (s : State) (key : Thread × ℕ) : Option NvmmCudaCacheEntry := (s.tl_nvmm_cache.lookup key).join

def set_out (s : State) (key : Thread × ℕ) (entry : Option NvmmCudaCacheEntry) : State :=
  { s with tl_nvmm_cache := s.tl_nvmm_cache.insert key entry }

end State

/-- Only what is in the cache of the thread that calls it. -/
def clear_input_cures_cache (s : State) (t : Thread) : State :=
  let own := restrict (fun key => decide (key.1 = t)) s.tl_in_cu_cache
  { s with
    driver := s.driver.release_all (own.entries.flatMap fun entry => holds InCuCacheEntry.resources entry.2)
    tl_in_cu_cache := restrict (fun key => !decide (key.1 = t)) s.tl_in_cu_cache }

def reinit_entry (s : State) (key : Thread × ℕ) (io : InputIo) : State × Option InCuCacheEntry :=
  let s := { s.set_in key none with
    driver := s.driver.release_all (holds InCuCacheEntry.resources (s.in_entry key)) }
  match s.driver.register_image io.surf io.egl with
  | (driver, none) => ({ s with driver }, none)
  | (driver, some (egl, res)) =>
    let e : InCuCacheEntry := ⟨io.surf, egl, res⟩
    ({ s with driver }.set_in key (some e), some e)

def need_reinit (io : InputIo) : Option InCuCacheEntry → Bool
  | none => true
  | some e => e.surf != io.surf || io.cur_egl.any (· != e.egl)

/-- With the resource of the frame when it succeeds. A resource that gives no frame takes the whole cache with it. -/
def gstbuffer_to_gpu_rgba (s : State) (t : Thread) (buf : ℕ) (io : InputIo) : State × Option ℕ :=
  let key := (t, buf)
  if !io.buffer_map_ok || !io.size_ok then (s, none)
  else
    let e := s.in_entry key
    let s := s.set_in key e
    match if need_reinit io e then reinit_entry s key io else (s, e) with
    | (s, none) => (s, none)
    | (s, some e) =>
      if !io.egl_frame_ok then (clear_input_cures_cache s t, none)
      else if !io.pitch_ok then (s, none)
      else (s, some e.res)

def nvmm_cache_init_for_outbuf (s : State) (key : Thread × ℕ) (io : OutputIo) : State × Option NvmmCudaCacheEntry :=
  match io.init_map with
  | none => (s, none)
  | some surf =>
    match s.driver.register_image surf io.egl with
    | (driver, none) => ({ s with driver }, none)
    | (driver, some (eglImage, cuRes)) =>
      if !io.egl_frame_ok || !io.event_ok then
        ({ s with driver := (driver.release (.registration cuRes)).release (.mapping surf) }, none)
      else
        let e : NvmmCudaCacheEntry := ⟨surf, eglImage, cuRes, driver.next⟩
        let driver := { driver.acquire (.event driver.next) with next := driver.next + 1 }
        ({ s with driver }.set_out key (some e), some e)

/-- An entry whose image has changed gives back its registration and its event, and not its mapping. -/
def nvmm_cache_validate_or_reinit (s : State) (key : Thread × ℕ) (io : OutputIo) : State × Option NvmmCudaCacheEntry :=
  if !io.validate_map_ok then (s, none)
  else
    match s.out_entry key with
    | none => nvmm_cache_init_for_outbuf s key io
    | some e =>
      if io.cur_egl = some e.eglImage then (s, some e)
      else
        let driver := (s.driver.release (.registration e.cuRes)).release (.event e.done)
        let lost := .mapping e.surf :: s.lost
        nvmm_cache_init_for_outbuf ({ s with driver, lost }.set_out key none) key io

/-- `tl_nvmm_cache.erase(outbuf)`, which gives nothing back. -/
def erase_outbuf (s : State) (key : Thread × ℕ) : State :=
  { s with
    tl_nvmm_cache := s.tl_nvmm_cache.erase key
    lost := holds NvmmCudaCacheEntry.resources (s.out_entry key) ++ s.lost }

/-- With the resource that the copy has gone to when it succeeds. -/
def nvmm_copy_rgba_to_outbuf_cached (s : State) (t : Thread) (outbuf : ℕ) (io : OutputIo) : State × Option ℕ :=
  let key := (t, outbuf)
  if !io.source_ok then (s, none)
  else
    match nvmm_cache_validate_or_reinit (s.set_out key (s.out_entry key)) key io with
    | (s, none) => (erase_outbuf s key, none)
    | (s, some e) => (s, if io.copy_ok then some e.cuRes else none)

/-- The `thread_local` caches go with their thread, whose entries have no destructors. -/
def thread_exit (s : State) (t : Thread) : State :=
  let own_in := restrict (fun key => decide (key.1 = t)) s.tl_in_cu_cache
  let own_out := restrict (fun key => decide (key.1 = t)) s.tl_nvmm_cache
  { s with
    tl_in_cu_cache := restrict (fun key => !decide (key.1 = t)) s.tl_in_cu_cache
    tl_nvmm_cache := restrict (fun key => !decide (key.1 = t)) s.tl_nvmm_cache
    lost := own_in.entries.flatMap (fun entry => holds InCuCacheEntry.resources entry.2) ++
      (own_out.entries.flatMap (fun entry => holds NvmmCudaCacheEntry.resources entry.2) ++ s.lost) }

/-- A frame of a capture thread, a copy by an apply thread, the end of a thread, and the end of `shutdown_all` on the
main thread, which has joined the others by then. -/
inductive Action where
  | frame (id buf : ℕ) (io : InputIo)
  | copy (id outbuf : ℕ) (io : OutputIo)
  | exit (t : Thread)
  | shutdown

def step (s : State) : Action → State × Option ℕ
  | .frame id buf io => gstbuffer_to_gpu_rgba s (.capture id) buf io
  | .copy id outbuf io => nvmm_copy_rgba_to_outbuf_cached s (.apply id) outbuf io
  | .exit t => (thread_exit s t, none)
  | .shutdown => (clear_input_cures_cache s .main, none)

def exec (s : State) (actions : List Action) : State := actions.foldl (fun s a => (step s a).1) s

/-- The threads that have used their caches and have not ended. -/
def Action.running (threads : List Thread) : Action → List Thread
  | .frame id _ _ => .capture id :: threads
  | .copy id _ _ => .apply id :: threads
  | .exit t => threads.filter (· ≠ t)
  | .shutdown => threads

def running (actions : List Action) : List Thread := actions.foldl Action.running []

end k180.nvmm
