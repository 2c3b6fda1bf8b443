import K180.Rtsp.StreamKey

namespace k180.streambuilder

/-- The loop of `pick_udp_port_for_sid` from port `p` on, with `tries` ports left to probe; `free p`
says that the probe can bind port `p`. -/
def probe_from (free : ℕ → Bool) (p : ℕ) : ℕ → Option ℕ
  | 0 => none
  | tries + 1 => if free p then some p else probe_from free (p + 1) tries

def pick_udp_port_for_sid (free : ℕ → Bool) (base sid step max_tries : ℕ) : Option ℕ :=
  probe_from free (base + sid * step) max_tries

def UDP_BASE : ℕ := 40000
def UDP_BASE_H264 : ℕ := 41000
def UDP_STEP : ℕ := 10
def UDP_MAX_TRIES : ℕ := 32

/-- The port tables of the hub manager. -/
structure PortTables where
  udp_ports : ℕ → ℕ
  udp_ports_h264 : ℕ → ℕ

/-- One round of a port loop: the port found for a stream, or 0. -/
def assign_port (free : ℕ → Bool) (base : ℕ) (ports : ℕ → ℕ) (sid : ℕ) : ℕ → ℕ :=
  Function.update ports sid ((pick_udp_port_for_sid free base sid UDP_STEP UDP_MAX_TRIES).getD 0)

def groups : List StreamGroup := [.S1, .S2]
def views : List StreamView := [.V1234, .V1, .V2, .V3, .V4]
def h264_views : List StreamView := [.V1, .V2, .V3, .V4]

/-- The indices in the order the two port loops of `build_and_start_all_hubs_from_cfg` visit them. -/
def h265_sids : List ℕ := groups.flatMap fun g => views.map fun v => stream_index ⟨g, v⟩
def h264_sids : List ℕ := groups.flatMap fun g => h264_views.map fun v => h264_index g v

/-- The port choice of `build_and_start_all_hubs_from_cfg`, over tables that hold anything before. -/
def choose_ports (free : ℕ → Bool) (tables : PortTables) : PortTables where
  udp_ports := h265_sids.foldl (assign_port free UDP_BASE) tables.udp_ports
  udp_ports_h264 := h264_sids.foldl (assign_port free UDP_BASE_H264) tables.udp_ports_h264

end k180.streambuilder

namespace k180.Stream

open streambuilder

def base : Stream → ℕ
  | h265 _ => UDP_BASE
  | h264 .. => UDP_BASE_H264

def sid : Stream → ℕ
  | h265 k => stream_index k
  | h264 g v _ => h264_index g v

/-- How many streams there are of the same codec. -/
def count : Stream → ℕ
  | h265 _ => kStreams
  | h264 .. => kH264Streams

/-- The first port probed for the stream. -/
def start (s : Stream) : ℕ := s.base + s.sid * UDP_STEP

/-- The port that the hub of the stream sends to and its factory listens on; 0 for none. -/
def port (tables : PortTables) : Stream → ℕ
  | h265 k => tables.udp_ports (stream_index k)
  | h264 g v _ => tables.udp_ports_h264 (h264_index g v)

end k180.Stream

namespace k180.streambuilder

/-- The udpsink of `s` sends to the port that the factory of `t` listens on. A stream without a port has
no hub. -/
def Feeds (tables : PortTables) (s t : Stream) : Prop :=
  s.port tables ≠ 0 ∧ t.port tables = s.port tables

/-- The ten ports before the next stream's first one are all taken, and one of the other 22 that are
probed is not. -/
def Crowded (free : ℕ → Bool) (s : Stream) : Prop :=
  (∀ p, s.start ≤ p → p < s.start + UDP_STEP → free p = false) ∧
    ∃ p, s.start + UDP_STEP ≤ p ∧ p < s.start + UDP_MAX_TRIES ∧ free p = true

/-- The probing loop finds the first free port of its window. -/
theorem probe_from_eq_some_iff {free : ℕ → Bool} {p tries q : ℕ} :
    probe_from free p tries = some q ↔
      p ≤ q ∧ q < p + tries ∧ free q = true ∧ ∀ r, p ≤ r → r < q → free r = false := by
  induction tries generalizing p with
  | zero =>
    constructor
    · intro h
      cases h
    · rintro ⟨hle, hlt, _⟩
      omega
  | succ tries ih =>
    rw [probe_from]
    cases hfree : free p with
    | true =>
      rw [if_pos rfl, Option.some.injEq]
      constructor
      · rintro rfl
        exact ⟨le_rfl, by omega, hfree, fun r hpr hrq => by omega⟩
      · rintro ⟨hle, _, _, hbusy⟩
        by_contra hne
        have hp := hbusy p le_rfl (by omega)
        rw [hfree] at hp
        cases hp
    | false =>
      rw [if_neg Bool.false_ne_true, ih]
      constructor
      · rintro ⟨hle, hlt, hq, hbusy⟩
        refine ⟨by omega, by omega, hq, fun r hpr hrq => ?_⟩
        obtain rfl | hgt := hpr.eq_or_lt
        · exact hfree
        · exact hbusy r hgt hrq
      · rintro ⟨hle, hlt, hq, hbusy⟩
        have hne : p ≠ q := by
          rintro rfl
          rw [hfree] at hq
          cases hq
        exact ⟨by omega, by omega, hq, fun r hpr hrq => hbusy r (by omega) hrq⟩

theorem exists_of_probe_from_eq_none {free : ℕ → Bool} {p tries : ℕ}
    (hnone : probe_from free p tries = none) {q : ℕ} (hle : p ≤ q) (hlt : q < p + tries) :
    free q = false := by
  induction tries generalizing p with
  | zero => omega
  | succ tries ih =>
    rw [probe_from] at hnone
    split at hnone
    · cases hnone
    · rename_i hbusy
      obtain rfl | hgt := hle.eq_or_lt
      · exact Bool.eq_false_iff.mpr hbusy
      · exact ih hnone hgt (by omega)

/-- A loop that assigns every index of a list its own value. -/
theorem foldl_update_of_mem {f : ℕ → ℕ} {sids : List ℕ} (ports : ℕ → ℕ) {sid : ℕ} (hmem : sid ∈ sids) :
    sids.foldl (fun ports sid => Function.update ports sid (f sid)) ports sid = f sid := by
  induction sids using List.reverseRecOn with
  | nil => cases hmem
  | append_singleton rest last ih =>
    rw [List.foldl_append, List.foldl_cons, List.foldl_nil]
    by_cases hlast : sid = last
    · rw [hlast, Function.update_self]
    · rw [Function.update_of_ne hlast]
      refine ih ((List.mem_append.mp hmem).resolve_right fun h => hlast ?_)
      exact List.mem_singleton.mp h

/-- Every stream ends up with the first free port of its own window of 32 ports, or with none. -/
theorem port_choose_ports (free : ℕ → Bool) (tables : PortTables) (s : Stream) :
    s.port (choose_ports free tables) = (probe_from free s.start UDP_MAX_TRIES).getD 0 := by
  have hh265 : ∀ k : StreamKey, stream_index k ∈ h265_sids := by decide
  have hh264 : ∀ g v, v ≠ .V1234 → h264_index g v ∈ h264_sids := by decide
  cases s with
  | h265 k => exact foldl_update_of_mem tables.udp_ports (hh265 k)
  | h264 g v hview => exact foldl_update_of_mem tables.udp_ports_h264 (hh264 g v hview)

theorem sid_lt (s : Stream) : s.sid < s.count := by
  cases s with
  | h265 k => exact stream_index_lt k
  | h264 g v _ => exact h264_index_lt g v

theorem bases_ne : UDP_BASE ≠ UDP_BASE_H264 := by decide

/-- Streams are told apart by their codec and their index. -/
theorem eq_of_base_sid {s t : Stream} (hbase : s.base = t.base) (hsid : s.sid = t.sid) : s = t := by
  cases s with
  | h265 k =>
    cases t with
    | h265 k' =>
      obtain rfl := stream_index_inj k k' hsid
      rfl
    | h264 g' v' hview' => exact absurd hbase bases_ne
  | h264 g v hview =>
    cases t with
    | h265 k' => exact absurd hbase bases_ne.symm
    | h264 g' v' hview' =>
      obtain ⟨rfl, rfl⟩ := h264_index_inj g g' v v' hview hview' hsid
      rfl

/-- The stream of the same codec with the next index. -/
theorem exists_next {s : Stream} (hnext : s.sid + 1 < s.count) :
    ∃ t : Stream, t.base = s.base ∧ t.sid = s.sid + 1 := by
  cases s with
  | h265 k =>
    obtain ⟨k', hk'⟩ := exists_stream_index _ hnext
    exact ⟨.h265 k', rfl, hk'⟩
  | h264 g v hview =>
    obtain ⟨g', v', hview', hindex⟩ := exists_h264_index _ hnext
    exact ⟨.h264 g' v' hview', rfl, hindex⟩

/-- Where the port of a stream lies: among its own ten, unless it is the last of its codec. -/
theorem port_bounds {free : ℕ → Bool} {tables : PortTables} {s : Stream}
    (hclear : s.sid + 1 < s.count → ¬ Crowded free s) (hport : s.port (choose_ports free tables) ≠ 0) :
    s.start ≤ s.port (choose_ports free tables) ∧
      s.port (choose_ports free tables) < s.start + UDP_MAX_TRIES ∧
      (s.sid + 1 < s.count → s.port (choose_ports free tables) < s.start + UDP_STEP) := by
  rw [port_choose_ports] at hport ⊢
  cases hprobe : probe_from free s.start UDP_MAX_TRIES with
  | none =>
    rw [hprobe] at hport
    exact absurd rfl hport
  | some p =>
    obtain ⟨hle, hlt, hfree, hbusy⟩ := probe_from_eq_some_iff.mp hprobe
    refine ⟨hle, hlt, fun hnext => ?_⟩
    rw [Option.getD_some]
    by_contra hfar
    refine hclear hnext ⟨fun q hq hq' => hbusy q hq (by omega), p, by omega, hlt, hfree⟩

/-- A crowded stream shares its port with the next one. -/
theorem crowded_shares_port {free : ℕ → Bool} (tables : PortTables) {s t : Stream}
    (hcrowded : Crowded free s) (hbase : t.base = s.base) (hsid : t.sid = s.sid + 1) :
    Feeds (choose_ports free tables) s t := by
  obtain ⟨hbusy, p, hlo, hhi, hfree⟩ := hcrowded
  have hstart : t.start = s.start + UDP_STEP := by
    rw [Stream.start, Stream.start, hbase, hsid, Nat.add_mul, Nat.one_mul, Nat.add_assoc]
  have hpos : 0 < s.start := by
    cases s <;> simp [Stream.start, Stream.base, UDP_BASE, UDP_BASE_H264]
  cases hprobe : probe_from free s.start UDP_MAX_TRIES with
  | none =>
    have hp := exists_of_probe_from_eq_none hprobe (by omega) hhi
    rw [hfree] at hp
    cases hp
  | some q =>
    obtain ⟨hq, hqhi, hqfree, hqbusy⟩ := probe_from_eq_some_iff.mp hprobe
    have hqlo : s.start + UDP_STEP ≤ q := by
      by_contra hin
      have hqbusy' := hbusy q hq (by omega)
      rw [hqfree] at hqbusy'
      cases hqbusy'
    have hnext : probe_from free t.start UDP_MAX_TRIES = some q := by
      rw [probe_from_eq_some_iff, hstart]
      exact ⟨hqlo, by omega, hqfree, fun r hr hrq => hqbusy r (by omega) hrq⟩
    rw [Feeds, port_choose_ports, port_choose_ports, hprobe, hnext]
    exact ⟨by rw [Option.getD_some]; omega, rfl⟩

/-- Every hub feeds only the factory of its own stream exactly when no stream but the last of its codec
has its own ten ports taken and a free one among the 22 it probes after them. -/
theorem ports_distinct_iff (free : ℕ → Bool) (tables : PortTables) :
    (∀ s t, Feeds (choose_ports free tables) s t → s = t) ↔
      ∀ s : Stream, s.sid + 1 < s.count → ¬ Crowded free s := by
  constructor
  · intro hdistinct s hnext hcrowded
    obtain ⟨t, hbase, hsid⟩ := exists_next hnext
    obtain rfl := hdistinct s t (crowded_shares_port tables hcrowded hbase hsid)
    omega
  · rintro hclear s t ⟨hport, hsame⟩
    obtain ⟨hslo, hshi, hsnext⟩ := port_bounds (hclear s) hport
    obtain ⟨htlo, hthi, htnext⟩ := port_bounds (hclear t) (hsame ▸ hport)
    rw [hsame] at htlo hthi htnext
    have hslt := sid_lt s
    have htlt := sid_lt t
    have hcases : ∀ u : Stream, (u.base = UDP_BASE ∧ u.count = kStreams) ∨
        (u.base = UDP_BASE_H264 ∧ u.count = kH264Streams) := by
      intro u
      cases u with
      | h265 k => exact .inl ⟨rfl, rfl⟩
      | h264 g v hview => exact .inr ⟨rfl, rfl⟩
    have hscase := hcases s
    have htcase := hcases t
    simp only [Stream.start, UDP_BASE, UDP_BASE_H264, UDP_STEP, UDP_MAX_TRIES, kStreams,
      kH264Streams] at hslo hshi hsnext htlo hthi htnext hscase htcase
    have hbase : s.base = t.base := by omega
    have hsid : s.sid = t.sid := by omega
    exact eq_of_base_sid hbase hsid

/-- The first ten ports are taken and nothing else. -/
def sample_free (p : ℕ) : Bool := p < 40000 || 40010 ≤ p

def no_ports : PortTables := ⟨fun _ => 0, fun _ => 0⟩

/-- With the first ten ports taken, the first two streams get the same port. -/
theorem first_streams_share_port :
    Feeds (choose_ports sample_free no_ports) (.h265 ⟨.S1, .V1234⟩) (.h265 ⟨.S1, .V1⟩) ∧
      Stream.h265 ⟨.S1, .V1234⟩ ≠ Stream.h265 ⟨.S1, .V1⟩ ∧
      (Stream.h265 ⟨.S1, .V1234⟩).port (choose_ports sample_free no_ports) = 40010 := by
  have hfirst : (Stream.h265 ⟨.S1, .V1234⟩).port (choose_ports sample_free no_ports) = 40010 := by
    rw [port_choose_ports]
    rfl
  have hsecond : (Stream.h265 ⟨.S1, .V1⟩).port (choose_ports sample_free no_ports) = 40010 := by
    rw [port_choose_ports]
    rfl
  refine ⟨⟨?_, ?_⟩, ?_, hfirst⟩
  · rw [hfirst]
    decide
  · rw [hfirst, hsecond]
  · intro h
    cases h

end k180.streambuilder
