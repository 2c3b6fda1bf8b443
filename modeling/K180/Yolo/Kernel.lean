import K180.Yolo.Records

open threads binary_float k180.postprocess

namespace k180.yolo

variable (expf : Value → Value) (p : YoloLayerPlugin) (l : Level) (batchSize : ℕ) (before : ℕ → ℕ) (start : Output)

/-- The image that a thread works on. -/
def batch (idx : ℕ) : ℕ := idx / l.total_grid

/-- An addition to the counter of an image. -/
def draws (b : ℕ) : Op → Bool
  | .atomic_add address _ => address = count_address p b
  | _ => false

/-- A cell of an image whose best class is likely enough. -/
def Found (b idx : ℕ) : Prop := idx < l.numElements ∧ batch l idx = b ∧ ignored expf p l idx = false

instance (b idx : ℕ) : Decidable (Found expf p l b idx) := inferInstanceAs (Decidable (_ ∧ _))

abbrev LayerWorld := World Op Output

/-- The counters go on from where they were, and the records of the grids before stay as they were. -/
structure LayerInvariant (w : LayerWorld) : Prop where
  counter : ∀ b < batchSize, w.shared (count_address p b) = counter (before b + (tickets (draws p b) w).length)
  drawn : ∀ b, Drawn (draws p b) (Found expf p l b) w
  kept : ∀ b k m, k < before b → k < p.mMaxOutObject → m < 89 → w.shared (field p b k m) = start (field p b k m)
  inside : ∀ e ∈ w.trace, Inside p batchSize e.2

/-- The thread has the record at an address. -/
def Own (i : ℕ) (address : ℤ) (w : LayerWorld) : Prop :=
  ∃ k m, Found expf p l (batch l i) i ∧ Holds (draws p (batch l i)) w i k ∧
    before (batch l i) + k < p.mMaxOutObject ∧ m < 89 ∧ address = field p (batch l i) (before (batch l i) + k) m

def layer_allowed (i : ℕ) : Op → LayerWorld → Prop
  | .atomic_add address value, w =>
    address = count_address p (batch l i) ∧ value = float32.of_rat 1 ∧ i ∉ tickets (draws p (batch l i)) w ∧
      Found expf p l (batch l i) i
  | .store address _, w | .load address, w => Own expf p l before i address w

variable {expf p l batchSize before start} {w : LayerWorld} {i k b : ℕ}

theorem draws_count (b : ℕ) (value : Value) : draws p b (.atomic_add (count_address p b) value) = true :=
  decide_eq_true rfl

theorem draws_count_of_ne {b b' : ℕ} (hne : b ≠ b') (value : Value) :
    draws p b (.atomic_add (count_address p b') value) = false :=
  decide_eq_false fun heq => hne (count_address_inj heq).symm

/-- The threads work on images that there are. -/
theorem batch_lt (hlevel : l.numElements = l.total_grid * batchSize) (hi : i < l.numElements) :
    batch l i < batchSize := by
  rw [hlevel] at hi
  exact Nat.div_lt_of_lt_mul hi

theorem Own.inside {address : ℤ} (hlevel : l.numElements = l.total_grid * batchSize)
    (hown : Own expf p l before i address w) : 0 ≤ address ∧ address < (batchSize * output_elem p : ℕ) := by
  obtain ⟨k, m, hfound, -, hk, hm, rfl⟩ := hown
  exact field_inside (batch_lt hlevel hfound.1) hk hm

/-- A step of a thread that adds to the counter of its image. -/
theorem LayerInvariant.draw (hlevel : l.numElements = l.total_grid * batchSize)
    (hinv : LayerInvariant expf p l batchSize before start w) (hnot : i ∉ tickets (draws p (batch l i)) w)
    (hfound : Found expf p l (batch l i) i) :
    LayerInvariant expf p l batchSize before start
      (w.after apply i (.atomic_add (count_address p (batch l i)) (float32.of_rat 1))) := by
  refine ⟨fun b hb => ?_, fun b => ?_, fun b k m hk hmax hm => ?_, forall_trace_after hinv.inside ?_⟩
  · by_cases hsame : b = batch l i
    · subst hsame
      rw [tickets_after_draw (draws_count _ _), List.length_append, List.length_singleton, ← Nat.add_assoc,
        ← counter_succ, ← hinv.counter _ hb]
      exact Function.update_self ..
    · rw [tickets_after_other (draws_count_of_ne hsame _), ← hinv.counter b hb]
      exact Function.update_of_ne (fun heq => hsame (count_address_inj heq)) ..
  · by_cases hsame : b = batch l i
    · subst hsame
      exact (hinv.drawn _).draw (draws_count _ _) hnot hfound
    · exact (hinv.drawn b).other (draws_count_of_ne hsame _)
  · rw [← hinv.kept b k m hk hmax hm]
    exact Function.update_of_ne (field_ne_count hmax hm) ..
  · exact count_inside (batch_lt hlevel hfound.1)

theorem LayerInvariant.store {address : ℤ} (value : Value) (hlevel : l.numElements = l.total_grid * batchSize)
    (hinv : LayerInvariant expf p l batchSize before start w) (hown : Own expf p l before i address w) :
    LayerInvariant expf p l batchSize before start (w.after apply i (.store address value)) := by
  have hinside := hown.inside hlevel
  obtain ⟨k', m', -, -, hk', hm', rfl⟩ := hown
  refine ⟨fun b hb => ?_, fun b => (hinv.drawn b).other rfl, fun b k m hk hmax hm => ?_,
    forall_trace_after hinv.inside hinside⟩
  · rw [tickets_after_other rfl, ← hinv.counter b hb]
    exact Function.update_of_ne (field_ne_count hk' hm').symm ..
  · rw [← hinv.kept b k m hk hmax hm]
    refine Function.update_of_ne (fun heq => ?_) ..
    obtain ⟨rfl, rfl, -⟩ := field_inj hmax hk' hm hm' heq
    omega

theorem LayerInvariant.load {address : ℤ} (hlevel : l.numElements = l.total_grid * batchSize)
    (hinv : LayerInvariant expf p l batchSize before start w) (hown : Own expf p l before i address w) :
    LayerInvariant expf p l batchSize before start (w.after apply i (.load address)) := by
  refine ⟨fun b hb => ?_, fun b => (hinv.drawn b).other rfl, hinv.kept,
    forall_trace_after hinv.inside (hown.inside hlevel)⟩
  rw [tickets_after_other rfl]
  exact hinv.counter b hb

/-- What the threads of one launch keep to. -/
def detecting (expf : Value → Value) (p : YoloLayerPlugin) (before : ℕ → ℕ) (start : Output)
    (hlevel : l.numElements = l.total_grid * batchSize) : Discipline apply where
  invariant := LayerInvariant expf p l batchSize before start
  allowed := layer_allowed expf p l before
  kept w i op hinv hallowed := by
    cases op with
    | atomic_add address value =>
      obtain ⟨rfl, rfl, hnot, hfound⟩ := hallowed
      exact hinv.draw hlevel hnot hfound
    | store address value => exact hinv.store value hlevel hallowed
    | load address => exact hinv.load hlevel hallowed

/-- The others leave the record of a thread alone. -/
theorem record_after_other {j m : ℕ} {op : Op} (hne : j ≠ i) (hallowed : layer_allowed expf p l before j op w)
    (hholds : Holds (draws p (batch l i)) w i k) (hk : before (batch l i) + k < p.mMaxOutObject) (hm : m < 89) :
    (w.after apply j op).shared (field p (batch l i) (before (batch l i) + k) m) =
      w.shared (field p (batch l i) (before (batch l i) + k) m) := by
  cases op with
  | atomic_add address value =>
    obtain ⟨rfl, -⟩ := hallowed
    exact Function.update_of_ne (field_ne_count hk hm) ..
  | store address value =>
    obtain ⟨k', m', -, hholds', hk', hm', rfl⟩ := hallowed
    refine Function.update_of_ne (fun heq => ?_) ..
    obtain ⟨hbatch, hrecord, -⟩ := field_inj hk hk' hm hm' heq
    rw [hbatch] at hholds hrecord
    obtain rfl : k = k' := by omega
    exact hne (hholds'.holder_unique hholds)
  | load address => rfl

/-- A thread with a place has written some members of its record. -/
structure Written (p : YoloLayerPlugin) (l : Level) (before : ℕ → ℕ) (i k : ℕ) (written : List (ℕ × Value))
    (w : LayerWorld) : Prop where
  holds : Holds (draws p (batch l i)) w i k
  written : ∀ m v, (m, v) ∈ written → w.shared (field p (batch l i) (before (batch l i) + k) m) = v

/-- What a thread leaves behind: its cell is counted if it is found, and its record written where there is room. -/
structure Detected (expf : Value → Value) (p : YoloLayerPlugin) (l : Level) (before : ℕ → ℕ) (i : ℕ)
    (w : LayerWorld) : Prop where
  drawn : Found expf p l (batch l i) i → i ∈ tickets (draws p (batch l i)) w
  record : ∀ k, Holds (draws p (batch l i)) w i k → before (batch l i) + k < p.mMaxOutObject →
    ∀ m v, (m, v) ∈ detection expf p l i → w.shared (field p (batch l i) (before (batch l i) + k) m) = v

variable {hlevel : l.numElements = l.total_grid * batchSize}

theorem mem_detection_lt (hfits : Fits p) {m : ℕ} {v : Value} (hmem : (m, v) ∈ detection expf p l i) : m < 89 :=
  member_lt expf l i hfits (List.mem_map_of_mem hmem)

theorem detected_stable (hfits : Fits p) :
    (detecting expf p before start hlevel).Stable i (Detected expf p l before i) := by
  intro w j op hne _ hdetected hallowed
  refine ⟨fun hfound => (mem_tickets_after hne).mpr (hdetected.drawn hfound), fun k hholds hk m v hmem => ?_⟩
  have hbefore := hholds.of_after hne
  rw [record_after_other hne hallowed hbefore hk (mem_detection_lt hfits hmem)]
  exact hdetected.record k hbefore hk m v hmem

theorem written_stable {written : List (ℕ × Value)} (hk : before (batch l i) + k < p.mMaxOutObject)
    (hlt : ∀ m v, (m, v) ∈ written → m < 89) :
    (detecting expf p before start hlevel).Stable i (Written p l before i k written) := by
  intro w j op hne _ hwritten hallowed
  refine ⟨hwritten.holds.after, fun m v hmem => ?_⟩
  rw [record_after_other hne hallowed hwritten.holds hk (hlt m v hmem)]
  exact hwritten.written m v hmem

theorem field_add (b k m : ℕ) : field p b k 0 + m = field p b k m := by
  rw [field, field, Nat.cast_zero, add_zero]

section Triples

variable {Q : LayerWorld → Prop} {written : List (ℕ × Value)}

/-- A thread writes further members of its record. -/
theorem store_members_triple (hk : before (batch l i) + k < p.mMaxOutObject) (hfound : Found expf p l (batch l i) i)
    {rest : List (ℕ × Value)} {next : Thread} (hlt : ∀ m v, (m, v) ∈ written ++ rest → m < 89)
    (hnodup : ((written ++ rest).map Prod.fst).Nodup)
    (hnext : (detecting expf p before start hlevel).Triple i (Written p l before i k (written ++ rest)) next Q) :
    (detecting expf p before start hlevel).Triple i (Written p l before i k written)
      (store_members (field p (batch l i) (before (batch l i) + k) 0) rest next) Q := by
  induction rest generalizing written with
  | nil =>
    rw [List.append_nil] at hnext
    exact hnext
  | cons first rest ih =>
    obtain ⟨m, value⟩ := first
    have happend : written ++ (m, value) :: rest = (written ++ [(m, value)]) ++ rest := by
      rw [List.append_assoc, List.singleton_append]
    have hm : m < 89 := hlt m value (by simp)
    have hnew : m ∉ written.map Prod.fst := by
      rw [List.map_append, List.nodup_append] at hnodup
      exact fun hmem => hnodup.2.2 m hmem m (by simp) rfl
    rw [store_members, field_add]
    refine Discipline.Triple.perform (R := fun _ => Written p l before i k (written ++ [(m, value)]))
      (written_stable hk fun m v hmem => hlt m v (List.mem_append_left _ hmem)) ?_ ?_ fun _ => ?_
    · intro w _ hwritten
      exact ⟨k, m, hfound, hwritten.holds, hk, hm, rfl⟩
    · intro w _ hwritten
      refine ⟨hwritten.holds.after, fun m' v hmem => ?_⟩
      obtain hold | hself := List.mem_append.mp hmem
      · have hne : field p (batch l i) (before (batch l i) + k) m' ≠
            field p (batch l i) (before (batch l i) + k) m := by
          intro heq
          obtain ⟨-, -, rfl⟩ := field_inj hk hk (hlt m' v (List.mem_append_left _ hold)) hm heq
          exact hnew (List.mem_map_of_mem hold)
        rw [← hwritten.written m' v hold]
        exact Function.update_of_ne hne ..
      · obtain ⟨rfl, rfl⟩ := Prod.mk.inj (List.mem_singleton.mp hself)
        exact Function.update_self ..
    · rw [happend] at hlt hnodup hnext
      exact ih hlt hnodup hnext

/-- A member that the thread has written is what it reads back. -/
theorem load_triple (hk : before (batch l i) + k < p.mMaxOutObject) (hfound : Found expf p l (batch l i) i)
    (hlt : ∀ m v, (m, v) ∈ written → m < 89) {m : ℕ} {v : Value} (hmem : (m, v) ∈ written) {next : Value → Thread}
    (hnext : (detecting expf p before start hlevel).Triple i (Written p l before i k written) (next v) Q) :
    (detecting expf p before start hlevel).Triple i (Written p l before i k written)
      (load (field p (batch l i) (before (batch l i) + k) m) next) Q := by
  refine Discipline.Triple.observe (written_stable hk hlt) ?_ (fun w _ hwritten => hwritten.written m v hmem) ?_ hnext
  · intro w _ hwritten
    exact ⟨k, m, hfound, hwritten.holds, hk, hlt m v hmem, rfl⟩
  · intro w _ hwritten
    exact ⟨hwritten.holds.after, hwritten.written⟩

theorem load_within_triple (hk : before (batch l i) + k < p.mMaxOutObject) (hfound : Found expf p l (batch l i) i)
    (hlt : ∀ m v, (m, v) ∈ written → m < 89) (hmembers : ∀ e ∈ members expf p l i, e ∈ written) {x y : Value}
    {next : Bool → Thread} (hnext : (detecting expf p before start hlevel).Triple i (Written p l before i k written)
      (next (within (bbox p l i) x y)) Q) :
    (detecting expf p before start hlevel).Triple i (Written p l before i k written)
      (load_within (field p (batch l i) (before (batch l i) + k) 0) x y next) Q := by
  have hbox := fun m v hvalue => hmembers (m, v) (box_mem_detection expf l i hvalue)
  have hone := field_add (p := p) (batch l i) (before (batch l i) + k) 1
  have htwo := field_add (p := p) (batch l i) (before (batch l i) + k) 2
  have hthree := field_add (p := p) (batch l i) (before (batch l i) + k) 3
  rw [Nat.cast_ofNat] at htwo hthree
  rw [Nat.cast_one] at hone
  rw [load_within]
  refine load_triple hk hfound hlt (hbox 0 (bbox p l i).left (by simp)) ?_
  cases hleft : float32.le (bbox p l i).left x with
  | false => simpa [within, hleft] using hnext
  | true =>
    rw [if_pos rfl, htwo]
    refine load_triple hk hfound hlt (hbox 2 (bbox p l i).right (by simp)) ?_
    cases hright : float32.le x (bbox p l i).right with
    | false => simpa [within, hleft, hright] using hnext
    | true =>
      rw [if_pos rfl, hone]
      refine load_triple hk hfound hlt (hbox 1 (bbox p l i).top (by simp)) ?_
      cases htop : float32.le (bbox p l i).top y with
      | false => simpa [within, hleft, hright, htop] using hnext
      | true =>
        rw [if_pos rfl, hthree]
        refine load_triple hk hfound hlt (hbox 3 (bbox p l i).bottom (by simp)) ?_
        simpa [within, hleft, hright, htop] using hnext

/-- The keypoints that are left, after the members and the keypoints before. -/
theorem store_keypoints_triple (hk : before (batch l i) + k < p.mMaxOutObject)
    (hfound : Found expf p l (batch l i) i) (hmembers : ∀ e ∈ members expf p l i, e ∈ written) {kpts : List ℕ}
    {rest : List (ℕ × Value)} (hrest : rest = kpts.flatMap fun kpt =>
      keypoint expf p l i (within (bbox p l i) (kpt_x p l i kpt) (kpt_y p l i kpt)) kpt)
    (hlt : ∀ m v, (m, v) ∈ written ++ rest → m < 89) (hnodup : ((written ++ rest).map Prod.fst).Nodup)
    (hdone : (detecting expf p before start hlevel).Triple i (Written p l before i k (written ++ rest)) .done Q) :
    (detecting expf p before start hlevel).Triple i (Written p l before i k written)
      (store_keypoints expf p l i (field p (batch l i) (before (batch l i) + k) 0) kpts) Q := by
  induction kpts generalizing written rest with
  | nil =>
    rw [List.flatMap_nil] at hrest
    rw [hrest, List.append_nil] at hdone
    exact hdone
  | cons kpt kpts ih =>
    rw [List.flatMap_cons] at hrest
    subst hrest
    rw [← List.append_assoc] at hlt hnodup hdone
    rw [store_keypoints]
    refine load_within_triple hk hfound
      (fun m v hmem => hlt m v (List.mem_append_left _ (List.mem_append_left _ hmem))) hmembers ?_
    refine store_members_triple hk hfound (fun m v hmem => hlt m v (List.mem_append_left _ hmem)) ?_ ?_
    · rw [List.map_append] at hnodup
      exact hnodup.of_append_left
    · exact ih (fun e he => List.mem_append_left _ (hmembers e he)) rfl hlt hnodup hdone

end Triples

end k180.yolo
