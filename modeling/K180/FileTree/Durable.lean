import Mathlib

namespace durable_files

/-- Where the paths lead and the modes of the files. A file is a number, which is used once. -/
structure Names (P : Type*) where
  link : P → Option ℕ
  mode : ℕ → ℕ

structure File where
  content : List UInt8
  /-- There was no write since the last `fsync`. -/
  synced : Bool
deriving DecidableEq

/-- A file system that records the changes of its names in order. -/
structure Volume (P : Type*) where
  file : ℕ → File
  names : Names P
  /-- the names before, the newest first, as far as a loss of power can go back -/
  earlier : List (Names P)
  fresh : ℕ

variable {P : Type*} [DecidableEq P]

namespace Volume

def journal (v : Volume P) : List (Names P) := v.names :: v.earlier

/-- What a path leads to by some names. -/
def read_by (v : Volume P) (n : Names P) (p : P) : Option (List UInt8) := (n.link p).map fun i => (v.file i).content

def read (v : Volume P) (p : P) : Option (List UInt8) := v.read_by v.names p

def set_names (v : Volume P) (names : Names P) : Volume P := { v with names := names, earlier := v.journal }

def set_file (v : Volume P) (i : ℕ) (f : File) : Volume P := { v with file := Function.update v.file i f }

/-- The content of a file after a write at an offset. -/
def overwrite (content : List UInt8) (offset : ℕ) (bytes : List UInt8) : List UInt8 :=
  content.take offset ++ List.replicate (offset - content.length) 0 ++ bytes ++ content.drop (offset + bytes.length)

/-- A write at the end appends. -/
@[simp] theorem overwrite_length (content bytes : List UInt8) :
    overwrite content content.length bytes = content ++ bytes := by
  simp [overwrite]

/-- `open` with `O_WRONLY | O_CREAT | O_TRUNC` -/
def open_truncated (v : Volume P) (path : P) (mode : ℕ) : ℕ × Volume P :=
  match v.names.link path with
  | some i => (i, v.set_file i ⟨[], false⟩)
  | none =>
    let names := ⟨Function.update v.names.link path (some v.fresh), Function.update v.names.mode v.fresh mode⟩
    (v.fresh, { v.set_file v.fresh ⟨[], false⟩ with fresh := v.fresh + 1 }.set_names names)

def pwrite (v : Volume P) (i offset : ℕ) (bytes : List UInt8) : Volume P :=
  v.set_file i ⟨overwrite (v.file i).content offset bytes, false⟩

def fsync (v : Volume P) (i : ℕ) : Volume P := v.set_file i ⟨(v.file i).content, true⟩

omit [DecidableEq P] in
@[simp] theorem set_file_self (v : Volume P) (i : ℕ) (f : File) : (v.set_file i f).file i = f :=
  Function.update_self ..

/-- What has been opened is empty, and the path leads to it. -/
theorem open_truncated_spec (v : Volume P) (path : P) (mode : ℕ) :
    (v.open_truncated path mode).2.names.link path = some (v.open_truncated path mode).1 ∧
      ((v.open_truncated path mode).2.file (v.open_truncated path mode).1).content = [] := by
  rw [open_truncated]
  split
  · rename_i i hlink
    exact ⟨hlink, by simp⟩
  · exact ⟨Function.update_self .., by simp [set_names]⟩

def chmod (v : Volume P) (path : P) (mode : ℕ) : Option (Volume P) :=
  (v.names.link path).map fun i => v.set_names ⟨v.names.link, Function.update v.names.mode i mode⟩

/-- Two names of one file stay as they are. -/
def rename (v : Volume P) (src dst : P) : Option (Volume P) :=
  (v.names.link src).map fun i =>
    if v.names.link dst = some i then v
    else v.set_names ⟨Function.update (Function.update v.names.link dst (some i)) src none, v.names.mode⟩

def unlink (v : Volume P) (path : P) : Option (Volume P) :=
  (v.names.link path).map fun _ => v.set_names ⟨Function.update v.names.link path none, v.names.mode⟩

/-- A loss of power: the last `n` changes of the names are lost, and a file with a write since its last `fsync`
may hold anything. What is there after the start is there to stay. -/
def lose_power (v : Volume P) (n : ℕ) (lost : ℕ → List UInt8) : Option (Volume P) :=
  (v.journal[n]?).map fun names =>
    { v with file := fun i => if (v.file i).synced then v.file i else ⟨lost i, true⟩, names := names, earlier := [] }

end Volume

/-- Nothing but a kept path leads to a file that a kept path leads to in names of before. -/
def Apart (Kept : P → Prop) (n m : Names P) : Prop :=
  ∀ t i, ¬ Kept t → n.link t = some i → ∀ p, Kept p → m.link p ≠ some i

/-- No other path leads to the file that a path leads to, kept paths apart. -/
def Single (Kept : P → Prop) (n : Names P) : Prop :=
  ∀ t t' i, ¬ Kept t → ¬ Kept t' → n.link t = some i → n.link t' = some i → t = t'

/-- Each kept path leads to a file that is synced and good, in all names that a loss of power can go back to. -/
structure Sealed (Kept : P → Prop) (Good : P → List UInt8 → ℕ → Prop) (v : Volume P) : Prop where
  good : ∀ n ∈ v.journal, ∀ p, Kept p →
    ∃ i content, n.link p = some i ∧ v.file i = ⟨content, true⟩ ∧ Good p content (n.mode i)
  apart : v.journal.Pairwise (Apart Kept)
  apart_self : ∀ n ∈ v.journal, Apart Kept n n
  single : ∀ n ∈ v.journal, Single Kept n
  fresh : ∀ n ∈ v.journal, ∀ p i, n.link p = some i → i < v.fresh

namespace Sealed

variable {Kept : P → Prop} {Good : P → List UInt8 → ℕ → Prop} {v : Volume P} {t : P} {i : ℕ}

omit [DecidableEq P] in
theorem kept_ne (ht : ¬ Kept t) {p : P} (hp : Kept p) : p ≠ t := fun heq => ht (heq ▸ hp)

omit [DecidableEq P] in
theorem names_mem : v.names ∈ v.journal := List.mem_cons_self

omit [DecidableEq P] in
/-- The file of another path is the file of no kept path. -/
theorem free (h : Sealed Kept Good v) (ht : ¬ Kept t) (hlink : v.names.link t = some i) {n : Names P}
    (hn : n ∈ v.journal) {p : P} (hp : Kept p) : n.link p ≠ some i := by
  obtain rfl | hn := List.mem_cons.mp hn
  · exact h.apart_self _ names_mem t i ht hlink p hp
  · exact List.rel_of_pairwise_cons h.apart hn t i ht hlink p hp

omit [DecidableEq P] in
theorem set_file (h : Sealed Kept Good v) (hfree : ∀ n ∈ v.journal, ∀ p, Kept p → n.link p ≠ some i) (f : File) :
    Sealed Kept Good (v.set_file i f) where
  good n hn p hp := by
    obtain ⟨j, content, hlink, hfile, hgood⟩ := h.good n hn p hp
    have hne : j ≠ i := fun heq => hfree n hn p hp (heq ▸ hlink)
    exact ⟨j, content, hlink, (Function.update_of_ne hne ..).trans hfile, hgood⟩
  apart := h.apart
  apart_self := h.apart_self
  single := h.single
  fresh := h.fresh

omit [DecidableEq P] in
theorem read_set_file (h : Sealed Kept Good v) (ht : ¬ Kept t) (hlink : v.names.link t = some i) (f : File) {p : P}
    (hp : Kept p) : (v.set_file i f).read p = v.read p := by
  have hne : ∀ j, v.names.link p = some j → j ≠ i := fun j hj heq => h.free ht hlink names_mem hp (heq ▸ hj)
  refine Option.map_congr fun j hj => ?_
  simp only [Volume.set_file, Function.update_of_ne (hne j hj)]

omit [DecidableEq P] in
theorem set_names (h : Sealed Kept Good v) {names : Names P}
    (hgood : ∀ p, Kept p →
      ∃ i content, names.link p = some i ∧ v.file i = ⟨content, true⟩ ∧ Good p content (names.mode i))
    (hapart : ∀ n ∈ v.journal, Apart Kept names n) (hself : Apart Kept names names) (hsingle : Single Kept names)
    (hfresh : ∀ p i, names.link p = some i → i < v.fresh) : Sealed Kept Good (v.set_names names) where
  good n hn := by
    obtain rfl | hn := List.mem_cons.mp hn
    exacts [hgood, h.good n hn]
  apart := List.pairwise_cons.mpr ⟨hapart, h.apart⟩
  apart_self n hn := by
    obtain rfl | hn := List.mem_cons.mp hn
    exacts [hself, h.apart_self n hn]
  single n hn := by
    obtain rfl | hn := List.mem_cons.mp hn
    exacts [hsingle, h.single n hn]
  fresh n hn := by
    obtain rfl | hn := List.mem_cons.mp hn
    exacts [hfresh, h.fresh n hn]

theorem open_truncated (h : Sealed Kept Good v) (ht : ¬ Kept t) (mode : ℕ) :
    Sealed Kept Good (v.open_truncated t mode).2 := by
  rw [Volume.open_truncated]
  split
  · rename_i i hlink
    exact h.set_file (fun n hn p hp => h.free ht hlink hn hp) _
  have hfree : ∀ n ∈ v.journal, ∀ p, n.link p ≠ some v.fresh := fun n hn p hlink => (h.fresh n hn p _ hlink).false
  have hfile := h.set_file (fun n hn p _ => hfree n hn p) ⟨[], false⟩
  have hnew : Sealed Kept Good { v.set_file v.fresh ⟨[], false⟩ with fresh := v.fresh + 1 } :=
    ⟨hfile.good, hfile.apart, hfile.apart_self, hfile.single,
      fun n hn p i hlink => (h.fresh n hn p i hlink).trans (Nat.lt_succ_self _)⟩
  have hother : ∀ p, Kept p → Function.update v.names.link t (some v.fresh) p = v.names.link p :=
    fun p hp => Function.update_of_ne (kept_ne ht hp) ..
  have hapart : ∀ n ∈ v.journal, ∀ t' i, ¬ Kept t' → Function.update v.names.link t (some v.fresh) t' = some i →
      ∀ p, Kept p → n.link p ≠ some i := by
    intro n hn t' i ht' hlink p hp
    obtain rfl | hne := eq_or_ne t' t
    · rw [Function.update_self, Option.some.injEq] at hlink
      exact hlink ▸ hfree n hn p
    · rw [Function.update_of_ne hne] at hlink
      exact h.free ht' hlink hn hp
  refine hnew.set_names ?_ hapart ?_ ?_ ?_
  · intro p hp
    obtain ⟨i, content, hlink, hcontent, hgood⟩ := hfile.good _ names_mem p hp
    have hne : i ≠ v.fresh := fun heq => hfree _ names_mem p (heq ▸ hlink)
    refine ⟨i, content, (hother p hp).trans hlink, hcontent, ?_⟩
    dsimp only
    rwa [Function.update_of_ne hne]
  · intro t' i ht' hlink p hp
    dsimp only
    rw [hother p hp]
    exact hapart _ names_mem t' i ht' hlink p hp
  · intro t₁ t₂ i h₁ h₂ hl₁ hl₂
    dsimp only at hl₁ hl₂
    rw [Function.update_apply] at hl₁ hl₂
    split at hl₁ <;> split at hl₂
    · simp only [*]
    · exact absurd (hl₂.trans hl₁.symm) (hfree _ names_mem _)
    · exact absurd (hl₁.trans hl₂.symm) (hfree _ names_mem _)
    · exact h.single _ names_mem t₁ t₂ i h₁ h₂ hl₁ hl₂
  · intro p i hlink
    dsimp only at hlink ⊢
    rw [Function.update_apply] at hlink
    split at hlink
    · exact Option.some.inj hlink ▸ Nat.lt_succ_self _
    · exact (h.fresh _ names_mem p i hlink).trans (Nat.lt_succ_self _)

omit [DecidableEq P] in
theorem chmod (h : Sealed Kept Good v) (ht : ¬ Kept t) {mode : ℕ} {v' : Volume P}
    (hchmod : v.chmod t mode = some v') : Sealed Kept Good v' := by
  obtain ⟨i, hlink, rfl⟩ := Option.map_eq_some_iff.mp hchmod
  refine h.set_names ?_ (fun n hn t' j ht' hlink' p hp => h.free ht' hlink' hn hp)
    (h.apart_self v.names names_mem) (h.single v.names names_mem) (h.fresh v.names names_mem)
  intro p hp
  obtain ⟨j, content, hlink', hcontent, hgood⟩ := h.good _ names_mem p hp
  have hne : j ≠ i := fun heq => h.free ht hlink names_mem hp (heq ▸ hlink')
  refine ⟨j, content, hlink', hcontent, ?_⟩
  dsimp only
  rwa [Function.update_of_ne hne]

/-- A good file that has been synced may take the place of a kept one. -/
theorem rename (h : Sealed Kept Good v) {dst : P} (ht : ¬ Kept t) (hdst : Kept dst) {content : List UInt8}
    (hlink : v.names.link t = some i) (hcontent : v.file i = ⟨content, true⟩)
    (hgood : Good dst content (v.names.mode i)) {v' : Volume P} (hrename : v.rename t dst = some v') :
    Sealed Kept Good v' := by
  obtain ⟨j, hj, rfl⟩ := Option.map_eq_some_iff.mp hrename
  obtain rfl := Option.some.inj (hlink.symm.trans hj)
  rw [if_neg (h.free ht hlink names_mem hdst)]
  have hother : ∀ t', ¬ Kept t' → ∀ j, Function.update (Function.update v.names.link dst (some i)) t none t' = some j →
      v.names.link t' = some j ∧ j ≠ i := by
    intro t' ht' j hlink'
    obtain rfl | hne := eq_or_ne t' t
    · rw [Function.update_self] at hlink'
      cases hlink'
    rw [Function.update_of_ne hne, Function.update_of_ne (kept_ne ht' hdst).symm] at hlink'
    exact ⟨hlink', fun heq => hne (h.single _ names_mem t' t i ht' ht (heq ▸ hlink') hlink)⟩
  have hkept : ∀ p, Kept p → Function.update (Function.update v.names.link dst (some i)) t none p =
      Function.update v.names.link dst (some i) p := fun p hp => Function.update_of_ne (kept_ne ht hp) ..
  refine h.set_names ?_ ?_ ?_ ?_ ?_
  · intro p hp
    obtain rfl | hne := eq_or_ne p dst
    · exact ⟨i, content, (hkept p hp).trans (Function.update_self ..), hcontent, hgood⟩
    · obtain ⟨j, content', hlink', hcontent', hgood'⟩ := h.good _ names_mem p hp
      exact ⟨j, content', (hkept p hp).trans ((Function.update_of_ne hne ..).trans hlink'), hcontent', hgood'⟩
  · intro n hn t' j ht' hlink' p hp
    exact h.free ht' (hother t' ht' j hlink').1 hn hp
  · intro t' j ht' hlink' p hp
    dsimp only
    obtain ⟨hlink', hne⟩ := hother t' ht' j hlink'
    rw [hkept p hp, Function.update_apply]
    split
    · exact fun heq => hne (Option.some.inj heq).symm
    · exact h.free ht' hlink' names_mem hp
  · intro t₁ t₂ j h₁ h₂ hl₁ hl₂
    exact h.single _ names_mem t₁ t₂ j h₁ h₂ (hother t₁ h₁ j hl₁).1 (hother t₂ h₂ j hl₂).1
  · intro p j hlink'
    dsimp only at hlink'
    rw [Function.update_apply, Function.update_apply] at hlink'
    split at hlink'
    · cases hlink'
    split at hlink'
    · exact Option.some.inj hlink' ▸ h.fresh _ names_mem t i hlink
    · exact h.fresh _ names_mem p j hlink'

theorem unlink (h : Sealed Kept Good v) (ht : ¬ Kept t) {v' : Volume P} (hunlink : v.unlink t = some v') :
    Sealed Kept Good v' := by
  obtain ⟨i, hlink, rfl⟩ := Option.map_eq_some_iff.mp hunlink
  have hother : ∀ p j, Function.update v.names.link t none p = some j → v.names.link p = some j := by
    intro p j hlink'
    rw [Function.update_apply] at hlink'
    split at hlink'
    · cases hlink'
    · exact hlink'
  have hkept : ∀ p, Kept p → Function.update v.names.link t none p = v.names.link p :=
    fun p hp => Function.update_of_ne (kept_ne ht hp) ..
  refine h.set_names ?_ ?_ ?_ ?_ ?_
  · intro p hp
    obtain ⟨j, content, hlink', hrest⟩ := h.good _ names_mem p hp
    exact ⟨j, content, (hkept p hp).trans hlink', hrest⟩
  · exact fun n hn t' j ht' hlink' p hp => h.free ht' (hother t' j hlink') hn hp
  · intro t' j ht' hlink' p hp
    dsimp only
    rw [hkept p hp]
    exact h.free ht' (hother t' j hlink') names_mem hp
  · exact fun t₁ t₂ j h₁ h₂ hl₁ hl₂ => h.single _ names_mem t₁ t₂ j h₁ h₂ (hother t₁ j hl₁) (hother t₂ j hl₂)
  · exact fun p j hlink' => h.fresh _ names_mem p j (hother p j hlink')

omit [DecidableEq P] in
theorem lose_power (h : Sealed Kept Good v) {n : ℕ} {lost : ℕ → List UInt8} {v' : Volume P}
    (hlose : v.lose_power n lost = some v') : Sealed Kept Good v' := by
  obtain ⟨names, hnames, rfl⟩ := Option.map_eq_some_iff.mp hlose
  have hmem : names ∈ v.journal := List.mem_of_getElem? hnames
  refine ⟨?_, List.pairwise_singleton _ _, ?_, ?_, ?_⟩ <;> intro m hm <;> obtain rfl := List.mem_singleton.mp hm
  · intro p hp
    obtain ⟨i, content, hlink, hcontent, hgood⟩ := h.good _ hmem p hp
    refine ⟨i, content, hlink, ?_, hgood⟩
    simp only [hcontent, if_true]
  · exact h.apart_self _ hmem
  · exact h.single _ hmem
  · exact h.fresh _ hmem

omit [DecidableEq P] in
/-- After a loss of power the kept paths lead to what they led to by names of before. -/
theorem read_lose_power (h : Sealed Kept Good v) {n : ℕ} {lost : ℕ → List UInt8} {v' : Volume P}
    (hlose : v.lose_power n lost = some v') :
    v'.journal = [v'.names] ∧ v'.names ∈ v.journal ∧ ∀ p, Kept p → v'.read p = v.read_by v'.names p := by
  obtain ⟨names, hnames, rfl⟩ := Option.map_eq_some_iff.mp hlose
  have hmem : names ∈ v.journal := List.mem_of_getElem? hnames
  refine ⟨rfl, hmem, fun p hp => ?_⟩
  obtain ⟨i, content, hlink, hcontent, -⟩ := h.good _ hmem p hp
  simp only [Volume.read, Volume.read_by, hlink, hcontent, if_true, Option.map_some]

end Sealed

/-- What a change leaves: the names so far, and the files that kept paths have led to. -/
structure Later (Kept : P → Prop) (v v' : Volume P) : Prop where
  journal : v'.journal = v.journal ∨ v'.journal = v'.names :: v.journal
  file : ∀ n ∈ v.journal, ∀ p, Kept p → ∀ i, n.link p = some i → v'.file i = v.file i

namespace Later

variable {Kept : P → Prop} {v v' : Volume P} {n : Names P}

omit [DecidableEq P] in
theorem mem (h : Later Kept v v') (hn : n ∈ v.journal) : n ∈ v'.journal := by
  obtain hsame | hnew := h.journal
  · exact hsame ▸ hn
  · exact hnew ▸ List.mem_cons_of_mem _ hn

omit [DecidableEq P] in
theorem mem_cases (h : Later Kept v v') (hn : n ∈ v'.journal) : n = v'.names ∨ n ∈ v.journal := by
  obtain hsame | hnew := h.journal
  · exact .inr (hsame ▸ hn)
  · exact List.mem_cons.mp (hnew ▸ hn)

omit [DecidableEq P] in
theorem read_by (h : Later Kept v v') (hn : n ∈ v.journal) {p : P} (hp : Kept p) : v'.read_by n p = v.read_by n p :=
  Option.map_congr fun i hi => by rw [h.file n hn p hp i hi]

end Later

/-- What a change leaves of a path that is not kept, and of its file. -/
structure Keeps (t : P) (v v' : Volume P) : Prop where
  link : v'.names.link t = v.names.link t
  file : ∀ i, v.names.link t = some i → v'.file i = v.file i
  mode : ∀ i, v.names.link t = some i → v'.names.mode i = v.names.mode i

/-- A change to a path that is not kept and to its file. Of what the kept paths lead to, it changes one thing at
most. -/
structure Moves (Kept : P → Prop) (Good : P → List UInt8 → ℕ → Prop) (t : P) (change : Option (P × List UInt8))
    (v v' : Volume P) : Prop where
  sealed : Sealed Kept Good v'
  read : ∀ p, Kept p → v'.read p = (change.elim v.read fun c => Function.update v.read c.1 (some c.2)) p
  later : Later Kept v v'
  keeps : ∀ t', ¬ Kept t' → t' ≠ t → Keeps t' v v'

namespace Moves

variable {Kept : P → Prop} {Good : P → List UInt8 → ℕ → Prop} {v v' : Volume P} {t : P} {i : ℕ}

theorem refl (h : Sealed Kept Good v) : Moves Kept Good t none v v :=
  ⟨h, fun _ _ => rfl, ⟨.inl rfl, fun _ _ _ _ _ _ => rfl⟩, fun _ _ _ => ⟨rfl, fun _ _ => rfl, fun _ _ => rfl⟩⟩

theorem open_truncated (h : Sealed Kept Good v) (ht : ¬ Kept t) (mode : ℕ) :
    Moves Kept Good t none v (v.open_truncated t mode).2 := by
  refine ⟨h.open_truncated ht mode, fun p hp => ?_, ?_, fun t' ht' hne => ?_⟩ <;> rw [Volume.open_truncated]
  · split
    · rename_i i hlink
      exact h.read_set_file ht hlink _ hp
    · have hfile : ∀ i, v.names.link p = some i → i ≠ v.fresh :=
        fun i hi heq => (h.fresh _ Sealed.names_mem p i hi).ne heq
      have hne := Sealed.kept_ne ht hp
      simp only [Volume.read, Volume.read_by, Volume.set_names, Volume.set_file, Function.update_of_ne hne]
      exact Option.map_congr fun i hi => by rw [Function.update_of_ne (hfile i hi)]
  · split
    · rename_i i hlink
      refine ⟨.inl rfl, fun n hn p hp j hj => Function.update_of_ne ?_ ..⟩
      exact fun heq => h.free ht hlink hn hp (heq ▸ hj)
    · refine ⟨.inr rfl, fun n hn p hp j hj => Function.update_of_ne ?_ ..⟩
      exact fun heq => (h.fresh n hn p j hj).ne heq
  · split
    · rename_i i hlink
      refine ⟨rfl, fun j hj => Function.update_of_ne ?_ .., fun _ _ => rfl⟩
      exact fun heq => hne (h.single _ Sealed.names_mem t' t i ht' ht (heq ▸ hj) hlink)
    · have hold : ∀ j, v.names.link t' = some j → j ≠ v.fresh :=
        fun j hj heq => (h.fresh _ Sealed.names_mem t' j hj).ne heq
      exact ⟨Function.update_of_ne hne .., fun j hj => Function.update_of_ne (hold j hj) ..,
        fun j hj => Function.update_of_ne (hold j hj) ..⟩

theorem set_file (h : Sealed Kept Good v) (ht : ¬ Kept t) (hlink : v.names.link t = some i) (f : File) :
    Moves Kept Good t none v (v.set_file i f) := by
  refine ⟨h.set_file (fun _ hn _ hp => h.free ht hlink hn hp) f, fun p hp => h.read_set_file ht hlink f hp,
    ⟨.inl rfl, fun n hn p hp j hj => ?_⟩, fun t' ht' hne => ⟨rfl, fun j hj => ?_, fun _ _ => rfl⟩⟩ <;>
    refine Function.update_of_ne (fun heq => ?_) ..
  · exact h.free ht hlink hn hp (heq ▸ hj)
  · exact hne (h.single _ Sealed.names_mem t' t i ht' ht (heq ▸ hj) hlink)

theorem chmod (h : Sealed Kept Good v) (ht : ¬ Kept t) {mode : ℕ} (hchmod : v.chmod t mode = some v') :
    Moves Kept Good t none v v' := by
  refine ⟨h.chmod ht hchmod, fun p _ => ?_, ?_, fun t' ht' hne => ?_⟩ <;>
    obtain ⟨i, hlink, rfl⟩ := Option.map_eq_some_iff.mp hchmod
  · rfl
  · exact ⟨.inr rfl, fun _ _ _ _ _ _ => rfl⟩
  · refine ⟨rfl, fun _ _ => rfl, fun j hj => Function.update_of_ne ?_ ..⟩
    exact fun heq => hne (h.single _ Sealed.names_mem t' t i ht' ht (heq ▸ hj) hlink)

theorem rename (h : Sealed Kept Good v) {dst : P} (ht : ¬ Kept t) (hdst : Kept dst) {content : List UInt8}
    (hlink : v.names.link t = some i) (hcontent : v.file i = ⟨content, true⟩)
    (hgood : Good dst content (v.names.mode i)) (hrename : v.rename t dst = some v') :
    Moves Kept Good t (some (dst, content)) v v' := by
  refine ⟨h.rename ht hdst hlink hcontent hgood hrename, fun p hp => ?_, ?_, fun t' ht' hne => ?_⟩ <;>
    obtain ⟨j, hj, rfl⟩ := Option.map_eq_some_iff.mp hrename <;>
    rw [if_neg (h.free ht hj Sealed.names_mem hdst)]
  · obtain rfl := Option.some.inj (hlink.symm.trans hj)
    simp only [Volume.read, Volume.read_by, Volume.set_names, Function.update_of_ne (Sealed.kept_ne ht hp),
      Option.elim_some]
    obtain rfl | hne := eq_or_ne p dst
    · rw [Function.update_self, Function.update_self, Option.map_some, hcontent]
    · rw [Function.update_of_ne hne, Function.update_of_ne hne, Volume.read, Volume.read_by]
  · exact ⟨.inr rfl, fun _ _ _ _ _ _ => rfl⟩
  · refine ⟨?_, fun _ _ => rfl, fun _ _ => rfl⟩
    exact (Function.update_of_ne hne ..).trans (Function.update_of_ne (Sealed.kept_ne ht' hdst).symm ..)

theorem unlink (h : Sealed Kept Good v) (ht : ¬ Kept t) (hunlink : v.unlink t = some v') :
    Moves Kept Good t none v v' := by
  refine ⟨h.unlink ht hunlink, fun p hp => ?_, ?_, fun t' ht' hne => ?_⟩ <;>
    obtain ⟨i, hlink, rfl⟩ := Option.map_eq_some_iff.mp hunlink
  · simp only [Volume.read, Volume.read_by, Volume.set_names, Function.update_of_ne (Sealed.kept_ne ht hp),
      Option.elim_none]
  · exact ⟨.inr rfl, fun _ _ _ _ _ _ => rfl⟩
  · exact ⟨Function.update_of_ne hne .., fun _ _ => rfl, fun _ _ => rfl⟩

end Moves

/-- A path has led to a content that is synced, in names that a loss of power can go back to. -/
def Held (v : Volume P) (p : P) (content : List UInt8) : Prop :=
  ∃ n ∈ v.journal, ∃ i, n.link p = some i ∧ v.file i = ⟨content, true⟩

omit [DecidableEq P] in
theorem Held.later {Kept : P → Prop} {v v' : Volume P} {p : P} {content : List UInt8} (h : Held v p content)
    (hp : Kept p) (hlater : Later Kept v v') : Held v' p content := by
  obtain ⟨n, hn, i, hlink, hcontent⟩ := h
  exact ⟨n, hlater.mem hn, i, hlink, (hlater.file n hn p hp i hlink).trans hcontent⟩

theorem Held.rename {Kept : P → Prop} {Good : P → List UInt8 → ℕ → Prop} {v v' : Volume P} {t dst : P} {i : ℕ}
    {content : List UInt8} (h : Sealed Kept Good v) (ht : ¬ Kept t) (hdst : Kept dst)
    (hlink : v.names.link t = some i) (hcontent : v.file i = ⟨content, true⟩) (hrename : v.rename t dst = some v') :
    Held v' dst content := by
  obtain ⟨j, hj, rfl⟩ := Option.map_eq_some_iff.mp hrename
  obtain rfl := Option.some.inj (hlink.symm.trans hj)
  rw [if_neg (h.free ht hlink Sealed.names_mem hdst)]
  refine ⟨_, Sealed.names_mem, i, ?_, hcontent⟩
  exact (Function.update_of_ne (Sealed.kept_ne ht hdst) ..).trans (Function.update_self ..)

end durable_files
