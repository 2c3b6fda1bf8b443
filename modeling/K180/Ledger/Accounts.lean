import Mathlib

namespace ledger

/-- What is held of a library that hands out resources, each as often as it has to be given back; and what has been
given back without being held. -/
structure Ledger (R : Type*) where
  live : Multiset R
  missed : List R

variable {R : Type*}

namespace Ledger

def empty : Ledger R := ⟨0, []⟩

def acquire (l : Ledger R) (r : R) : Ledger R := { l with live := r ::ₘ l.live }

variable [DecidableEq R]

def release (l : Ledger R) (r : R) : Ledger R :=
  if r ∈ l.live then { l with live := l.live.erase r } else { l with missed := r :: l.missed }

def release_all (l : Ledger R) (rs : List R) : Ledger R := rs.foldl release l

end Ledger

/-- Exactly what a program knows of is held, and it has never given back what it did not hold. -/
structure Accounts (l : Ledger R) (owned : Multiset R) : Prop where
  live : l.live = owned
  missed : l.missed = []

namespace Accounts

variable {l : Ledger R} {owned : Multiset R} {r : R}

theorem of_eq (h : Accounts l owned) {owned' : Multiset R} (heq : owned = owned') : Accounts l owned' := heq ▸ h

theorem empty : Accounts (Ledger.empty : Ledger R) 0 := ⟨rfl, rfl⟩

theorem acquire (h : Accounts l owned) (r : R) : Accounts (l.acquire r) (r ::ₘ owned) :=
  ⟨congrArg (r ::ₘ ·) h.live, h.missed⟩

variable [DecidableEq R]

theorem release (h : Accounts l (r ::ₘ owned)) : Accounts (l.release r) owned := by
  have hmem : r ∈ l.live := by
    rw [h.live]
    exact Multiset.mem_cons_self r owned
  rw [Ledger.release, if_pos hmem]
  refine ⟨?_, h.missed⟩
  rw [h.live, Multiset.erase_cons_head]

theorem release_all {rs : List R} (h : Accounts l (↑rs + owned)) : Accounts (l.release_all rs) owned := by
  induction rs generalizing l with
  | nil => simpa [Ledger.release_all] using h
  | cons r rest ih =>
    rw [← Multiset.cons_coe, Multiset.cons_add] at h
    exact ih h.release

end Accounts

theorem coe_cons_add (r : R) (rs : List R) (owned : Multiset R) : ↑(r :: rs) + owned = r ::ₘ (↑rs + owned) := by
  rw [← Multiset.cons_coe, Multiset.cons_add]

/-! ### Caches whose entries hold resources -/

/-- What the items of a list hold, by what one of them holds. -/
def held {E : Type*} (holds : E → List R) (items : List E) : Multiset R := (items.map fun e => ↑(holds e)).sum

theorem held_append {E : Type*} (holds : E → List R) (first second : List E) :
    held holds (first ++ second) = held holds first + held holds second := by
  rw [held, List.map_append, List.sum_append]
  rfl

theorem held_cons {E : Type*} (holds : E → List R) (e : E) (rest : List E) :
    held holds (e :: rest) = ↑(holds e) + held holds rest := by
  rw [held, List.map_cons, List.sum_cons]
  rfl

theorem held_filter {E : Type*} (holds : E → List R) (p : E → Bool) (items : List E) :
    ↑((items.filter p).flatMap holds) + held holds (items.filter fun e => !p e) = held holds items := by
  induction items with
  | nil => rfl
  | cons e rest ih =>
    cases hp : p e with
    | true =>
      rw [List.filter_cons_of_pos hp, List.filter_cons_of_neg (by simp [hp]), List.flatMap_cons, ← Multiset.coe_add,
        held_cons, add_assoc, ih]
    | false =>
      rw [List.filter_cons_of_neg (by simp [hp]), List.filter_cons_of_pos (by simp [hp]), held_cons, held_cons,
        add_left_comm, ih]

variable {K E : Type*} {holds : E → List R} {c : AList fun _ : K => E} {k : K} {e : E}

def cached (holds : E → List R) (c : AList fun _ : K => E) : Multiset R := held (fun entry => holds entry.2) c.entries

/-- The entries whose keys meet a condition. -/
def restrict (p : K → Bool) (c : AList fun _ : K => E) : AList fun _ : K => E :=
  ⟨c.entries.filter fun entry => p entry.1, c.nodupKeys.sublist List.filter_sublist⟩

theorem cached_restrict (holds : E → List R) (p : K → Bool) (c : AList fun _ : K => E) :
    ↑((restrict p c).entries.flatMap fun entry => holds entry.2) + cached holds (restrict (fun k => !p k) c) =
      cached holds c :=
  held_filter (fun entry : (_ : K) × E => holds entry.2) (fun entry => p entry.1) c.entries

variable [DecidableEq K]

theorem cached_insert (holds : E → List R) (c : AList fun _ : K => E) (k : K) (e : E) :
    cached holds (c.insert k e) = ↑(holds e) + cached holds (c.erase k) := held_cons _ _ _

theorem cached_erase_of_none (hlookup : c.lookup k = none) : cached holds (c.erase k) = cached holds c := by
  have hkeys : k ∉ c.entries.keys := fun hmem => AList.lookup_eq_none.mp hlookup (AList.mem_keys.mpr hmem)
  have hentries : (c.erase k).entries = c.entries := List.kerase_of_notMem_keys hkeys
  rw [cached, cached, hentries]

theorem cached_erase_of_some (hlookup : c.lookup k = some e) :
    ↑(holds e) + cached holds (c.erase k) = cached holds c := by
  have hmem : k ∈ c.entries.keys := AList.mem_keys.mp (AList.lookup_isSome.mp (by rw [hlookup]; rfl))
  obtain ⟨e', before, after, -, hentries, herase⟩ := List.exists_of_kerase hmem
  have he : e' = e := by
    have hfound : ⟨k, e'⟩ ∈ c.entries := by
      rw [hentries]
      exact List.mem_append_right _ (List.mem_cons_self ..)
    exact Option.some.inj ((AList.mem_lookup_iff.mpr hfound).symm.trans hlookup)
  have hrest : (c.erase k).entries = before ++ after := herase
  rw [cached, cached, hrest, hentries, held_append, held_append, held_cons, he]
  exact add_left_comm _ _ _

theorem cached_erase_insert (holds : E → List R) (c : AList fun _ : K => E) (k : K) (e : E) :
    cached holds ((c.insert k e).erase k) = cached holds (c.erase k) := by
  have hentries : ((c.insert k e).erase k).entries = (c.erase k).entries := List.kerase_cons_eq rfl
  rw [cached, cached, hentries]

end ledger
