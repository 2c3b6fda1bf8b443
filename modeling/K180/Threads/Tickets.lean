import K180.Threads.Interference

namespace threads

variable {Op S : Type} {Result : Op → Type} {apply : (op : Op) → S → Result op × S} {draws : Op → Bool}

/-- The threads that have drawn a number from a counter, in the order of the numbers. -/
def tickets (draws : Op → Bool) (w : World Op S) : List ℕ := (w.trace.filter fun e => draws e.2).map Prod.fst

/-- A thread has drawn a number. -/
def Holds (draws : Op → Bool) (w : World Op S) (i k : ℕ) : Prop := (tickets draws w)[k]? = some i

variable {w : World Op S} {i j k k' : ℕ} {op : Op}

@[simp] theorem tickets_start (s : S) : tickets draws ⟨s, []⟩ = [] := rfl

theorem tickets_after_draw (hdraws : draws op = true) :
    tickets draws (w.after apply i op) = tickets draws w ++ [i] := by
  simp [tickets, World.after, hdraws]

theorem tickets_after_other (hdraws : draws op = false) : tickets draws (w.after apply i op) = tickets draws w := by
  simp [tickets, World.after, hdraws]

theorem Holds.mem (hholds : Holds draws w i k) : i ∈ tickets draws w := List.mem_of_getElem? hholds

theorem Holds.lt (hholds : Holds draws w i k) : k < (tickets draws w).length := by
  obtain ⟨hlt, -⟩ := List.getElem?_eq_some_iff.mp hholds
  exact hlt

/-- The last draw gives the number of draws before it. -/
theorem holds_draw (hdraws : draws op = true) :
    Holds draws (w.after apply i op) i (tickets draws w).length := by
  rw [Holds, tickets_after_draw hdraws, List.getElem?_concat_length]

/-- Nobody loses a number. -/
theorem Holds.after (hholds : Holds draws w i k) : Holds draws (w.after apply j op) i k := by
  cases hdraws : draws op with
  | true => rw [Holds, tickets_after_draw hdraws, List.getElem?_append_left hholds.lt, hholds]
  | false => rw [Holds, tickets_after_other hdraws, hholds]

/-- A thread only has a number that it has drawn itself. -/
theorem Holds.of_after (hne : j ≠ i) (hholds : Holds draws (w.after apply j op) i k) : Holds draws w i k := by
  cases hdraws : draws op with
  | true =>
    rw [Holds, tickets_after_draw hdraws, List.getElem?_append] at hholds
    split at hholds
    · exact hholds
    · obtain hself := List.mem_of_getElem? hholds
      rw [List.mem_singleton] at hself
      exact absurd hself.symm hne
  | false =>
    rw [Holds, tickets_after_other hdraws] at hholds
    exact hholds

/-- Where nobody draws twice, a number is its holder's only one. -/
theorem Holds.unique (hnodup : (tickets draws w).Nodup) (hholds : Holds draws w i k) (hholds' : Holds draws w i k') :
    k = k' := by
  obtain ⟨hlt, heq⟩ := List.getElem?_eq_some_iff.mp hholds
  obtain ⟨hlt', heq'⟩ := List.getElem?_eq_some_iff.mp hholds'
  exact hnodup.getElem_inj_iff.mp (heq.trans heq'.symm)

theorem Holds.holder_unique (hholds : Holds draws w i k) (hholds' : Holds draws w j k) : i = j :=
  Option.some.inj (hholds.symm.trans hholds')

/-- Only threads that may have drawn, and none of them twice. -/
structure Drawn (draws : Op → Bool) (may : ℕ → Prop) (w : World Op S) : Prop where
  nodup : (tickets draws w).Nodup
  may : ∀ i ∈ tickets draws w, may i

section Drawn

variable {may : ℕ → Prop}

theorem Drawn.start (s : S) : Drawn draws may (⟨s, []⟩ : World Op S) := ⟨List.nodup_nil, by simp⟩

theorem Drawn.draw (hdrawn : Drawn draws may w) (hdraws : draws op = true) (hnot : i ∉ tickets draws w)
    (hmay : may i) : Drawn draws may (w.after apply i op) := by
  constructor
  · rw [tickets_after_draw hdraws, ← List.concat_eq_append]
    exact List.Nodup.concat hnot hdrawn.nodup
  · rw [tickets_after_draw hdraws, List.forall_mem_append]
    exact ⟨hdrawn.may, by simpa using hmay⟩

theorem Drawn.other (hdrawn : Drawn draws may w) (hdraws : draws op = false) : Drawn draws may (w.after apply i op) := by
  constructor
  · rw [tickets_after_other hdraws]
    exact hdrawn.nodup
  · rw [tickets_after_other hdraws]
    exact hdrawn.may

end Drawn

theorem mem_tickets_after (hne : j ≠ i) : i ∈ tickets draws (w.after apply j op) ↔ i ∈ tickets draws w := by
  cases hdraws : draws op with
  | true => rw [tickets_after_draw hdraws, List.mem_append, List.mem_singleton, or_iff_left (Ne.symm hne)]
  | false => rw [tickets_after_other hdraws]

end threads
