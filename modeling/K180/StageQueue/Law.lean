import K180.StageQueue.Operations

open schedule

namespace k180.stage_queue

variable {T : Type*}

/-- What the calls have accepted, in order. -/
def accepted (history : List (Effect T)) : List T := history.reverse.filterMap Effect.accepted

def handed (history : List (Effect T)) : List T := history.reverse.filterMap Effect.handed

/-- What has left the queue: each call drops items before it hands one out. -/
def removed (history : List (Effect T)) : List T :=
  history.reverse.flatMap fun e => e.dropped ++ e.handed.toList

/-- What the next call of a queue with a history does with its items. -/
structure CallLaw (s : StageQueue T) (history : List (Effect T)) (op : Op T) (s' : StageQueue T) (e : Effect T) :
    Prop where
  /-- A call accepts the item that it offers as long as the queue is open, and no call accepts anything else. -/
  accepts : e.accepted = if s.closed_ = true then none else op.item
  /-- Only the calls that take items hand one out. -/
  hands : op.takes = false → e.handed = none
  /-- What is handed out by the calls for the newest item is the newest that has been accepted. -/
  newest : op.latest = true → ∀ item, e.handed = some item → (accepted history).getLast? = some item
  /-- Items are dropped only by the push of another item onto a full queue, which drops the oldest, and by a call that
  hands out the newest. -/
  dropped : e.dropped ≠ [] →
    (∃ item oldest, e.accepted = some item ∧ s.q_.length = s.max_ ∧ s.q_.head? = some oldest ∧ e.dropped = [oldest]) ∨
      op.latest = true ∧ e.handed = s.q_.getLast? ∧ e.dropped = s.q_.dropLast
  closed : s.closed_ = true → e.accepted = none ∧ s'.closed_ = true
  /-- The calls that take items find one as long as there is one. -/
  drains : op.takes = true → (e.handed = none ↔ s.q_ = [])
  /-- A call that waits reports the end only for a closed queue. -/
  ends : op.waits = true → e.handed = none → s.closed_ = true

/-- The law of a queue with a history of calls. -/
structure QueueLaw (max_items : ℕ) (ops : List (Op T)) (s : StageQueue T) (history : List (Effect T)) : Prop where
  capacity : s.q_.length ≤ max_items
  /-- Every item that is accepted is in the queue, or has been handed out or dropped, once and in order. -/
  conserved : accepted history = removed history ++ s.q_
  ordered : (handed history).Sublist (accepted history)
  closed : s.closed_ = true ↔ .close ∈ ops
  /-- Nothing waits while there is an item, or once the queue is closed. -/
  no_wait : s.closed_ = true ∨ s.q_ ≠ [] → ∀ op, (s.exec op).isSome = true
  next_call : ∀ op s' e, s.exec op = some (s', e) → CallLaw s history op s' e

variable {s s' : StageQueue T} {op : Op T} {e : Effect T} {history : List (Effect T)} {x x' : Logged T}

theorem accepted_cons : accepted (e :: history) = accepted history ++ e.accepted.toList := by
  rw [accepted, List.reverse_cons, List.filterMap_append, accepted]
  cases h : e.accepted <;> simp [h]

theorem handed_cons : handed (e :: history) = handed history ++ e.handed.toList := by
  rw [handed, List.reverse_cons, List.filterMap_append, handed]
  cases h : e.handed <;> simp [h]

theorem removed_cons : removed (e :: history) = removed history ++ (e.dropped ++ e.handed.toList) := by
  rw [removed, List.reverse_cons, List.flatMap_append, List.flatMap_singleton, removed]

theorem handed_sublist_removed (history : List (Effect T)) : (handed history).Sublist (removed history) := by
  induction history with
  | nil => exact List.Sublist.slnil
  | cons e history ih =>
    rw [handed_cons, removed_cons]
    exact ih.append (List.sublist_append_right _ _)

/-- What is kept of the queue and its history from call to call. -/
structure Inv (max_items : ℕ) (x : Logged T) : Prop where
  max : x.1.max_ = max_items
  capacity : x.1.q_.length ≤ max_items
  conserved : accepted x.2 = removed x.2 ++ x.1.q_

section Calls

variable {max_items : ℕ}

theorem Inv.execTo (hmax : 1 ≤ max_items) (hinv : Inv max_items x) (hexec : x.1.exec op = some (s', e)) :
    ExecTo x.1 op s' e := by
  refine StageQueue.execTo_of_exec ?_ ?_ hexec
  · rw [hinv.max]
    exact hmax
  · rw [hinv.max]
    exact hinv.capacity

theorem inv_queue_step (hmax : 1 ≤ max_items) (hinv : Inv max_items x) (hstep : queue_step x op = some x') :
    Inv max_items x' := by
  obtain ⟨e, hexec, hhistory⟩ := exec_of_queue_step hstep
  obtain ⟨s', history'⟩ := x'
  obtain rfl : history' = e :: x.2 := hhistory
  have hcall := hinv.execTo hmax hexec
  obtain ⟨hmax_items, hcapacity, hconserved⟩ := hinv
  have hkept : ∀ kept : StageQueue T, kept.max_ = x.1.max_ → kept.q_.length ≤ max_items →
      e.accepted.toList = [] → x.1.q_ = e.dropped ++ e.handed.toList ++ kept.q_ →
        Inv max_items (kept, e :: x.2) := by
    intro kept hmax' hlength haccepted hq
    refine ⟨hmax'.trans hmax_items, hlength, ?_⟩
    rw [accepted_cons, removed_cons, haccepted, List.append_nil, hconserved, hq]
    simp only [List.append_assoc]
  cases hcall with
  | @accept _ item _ _ hroom =>
    refine ⟨hmax_items, ?_, ?_⟩
    · rw [List.length_append, List.length_singleton]
      omega
    · rw [accepted_cons, removed_cons, hconserved]
      simp
  | @replace _ item oldest rest _ _ hfull hq =>
    refine ⟨hmax_items, ?_, ?_⟩
    · rw [hq, List.length_cons] at hcapacity
      rw [List.length_append, List.length_singleton]
      exact hcapacity
    · rw [accepted_cons, removed_cons, hconserved, hq]
      simp
  | refuse _ _ => exact hkept x.1 rfl hcapacity rfl rfl
  | @front _ item rest _ _ hq =>
    refine hkept _ rfl ?_ rfl hq
    rw [hq, List.length_cons] at hcapacity
    exact Nat.le_of_succ_le hcapacity
  | @newest _ older item _ _ hq => exact hkept _ rfl (Nat.zero_le _) rfl (by simpa using hq)
  | finish _ _ _ => exact hkept x.1 rfl hcapacity rfl rfl
  | close => exact hkept _ rfl hcapacity rfl rfl

/-- The newest item in the queue is the newest that has been accepted. -/
theorem Inv.newest (hinv : Inv max_items x) {older : List T} {item : T} (hq : x.1.q_ = older ++ [item]) :
    (accepted x.2).getLast? = some item := by
  rw [hinv.conserved, hq, ← List.append_assoc, List.getLast?_concat]

theorem Op.not_takes_of_item {item : T} (hitem : op.item = some item) :
    op.latest = false ∧ op.takes = false ∧ op.waits = false := by
  cases op with
  | push _ | try_push _ => exact ⟨rfl, rfl, rfl⟩
  | _ => cases hitem

theorem Op.item_of_takes (htakes : op.takes = true) : op.item = none := by
  cases op with
  | push _ | try_push _ | close => cases htakes
  | _ => rfl

/-- The law for a call that offers an item. -/
theorem CallLaw.of_item {item : T} (hitem : op.item = some item)
    (haccepted : e.accepted = if s.closed_ = true then none else some item) (hhanded : e.handed = none)
    (hdropped : e.dropped ≠ [] → ∃ item oldest, e.accepted = some item ∧ s.q_.length = s.max_ ∧
      s.q_.head? = some oldest ∧ e.dropped = [oldest])
    (hclosed : s.closed_ = true → e.accepted = none ∧ s'.closed_ = true) : CallLaw s history op s' e := by
  obtain ⟨hlatest, htakes, hwaits⟩ := Op.not_takes_of_item hitem
  refine ⟨hitem.symm ▸ haccepted, fun _ => hhanded, fun h => ?_, fun h => .inl (hdropped h), hclosed, fun h => ?_,
    fun h => ?_⟩
  · rw [hlatest] at h
    cases h
  · rw [htakes] at h
    cases h
  · rw [hwaits] at h
    cases h

/-- The law for a call that takes an item, or finds none. -/
theorem CallLaw.of_takes (htakes : op.takes = true) (haccepted : e.accepted = none)
    (hnewest : op.latest = true → ∀ item, e.handed = some item → (accepted history).getLast? = some item)
    (hdropped : e.dropped ≠ [] → op.latest = true ∧ e.handed = s.q_.getLast? ∧ e.dropped = s.q_.dropLast)
    (hclosed : s'.closed_ = s.closed_) (hdrains : e.handed = none ↔ s.q_ = [])
    (hends : op.waits = true → e.handed = none → s.closed_ = true) : CallLaw s history op s' e := by
  refine ⟨?_, fun h => ?_, hnewest, fun h => .inr (hdropped h), fun h => ⟨haccepted, hclosed.trans h⟩,
    fun _ => hdrains, hends⟩
  · rw [haccepted, Op.item_of_takes htakes, ite_self]
  · rw [htakes] at h
    cases h

theorem Inv.callLaw (hmax : 1 ≤ max_items) (hinv : Inv max_items x) (hexec : x.1.exec op = some (s', e)) :
    CallLaw x.1 x.2 op s' e := by
  cases hinv.execTo hmax hexec with
  | accept hitem hopen _ =>
    refine .of_item hitem (by simp [hopen]) rfl (fun h => absurd rfl h) fun hclosed => ?_
    rw [hopen] at hclosed
    cases hclosed
  | @replace _ item oldest rest hitem hopen hfull hq =>
    refine .of_item hitem (by simp [hopen]) rfl (fun _ => ⟨item, oldest, rfl, hfull, by rw [hq]; rfl, rfl⟩)
      fun hclosed => ?_
    rw [hopen] at hclosed
    cases hclosed
  | refuse hitem hclosed =>
    exact .of_item hitem (by simp [hclosed, Effect.nothing]) rfl (fun h => absurd rfl h) fun _ => ⟨rfl, hclosed⟩
  | @front _ item rest htakes hlatest hq =>
    refine .of_takes htakes rfl (fun h => ?_) (fun h => absurd rfl h) rfl ?_ fun _ h => ?_
    · rw [hlatest] at h
      cases h
    · exact iff_of_false (by simp) (by simp [hq])
    · cases h
  | @newest _ older item htakes hlatest hq =>
    refine .of_takes htakes rfl (fun _ item' hitem' => ?_) (fun _ => ⟨hlatest, ?_, ?_⟩) rfl ?_ fun _ h => ?_
    · obtain rfl := Option.some.inj hitem'
      exact hinv.newest hq
    · rw [hq, List.getLast?_concat]
    · rw [hq, List.dropLast_concat]
    · exact iff_of_false (by simp) (by simp [hq])
    · cases h
  | finish htakes hq hend =>
    refine .of_takes htakes rfl (fun _ item' hitem' => ?_) (fun h => absurd rfl h) rfl ?_ fun h _ => hend h
    · cases hitem'
    · exact iff_of_true rfl hq
  | close =>
    refine ⟨(ite_self none).symm, fun _ => rfl, fun _ item' hitem' => ?_, fun h => absurd rfl h,
      fun _ => ⟨rfl, rfl⟩, fun h => ?_, fun h => ?_⟩
    · cases hitem'
    · cases h
    · cases h

/-- Only a call of `close` closes the queue, and nothing opens it again. -/
theorem Inv.closed_iff (hmax : 1 ≤ max_items) (hinv : Inv max_items x) (hexec : x.1.exec op = some (s', e)) :
    s'.closed_ = true ↔ x.1.closed_ = true ∨ op = .close := by
  cases hinv.execTo hmax hexec with
  | accept hitem _ _ | replace hitem _ _ _ | refuse hitem _ =>
    refine (or_iff_left ?_).symm
    rintro rfl
    cases hitem
  | front htakes _ _ | newest htakes _ _ | finish htakes _ _ =>
    refine (or_iff_left ?_).symm
    rintro rfl
    cases htakes
  | close => exact iff_of_true rfl (.inr rfl)

theorem closed_of_run (hmax : 1 ≤ max_items) {ops : List (Op T)} (hinv : Inv max_items x)
    (hrun : run queue_step x ops = some x') : x'.1.closed_ = true ↔ x.1.closed_ = true ∨ .close ∈ ops := by
  induction ops generalizing x with
  | nil =>
    rw [run_nil, Option.some.injEq] at hrun
    simp [hrun]
  | cons op rest ih =>
    obtain ⟨mid, hmid, hrest⟩ := run_cons_eq_some_iff.mp hrun
    obtain ⟨e, hexec, -⟩ := exec_of_queue_step hmid
    rw [ih (inv_queue_step hmax hinv hmid) hrest, hinv.closed_iff hmax hexec, List.mem_cons, or_assoc, @eq_comm _ op]

end Calls

theorem no_wait_of_ready (h : s.closed_ = true ∨ s.q_ ≠ []) (op : Op T) : (s.exec op).isSome = true := by
  have hready : s.ready = true := by simpa [StageQueue.ready] using h
  cases op with
  | pop => rw [StageQueue.exec, StageQueue.pop, if_pos hready, Option.isSome_some]
  | pop_latest => rw [StageQueue.exec, StageQueue.pop_latest, if_pos hready, Option.isSome_some]
  | _ => rfl

/-- The law of the queue, for any calls of any threads in the order in which they take its mutex. -/
theorem queue_law {max_items : ℕ} (hmax : 1 ≤ max_items) {ops : List (Op T)}
    (hrun : run queue_step (StageQueue.init max_items, []) ops = some (s, history)) :
    QueueLaw max_items ops s history := by
  have hinit : Inv max_items ((StageQueue.init max_items, []) : Logged T) := ⟨rfl, Nat.zero_le _, rfl⟩
  have hinv : Inv max_items (s, history) :=
    invariant_of_run (fun _ _ _ hinv hstep => inv_queue_step hmax hinv hstep) hinit hrun
  refine ⟨hinv.capacity, hinv.conserved, ?_, ?_, no_wait_of_ready, fun op s' e hexec => hinv.callLaw hmax hexec⟩
  · rw [hinv.conserved]
    exact (handed_sublist_removed history).trans (List.sublist_append_left _ _)
  · rw [closed_of_run hmax hinit hrun]
    exact or_iff_right Bool.false_ne_true

/-- Three frames come to a queue of two before it is closed, and the newest is taken. -/
theorem queue_law_two :
    QueueLaw 2 [.push 1, .try_push 2, .push 3, .close, .pop_latest] ⟨[], 2, true⟩
      [⟨none, [2], some 3⟩, .nothing, ⟨some 3, [1], none⟩, ⟨some 2, [], none⟩, ⟨some 1, [], none⟩] :=
  queue_law (by decide) rfl

end k180.stage_queue
