import K180.Schedule.History

open schedule

namespace k180.stage_queue

structure StageQueue (T : Type*) where
  q_ : List T
  max_ : ℕ
  closed_ : Bool

/-- What a call does with items: the one it accepts, those it drops, and the one it hands out. The calls that return a
`bool` return whether there is one that they accept, or hand out. -/
structure Effect (T : Type*) where
  accepted : Option T
  dropped : List T
  handed : Option T

inductive Op (T : Type*) where
  | push (item : T)
  | try_push (item : T)
  | pop
  | pop_latest
  | try_pop_latest
  | try_pop
  | close
deriving DecidableEq

variable {T : Type*}

def Effect.nothing : Effect T := ⟨none, [], none⟩

namespace StageQueue

def init (max_items : ℕ) : StageQueue T := ⟨[], max_items, false⟩

/-- `while (cond(q_.size())) q_.pop();`, with what it pops and what it leaves. -/
def pop_while (cond : ℕ → Bool) : List T → List T × List T
  | [] => ([], [])
  | item :: rest =>
    if cond (rest.length + 1) then
      let (popped, left) := pop_while cond rest
      (item :: popped, left)
    else ([], item :: rest)

def push (s : StageQueue T) (item : T) : StageQueue T × Effect T :=
  if s.closed_ then (s, .nothing)
  else
    let (dropped, left) := pop_while (fun size => s.max_ ≤ size) s.q_
    ({ s with q_ := left ++ [item] }, ⟨some item, dropped, none⟩)

def try_push (s : StageQueue T) (item : T) : StageQueue T × Effect T :=
  if s.closed_ then (s, .nothing)
  else
    let (dropped, left) := pop_while (fun size => s.max_ ≤ size) s.q_
    ({ s with q_ := left ++ [item] }, ⟨some item, dropped, none⟩)

def try_pop (s : StageQueue T) : StageQueue T × Effect T :=
  if s.q_.isEmpty then (s, .nothing) else ({ s with q_ := s.q_.tail }, ⟨none, [], s.q_.head?⟩)

def try_pop_latest (s : StageQueue T) : StageQueue T × Effect T :=
  if s.q_.isEmpty then (s, .nothing)
  else
    let (dropped, left) := pop_while (fun size => 1 < size) s.q_
    ({ s with q_ := left.tail }, ⟨none, dropped, left.head?⟩)

/-- The condition that `pop` and `pop_latest` wait for. -/
def ready (s : StageQueue T) : Bool := s.closed_ || !s.q_.isEmpty

/-- Behind its wait `pop` goes on like `try_pop`. -/
def pop (s : StageQueue T) : Option (StageQueue T × Effect T) := if s.ready then some s.try_pop else none

def pop_latest (s : StageQueue T) : Option (StageQueue T × Effect T) := if s.ready then some s.try_pop_latest else none

def close (s : StageQueue T) : StageQueue T := { s with closed_ := true }

/-- A call, from taking the mutex to giving it back; `none` while it has to wait. -/
def exec (s : StageQueue T) : Op T → Option (StageQueue T × Effect T)
  | .push item => some (s.push item)
  | .try_push item => some (s.try_push item)
  | .pop => s.pop
  | .pop_latest => s.pop_latest
  | .try_pop_latest => some s.try_pop_latest
  | .try_pop => some s.try_pop
  | .close => some (s.close, .nothing)

end StageQueue

/-- The queue and the effects of the calls, the latest first. -/
abbrev Logged (T : Type*) := StageQueue T × List (Effect T)

def queue_step : Logged T → Op T → Option (Logged T) :=
  noted_step (fun s op => (s.exec op).map Prod.snd) fun s op => (s.exec op).map Prod.fst

/-- The item that a call offers. -/
def Op.item : Op T → Option T
  | .push item | .try_push item => some item
  | _ => none

/-- The calls that hand out the newest item. -/
def Op.latest : Op T → Bool
  | .pop_latest | .try_pop_latest => true
  | _ => false

/-- The calls that wait. -/
def Op.waits : Op T → Bool
  | .pop | .pop_latest => true
  | _ => false

/-- The calls that hand out items. -/
def Op.takes : Op T → Bool
  | .pop | .pop_latest | .try_pop | .try_pop_latest => true
  | _ => false

/-- What a call can do on a queue that holds no more than it can. -/
inductive ExecTo (s : StageQueue T) : Op T → StageQueue T → Effect T → Prop where
  | accept {op : Op T} {item : T} (hitem : op.item = some item) (hopen : s.closed_ = false)
      (hroom : s.q_.length < s.max_) : ExecTo s op { s with q_ := s.q_ ++ [item] } ⟨some item, [], none⟩
  | replace {op : Op T} {item oldest : T} {rest : List T} (hitem : op.item = some item) (hopen : s.closed_ = false)
      (hfull : s.q_.length = s.max_) (hq : s.q_ = oldest :: rest) :
      ExecTo s op { s with q_ := rest ++ [item] } ⟨some item, [oldest], none⟩
  | refuse {op : Op T} {item : T} (hitem : op.item = some item) (hclosed : s.closed_ = true) : ExecTo s op s .nothing
  | front {op : Op T} {item : T} {rest : List T} (htakes : op.takes = true) (hlatest : op.latest = false)
      (hq : s.q_ = item :: rest) : ExecTo s op { s with q_ := rest } ⟨none, [], some item⟩
  | newest {op : Op T} {older : List T} {item : T} (htakes : op.takes = true) (hlatest : op.latest = true)
      (hq : s.q_ = older ++ [item]) : ExecTo s op { s with q_ := [] } ⟨none, older, some item⟩
  | finish {op : Op T} (htakes : op.takes = true) (hq : s.q_ = []) (hend : op.waits = true → s.closed_ = true) :
      ExecTo s op s .nothing
  | close : ExecTo s .close s.close .nothing

variable {s s' : StageQueue T} {op : Op T} {e : Effect T} {x x' : Logged T}

namespace StageQueue

theorem pop_while_of_length_lt {n : ℕ} {q : List T} (hlt : q.length < n) :
    pop_while (fun size => n ≤ size) q = ([], q) := by
  cases q with
  | nil => rfl
  | cons item rest =>
    rw [pop_while, if_neg]
    simpa using hlt

/-- A queue with one item too many loses the oldest. -/
theorem pop_while_of_length_eq {n : ℕ} {oldest : T} {rest : List T} (hlength : (oldest :: rest).length = n) :
    pop_while (fun size => n ≤ size) (oldest :: rest) = ([oldest], rest) := by
  rw [List.length_cons] at hlength
  rw [pop_while, if_pos (by simpa using hlength.ge), pop_while_of_length_lt (by omega)]

theorem pop_while_one_lt (older : List T) (item : T) :
    pop_while (fun size => 1 < size) (older ++ [item]) = (older, [item]) := by
  induction older with
  | nil => rfl
  | cons first older ih =>
    rw [List.cons_append, pop_while, if_pos (by simp), ih]

theorem execTo_push (hmax : 1 ≤ s.max_) (hsize : s.q_.length ≤ s.max_) {item : T} (hitem : op.item = some item) :
    ExecTo s op (s.push item).1 (s.push item).2 := by
  rw [push]
  split
  · rename_i hclosed
    exact .refuse hitem hclosed
  rename_i hopen
  rw [Bool.not_eq_true] at hopen
  by_cases hroom : s.q_.length < s.max_
  · rw [pop_while_of_length_lt hroom]
    exact .accept hitem hopen hroom
  · have hfull : s.q_.length = s.max_ := by omega
    cases hq : s.q_ with
    | nil =>
      rw [hq, List.length_nil] at hfull
      omega
    | cons oldest rest =>
      rw [pop_while_of_length_eq (hq ▸ hfull)]
      exact .replace hitem hopen hfull hq

theorem execTo_try_pop (htakes : op.takes = true) (hlatest : op.latest = false)
    (hready : op.waits = true → s.ready = true) : ExecTo s op s.try_pop.1 s.try_pop.2 := by
  rw [try_pop]
  cases hq : s.q_ with
  | nil =>
    refine .finish htakes hq fun hwaits => ?_
    simpa [ready, hq] using hready hwaits
  | cons item rest => exact .front htakes hlatest hq

theorem execTo_try_pop_latest (htakes : op.takes = true) (hlatest : op.latest = true)
    (hready : op.waits = true → s.ready = true) : ExecTo s op s.try_pop_latest.1 s.try_pop_latest.2 := by
  rw [try_pop_latest]
  obtain hq | ⟨older, item, hq⟩ := s.q_.eq_nil_or_concat
  · rw [hq]
    refine .finish htakes hq fun hwaits => ?_
    simpa [ready, hq] using hready hwaits
  · rw [List.concat_eq_append] at hq
    rw [hq, if_neg (by simp), pop_while_one_lt]
    exact .newest htakes hlatest hq

/-- A call does one of the things that `ExecTo` lists. -/
theorem execTo_of_exec (hmax : 1 ≤ s.max_) (hsize : s.q_.length ≤ s.max_) (hexec : s.exec op = some (s', e)) :
    ExecTo s op s' e := by
  cases op with
  | push item | try_push item =>
    obtain ⟨rfl, rfl⟩ := Prod.mk.inj (Option.some.inj hexec)
    exact execTo_push hmax hsize rfl
  | pop =>
    rw [exec, pop] at hexec
    split at hexec
    · rename_i hready
      obtain ⟨rfl, rfl⟩ := Prod.mk.inj (Option.some.inj hexec)
      exact execTo_try_pop rfl rfl fun _ => hready
    · cases hexec
  | pop_latest =>
    rw [exec, pop_latest] at hexec
    split at hexec
    · rename_i hready
      obtain ⟨rfl, rfl⟩ := Prod.mk.inj (Option.some.inj hexec)
      exact execTo_try_pop_latest rfl rfl fun _ => hready
    · cases hexec
  | try_pop_latest =>
    obtain ⟨rfl, rfl⟩ := Prod.mk.inj (Option.some.inj hexec)
    exact execTo_try_pop_latest rfl rfl fun hwaits => absurd hwaits (by simp [Op.waits])
  | try_pop =>
    obtain ⟨rfl, rfl⟩ := Prod.mk.inj (Option.some.inj hexec)
    exact execTo_try_pop rfl rfl fun hwaits => absurd hwaits (by simp [Op.waits])
  | close =>
    obtain ⟨rfl, rfl⟩ := Prod.mk.inj (Option.some.inj hexec)
    exact .close

theorem pop_while_append (cond : ℕ → Bool) (q : List T) : (pop_while cond q).1 ++ (pop_while cond q).2 = q := by
  induction q with
  | nil => rfl
  | cons item rest ih =>
    rw [pop_while]
    split
    · exact congrArg (item :: ·) ih
    · rfl

theorem pop_while_sublist (cond : ℕ → Bool) (q : List T) : (pop_while cond q).2.Sublist q := by
  conv_rhs => rw [← pop_while_append cond q]
  exact List.sublist_append_right ..

theorem head?_toList_append_tail (q : List T) : q.head?.toList ++ q.tail = q := by
  cases q <;> rfl

theorem try_push_sublist (s : StageQueue T) (item : T) : (s.try_push item).1.q_.Sublist (s.q_ ++ [item]) := by
  rw [try_push]
  split
  · exact List.sublist_append_left ..
  · exact (pop_while_sublist _ s.q_).append_right [item]

theorem try_pop_sublist (s : StageQueue T) : (s.try_pop.2.handed.toList ++ s.try_pop.1.q_).Sublist s.q_ := by
  rw [try_pop]
  split
  · exact List.Sublist.refl s.q_
  · rw [head?_toList_append_tail]

theorem try_pop_latest_sublist (s : StageQueue T) :
    (s.try_pop_latest.2.handed.toList ++ s.try_pop_latest.1.q_).Sublist s.q_ := by
  rw [try_pop_latest]
  split
  · exact List.Sublist.refl s.q_
  · rw [head?_toList_append_tail]
    exact pop_while_sublist _ s.q_

end StageQueue

theorem exec_of_queue_step (hstep : queue_step x op = some x') :
    ∃ e, x.1.exec op = some (x'.1, e) ∧ x'.2 = e :: x.2 := by
  obtain ⟨hstate, hhistory⟩ := noted_step_eq_some hstep
  obtain ⟨⟨next, e⟩, hexec, hnext⟩ := Option.map_eq_some_iff.mp hstate
  refine ⟨e, by rw [hexec, ← hnext], ?_⟩
  rw [hhistory, hexec]
  rfl

end k180.stage_queue
