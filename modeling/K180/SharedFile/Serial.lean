import K180.Schedule.Run

open schedule

namespace shared_file

/-- What a reader makes of the content of a file, and the texts that are written for a value. -/
structure Coding (V : Type*) where
  decode : List UInt8 → V
  writes : V → List UInt8 → Bool
  decode_of_writes : ∀ {v text}, writes v text = true → decode text = v

/-- A process reads the file once and then writes values to it, one after the other. It holds the bytes it has last read
or written, or has the file open and has come to a position of a text. -/
inductive Phase (V : Type*) where
  | waiting
  | holding (base : List UInt8) (begun : Bool) (todo : List V)
  | writing (text : List UInt8) (position : ℕ) (todo : List V)

/-- The file, the texts it has been given, and the processes. -/
structure Sys (ι V : Type*) where
  content : List UInt8
  texts : List (List UInt8)
  phase : ι → Phase V

/-- A process reads the file, opens and empties it to write a text, writes some bytes of it and closes it; and others
look at the file. -/
inductive Action (ι : Type*) where
  | read (i : ι)
  | truncate (i : ι) (text : List UInt8)
  | put (i : ι) (n : ℕ)
  | close (i : ι)
  | look

/-- A write at a position; what it leaves out before is zeros. -/
def pwrite (content : List UInt8) (position : ℕ) (chunk : List UInt8) : List UInt8 :=
  (content ++ List.replicate (position - content.length) 0).take position ++ chunk ++
    content.drop (position + chunk.length)

variable {ι V : Type*}

/-- All processes wait. -/
def init (content : List UInt8) : Sys ι V := ⟨content, [content], fun _ => .waiting⟩

/-- The process comes to a phase, with the file as it is then. -/
def Sys.move [DecidableEq ι] (s : Sys ι V) (i : ι) (phase : Phase V) (content : List UInt8)
    (texts : List (List UInt8)) : Sys ι V :=
  ⟨content, texts, Function.update s.phase i phase⟩

def step [DecidableEq ι] (c : Coding V) (work : ι → V → List V) (s : Sys ι V) : Action ι → Option (Sys ι V)
  | .read i =>
    match s.phase i with
    | .waiting => some (s.move i (.holding s.content false (work i (c.decode s.content))) s.content s.texts)
    | _ => none
  | .truncate i text =>
    match s.phase i with
    | .holding _ _ (v :: todo) =>
      if c.writes v text then some (s.move i (.writing text 0 todo) [] (text :: s.texts)) else none
    | _ => none
  | .put i n =>
    match s.phase i with
    | .writing text position todo =>
      if 0 < n ∧ position + n ≤ text.length then
        some (s.move i (.writing text (position + n) todo)
          (pwrite s.content position ((text.drop position).take n)) s.texts)
      else none
    | _ => none
  | .close i =>
    match s.phase i with
    | .writing text position todo =>
      if position = text.length then some (s.move i (.holding text true todo) s.content s.texts) else none
    | _ => none
  | .look => some s

/-- A text is partly written. -/
def Phase.Open : Phase V → Prop
  | .writing _ _ _ => True
  | _ => False

/-- The process has begun to write, and has more to write. -/
def Phase.Busy : Phase V → Prop
  | .writing _ _ _ => True
  | .holding _ true (_ :: _) => True
  | _ => False

/-- The process has begun to write, or has nothing to write. -/
def Phase.Served : Phase V → Prop
  | .waiting => False
  | .holding _ begun todo => begun = true ∨ todo = []
  | .writing _ _ _ => True

instance (phase : Phase V) : Decidable phase.Busy :=
  match phase with
  | .waiting => isFalse id
  | .writing _ _ _ => isTrue trivial
  | .holding _ false _ => isFalse id
  | .holding _ true [] => isFalse id
  | .holding _ true (_ :: _) => isTrue trivial

/-- The processes one after the other, each on what the one before it leaves. -/
def serial (work : ι → V → List V) (start : V) (order : List ι) : V :=
  order.foldl (fun v i => (work i v).getLastD v) start

/-- The bytes are those that the process has last read or written. -/
def Phase.Holds (content : List UInt8) : Phase V → Prop
  | .holding base _ _ => content = base
  | _ => True

/-- Nobody reads while a process is busy, or looks while a text is partly written, and a process only empties a file
that nobody else is busy with and that holds what the process has last read or written. -/
def Exclusive (s : Sys ι V) : Action ι → Prop
  | .read _ => ∀ j, ¬ (s.phase j).Busy
  | .truncate i _ =>
    (∀ j, j ≠ i → ¬ (s.phase j).Busy) ∧ (s.phase i).Holds s.content
  | .look => ∀ j, ¬ (s.phase j).Open
  | _ => True

/-- Who looks at the file sees one of the texts it has been given. -/
def SeesText (s : Sys ι V) : Action ι → Prop
  | .look => s.content ∈ s.texts
  | _ => True

/-- No process is between its writes. -/
def Settled (s : Sys ι V) : Prop := ∀ i, ¬ (s.phase i).Busy

instance (phase : Phase V) : Decidable phase.Served :=
  match phase with
  | .waiting => isFalse id
  | .holding _ begun [] => isTrue (.inr rfl)
  | .holding _ begun (v :: todo) => decidable_of_iff (begun = true) (by simp [Phase.Served])
  | .writing _ _ _ => isTrue trivial

instance (phase : Phase V) : Decidable phase.Open :=
  match phase with
  | .waiting => isFalse id
  | .holding _ _ _ => isFalse id
  | .writing _ _ _ => isTrue trivial

instance (content : List UInt8) (phase : Phase V) : Decidable (phase.Holds content) :=
  match phase with
  | .waiting => isTrue trivial
  | .holding base _ _ => inferInstanceAs (Decidable (content = base))
  | .writing _ _ _ => isTrue trivial

instance [Fintype ι] [DecidableEq ι] (s : Sys ι V) (a : Action ι) : Decidable (Exclusive s a) :=
  match a with
  | .read _ => inferInstanceAs (Decidable (∀ j, ¬ (s.phase j).Busy))
  | .truncate i _ => inferInstanceAs (Decidable ((∀ j, j ≠ i → ¬ (s.phase j).Busy) ∧ (s.phase i).Holds s.content))
  | .put _ _ => isTrue trivial
  | .close _ => isTrue trivial
  | .look => inferInstanceAs (Decidable (∀ j, ¬ (s.phase j).Open))

instance [Fintype ι] (s : Sys ι V) : Decidable (Settled s) := inferInstanceAs (Decidable (∀ i, ¬ (s.phase i).Busy))

/-- How far a busy process has come, and the value it ends with. -/
def Phase.Pending (c : Coding V) (content : List UInt8) (target : V) : Phase V → Prop
  | .waiting => True
  | .holding base _ todo => content = base ∧ todo.getLastD (c.decode base) = target
  | .writing text position todo =>
    position ≤ text.length ∧ content = text.take position ∧ todo.getLastD (c.decode text) = target

/-- The processes served so far, in an order in which one at a time gives the same. -/
structure Serves (c : Coding V) (work : ι → V → List V) (start : V) (s : Sys ι V) (order : List ι) : Prop where
  nodup : order.Nodup
  mem_iff : ∀ i, i ∈ order ↔ (s.phase i).Served
  held : ∀ {i base todo}, s.phase i = .holding base false todo → todo = work i (c.decode base)
  settled : Settled s → c.decode s.content = serial work start order
  alone : ∀ {i j}, (s.phase i).Busy → (s.phase j).Busy → j = i
  pending : ∀ {i}, (s.phase i).Busy → (s.phase i).Pending c s.content (serial work start order)
  open_text : ∀ {i text position todo}, s.phase i = .writing text position todo → text ∈ s.texts
  whole : (∀ i, ¬ (s.phase i).Open) → s.content ∈ s.texts

theorem Phase.Open.busy {phase : Phase V} (hopen : phase.Open) : phase.Busy := by
  cases phase with
  | writing => trivial
  | waiting => cases hopen
  | holding => cases hopen

/-- Writing the next bytes of a text behind those that are there. -/
theorem pwrite_take {text : List UInt8} {position n : ℕ} (hle : position + n ≤ text.length) :
    pwrite (text.take position) position ((text.drop position).take n) = text.take (position + n) := by
  have hlen : (text.take position).length = position := List.length_take_of_le (by omega)
  have hchunk : ((text.drop position).take n).length = n := List.length_take_of_le (by rw [List.length_drop]; omega)
  have hrest : (text.take position).drop (position + n) = [] := List.drop_of_length_le (by omega)
  rw [pwrite, hlen, Nat.sub_self, List.replicate_zero, List.append_nil, List.take_of_length_le hlen.le, hchunk, hrest,
    List.append_nil, List.take_add]

theorem serial_append (work : ι → V → List V) (start : V) (order : List ι) (i : ι) :
    serial work start (order ++ [i]) = (work i (serial work start order)).getLastD (serial work start order) := by
  rw [serial, List.foldl_append, List.foldl_cons, List.foldl_nil, serial]

/-- Before anybody has read the file, nobody is served. -/
theorem serves_init {c : Coding V} {work : ι → V → List V} (content : List UInt8) :
    Serves c work (c.decode content) (init content) [] where
  nodup := List.nodup_nil
  mem_iff _ := iff_of_false List.not_mem_nil id
  held hphase := by cases hphase
  settled _ := rfl
  alone hbusy := absurd hbusy id
  pending hbusy := absurd hbusy id
  open_text hphase := by cases hphase
  whole _ := List.mem_singleton_self _

section Steps

variable [DecidableEq ι] {c : Coding V} {work : ι → V → List V} {start : V} {s s' : Sys ι V} {order : List ι} {i : ι}
  {content : List UInt8} {texts : List (List UInt8)} {phase : Phase V}

@[simp] theorem Sys.move_phase_self : (s.move i phase content texts).phase i = phase := Function.update_self ..

theorem Sys.move_phase_of_ne {j : ι} (hj : j ≠ i) : (s.move i phase content texts).phase j = s.phase j :=
  Function.update_of_ne hj ..

/-- What has to hold of a process that moves while no other is busy. -/
structure Moves (c : Coding V) (work : ι → V → List V) (i : ι) (phase : Phase V) (content : List UInt8)
    (texts : List (List UInt8)) (target : V) : Prop where
  held : ∀ {base todo}, phase = .holding base false todo → todo = work i (c.decode base)
  rests : ¬ phase.Busy → c.decode content = target
  pending : phase.Busy → phase.Pending c content target
  open_text : ∀ {text position todo}, phase = .writing text position todo → text ∈ texts
  whole : ¬ phase.Open → content ∈ texts

/-- The order stays, or ends with a process that is served now. -/
theorem Serves.move {order' : List ι} (hserves : Serves c work start s order)
    (halone : ∀ j, j ≠ i → ¬ (s.phase j).Busy)
    (hmoves : Moves c work i phase content texts (serial work start order'))
    (horder : (order' = order ∧ (phase.Served ↔ (s.phase i).Served)) ∨
      (order' = order ++ [i] ∧ ¬ (s.phase i).Served ∧ phase.Served))
    (htexts : ∀ text ∈ s.texts, text ∈ texts) : Serves c work start (s.move i phase content texts) order' := by
  have hother : ∀ {j}, j ≠ i → ¬ ((s.move i phase content texts).phase j).Busy := by
    intro j hj
    rw [Sys.move_phase_of_ne hj]
    exact halone j hj
  have hbusy : ∀ {j}, ((s.move i phase content texts).phase j).Busy → j = i := fun hbusy =>
    by_contra fun hj => hother hj hbusy
  refine ⟨?_, ?_, ?_, ?_, ?_, ?_, ?_, ?_⟩
  · obtain ⟨rfl, -⟩ | ⟨rfl, hold, -⟩ := horder
    · exact hserves.nodup
    · have hnew : i ∉ order := fun hmem => hold ((hserves.mem_iff i).mp hmem)
      rw [List.nodup_append_comm, List.singleton_append, List.nodup_cons]
      exact ⟨hnew, hserves.nodup⟩
  · intro j
    by_cases hj : j = i
    · subst hj
      rw [Sys.move_phase_self]
      obtain ⟨rfl, hserved⟩ | ⟨rfl, -, hserved⟩ := horder
      · rw [hserves.mem_iff, hserved]
      · exact iff_of_true (by simp) hserved
    · rw [Sys.move_phase_of_ne hj, ← hserves.mem_iff]
      obtain ⟨rfl, -⟩ | ⟨rfl, -, -⟩ := horder
      · rfl
      · rw [List.mem_append, List.mem_singleton, or_iff_left hj]
  · intro j base todo hphase
    by_cases hj : j = i
    · subst hj
      rw [Sys.move_phase_self] at hphase
      exact hmoves.held hphase
    · rw [Sys.move_phase_of_ne hj] at hphase
      exact hserves.held hphase
  · intro hsettled
    have hrests := hsettled i
    rw [Sys.move_phase_self] at hrests
    exact hmoves.rests hrests
  · intro j k hj hk
    rw [hbusy hj, hbusy hk]
  · intro j hj
    obtain rfl := hbusy hj
    rw [Sys.move_phase_self] at hj ⊢
    exact hmoves.pending hj
  · intro j text position todo hphase
    by_cases hj : j = i
    · subst hj
      rw [Sys.move_phase_self] at hphase
      exact hmoves.open_text hphase
    · rw [Sys.move_phase_of_ne hj] at hphase
      exact htexts text (hserves.open_text hphase)
  · intro hopen
    have hclosed := hopen i
    rw [Sys.move_phase_self] at hclosed
    exact hmoves.whole hclosed

/-- A process that reads is served at once if it has nothing to write, and otherwise holds what it has read. -/
theorem Serves.read (hserves : Serves c work start s order) (hsettled : Settled s) (hphase : s.phase i = .waiting) :
    ∃ order', Serves c work start
      (s.move i (.holding s.content false (work i (c.decode s.content))) s.content s.texts) order' := by
  have hold : ¬ (s.phase i).Served := by
    rw [hphase]
    exact id
  have hvalue := hserves.settled hsettled
  have hwhole : s.content ∈ s.texts := hserves.whole fun j hj => hsettled j hj.busy
  cases hwork : work i (c.decode s.content) with
  | nil =>
    refine ⟨order ++ [i], hserves.move (fun j _ => hsettled j) ?_ (.inr ⟨rfl, hold, .inr rfl⟩) fun _ h => h⟩
    refine ⟨?_, ?_, fun h => absurd h id, nofun, fun _ => hwhole⟩
    · rintro base todo ⟨⟩
      exact hwork.symm
    · rw [serial_append, ← hvalue, hwork]
      exact fun _ => rfl
  | cons v todo =>
    have hserved : ¬ (Phase.holding s.content false (v :: todo)).Served := by
      rintro (hbegun | hnil)
      · cases hbegun
      · cases hnil
    refine ⟨order, hserves.move (fun j _ => hsettled j) ?_ (.inl ⟨rfl, iff_of_false hserved hold⟩) fun _ h => h⟩
    refine ⟨?_, fun _ => hvalue, fun h => absurd h id, nofun, fun _ => hwhole⟩
    rintro base todo ⟨⟩
    exact hwork.symm

/-- A process that empties the file takes its place in the order when it does so for the first time. -/
theorem Serves.truncate {base text : List UInt8} {begun : Bool} {v : V} {todo : List V}
    (hserves : Serves c work start s order) (halone : ∀ j, j ≠ i → ¬ (s.phase j).Busy)
    (hphase : s.phase i = .holding base begun (v :: todo)) (hbase : s.content = base)
    (hwrites : c.writes v text = true) :
    ∃ order', Serves c work start (s.move i (.writing text 0 todo) [] (text :: s.texts)) order' := by
  have hmoves : ∀ {target}, todo.getLastD v = target →
      Moves c work i (.writing text 0 todo) [] (text :: s.texts) target := by
    intro target htarget
    refine ⟨nofun, fun h => absurd trivial h, fun _ => ⟨Nat.zero_le _, rfl, ?_⟩, ?_, fun h => absurd trivial h⟩
    · rw [c.decode_of_writes hwrites, htarget]
    · rintro _ _ _ ⟨⟩
      exact List.mem_cons_self
  cases begun with
  | true =>
    have hbusy : (s.phase i).Busy := by
      rw [hphase]
      trivial
    have hpending := hserves.pending hbusy
    rw [hphase] at hpending
    refine ⟨order, hserves.move halone (hmoves ?_) (.inl ⟨rfl, iff_of_true trivial ?_⟩) fun _ h =>
      List.mem_cons_of_mem _ h⟩
    · rw [← hpending.2, List.getLastD_cons]
    · rw [hphase]
      exact .inl rfl
  | false =>
    have hold : ¬ (s.phase i).Served := by
      rw [hphase]
      rintro (hbegun | hnil)
      · cases hbegun
      · cases hnil
    have hsettled : Settled s := by
      intro j hj
      by_cases heq : j = i
      · rw [heq, hphase] at hj
        exact hj
      · exact halone j heq hj
    have hwork := hserves.held hphase
    refine ⟨order ++ [i], hserves.move halone (hmoves ?_) (.inr ⟨rfl, hold, trivial⟩) fun _ h =>
      List.mem_cons_of_mem _ h⟩
    rw [serial_append, ← hserves.settled hsettled, hbase, ← hwork, List.getLastD_cons]

/-- More of a text. -/
theorem Serves.put {text : List UInt8} {position n : ℕ} {todo : List V} (hserves : Serves c work start s order)
    (hphase : s.phase i = .writing text position todo) (hle : position + n ≤ text.length) :
    Serves c work start
      (s.move i (.writing text (position + n) todo) (pwrite s.content position ((text.drop position).take n)) s.texts)
      order := by
  have hbusy : (s.phase i).Busy := by
    rw [hphase]
    trivial
  have hpending := hserves.pending hbusy
  rw [hphase] at hpending
  obtain ⟨-, hcontent, hlast⟩ := hpending
  have hserved : (s.phase i).Served := by
    rw [hphase]
    trivial
  refine hserves.move (fun j hj hj' => hj (hserves.alone hbusy hj')) ?_ (.inl ⟨rfl, iff_of_true trivial hserved⟩)
    fun _ h => h
  refine ⟨nofun, fun h => absurd trivial h, fun _ => ⟨hle, ?_, hlast⟩, ?_, fun h => absurd trivial h⟩
  · rw [hcontent, pwrite_take hle]
  · rintro _ _ _ ⟨⟩
    exact hserves.open_text hphase

/-- A text that is written to its end is what the file holds. -/
theorem Serves.close {text : List UInt8} {todo : List V} (hserves : Serves c work start s order)
    (hphase : s.phase i = .writing text text.length todo) :
    Serves c work start (s.move i (.holding text true todo) s.content s.texts) order := by
  have hbusy : (s.phase i).Busy := by
    rw [hphase]
    trivial
  have hpending := hserves.pending hbusy
  rw [hphase] at hpending
  obtain ⟨-, hcontent, hlast⟩ := hpending
  rw [List.take_length] at hcontent
  have hserved : (s.phase i).Served := by
    rw [hphase]
    trivial
  refine hserves.move (fun j hj hj' => hj (hserves.alone hbusy hj')) ?_ (.inl ⟨rfl, iff_of_true (.inl rfl) hserved⟩)
    fun _ h => h
  refine ⟨nofun, fun hrests => ?_, fun _ => ⟨hcontent, hlast⟩, nofun, fun _ => hcontent ▸ hserves.open_text hphase⟩
  cases todo with
  | nil => rw [← hlast, hcontent, List.getLastD_nil]
  | cons v todo => exact absurd trivial hrests

/-- Exclusive steps serve one process after the other. -/
theorem step_serves {a : Action ι} (hserves : ∃ order, Serves c work start s order) (hexclusive : Exclusive s a)
    (hstep : step c work s a = some s') : ∃ order, Serves c work start s' order := by
  obtain ⟨order, hserves⟩ := hserves
  cases a with
  | read i =>
    simp only [step] at hstep
    split at hstep
    · rename_i hphase
      obtain rfl := Option.some.inj hstep
      exact hserves.read hexclusive hphase
    · cases hstep
  | truncate i text =>
    simp only [step] at hstep
    split at hstep
    · rename_i base begun v todo hphase
      split at hstep
      · rename_i hwrites
        obtain rfl := Option.some.inj hstep
        have hholds := hexclusive.2
        rw [hphase] at hholds
        exact hserves.truncate hexclusive.1 hphase hholds hwrites
      · cases hstep
    · cases hstep
  | put i n =>
    simp only [step] at hstep
    split at hstep
    · rename_i text position todo hphase
      split at hstep
      · rename_i hroom
        obtain rfl := Option.some.inj hstep
        exact ⟨order, hserves.put hphase hroom.2⟩
      · cases hstep
    · cases hstep
  | close i =>
    simp only [step] at hstep
    split at hstep
    · rename_i text position todo hphase
      split at hstep
      · rename_i hend
        subst hend
        obtain rfl := Option.some.inj hstep
        exact ⟨order, hserves.close hphase⟩
      · cases hstep
    · cases hstep
  | look =>
    obtain rfl := Option.some.inj hstep
    exact ⟨order, hserves⟩

/-- In a schedule of exclusive steps, nobody sees a text that is partly written, and the file holds what the processes
served give one after the other whenever no process is between its writes. -/
theorem serial_of_exclusive {actions : List (Action ι)} (content : List UInt8)
    (hexclusive : Meets (step c work) Exclusive (init content) actions)
    (hrun : run (step c work) (init content) actions = some s) :
    (Settled s → ∃ order : List ι, order.Nodup ∧ (∀ i, i ∈ order ↔ (s.phase i).Served) ∧
      c.decode s.content = serial work (c.decode content) order) ∧
    Meets (step c work) SeesText (init content) actions := by
  have hkeep : ∀ (s : Sys ι V) (a : Action ι) (s' : Sys ι V), (∃ order, Serves c work (c.decode content) s order) →
      Exclusive s a → step c work s a = some s' → ∃ order, Serves c work (c.decode content) s' order :=
    fun s a s' => step_serves
  have hinit : ∃ order, Serves c work (c.decode content) (init content : Sys ι V) order := ⟨[], serves_init content⟩
  constructor
  · intro hsettled
    obtain ⟨order, hserves⟩ := invariant_of_meets hkeep hinit hexclusive hrun
    exact ⟨order, hserves.nodup, hserves.mem_iff, hserves.settled hsettled⟩
  · refine (hexclusive.with_invariant hkeep hinit).mono fun s a h => ?_
    obtain ⟨⟨order, hserves⟩, hlook⟩ := h
    cases a with
    | look => exact hserves.whole hlook
    | _ => trivial

end Steps

end shared_file
