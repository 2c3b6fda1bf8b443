import Mathlib

namespace file_tree

variable {N : Type*}

/-- A component of a path: the directory itself, the one above it, or a name. -/
inductive Component (N : Type*) where
  | here
  | up
  | named (name : N)
deriving DecidableEq

inductive Node (N : Type*) where
  | file
  | directory
  | symlink (absolute : Bool) (target : List (Component N))
deriving DecidableEq

/-- What there is at the paths from the root, each with its names in order. Everything below the root is in a
directory. -/
structure FileTree (N : Type*) where
  node : List N → Option (Node N)
  root : node [] = some .directory
  closed : ∀ p name, node (p ++ [name]) ≠ none → node p = some .directory

def is_directory (tree : FileTree N) (p : List N) : Bool :=
  match tree.node p with
  | some .directory => true
  | _ => false

/-- Follow a component from a directory, and the rest with `next`, or behind a symbolic link with `follow`. -/
def advance (tree : FileTree N) (next : List N → Option (List N)) (follow : List N → List (Component N) → Option (List N))
    (base : List N) (rest : List (Component N)) : Component N → Option (List N)
  | .here => next base
  | .up => next base.dropLast
  | .named name =>
    match tree.node (base ++ [name]) with
    | none => none
    | some (.symlink absolute target) => follow (if absolute then [] else base) (target ++ rest)
    | some .file => next (base ++ [name])
    | some .directory => next (base ++ [name])

/-- Follow the components from a path; `follow` goes on behind a symbolic link. -/
def walk (tree : FileTree N) (follow : List N → List (Component N) → Option (List N)) :
    List N → List (Component N) → Option (List N)
  | base, [] => some base
  | base, component :: rest =>
    if is_directory tree base = true then advance tree (fun base => walk tree follow base rest) follow base rest component
    else none

/-- The path without symbolic links that components lead to, with so many links at most on the way. -/
def resolve (tree : FileTree N) : ℕ → List N → List (Component N) → Option (List N)
  | 0 => walk tree fun _ _ => none
  | links + 1 => walk tree (resolve tree links)

variable {tree : FileTree N} {follow : List N → List (Component N) → Option (List N)} {base p q : List N}

/-- A file or a directory. -/
def Real (tree : FileTree N) (p : List N) : Prop := tree.node p = some .file ∨ tree.node p = some .directory

theorem Real.dropLast (hreal : Real tree base) : Real tree base.dropLast := by
  obtain rfl | ⟨p, name, rfl⟩ := base.eq_nil_or_concat
  · exact hreal
  · rw [List.concat_eq_append, List.dropLast_concat]
    refine .inr (tree.closed p name ?_)
    rw [List.concat_eq_append] at hreal
    obtain hfile | hdirectory := hreal
    · rw [hfile]
      exact Option.some_ne_none _
    · rw [hdirectory]
      exact Option.some_ne_none _

theorem is_directory_iff : is_directory tree p = true ↔ tree.node p = some .directory := by
  rw [is_directory]
  split
  · rename_i hdirectory
    exact iff_of_true rfl hdirectory
  · rename_i hnot
    exact iff_of_false Bool.false_ne_true hnot

theorem real_root : Real tree [] := .inr tree.root

section Advance

variable {next : List N → Option (List N)} {rest : List (Component N)} {name : N}

theorem advance_real (hreal : Real tree (base ++ [name])) :
    advance tree next follow base rest (.named name) = next (base ++ [name]) := by
  obtain hfile | hdirectory := hreal
  · rw [advance, hfile]
  · rw [advance, hdirectory]

theorem advance_symlink {absolute : Bool} {target : List (Component N)}
    (hlink : tree.node (base ++ [name]) = some (.symlink absolute target)) :
    advance tree next follow base rest (.named name) = follow (if absolute then [] else base) (target ++ rest) := by
  rw [advance, hlink]

/-- A name that is followed is a file's or a directory's, or that of a symbolic link. -/
theorem advance_named_eq_some (hadvance : advance tree next follow base rest (.named name) = some p) :
    (Real tree (base ++ [name]) ∧ next (base ++ [name]) = some p) ∨
      ∃ absolute target, tree.node (base ++ [name]) = some (.symlink absolute target) ∧
        follow (if absolute then [] else base) (target ++ rest) = some p := by
  rw [advance] at hadvance
  split at hadvance
  · cases hadvance
  · rename_i absolute target hlink
    exact .inr ⟨absolute, target, hlink, hadvance⟩
  · rename_i hfile
    exact .inl ⟨.inl hfile, hadvance⟩
  · rename_i hdirectory
    exact .inl ⟨.inr hdirectory, hadvance⟩

end Advance

/-- One more name in the directory that components lead to. -/
theorem walk_append {name : N} {todo : List (Component N)}
    (hfollow : ∀ base todo, follow base todo = some p → follow base (todo ++ [.named name]) = some (p ++ [name]))
    (hdirectory : tree.node p = some .directory) (hreal : Real tree (p ++ [name]))
    (hwalk : walk tree follow base todo = some p) :
    walk tree follow base (todo ++ [.named name]) = some (p ++ [name]) := by
  induction todo generalizing base with
  | nil =>
    obtain rfl := Option.some.inj hwalk
    rw [List.nil_append, walk, if_pos (is_directory_iff.mpr hdirectory), advance_real hreal, walk]
  | cons component rest ih =>
    rw [walk] at hwalk
    rw [List.cons_append, walk]
    split at hwalk
    · rename_i hbase
      rw [if_pos hbase]
      cases component with
      | here => exact ih hwalk
      | up => exact ih hwalk
      | named first =>
        obtain ⟨hfirst, hnext⟩ | ⟨absolute, target, hlink, hlinked⟩ := advance_named_eq_some hwalk
        · rw [advance_real hfirst]
          exact ih hnext
        · rw [advance_symlink hlink, ← List.append_assoc]
          exact hfollow _ _ hlinked
    · cases hwalk

theorem resolve_append {links : ℕ} {name : N} {todo : List (Component N)} (hdirectory : tree.node p = some .directory)
    (hreal : Real tree (p ++ [name])) (hresolve : resolve tree links base todo = some p) :
    resolve tree links base (todo ++ [.named name]) = some (p ++ [name]) := by
  induction links generalizing base todo with
  | zero => exact walk_append (fun _ _ h => by cases h) hdirectory hreal hresolve
  | succ links ih => exact walk_append (fun base todo h => ih h) hdirectory hreal hresolve

/-- All components but the last lead to a directory, from which the last one goes on. -/
theorem walk_of_append {Q : List N → Prop} {component : Component N} {todo : List (Component N)}
    (hfollow : ∀ base todo, follow base (todo ++ [component]) = some p → ∃ d, follow base todo = some d ∧ Q d)
    (hlast : ∀ d, tree.node d = some .directory → walk tree follow d [component] = some p → Q d)
    (hwalk : walk tree follow base (todo ++ [component]) = some p) : ∃ d, walk tree follow base todo = some d ∧ Q d := by
  induction todo generalizing base with
  | nil =>
    rw [List.nil_append] at hwalk
    refine ⟨base, by rw [walk], hlast base ?_ hwalk⟩
    rw [walk] at hwalk
    split at hwalk
    · rename_i hbase
      exact is_directory_iff.mp hbase
    · cases hwalk
  | cons first rest ih =>
    rw [List.cons_append, walk] at hwalk
    rw [walk]
    split at hwalk
    · rename_i hbase
      rw [if_pos hbase]
      cases first with
      | here => exact ih hwalk
      | up => exact ih hwalk
      | named name =>
        obtain ⟨hreal, hnext⟩ | ⟨absolute, target, hlink, hlinked⟩ := advance_named_eq_some hwalk
        · rw [advance_real hreal]
          exact ih hnext
        · rw [advance_symlink hlink]
          rw [← List.append_assoc] at hlinked
          exact hfollow _ _ hlinked
    · cases hwalk

theorem resolve_of_append {links : ℕ} {component : Component N} {todo : List (Component N)}
    (hresolve : resolve tree links base (todo ++ [component]) = some p) :
    ∃ d, resolve tree links base todo = some d ∧ tree.node d = some .directory ∧
      ∃ links', resolve tree links' d [component] = some p := by
  induction links generalizing base todo with
  | zero => exact walk_of_append (fun _ _ h => by cases h) (fun d hd hlast => ⟨hd, 0, hlast⟩) hresolve
  | succ links ih => exact walk_of_append (fun base todo h => ih h) (fun d hd hlast => ⟨hd, links + 1, hlast⟩) hresolve

/-- A single component from a directory leads to a directory, to what has its name there, or behind a symbolic link. -/
theorem resolve_singleton {links : ℕ} {component : Component N} {d : List N} (hdirectory : tree.node d = some .directory)
    (hresolve : resolve tree links d [component] = some p) :
    tree.node p = some .directory ∨ ∃ name, component = .named name ∧
      (p = d ++ [name] ∨ ∃ absolute target, tree.node (d ++ [name]) = some (.symlink absolute target)) := by
  have hwalk : ∃ follow, walk tree follow d [component] = some p := by
    cases links with
    | zero => exact ⟨_, hresolve⟩
    | succ links => exact ⟨_, hresolve⟩
  obtain ⟨follow, hwalk⟩ := hwalk
  rw [walk, if_pos (is_directory_iff.mpr hdirectory)] at hwalk
  cases component with
  | here =>
    rw [advance, walk] at hwalk
    exact .inl (Option.some.inj hwalk ▸ hdirectory)
  | up =>
    rw [advance, walk] at hwalk
    obtain rfl := Option.some.inj hwalk
    obtain rfl | ⟨parent, name, rfl⟩ := d.eq_nil_or_concat
    · exact .inl tree.root
    · rw [List.concat_eq_append] at hdirectory ⊢
      rw [List.dropLast_concat]
      exact .inl (tree.closed parent name (by rw [hdirectory]; exact Option.some_ne_none _))
  | named name =>
    refine .inr ⟨name, rfl, ?_⟩
    obtain ⟨-, hnext⟩ | ⟨absolute, target, hlink, -⟩ := advance_named_eq_some hwalk
    · rw [walk] at hnext
      exact .inl (Option.some.inj hnext).symm
    · exact .inr ⟨absolute, target, hlink⟩

/-- A single name from a directory leads to the entry of that name, unless this is a symbolic link. -/
theorem resolve_named {links : ℕ} {name : N} {d : List N}
    (hlink : ∀ absolute target, tree.node (d ++ [name]) ≠ some (.symlink absolute target))
    (hdirectory : tree.node d = some .directory) (hresolve : resolve tree links d [.named name] = some p) :
    p = d ++ [name] := by
  have hwalk : ∃ follow, walk tree follow d [.named name] = some p := by
    cases links with
    | zero => exact ⟨_, hresolve⟩
    | succ links => exact ⟨_, hresolve⟩
  obtain ⟨follow, hwalk⟩ := hwalk
  rw [walk, if_pos (is_directory_iff.mpr hdirectory)] at hwalk
  obtain ⟨-, hnext⟩ | ⟨absolute, target, hsymlink, -⟩ := advance_named_eq_some hwalk
  · rw [walk] at hnext
    exact (Option.some.inj hnext).symm
  · exact absurd hsymlink (hlink absolute target)

section Entries

variable [DecidableEq N]

def entry (entries : List (List N × Node N)) (p : List N) : Option (Node N) :=
  if p = [] then some .directory else (entries.find? fun e => e.1 = p).map Prod.snd

/-- The tree with these entries, each of which is in a directory. -/
def of_entries (entries : List (List N × Node N))
    (hclosed : ∀ e ∈ entries, entry entries e.1.dropLast = some .directory) : FileTree N where
  node := entry entries
  root := rfl
  closed p name hthere := by
    rw [entry, if_neg (by simp), ne_eq, Option.map_eq_none_iff] at hthere
    obtain ⟨e, he⟩ := Option.ne_none_iff_exists'.mp hthere
    have hpath := List.find?_some he
    rw [decide_eq_true_eq] at hpath
    have hdirectory := hclosed e (List.mem_of_find?_eq_some he)
    rw [hpath, List.dropLast_concat] at hdirectory
    exact hdirectory

end Entries

section Remove

variable [DecidableEq N]

/-- The tree without a file. -/
def remove (tree : FileTree N) (q : List N) (hfile : tree.node q = some .file) : FileTree N where
  node := Function.update tree.node q none
  root := by
    rw [Function.update_of_ne]
    · exact tree.root
    · rintro rfl
      rw [tree.root] at hfile
      cases hfile
  closed p name hbelow := by
    have hne : p ≠ q := by
      rintro rfl
      by_cases hself : p ++ [name] = p
      · simp at hself
      · rw [Function.update_of_ne hself] at hbelow
        rw [tree.closed p name hbelow] at hfile
        cases hfile
    rw [Function.update_of_ne hne]
    by_cases hself : p ++ [name] = q
    · rw [hself, Function.update_self] at hbelow
      exact absurd rfl hbelow
    · rw [Function.update_of_ne hself] at hbelow
      exact tree.closed p name hbelow

variable {hfile : tree.node q = some .file}

theorem remove_node_of_ne (hne : p ≠ q) : (remove tree q hfile).node p = tree.node p := Function.update_of_ne hne _ _

theorem remove_node_self : (remove tree q hfile).node q = none := Function.update_self _ _ _

theorem is_directory_remove : is_directory (remove tree q hfile) p = is_directory tree p := by
  rw [Bool.eq_iff_iff, is_directory_iff, is_directory_iff]
  by_cases hne : p = q
  · rw [hne, remove_node_self, hfile]
    exact iff_of_false (fun h => by cases h) (fun h => by cases h)
  · rw [remove_node_of_ne hne]

/-- A walk that comes to the file stops there. -/
theorem walk_file {todo : List (Component N)} (hfile : tree.node q = some .file) :
    (walk tree follow q todo).filter (fun p => p ≠ q) = none := by
  cases todo with
  | nil => simp [walk]
  | cons component rest =>
    have hnot : ¬ is_directory tree q = true := by
      rw [is_directory_iff, hfile]
      rintro ⟨⟩
    rw [walk, if_neg hnot, Option.filter_none]

omit [DecidableEq N] in
theorem ne_of_real_dropLast (hfile : tree.node q = some .file) (hbase : base ≠ q) (hreal : Real tree base) :
    base.dropLast ≠ q := by
  obtain rfl | ⟨p, name, rfl⟩ := base.eq_nil_or_concat
  · exact hbase
  · rw [List.concat_eq_append] at hreal ⊢
    rw [List.dropLast_concat]
    rintro rfl
    have hdirectory := tree.closed p name (by obtain h | h := hreal <;> rw [h] <;> exact Option.some_ne_none _)
    rw [hfile] at hdirectory
    cases hdirectory

/-- Without the file a walk leads where it did before, unless it led to the file. -/
theorem walk_remove {follow' : List N → List (Component N) → Option (List N)}
    (hfollow : ∀ base todo, base ≠ q → Real tree base →
      follow' base todo = (follow base todo).filter (fun p => p ≠ q)) {todo : List (Component N)} (hbase : base ≠ q)
    (hreal : Real tree base) :
    walk (remove tree q hfile) follow' base todo = (walk tree follow base todo).filter (fun p => p ≠ q) := by
  induction todo generalizing base with
  | nil => rw [walk, walk, Option.filter_some_pos (by simpa using hbase)]
  | cons component rest ih =>
    rw [walk, walk, is_directory_remove]
    split
    · cases component with
      | here => exact ih hbase hreal
      | up => exact ih (ne_of_real_dropLast hfile hbase hreal) hreal.dropLast
      | named name =>
        by_cases hself : base ++ [name] = q
        · have hgone : (remove tree q hfile).node (base ++ [name]) = none := by rw [hself, remove_node_self]
          have hthere : Real tree (base ++ [name]) := .inl (by rw [hself, hfile])
          rw [advance, hgone, advance_real hthere, hself, walk_file hfile]
        rw [advance, remove_node_of_ne hself]
        split
        · rename_i hnone
          rw [advance, hnone, Option.filter_none]
        · rename_i absolute target hlink
          rw [advance_symlink hlink]
          refine hfollow _ _ ?_ ?_
          · split
            · rintro rfl
              rw [tree.root] at hfile
              cases hfile
            · exact hbase
          · split
            · exact real_root
            · exact hreal
        · rename_i hnext
          rw [advance_real (.inl hnext)]
          exact ih hself (.inl hnext)
        · rename_i hnext
          rw [advance_real (.inr hnext)]
          exact ih hself (.inr hnext)
    · rw [Option.filter_none]

theorem resolve_remove {links : ℕ} {todo : List (Component N)} (hbase : base ≠ q) (hreal : Real tree base) :
    resolve (remove tree q hfile) links base todo = (resolve tree links base todo).filter (fun p => p ≠ q) := by
  induction links generalizing base todo with
  | zero =>
    have hnone : ∀ base todo, base ≠ q → Real tree base →
        (fun _ _ => none : List N → List (Component N) → Option (List N)) base todo = none.filter (fun p => p ≠ q) :=
      fun _ _ _ _ => rfl
    exact walk_remove hnone hbase hreal
  | succ links ih => exact walk_remove (fun base todo hbase hreal => ih hbase hreal) hbase hreal

end Remove

end file_tree
