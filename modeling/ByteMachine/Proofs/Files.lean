import ByteMachine.Files
import Mathlib.Tactic.Common

/-!
Files that are created can be read back under their path, and nothing that was found before is lost.
-/

namespace ByteMachine.FileTree

variable {tree : FileTree} {path : List UInt8} {name : FileName} {place other target : Place}
  {found entry : Entry}

/-- The path leads to a directory that exists, in which nothing has its last name yet. -/
structure Fresh (tree : FileTree) (path : List UInt8) (place : Place) (name : FileName) : Prop where
  parent : tree.parent (Path.ofBytes path) = .ok place
  last : (Path.ofBytes path).name = some name
  proper : ¬(name = Path.here ∨ name = Path.up)
  short : ¬longestName < name.length
  plain : (Path.ofBytes path).slashed = false
  free : tree.lookup (place ++ [name]) = none

def add (tree : FileTree) (place : Place) (entry : Entry) : FileTree :=
  { tree with entries := tree.entries ++ [(place, entry)] }

theorem lookup_add_found (h : tree.lookup other = some found) :
    (tree.add place entry).lookup other = some found := by
  unfold lookup at h ⊢
  by_cases ho : other = []
  · rw [if_pos ho] at h ⊢
    exact h
  · rw [if_neg ho] at h ⊢
    rw [add, List.lookup_append, h]
    rfl

theorem lookup_add_self (hp : place ≠ []) (h : tree.lookup place = none) :
    (tree.add place entry).lookup place = some entry := by
  unfold lookup at h ⊢
  rw [if_neg hp] at h ⊢
  rw [add, List.lookup_append, h, Option.none_or, List.lookup_cons_self]

theorem lookup_add (hp : place ≠ []) (h : tree.lookup place = none) (other : Place) :
    (tree.add place entry).lookup other =
      if other = place then some entry else tree.lookup other := by
  by_cases ho : other = place
  · rw [if_pos ho, ho, lookup_add_self hp h]
  · rw [if_neg ho]
    cases hl : tree.lookup other with
    | some found => exact lookup_add_found hl
    | none =>
      unfold lookup at hl ⊢
      split at hl
      · cases hl
      · next hne =>
        rw [if_neg hne, add, List.lookup_append, hl, List.lookup_cons, beq_false_of_ne ho]
        rfl

theorem enter_add (h : tree.enter other name = .ok target) :
    (tree.add place entry).enter other name = .ok target := by
  unfold enter at h ⊢
  by_cases hhere : name = Path.here
  · rw [if_pos hhere] at h ⊢
    exact h
  by_cases hup : name = Path.up
  · rw [if_neg hhere, if_pos hup] at h ⊢
    exact h
  by_cases hlong : longestName < name.length
  · rw [if_neg hhere, if_neg hup, if_pos hlong] at h
    cases h
  rw [if_neg hhere, if_neg hup, if_neg hlong] at h ⊢
  cases hl : tree.lookup (other ++ [name]) with
  | none => simp [hl] at h
  | some found =>
    rw [hl] at h
    rw [lookup_add_found hl]
    exact h

theorem foldlM_enter_add (names : List FileName) (h : names.foldlM tree.enter other = .ok target) :
    names.foldlM (tree.add place entry).enter other = .ok target := by
  induction names generalizing other with
  | nil => exact h
  | cons name rest ih =>
    rw [List.foldlM_cons] at h ⊢
    cases he : tree.enter other name with
    | error e =>
      rw [he] at h
      cases h
    | ok next =>
      rw [he] at h
      rw [enter_add he]
      exact ih h

theorem parent_add {path : Path} (h : tree.parent path = .ok target) :
    (tree.add place entry).parent path = .ok target := by
  unfold parent at h ⊢
  split at h
  · cases h
  · next hlong =>
    rw [if_neg hlong]
    exact foldlM_enter_add path.parents h

structure Stored (tree : FileTree) (path : List UInt8) (place : Place) (name : FileName)
    (content : List UInt8) : Prop where
  parent : tree.parent (Path.ofBytes path) = .ok place
  last : (Path.ofBytes path).name = some name
  proper : ¬(name = Path.here ∨ name = Path.up)
  short : ¬longestName < name.length
  plain : (Path.ofBytes path).slashed = false
  found : tree.lookup (place ++ [name]) = some (.file content)

theorem read_eq_ok {content : List UInt8} (h : tree.read path = .ok content) :
    ∃ place name, tree.Stored path place name content := by
  unfold read at h
  cases hp : tree.parent (Path.ofBytes path) with
  | error e =>
    simp only [hp] at h
    cases h
  | ok place =>
    simp only [hp, bind, Except.bind] at h
    split at h
    · cases h
    next name hn =>
    split at h
    · cases h
    next hproper =>
    split at h
    · cases h
    next hshort =>
    split at h
    · next found hl =>
      split at h
      · cases h
      · next hs =>
        cases h
        exact ⟨place, name, hp, hn, hproper, hshort, by simpa using hs, hl⟩
    · cases h
    · cases h

theorem Stored.read {content : List UInt8} (h : tree.Stored path place name content) :
    tree.read path = .ok content := by
  simp only [FileTree.read, h.parent, bind, Except.bind, h.last, if_neg h.proper, if_neg h.short,
    h.found, h.plain, Bool.false_eq_true, if_false]

theorem read_add {content : List UInt8} (h : tree.read path = .ok content) :
    (tree.add place entry).read path = .ok content := by
  obtain ⟨directory, name, hs⟩ := read_eq_ok h
  exact Stored.read ⟨parent_add hs.parent, hs.last, hs.proper, hs.short, hs.plain,
    lookup_add_found hs.found⟩

theorem create_eq_ok {content : List UInt8} {next : FileTree}
    (h : tree.create path content = .ok next) :
    ∃ place name, tree.Fresh path place name ∧
      next = tree.add (place ++ [name]) (.file content) := by
  unfold create at h
  cases hp : tree.parent (Path.ofBytes path) with
  | error e =>
    simp only [hp] at h
    cases h
  | ok place =>
    simp only [hp, bind, Except.bind] at h
    split at h
    · cases h
    next name hn =>
    split at h
    · cases h
    next hproper =>
    split at h
    · cases h
    next hopen =>
    split at h
    · cases h
    next hshort =>
    split at h
    · cases h
    next hl =>
    cases h
    exact ⟨place, name, ⟨hp, hn, hproper, hshort, by simpa using hopen, hl⟩, rfl⟩

variable (h : tree.Fresh path place name) (content : List UInt8)

include h

theorem create_fresh :
    tree.create path content = .ok (tree.add (place ++ [name]) (.file content)) := by
  have hopen : ¬(Path.ofBytes path).slashed = true := by simp [h.plain]
  unfold create
  simp only [h.parent, h.last]
  change ite _ _ _ = _
  rw [if_neg h.proper, if_neg hopen, if_neg h.short, h.free]
  rfl

theorem read_created :
    (tree.add (place ++ [name]) (.file content)).read path = .ok content :=
  Stored.read ⟨parent_add h.parent, h.last, h.proper, h.short, h.plain,
    lookup_add_self (by simp) h.free⟩

theorem read_fresh : tree.read path = .error .notFound := by
  simp only [read, h.parent, bind, Except.bind, h.last, if_neg h.proper, if_neg h.short, h.free]

end ByteMachine.FileTree
