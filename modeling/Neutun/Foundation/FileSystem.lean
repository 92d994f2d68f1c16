/-
  Neutun/Foundation/FileSystem.lean
  =================================
  A tree of directories and files, and how a path is looked up in it.

  A place in the tree is a list of names with the last one first, so that `..`
  drops the head and the places below a directory are those that end in it.
  What a path resolves to depends on the directories alone (`resolve_mono`), and
  the operations on files leave those as they are.
-/
import Mathlib.Data.List.Infix
import Mathlib.Logic.Function.Basic
import Neutun.Foundation.Utf8

namespace Foundation

inductive Node where
  | directory
  | file (bytes : List UInt8)
deriving DecidableEq

/-- The last name comes first. -/
abbrev Place := List Text

structure FileSystem where
  node : Place → Option Node
  root : node [] = some .directory
  parent : ∀ name place, node (name :: place) ≠ none → node place = some .directory

/-- The text between the separators. -/
def components : Text → List Text
  | [] => [[]]
  | c :: rest =>
    if c = '/' then [] :: components rest
    else
      match components rest with
      | [] => [[c]]
      | first :: others => (c :: first) :: others

/-- Where a name leads from a directory. -/
def Place.child (place : Place) (name : Text) : Place :=
  if name = [] ∨ name = ['.'] then place
  else if name = ['.', '.'] then place.tail
  else name :: place

/-- The place is in the directory or further down. -/
def Place.Below (place directory : Place) : Prop := ∃ above, above ≠ [] ∧ place = above ++ directory

namespace FileSystem

def empty : FileSystem where
  node place := if place = [] then some .directory else none
  root := rfl
  parent _ _ h := absurd rfl h

variable (fs : FileSystem)

def IsDirectory (place : Place) : Prop := fs.node place = some .directory

instance (place : Place) : Decidable (fs.IsDirectory place) :=
  inferInstanceAs (Decidable (_ = _))

/-- Every name has to lead to a directory. -/
def walk : Place → List Text → Option Place
  | place, [] => some place
  | place, name :: names =>
    if fs.IsDirectory (place.child name) then walk (place.child name) names else none

/-- A path that does not start with a separator starts in the working directory. -/
def startOf (cwd : Place) (path : Text) : Place := if path.head? = some '/' then [] else cwd

/-- The place of a path, which need not be there. -/
def resolve (cwd : Place) (path : Text) : Option Place :=
  if '\x00' ∈ path ∨ ¬fs.IsDirectory (startOf cwd path) then none
  else (fs.walk (startOf cwd path) (components path).dropLast).map fun place =>
    place.child ((components path).getLast?.getD [])

/-- `create_dir_all`, unless there is a file in the way. -/
def createDirAll (place : Place) : Option FileSystem :=
  if ∀ q ∈ place.tails, fs.node q = none ∨ fs.IsDirectory q then
    some {
      node := fun q => if q <:+ place then some .directory else fs.node q
      root := if_pos List.nil_suffix
      parent := by
        intro name q h
        by_cases hq : name :: q <:+ place
        · rw [if_pos ((List.suffix_cons name q).trans hq)]
        · rw [if_neg hq] at h
          have hparent := fs.parent name q h
          by_cases hq' : q <:+ place
          · rw [if_pos hq']
          · rw [if_neg hq', hparent] }
  else none

/-- A file is made or replaced, where there is a directory for it. -/
def write (place : Place) (bytes : List UInt8) : Option FileSystem :=
  match place with
  | [] => none
  | name :: directory =>
    if h : fs.IsDirectory directory ∧ ¬fs.IsDirectory (name :: directory) then
      some {
        node := Function.update fs.node (name :: directory) (some (.file bytes))
        root := fs.root
        parent := by
          intro name' q hq
          have hne : q ≠ name :: directory := by
            rintro rfl
            by_cases heq : name' :: name :: directory = name :: directory
            · exact List.cons_ne_self _ _ heq
            · rw [Function.update_of_ne heq] at hq
              exact h.2 (fs.parent name' _ hq)
          rw [Function.update_of_ne hne]
          by_cases heq : name' :: q = name :: directory
          · obtain ⟨-, rfl⟩ := List.cons.inj heq
            exact h.1
          · rw [Function.update_of_ne heq] at hq
            exact fs.parent name' q hq }
    else none

/-- A file is taken out. -/
def remove (place : Place) : Option FileSystem :=
  if h : fs.node place ≠ none ∧ ¬fs.IsDirectory place then
    some {
      node := Function.update fs.node place none
      root := by
        rw [Function.update_of_ne]
        · exact fs.root
        · rintro rfl
          exact h.2 fs.root
      parent := by
        intro name q hq
        have hplace : name :: q ≠ place := by
          rintro rfl
          rw [Function.update_self] at hq
          exact hq rfl
        rw [Function.update_of_ne hplace] at hq
        have hparent := fs.parent name q hq
        rw [Function.update_of_ne]
        · exact hparent
        · rintro rfl
          exact h.2 hparent }
  else none

/-! ### Directories -/

variable {fs} {fs' : FileSystem}

/-- Nothing is below a place that is no directory. -/
theorem node_of_below {place directory : Place} (h : ¬fs.IsDirectory directory)
    (hbelow : place.Below directory) : fs.node place = none := by
  obtain ⟨above, hne, rfl⟩ := hbelow
  induction above with
  | nil => exact absurd rfl hne
  | cons name above ih =>
    by_contra hnode
    have hparent := fs.parent name (above ++ directory) hnode
    cases above with
    | nil => exact h hparent
    | cons name' above =>
      rw [ih (List.cons_ne_nil _ _)] at hparent
      cases hparent

theorem isDirectory_of_suffix {place above : Place} (h : fs.IsDirectory place)
    (hsuffix : above <:+ place) : fs.IsDirectory above := by
  obtain ⟨names, rfl⟩ := hsuffix
  induction names with
  | nil => exact h
  | cons name names ih =>
    apply ih
    apply fs.parent name
    rw [show fs.node (name :: (names ++ above)) = some .directory from h]
    exact Option.some_ne_none _

theorem walk_mono (h : ∀ place, fs.IsDirectory place → fs'.IsDirectory place) {place place' : Place}
    {names : List Text} (hwalk : fs.walk place names = some place') :
    fs'.walk place names = some place' := by
  induction names generalizing place with
  | nil => exact hwalk
  | cons name names ih =>
    simp only [walk] at hwalk ⊢
    split at hwalk
    next hdir =>
      rw [if_pos (h _ hdir)]
      exact ih hwalk
    · cases hwalk

/-- A path leads to the same place where there are more directories. -/
theorem resolve_mono (h : ∀ place, fs.IsDirectory place → fs'.IsDirectory place) {cwd place : Place}
    {path : Text} (hresolve : fs.resolve cwd path = some place) :
    fs'.resolve cwd path = some place := by
  simp only [resolve] at hresolve ⊢
  split at hresolve
  · cases hresolve
  next hstart =>
  rw [not_or, not_not] at hstart
  obtain ⟨directory, hwalk, rfl⟩ := Option.map_eq_some_iff.mp hresolve
  rw [if_neg (not_or.mpr ⟨hstart.1, not_not.mpr (h _ hstart.2)⟩), walk_mono h hwalk]
  rfl

theorem resolve_congr (h : ∀ place, fs.IsDirectory place ↔ fs'.IsDirectory place) (cwd : Place)
    (path : Text) : fs.resolve cwd path = fs'.resolve cwd path := by
  rw [Option.ext_iff]
  intro place
  exact ⟨resolve_mono fun q => (h q).mp, resolve_mono fun q => (h q).mpr⟩

theorem createDirAll_eq_some {place : Place} (h : fs.createDirAll place = some fs') (q : Place) :
    fs'.node q = if q <:+ place then some .directory else fs.node q := by
  unfold createDirAll at h
  split at h
  · obtain rfl := Option.some.inj h
    rfl
  · cases h

/-- What is there stays, and what is new is a directory. -/
theorem createDirAll_node {place : Place} (h : fs.createDirAll place = some fs') (q : Place) :
    fs'.node q = fs.node q ∨ fs.node q = none ∧ fs'.node q = some .directory := by
  rw [createDirAll_eq_some h]
  by_cases hq : q <:+ place
  · rw [if_pos hq]
    unfold createDirAll at h
    split at h
    next hfree =>
      rcases hfree q ((List.mem_tails _ _).mpr hq) with hnone | hdir
      · exact Or.inr ⟨hnone, rfl⟩
      · exact Or.inl hdir.symm
    · cases h
  · exact Or.inl (if_neg hq)

theorem createDirAll_node_of_isDirectory {place : Place} (hplace : fs.IsDirectory place)
    (h : fs.createDirAll place = some fs') (q : Place) : fs'.node q = fs.node q := by
  rw [createDirAll_eq_some h]
  split
  next hsuffix => exact (isDirectory_of_suffix hplace hsuffix).symm
  · rfl

theorem write_eq_some {place : Place} {bytes : List UInt8} (h : fs.write place bytes = some fs') :
    fs'.node = Function.update fs.node place (some (.file bytes)) ∧ ¬fs.IsDirectory place := by
  unfold write at h
  split at h
  · cases h
  split at h
  next hdir =>
    obtain rfl := Option.some.inj h
    exact ⟨rfl, hdir.2⟩
  · cases h

theorem remove_eq_some {place : Place} (h : fs.remove place = some fs') :
    fs'.node = Function.update fs.node place none ∧ ¬fs.IsDirectory place := by
  unfold remove at h
  split at h
  next hfile =>
    obtain rfl := Option.some.inj h
    exact ⟨rfl, hfile.2⟩
  · cases h

/-- Files come and go without the directories. -/
theorem isDirectory_update {place : Place} {entry : Option Node} (hplace : ¬fs.IsDirectory place)
    (hentry : entry ≠ some .directory) (h : fs'.node = Function.update fs.node place entry)
    (q : Place) : fs'.IsDirectory q ↔ fs.IsDirectory q := by
  rw [IsDirectory, h]
  by_cases hq : q = place
  · subst hq
    rw [Function.update_self]
    exact iff_of_false hentry hplace
  · rw [Function.update_of_ne hq]
    exact Iff.rfl

end FileSystem

/-! ### Plain names -/

theorem components_of_plain {name : Text} (h : '/' ∉ name) : components name = [name] := by
  induction name with
  | nil => rfl
  | cons c rest ih =>
    rw [List.mem_cons, not_or] at h
    rw [components, if_neg (Ne.symm h.1), ih h.2]

end Foundation
