/-
  Neutun/Foundation/FileTable.lean
  ================================
  A table that is kept as files: one directory, and in it one file for each key.

  A value is looked up by the name of its file; all values are found by reading
  whatever a listing of the directory gives.  The two agree (`list_spec`) as long
  as every file that can be read is the file of its own key, which is what
  `Holds` asks for and what writing and removing keep.  There may be other files
  in the directory, and directories.
-/
import Mathlib.Data.List.Nodup
import Neutun.Foundation.Codec
import Neutun.Foundation.FileSystem

namespace Foundation

/-! ### Directories -/

/-- The bytes of a file. -/
def Node.content : Node → Option (List UInt8)
  | directory => none
  | file bytes => some bytes

namespace FileSystem

variable (fs : FileSystem)

def read (place : Place) : Option (List UInt8) := (fs.node place).bind Node.content

/-- The value in a file of a directory. -/
def valueIn {ν : Type*} (codec : Codec ν Char) (directory : Place) (name : Text) : Option ν :=
  (fs.read (name :: directory)).bind fun bytes => (fromUtf8 bytes).bind codec.decode

/-- The values in those files of a listing that are accepted. -/
def valuesIn {ν : Type*} (codec : Codec ν Char) (directory : Place) (accepts : Text → Bool)
    (names : List Text) : List ν :=
  (names.filter accepts).filterMap (fs.valueIn codec directory)

/-- The names are those of all that is in the directory, each once, in any order. -/
structure Lists (directory : Place) (names : List Text) : Prop where
  nodup : names.Nodup
  mem : ∀ name, name ∈ names ↔ fs.node (name :: directory) ≠ none

variable {fs} {fs' : FileSystem} {directory place : Place}

theorem Lists.mem_of_read {names : List Text} {name : Text} {bytes : List UInt8}
    (h : fs.Lists directory names) (hread : fs.read (name :: directory) = some bytes) :
    name ∈ names := by
  rw [h.mem]
  intro hnone
  rw [read, hnone] at hread
  cases hread

/-- What is in a directory is not changed by making sure that it is there. -/
theorem createDirAll_node_cons (h : fs.createDirAll directory = some fs') (name : Text) :
    fs'.node (name :: directory) = fs.node (name :: directory) := by
  rw [createDirAll_eq_some h, if_neg]
  intro hsuffix
  exact absurd hsuffix.length_le (by simp)

/-- Nothing is in a directory that is not there. -/
theorem valuesIn_eq_nil {ν : Type*} {codec : Codec ν Char} {accepts : Text → Bool}
    (h : ¬fs.IsDirectory directory) (names : List Text) :
    fs.valuesIn codec directory accepts names = [] := by
  unfold valuesIn
  rw [List.filterMap_eq_nil_iff]
  intro name _
  have hnode : fs.node (name :: directory) = none :=
    node_of_below h ⟨[name], List.cons_ne_nil _ _, rfl⟩
  rw [valueIn, read, hnode]
  rfl

end FileSystem

/-! ### Extensions -/

/-- What follows the last dot of a file name, if anything precedes it. -/
def extension (name : Text) : Option Text :=
  if name = ['.', '.'] then none
  else
    match name.reverse.dropWhile fun c => decide (c ≠ '.') with
    | _ :: _ :: _ => some (name.reverse.takeWhile fun c => decide (c ≠ '.')).reverse
    | _ => none

theorem extension_append {stem ext : Text} (hstem : stem ≠ []) (hext : '.' ∉ ext)
    (hne : ext ≠ []) : extension (stem ++ '.' :: ext) = some ext := by
  have hdots : stem ++ '.' :: ext ≠ ['.', '.'] := by
    intro h
    have hlast := congrArg List.getLast? h
    rw [List.getLast?_append_of_ne_nil _ (List.cons_ne_nil _ _), List.getLast?_cons,
      List.getLast?_eq_some_getLast hne] at hlast
    simp only [Option.getD_some, List.getLast?_cons_cons, List.getLast?_singleton,
      Option.some.injEq] at hlast
    exact hext (hlast ▸ List.getLast_mem hne)
  have hword : ∀ c ∈ ext.reverse, decide (c ≠ '.') = true := by
    intro c hc
    rw [decide_eq_true_eq]
    rintro rfl
    exact hext (List.mem_reverse.mp hc)
  have hreverse : (stem ++ '.' :: ext).reverse = ext.reverse ++ '.' :: stem.reverse := by simp
  have hdrop : (ext.reverse ++ '.' :: stem.reverse).dropWhile (fun c => decide (c ≠ '.')) =
      '.' :: stem.reverse := by
    rw [List.dropWhile_append_of_pos hword]
    exact List.dropWhile_cons_of_neg (by simp)
  have htake : (ext.reverse ++ '.' :: stem.reverse).takeWhile (fun c => decide (c ≠ '.')) =
      ext.reverse := by
    rw [List.takeWhile_append_of_pos hword, List.takeWhile_cons_of_neg (by simp),
      List.append_nil]
  rw [extension, if_neg hdots, hreverse, hdrop, htake, List.reverse_reverse]
  cases hback : stem.reverse with
  | nil => exact absurd (List.reverse_eq_nil_iff.mp hback) hstem
  | cons c rest => rfl

theorem eq_append_of_extension {name ext : Text} (h : extension name = some ext) :
    ∃ stem, stem ≠ [] ∧ name = stem ++ '.' :: ext := by
  unfold extension at h
  split at h
  · cases h
  split at h
  next dot c rest hdrop =>
    have hdot : dot = '.' := by
      have hhead := List.head?_dropWhile_not (fun c => decide (c ≠ '.')) name.reverse
      rw [hdrop] at hhead
      simpa using hhead
    have hsplit := List.takeWhile_append_dropWhile
      (p := fun c => decide (c ≠ '.')) (l := name.reverse)
    refine ⟨(c :: rest).reverse, by simp, ?_⟩
    rw [← List.reverse_inj, ← hsplit, hdrop, hdot, ← Option.some.inj h]
    simp
  · cases h

/-! ### Tables -/

/-- Where the values are, and how a value is written.  A listing looks into the files
    that are accepted. -/
structure FileTable (κ ν : Type*) where
  directory : Place
  fileName : κ → Text
  keyOf : ν → κ
  accepts : Text → Bool
  codec : Codec ν Char
  injective : Function.Injective fileName
  accepts_fileName : ∀ k, accepts (fileName k) = true

namespace FileTable

variable {κ ν : Type*} (T : FileTable κ ν) (fs : FileSystem)

def place (k : κ) : Place := T.fileName k :: T.directory

def valueIn (name : Text) : Option ν := fs.valueIn T.codec T.directory name

def lookup (k : κ) : Option ν := T.valueIn fs (T.fileName k)

/-- `false` if the directory cannot be made, or the file not be written. -/
def put (v : ν) : FileSystem × Bool :=
  match fs.createDirAll T.directory with
  | none => (fs, false)
  | some fs =>
    match fs.write (T.place (T.keyOf v)) (utf8 (T.codec.encode v)) with
    | none => (fs, false)
    | some fs => (fs, true)

def erase (k : κ) : FileSystem := (fs.remove (T.place k)).getD fs

def list (names : List Text) : List ν := fs.valuesIn T.codec T.directory T.accepts names

/-- The directory can be made, and its files be written. -/
structure Ready : Prop where
  room : ∀ q ∈ T.directory.tails, fs.node q = none ∨ fs.IsDirectory q
  file : ∀ k, ¬fs.IsDirectory (T.place k)

/-- The files are a map, and every file that can be read is that of its own key. -/
structure Holds (m : κ → Option ν) : Prop where
  value : ∀ k, T.lookup fs k = m k
  filed : ∀ name v, T.accepts name = true → T.valueIn fs name = some v →
    name = T.fileName (T.keyOf v)

/-- Nothing but files of the table has changed; the directory may be new. -/
def Frame (fs fs' : FileSystem) : Prop :=
  ∀ place, (∀ k, place ≠ T.place k) → fs'.node place = fs.node place ∨
    fs.node place = none ∧ fs'.node place = some .directory

variable {T fs} {fs' fs'' : FileSystem} {m : κ → Option ν}

theorem Frame.refl (fs : FileSystem) : T.Frame fs fs := fun _ _ => Or.inl rfl

theorem Frame.trans (h : T.Frame fs fs') (h' : T.Frame fs' fs'') : T.Frame fs fs'' := by
  intro place hplace
  rcases h place hplace with hsame | ⟨hnone, hdir⟩
  · rw [← hsame]
    exact h' place hplace
  · rcases h' place hplace with hsame' | ⟨hnone', -⟩
    · exact Or.inr ⟨hnone, hsame'.trans hdir⟩
    · rw [hdir] at hnone'
      cases hnone'

/-- A value is under its key. -/
theorem Holds.keyOf_eq (h : T.Holds fs m) {k : κ} {v : ν} (hv : m k = some v) :
    T.keyOf v = k := by
  rw [← h.value] at hv
  exact (T.injective (h.filed _ v (T.accepts_fileName k) hv)).symm

theorem Holds.congr {m' : κ → Option ν} (h : T.Holds fs m) (hm : ∀ k, m' k = m k) :
    T.Holds fs m' where
  value k := (h.value k).trans (hm k).symm
  filed := h.filed

/-! ### Writing -/

/-- What a write leaves behind: the directory, and the value in its file. -/
theorem put_spec (hready : T.Ready fs) (v : ν) : ∃ fs', T.put fs v = (fs', true) ∧
    (∀ q, fs'.node q = if q = T.place (T.keyOf v) then some (.file (utf8 (T.codec.encode v)))
      else if q <:+ T.directory then some .directory else fs.node q) := by
  have hcreate : ∃ fs₁, fs.createDirAll T.directory = some fs₁ := by
    unfold FileSystem.createDirAll
    rw [if_pos hready.room]
    exact ⟨_, rfl⟩
  obtain ⟨fs₁, hfs₁⟩ := hcreate
  have hdir : fs₁.IsDirectory T.directory := by
    rw [FileSystem.IsDirectory, FileSystem.createDirAll_eq_some hfs₁, if_pos List.suffix_rfl]
  have hfile : ¬fs₁.IsDirectory (T.place (T.keyOf v)) := by
    rw [FileSystem.IsDirectory, place, FileSystem.createDirAll_node_cons hfs₁]
    exact hready.file (T.keyOf v)
  have hwrite : ∃ fs₂, fs₁.write (T.place (T.keyOf v)) (utf8 (T.codec.encode v)) = some fs₂ := by
    unfold FileSystem.write place
    exact ⟨_, dif_pos ⟨hdir, hfile⟩⟩
  obtain ⟨fs₂, hfs₂⟩ := hwrite
  refine ⟨fs₂, by simp only [put, hfs₁, hfs₂], ?_⟩
  intro q
  rw [(FileSystem.write_eq_some hfs₂).1, Function.update_apply,
    FileSystem.createDirAll_eq_some hfs₁]

theorem valueIn_put (hready : T.Ready fs) (v : ν) (name : Text) :
    T.valueIn (T.put fs v).1 name =
      if name = T.fileName (T.keyOf v) then some v else T.valueIn fs name := by
  obtain ⟨fs', hput, hnode⟩ := T.put_spec hready v
  have hinside : ¬name :: T.directory <:+ T.directory := by
    intro hsuffix
    exact absurd hsuffix.length_le (by simp)
  rw [hput, valueIn, FileSystem.valueIn, FileSystem.read, hnode, if_neg hinside, place]
  by_cases hname : name = T.fileName (T.keyOf v)
  · rw [if_pos (by rw [hname]), if_pos hname]
    simp [Node.content]
  · rw [if_neg fun h => hname (List.cons.inj h).1, if_neg hname]
    rfl

/-- Writing a value is entering it in the map. -/
theorem Holds.put [DecidableEq κ] (h : T.Holds fs m) (hready : T.Ready fs) (v : ν) :
    T.Holds (T.put fs v).1 (Function.update m (T.keyOf v) (some v)) where
  value k := by
    rw [lookup, valueIn_put hready, Function.update_apply]
    by_cases hk : k = T.keyOf v
    · rw [if_pos (by rw [hk]), if_pos hk]
    · rw [if_neg fun hname => hk (T.injective hname), if_neg hk]
      exact h.value k
  filed name w hname hvalue := by
    rw [valueIn_put hready] at hvalue
    split at hvalue
    next hsame =>
      rw [← Option.some.inj hvalue]
      exact hsame
    · exact h.filed name w hname hvalue

theorem Ready.put (hready : T.Ready fs) (v : ν) : T.Ready (T.put fs v).1 := by
  obtain ⟨fs', hput, hnode⟩ := T.put_spec hready v
  rw [hput]
  have houtside : ∀ q, q <:+ T.directory → q ≠ T.place (T.keyOf v) := by
    rintro q hq rfl
    exact absurd hq.length_le (by simp [place])
  refine ⟨?_, ?_⟩
  · intro q hq
    have hsuffix := (List.mem_tails _ _).mp hq
    right
    rw [FileSystem.IsDirectory, hnode, if_neg (houtside q hsuffix), if_pos hsuffix]
  · intro k
    rw [FileSystem.IsDirectory, hnode]
    split
    · simp
    · rw [if_neg]
      · exact hready.file k
      · intro hsuffix
        exact absurd hsuffix.length_le (by simp [place])

theorem frame_put (hready : T.Ready fs) (v : ν) : T.Frame fs (T.put fs v).1 := by
  obtain ⟨fs', hput, hnode⟩ := T.put_spec hready v
  rw [hput]
  intro q hq
  rw [hnode, if_neg (hq (T.keyOf v))]
  split
  next hsuffix =>
    rcases hready.room q ((List.mem_tails _ _).mpr hsuffix) with hnone | hdir
    · exact Or.inr ⟨hnone, rfl⟩
    · exact Or.inl hdir.symm
  · exact Or.inl rfl

/-! ### Removing -/

/-- A file that is not there is not missed. -/
theorem erase_node (hready : T.Ready fs) (k : κ) (q : Place) :
    (T.erase fs k).node q = if q = T.place k then none else fs.node q := by
  unfold erase
  cases hremove : fs.remove (T.place k) with
  | some fs' =>
    rw [Option.getD_some, (FileSystem.remove_eq_some hremove).1, Function.update_apply]
  | none =>
    rw [Option.getD_none]
    split
    next hq =>
      unfold FileSystem.remove at hremove
      split at hremove
      · cases hremove
      next hnone =>
        rw [hq]
        by_contra hnode
        exact hnone ⟨hnode, hready.file k⟩
    · rfl

theorem valueIn_erase (hready : T.Ready fs) (k : κ) (name : Text) :
    T.valueIn (T.erase fs k) name = if name = T.fileName k then none else T.valueIn fs name := by
  rw [valueIn, FileSystem.valueIn, FileSystem.read, erase_node hready, place]
  by_cases hname : name = T.fileName k
  · rw [if_pos (by rw [hname]), if_pos hname]
    rfl
  · rw [if_neg fun h => hname (List.cons.inj h).1, if_neg hname]
    rfl

/-- Removing a file is taking the key out of the map. -/
theorem Holds.erase [DecidableEq κ] (h : T.Holds fs m) (hready : T.Ready fs) (k : κ) :
    T.Holds (T.erase fs k) (Function.update m k none) where
  value k' := by
    rw [lookup, valueIn_erase hready, Function.update_apply]
    by_cases hk : k' = k
    · rw [if_pos (by rw [hk]), if_pos hk]
    · rw [if_neg fun hname => hk (T.injective hname), if_neg hk]
      exact h.value k'
  filed name w hname hvalue := by
    rw [valueIn_erase hready] at hvalue
    split at hvalue
    · cases hvalue
    · exact h.filed name w hname hvalue

theorem Ready.erase (hready : T.Ready fs) (k : κ) : T.Ready (T.erase fs k) where
  room q hq := by
    rw [FileSystem.IsDirectory, erase_node hready]
    split
    · exact Or.inl rfl
    · exact hready.room q hq
  file k' := by
    rw [FileSystem.IsDirectory, erase_node hready]
    split
    · simp
    · exact hready.file k'

theorem frame_erase (hready : T.Ready fs) (k : κ) : T.Frame fs (T.erase fs k) := by
  intro q hq
  rw [erase_node hready, if_neg (hq k)]
  exact Or.inl rfl

/-! ### Listing -/

/-- A listing finds the values of the map, … -/
theorem mem_list (h : T.Holds fs m) {names : List Text} (hnames : fs.Lists T.directory names)
    {v : ν} : v ∈ T.list fs names ↔ m (T.keyOf v) = some v := by
  unfold list FileSystem.valuesIn
  rw [List.mem_filterMap, ← h.value]
  constructor
  · rintro ⟨name, hname, hvalue⟩
    rw [lookup, ← h.filed name v (List.mem_filter.mp hname).2 hvalue]
    exact hvalue
  · intro hvalue
    refine ⟨T.fileName (T.keyOf v), List.mem_filter.mpr ⟨?_, T.accepts_fileName _⟩, hvalue⟩
    obtain ⟨bytes, hread, -⟩ := Option.bind_eq_some_iff.mp hvalue
    exact hnames.mem_of_read hread

/-- … each once. -/
theorem nodup_list (h : T.Holds fs m) {names : List Text} (hnames : fs.Lists T.directory names) :
    (T.list fs names).Nodup := by
  unfold list FileSystem.valuesIn
  rw [List.Nodup, List.pairwise_filterMap]
  refine List.Pairwise.imp_of_mem ?_ (hnames.nodup.filter _)
  intro name name' hname hname' hne v hvalue v' hvalue'
  rintro rfl
  apply hne
  rw [h.filed name v (List.mem_filter.mp hname).2 hvalue,
    h.filed name' v (List.mem_filter.mp hname').2 hvalue']

/-- A listing gives the values of the map, in some order. -/
theorem list_perm (h : T.Holds fs m) {names : List Text} (hnames : fs.Lists T.directory names)
    {values : List ν} (hnodup : values.Nodup)
    (hvalues : ∀ v, v ∈ values ↔ m (T.keyOf v) = some v) : (T.list fs names).Perm values := by
  rw [List.perm_ext_iff_of_nodup (nodup_list h hnames) hnodup]
  intro v
  rw [mem_list h hnames, hvalues]

/-- A new file is listed with the others. -/
theorem lists_put (hready : T.Ready fs) {names : List Text}
    (hnames : fs.Lists T.directory names) {v : ν} (hnew : T.fileName (T.keyOf v) ∉ names) :
    (T.put fs v).1.Lists T.directory (T.fileName (T.keyOf v) :: names) := by
  obtain ⟨fs', hput, hnode⟩ := T.put_spec hready v
  refine ⟨List.nodup_cons.mpr ⟨hnew, hnames.nodup⟩, ?_⟩
  intro name
  have hinside : ¬name :: T.directory <:+ T.directory := by
    intro hsuffix
    exact absurd hsuffix.length_le (by simp)
  rw [hput, hnode, if_neg hinside, List.mem_cons, place]
  by_cases hname : name = T.fileName (T.keyOf v)
  · simp [hname]
  · rw [if_neg fun h => hname (List.cons.inj h).1, ← hnames.mem]
    exact or_iff_right hname

end FileTable

end Foundation
