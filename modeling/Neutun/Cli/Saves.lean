/-
  Neutun/Cli/Saves.lean
  =====================
  Saved sessions as files (`save_session`, `load_session` and `delete_session` in
  `saved_config.rs`).

  The name of a session is put into a path as it is.  Where no name leads out of
  `~/.neutun/saves` and no two lead to the same file, the files are a map from
  names to sessions (`saves_store`); plain file names are such names
  (`safe_of_plain`).
-/
import Neutun.Foundation.FileTable
import Neutun.Foundation.Machine
import Neutun.Cli.Settings

namespace Neutun.Cli

open Foundation

/-! ### The files -/

def settingsDir (home : Place) : Place := ".neutun".toList :: home

def savesDir (home : Place) : Place := "saves".toList :: settingsDir home

/-- `format!("{}.json", name)` -/
def jsonFile (name : Text) : Text := name ++ ".json".toList

/-- `path.extension()` is "json". -/
def isJson (name : Text) : Bool := decide (extension name = some "json".toList)

theorem jsonFile_injective : Function.Injective jsonFile :=
  fun _ _ h => List.append_cancel_right h

theorem isJson_iff {name : Text} :
    isJson name = true ↔ ∃ stem, stem ≠ [] ∧ name = jsonFile stem := by
  rw [isJson, decide_eq_true_eq]
  constructor
  · intro h
    obtain ⟨stem, hstem, hname⟩ := eq_append_of_extension h
    exact ⟨stem, hstem, hname⟩
  · rintro ⟨stem, hstem, rfl⟩
    exact extension_append hstem (by decide) (by decide)

namespace Saves

-- sessions with their names and serde for them, and the home directory
variable {σ : Type} (nameOf : σ → Text) (json : Codec σ Char) (home : Place)

/-- `false` is a panic: the directory cannot be made, or the file not be written. -/
def saveSession (fs : FileSystem) (session : σ) : FileSystem × Bool :=
  match fs.createDirAll (savesDir home) with
  | none => (fs, false)
  | some fs =>
    match fs.resolve (savesDir home) (jsonFile (nameOf session)) with
    | none => (fs, false)
    | some place =>
      match fs.write place (utf8 (json.encode session)) with
      | none => (fs, false)
      | some fs => (fs, true)

def loadSession (fs : FileSystem) (name : Text) : Option σ :=
  match fs.resolve (savesDir home) (jsonFile name) with
  | none => none
  | some place =>
    match fs.node place with
    | some (.file bytes) => (fromUtf8 bytes).bind json.decode
    | _ => none

def deleteSession (fs : FileSystem) (name : Text) : FileSystem × Bool :=
  match fs.resolve (savesDir home) (jsonFile name) with
  | none => (fs, false)
  | some place =>
    match fs.remove place with
    | none => (fs, false)
    | some fs => (fs, true)

/-! ### Sequences of operations -/

inductive Operation (σ : Type) where
  | save (session : σ)
  | load (name : Text)
  | delete (name : Text)

def Operation.name : Operation σ → Text
  | save session => nameOf session
  | load name => name
  | delete name => name

/-- The file system once there is a directory for the sessions, if there can be. -/
def prepared (fs : FileSystem) : FileSystem := (fs.createDirAll (savesDir home)).getD fs

/-- The file that an operation goes to. -/
def Operation.place (fs : FileSystem) : Operation σ → Option Place
  | save session => (fs.createDirAll (savesDir home)).bind fun fs =>
      fs.resolve (savesDir home) (jsonFile (nameOf session))
  | load name | delete name => fs.resolve (savesDir home) (jsonFile name)

/-- The files, what was last saved under each name and not deleted since, and the
    files that were read, written or deleted. -/
structure Store (σ : Type) where
  fs : FileSystem
  saved : Text → Option σ
  touched : List Place

def Store.step (s : Store σ) (operation : Operation σ) : Store σ :=
  let touched := (operation.place nameOf home s.fs).toList ++ s.touched
  match operation with
  | .save session =>
    let (fs, ok) := saveSession nameOf json home s.fs session
    let saved := if ok then Function.update s.saved (nameOf session) (some session) else s.saved
    ⟨fs, saved, touched⟩
  | .load _ => { s with touched := touched }
  | .delete name =>
    ⟨(deleteSession home s.fs name).1, Function.update s.saved name none, touched⟩

/-- The sessions that are there at the start count as saved. -/
def store : Machine (Store σ) (Operation σ) where
  start s := s.saved = loadSession json home s.fs ∧ s.touched = []
  step s operation := some (s.step nameOf json home operation)

/-- No name leads out of the directory, and no two lead to the same file. -/
structure Safe (names : Set Text) (fs : FileSystem) : Prop where
  inside : ∀ n ∈ names, ∀ place,
    (prepared home fs).resolve (savesDir home) (jsonFile n) = some place →
      place.Below (savesDir home)
  distinct : ∀ n ∈ names, ∀ n' ∈ names, ∀ place,
    (prepared home fs).resolve (savesDir home) (jsonFile n) = some place →
      (prepared home fs).resolve (savesDir home) (jsonFile n') = some place → n = n'

/-- Outside the directory everything is as before; the directory itself may be new. -/
def Frame (fs fs' : FileSystem) : Prop :=
  ∀ place, ¬place.Below (savesDir home) → fs'.node place = fs.node place ∨
    fs.node place = none ∧ fs'.node place = some .directory

/-- The files are the map of what was saved, and no file elsewhere is touched. -/
structure IsMap (names : Set Text) (fs₀ : FileSystem) (t : Store σ) : Prop where
  loaded : ∀ n ∈ names, loadSession json home t.fs n = t.saved n
  confined : ∀ place ∈ t.touched, place.Below (savesDir home)
  frame : Frame home fs₀ t.fs

variable {nameOf json home} {names : Set Text} {fs fs' : FileSystem}

theorem isDirectory_prepared {place : Place} (h : fs.IsDirectory place) :
    (prepared home fs).IsDirectory place := by
  unfold prepared
  cases hcreate : fs.createDirAll (savesDir home) with
  | none => exact h
  | some fs' =>
    rw [Option.getD_some, FileSystem.IsDirectory, FileSystem.createDirAll_eq_some hcreate]
    split
    · rfl
    · exact h

theorem prepared_node (place : Place) : (prepared home fs).node place = fs.node place ∨
    fs.node place = none ∧ (prepared home fs).node place = some .directory := by
  unfold prepared
  cases hcreate : fs.createDirAll (savesDir home) with
  | none => exact Or.inl rfl
  | some fs' => exact FileSystem.createDirAll_node hcreate place

/-- Below the directory nothing is new. -/
theorem prepared_node_of_below {place : Place} (h : place.Below (savesDir home)) :
    (prepared home fs).node place = fs.node place := by
  obtain ⟨above, hne, rfl⟩ := h
  unfold prepared
  cases hcreate : fs.createDirAll (savesDir home) with
  | none => rfl
  | some fs' =>
    rw [Option.getD_some, FileSystem.createDirAll_eq_some hcreate, if_neg]
    intro hsuffix
    have hlength := hsuffix.length_le
    rw [List.length_append] at hlength
    have hpos := List.length_pos_iff.mpr hne
    omega

theorem prepared_of_isDirectory (h : fs.IsDirectory (savesDir home)) (place : Place) :
    (prepared home fs).node place = fs.node place := by
  unfold prepared
  cases hcreate : fs.createDirAll (savesDir home) with
  | none => rfl
  | some fs' => exact FileSystem.createDirAll_node_of_isDirectory h hcreate place

theorem resolve_prepared {path : Text} {place : Place}
    (h : fs.resolve (savesDir home) path = some place) :
    (prepared home fs).resolve (savesDir home) path = some place :=
  FileSystem.resolve_mono (fun _ => isDirectory_prepared) h

/-- A safe name reads the same before and after the directory is made. -/
theorem loadSession_prepared (hsafe : Safe home names fs) {name : Text} (hname : name ∈ names) :
    loadSession json home (prepared home fs) name = loadSession json home fs name := by
  unfold loadSession
  cases hresolve : fs.resolve (savesDir home) (jsonFile name) with
  | some place =>
    have hbelow := hsafe.inside name hname place (resolve_prepared hresolve)
    simp only [resolve_prepared hresolve, prepared_node_of_below hbelow]
  | none =>
    cases hresolve' : (prepared home fs).resolve (savesDir home) (jsonFile name) with
    | none => rfl
    | some place =>
      have hbelow := hsafe.inside name hname place hresolve'
      have hnew : ¬fs.IsDirectory (savesDir home) := by
        intro hdir
        have hsame : fs.resolve (savesDir home) (jsonFile name) =
            (prepared home fs).resolve (savesDir home) (jsonFile name) := by
          apply FileSystem.resolve_congr
          intro q
          rw [FileSystem.IsDirectory, FileSystem.IsDirectory, prepared_of_isDirectory hdir]
        rw [hresolve, hresolve'] at hsame
        cases hsame
      simp only [prepared_node_of_below hbelow, FileSystem.node_of_below hnew hbelow]

/-- Files at other places do not matter. -/
theorem loadSession_update {place : Place} {entry : Option Node} {name : Text}
    (hplace : ¬fs.IsDirectory place) (hentry : entry ≠ some .directory)
    (h : fs'.node = Function.update fs.node place entry)
    (hother : fs.resolve (savesDir home) (jsonFile name) ≠ some place) :
    loadSession json home fs' name = loadSession json home fs name := by
  have hresolve : fs'.resolve (savesDir home) (jsonFile name) =
      fs.resolve (savesDir home) (jsonFile name) :=
    FileSystem.resolve_congr (FileSystem.isDirectory_update hplace hentry h) _ _
  unfold loadSession
  rw [hresolve]
  cases hfound : fs.resolve (savesDir home) (jsonFile name) with
  | none => rfl
  | some q =>
    have hne : q ≠ place := by
      rintro rfl
      exact hother hfound
    simp only [h, Function.update_of_ne hne]

/-! ### One operation -/

variable (json) in
/-- What `save_session` leaves behind. -/
theorem saveSession_cases (fs : FileSystem) (session : σ) :
    (∃ place fs', (prepared home fs).resolve (savesDir home) (jsonFile (nameOf session)) =
        some place ∧ ¬(prepared home fs).IsDirectory place ∧
      saveSession nameOf json home fs session = (fs', true) ∧
      fs'.node = Function.update (prepared home fs).node place
        (some (.file (utf8 (json.encode session))))) ∨
    saveSession nameOf json home fs session = (prepared home fs, false) := by
  unfold saveSession prepared
  cases hcreate : fs.createDirAll (savesDir home) with
  | none => exact Or.inr rfl
  | some fs₁ =>
    simp only [Option.getD_some]
    cases hresolve : fs₁.resolve (savesDir home) (jsonFile (nameOf session)) with
    | none => exact Or.inr rfl
    | some place =>
      cases hwrite : fs₁.write place (utf8 (json.encode session)) with
      | none => exact Or.inr (by simp only [hwrite])
      | some fs₂ =>
        obtain ⟨hnode, hplace⟩ := FileSystem.write_eq_some hwrite
        exact Or.inl ⟨place, fs₂, rfl, hplace, by simp only [hwrite], hnode⟩

variable (json) in
/-- What `delete_session` leaves behind. -/
theorem deleteSession_cases (fs : FileSystem) (name : Text) :
    (∃ place, fs.resolve (savesDir home) (jsonFile name) = some place ∧
      ¬fs.IsDirectory place ∧
      (deleteSession home fs name).1.node = Function.update fs.node place none) ∨
    (deleteSession home fs name).1 = fs ∧ loadSession json home fs name = none := by
  unfold deleteSession
  cases hresolve : fs.resolve (savesDir home) (jsonFile name) with
  | none => exact Or.inr ⟨rfl, by simp only [loadSession, hresolve]⟩
  | some place =>
    cases hremove : fs.remove place with
    | some fs' =>
      obtain ⟨hnode, hplace⟩ := FileSystem.remove_eq_some hremove
      exact Or.inl ⟨place, rfl, hplace, by simp only [hremove, hnode]⟩
    | none =>
      refine Or.inr ⟨by simp only [hremove], ?_⟩
      unfold FileSystem.remove at hremove
      split at hremove
      · cases hremove
      next hnone =>
        simp only [loadSession, hresolve]
        split
        next bytes hfile =>
          refine absurd ⟨?_, ?_⟩ hnone
          · rw [hfile]
            exact Option.some_ne_none _
          · rw [FileSystem.IsDirectory, hfile]
            intro h
            cases h
        · rfl

theorem Frame.trans {fs'' : FileSystem} (h : Frame home fs fs') (h' : Frame home fs' fs'') :
    Frame home fs fs'' := by
  intro place hplace
  rcases h place hplace with hsame | ⟨hnone, hdir⟩
  · rw [← hsame]
    exact h' place hplace
  · rcases h' place hplace with hsame' | ⟨hnone', -⟩
    · exact Or.inr ⟨hnone, hsame'.trans hdir⟩
    · rw [hdir] at hnone'
      cases hnone'

theorem frame_prepared (fs : FileSystem) : Frame home fs (prepared home fs) :=
  fun place _ => prepared_node place

theorem frame_update {place : Place} {entry : Option Node} (hbelow : place.Below (savesDir home))
    (h : fs'.node = Function.update fs.node place entry) : Frame home fs fs' := by
  intro q hq
  have hne : q ≠ place := by
    rintro rfl
    exact hq hbelow
  exact Or.inl (by rw [h, Function.update_of_ne hne])

theorem loadSession_of_file {place : Place} {session : σ} {name : Text}
    (hresolve : fs.resolve (savesDir home) (jsonFile name) = some place)
    (hnode : fs.node place = some (.file (utf8 (json.encode session)))) :
    loadSession json home fs name = some session := by
  simp [loadSession, hresolve, hnode]

variable {fs₀ : FileSystem} {s : Store σ}

theorem isMap_save (hmap : IsMap json home names fs₀ s) (hsafe : Safe home names s.fs)
    (session : σ) (hname : nameOf session ∈ names) :
    (∀ n ∈ names, loadSession json home (s.step nameOf json home (.save session)).fs n =
        (s.step nameOf json home (.save session)).saved n) ∧
      Frame home s.fs (s.step nameOf json home (.save session)).fs := by
  simp only [Store.step]
  rcases saveSession_cases json s.fs session with
    ⟨place, fs', hresolve, hplace, hsave, hnode⟩ | hsave
  · rw [hsave]
    refine ⟨?_, (frame_prepared s.fs).trans (frame_update (hsafe.inside _ hname _ hresolve) hnode)⟩
    intro n hn
    rw [if_pos rfl]
    by_cases heq : n = nameOf session
    · subst heq
      rw [Function.update_self]
      rw [← FileSystem.resolve_congr (FileSystem.isDirectory_update hplace (by simp) hnode)]
        at hresolve
      exact loadSession_of_file hresolve (by rw [hnode, Function.update_self])
    · have hother : (prepared home s.fs).resolve (savesDir home) (jsonFile n) ≠ some place :=
        fun h => heq (hsafe.distinct n hn _ hname place h hresolve)
      rw [Function.update_of_ne heq, loadSession_update hplace (by simp) hnode hother,
        loadSession_prepared hsafe hn, hmap.loaded n hn]
  · rw [hsave]
    refine ⟨?_, frame_prepared s.fs⟩
    intro n hn
    rw [if_neg Bool.false_ne_true, loadSession_prepared hsafe hn, hmap.loaded n hn]

theorem isMap_delete (hmap : IsMap json home names fs₀ s) (hsafe : Safe home names s.fs)
    (name : Text) (hname : name ∈ names) :
    (∀ n ∈ names, loadSession json home (deleteSession home s.fs name).1 n =
        Function.update s.saved name none n) ∧
      Frame home s.fs (deleteSession home s.fs name).1 := by
  rcases deleteSession_cases json s.fs name with
    ⟨place, hresolve, hplace, hnode⟩ | ⟨hsame, hnone⟩
  · have hresolve' := resolve_prepared hresolve
    refine ⟨?_, frame_update (hsafe.inside name hname place hresolve') hnode⟩
    intro n hn
    by_cases heq : n = name
    · subst heq
      rw [Function.update_self, loadSession,
        FileSystem.resolve_congr (FileSystem.isDirectory_update hplace (by simp) hnode), hresolve]
      simp only [hnode, Function.update_self]
    · have hother : s.fs.resolve (savesDir home) (jsonFile n) ≠ some place :=
        fun h => heq (hsafe.distinct n hn _ hname place (resolve_prepared h) hresolve')
      rw [Function.update_of_ne heq, loadSession_update hplace (by simp) hnode hother,
        hmap.loaded n hn]
  · rw [hsame]
    refine ⟨?_, fun _ _ => Or.inl rfl⟩
    intro n hn
    by_cases heq : n = name
    · subst heq
      rw [Function.update_self, hnone]
    · rw [Function.update_of_ne heq, hmap.loaded n hn]

theorem place_below (hsafe : Safe home names s.fs) {operation : Operation σ}
    (hname : operation.name nameOf ∈ names) {place : Place}
    (h : operation.place nameOf home s.fs = some place) : place.Below (savesDir home) := by
  apply hsafe.inside _ hname
  cases operation with
  | save session =>
    obtain ⟨fs', hcreate, hresolve⟩ := Option.bind_eq_some_iff.mp h
    rw [prepared, hcreate]
    exact hresolve
  | load name => exact resolve_prepared h
  | delete name => exact resolve_prepared h

theorem isMap_step (hmap : IsMap json home names fs₀ s) (hsafe : Safe home names s.fs)
    {operation : Operation σ} (hname : operation.name nameOf ∈ names) :
    IsMap json home names fs₀ (s.step nameOf json home operation) := by
  have hconfined : ∀ place ∈ (operation.place nameOf home s.fs).toList ++ s.touched,
      place.Below (savesDir home) := by
    intro place hplace
    rcases List.mem_append.mp hplace with hplace | hplace
    · exact place_below hsafe hname (Option.mem_toList.mp hplace)
    · exact hmap.confined place hplace
  cases operation with
  | save session =>
    obtain ⟨hloaded, hframe⟩ := isMap_save hmap hsafe session hname
    exact ⟨hloaded, hconfined, hmap.frame.trans hframe⟩
  | load name => exact ⟨hmap.loaded, hconfined, hmap.frame⟩
  | delete name =>
    obtain ⟨hloaded, hframe⟩ := isMap_delete hmap hsafe name hname
    exact ⟨hloaded, hconfined, hmap.frame.trans hframe⟩

/-- Where no name leads out of the directory and no two lead to the same file, a name
    gives what was last saved under it, and nothing else is touched. -/
theorem saves_store {σ : Type} (nameOf : σ → Text) (json : Codec σ Char) (home : Place)
    (names : Set Text) (s t : Store σ) (operations : List (Operation σ))
    (hstart : (store nameOf json home).start s)
    (hmeets : (store nameOf json home).Meets
      (fun s operation => operation.name nameOf ∈ names ∧ Safe home names s.fs) s operations)
    (hrun : (store nameOf json home).run s operations = some t) :
    IsMap json home names s.fs t := by
  obtain ⟨hsaved, htouched⟩ := hstart
  have hfirst : IsMap json home names s.fs s := by
    refine ⟨fun n _ => by rw [hsaved], ?_, fun _ _ => Or.inl rfl⟩
    rw [htouched]
    intro place hplace
    cases hplace
  refine Machine.run_invariant (I := IsMap json home names s.fs) ?_ hfirst hmeets hrun
  intro u operation v hmap hguard hstep
  obtain rfl := Option.some.inj hstep
  exact isMap_step hmap hguard.2 hguard.1

/-! ### Plain names -/

theorem resolve_of_plain {name : Text} (hname : ∀ c ∈ name, c ≠ '/' ∧ c.toNat ≠ 0)
    (fs : FileSystem) : fs.resolve (savesDir home) (jsonFile name) =
      if fs.IsDirectory (savesDir home) then some (jsonFile name :: savesDir home) else none := by
  have hjson : ∀ c ∈ ".json".toList, c ≠ '/' ∧ c.toNat ≠ 0 := by simp
  have hfile : ∀ c ∈ jsonFile name, c ≠ '/' ∧ c.toNat ≠ 0 := by
    intro c hc
    exact (List.mem_append.mp hc).elim (hname c) (hjson c)
  have hslash : '/' ∉ jsonFile name := fun h => (hfile '/' h).1 rfl
  have hnul : '\x00' ∉ jsonFile name := fun h => (hfile '\x00' h).2 rfl
  have hstart : FileSystem.startOf (savesDir home) (jsonFile name) = savesDir home := by
    unfold FileSystem.startOf
    rw [if_neg]
    intro hhead
    exact hslash (List.mem_of_mem_head? hhead)
  have hchild : (savesDir home).child (jsonFile name) = jsonFile name :: savesDir home := by
    have hlength : 5 ≤ (jsonFile name).length := by
      rw [jsonFile, List.length_append]
      exact Nat.le_add_left _ _
    unfold Place.child
    rw [if_neg, if_neg]
    · intro h
      rw [h] at hlength
      exact absurd hlength (by decide)
    · rintro (h | h) <;> rw [h] at hlength <;> exact absurd hlength (by decide)
  rw [FileSystem.resolve, hstart, components_of_plain hslash]
  by_cases hdir : fs.IsDirectory (savesDir home)
  · rw [if_pos hdir, if_neg (not_or.mpr ⟨hnul, not_not.mpr hdir⟩)]
    change some ((savesDir home).child (jsonFile name)) = _
    rw [hchild]
  · rw [if_neg hdir, if_pos (Or.inr hdir)]

/-- File names are safe, whatever the directories are. -/
theorem safe_of_plain (hnames : ∀ n ∈ names, ∀ c ∈ n, c ≠ '/' ∧ c.toNat ≠ 0) (fs : FileSystem) :
    Safe home names fs where
  inside := by
    intro n hn place h
    rw [resolve_of_plain (hnames n hn)] at h
    split at h
    · obtain rfl := Option.some.inj h
      exact ⟨[jsonFile n], List.cons_ne_nil _ _, rfl⟩
    · cases h
  distinct := by
    intro n hn n' hn' place h h'
    rw [resolve_of_plain (hnames n hn)] at h
    rw [resolve_of_plain (hnames n' hn')] at h'
    split at h
    next hdir =>
      rw [if_pos hdir] at h'
      have hsame := Option.some.inj (h.trans h'.symm)
      exact List.append_cancel_right (List.cons.inj hsame).1
    · cases h

/-! ### Other names -/

namespace Disk

def homeDir : Place := ["u".toList]

/-- `config.json` -/
def configPlace : Place := "config.json".toList :: settingsDir homeDir

/-- The settings are there, and nothing has been saved. -/
def disk : FileSystem :=
  ((FileSystem.empty.createDirAll (settingsDir homeDir)).bind fun fs =>
    fs.write configPlace (utf8 "\x7b\x7d".toList)).getD FileSystem.empty

/-- A session with any name. -/
def session (name : Text) : Text × SessionConfig where
  fst := name
  snd := {
    name := ⟨"a".toList, by simp⟩
    port := 3000
    subdomain := none
    domain := "b.co".toList
    key := none
    useTls := false
    wildcard := false
    localHost := "localhost".toList
    ctrlHost := none
    ctrlPort := 5000
    tls := true
    dashboardPort := none }

/-- The session "a" as it is written. -/
def sessionLines : List String :=
  ["\x7b", "  \"name\": \"a\",", "  \"port\": 3000,", "  \"subdomain\": null,",
    "  \"domain\": \"b.co\",", "  \"key\": null,", "  \"use_tls\": false,",
    "  \"wildcard\": false,", "  \"local_host\": \"localhost\",", "  \"ctrl_host\": null,",
    "  \"ctrl_port\": 5000,", "  \"tls\": true,", "  \"dashboard_port\": null", "\x7d"]

instance : Encodable FileName :=
  Encodable.ofLeftInjection FileName.text
    (fun text =>
      if h : (text.all fun c => decide (c ≠ '/' ∧ c.toNat ≠ 0)) = true then
        some ⟨text, fun c hc => of_decide_eq_true (List.all_eq_true.mp h c hc)⟩
      else none)
    fun name => dif_pos (List.all_eq_true.mpr fun c hc => decide_eq_true (name.plain c hc))

instance : Encodable SessionConfig :=
  Encodable.ofLeftInverse
    (fun s => (s.name, s.port, s.subdomain, s.domain, s.key, s.useTls, s.wildcard, s.localHost,
      s.ctrlHost, s.ctrlPort, s.tls, s.dashboardPort))
    (fun (name, port, subdomain, domain, key, useTls, wildcard, localHost, ctrlHost, ctrlPort, tls,
      dashboardPort) => ⟨name, port, subdomain, domain, key, useTls, wildcard, localHost, ctrlHost,
        ctrlPort, tls, dashboardPort⟩)
    fun _ => rfl

def serde : Codec (Text × SessionConfig) Char :=
  .known (session "a".toList) ((sessionLines.map String.toList).intersperse ['\n']).flatten '1'
    ⟨'\x7b', by decide, by decide⟩

def start : Store (Text × SessionConfig) := ⟨disk, loadSession serde homeDir disk, []⟩

end Disk

open Disk in
/-- The names "a" and "b" are two entries of the map. -/
theorem saves_store_plain :
    ∃ t, (store Prod.fst serde homeDir).run start
        [.save (session "a".toList), .delete "b".toList] = some t ∧
      t.saved "a".toList = some (session "a".toList) ∧ t.saved "b".toList = none ∧
      loadSession serde homeDir t.fs "a".toList = t.saved "a".toList ∧
      loadSession serde homeDir t.fs "b".toList = t.saved "b".toList ∧ Frame homeDir disk t.fs := by
  have hsafe : ∀ fs, Safe homeDir {"a".toList, "b".toList} fs := by
    apply safe_of_plain
    rintro n (rfl | rfl) <;> simp
  have hmap := saves_store Prod.fst serde homeDir {"a".toList, "b".toList} start _
    [.save (session "a".toList), .delete "b".toList] ⟨rfl, rfl⟩
    ⟨⟨Or.inl rfl, hsafe _⟩, fun _ _ => ⟨⟨Or.inr rfl, hsafe _⟩, fun _ _ => trivial⟩⟩ rfl
  exact ⟨_, rfl, rfl, rfl, hmap.loaded _ (Or.inl rfl), hmap.loaded _ (Or.inr rfl), hmap.frame⟩

open Disk in
/-- A session "../config" replaces the settings, and one that is saved as "a" is there
    as "./a". -/
theorem saves_no_map :
    (∃ t, (store Prod.fst serde homeDir).run start [.save (session "../config".toList)] = some t ∧
      disk.node configPlace = some (.file (utf8 "\x7b\x7d".toList)) ∧
      t.fs.node configPlace =
        some (.file (utf8 (serde.encode (session "../config".toList))))) ∧
    ∃ t, (store Prod.fst serde homeDir).run start [.save (session "a".toList)] = some t ∧
      t.saved "./a".toList = none ∧
      loadSession serde homeDir t.fs "./a".toList = some (session "a".toList) := by
  let t := start.step Prod.fst serde homeDir (.save (session "a".toList))
  refine ⟨⟨_, rfl, rfl, rfl⟩, t, rfl, rfl, ?_⟩
  have hresolve : t.fs.resolve (savesDir homeDir) (jsonFile "./a".toList) =
      some ("a.json".toList :: savesDir homeDir) := rfl
  exact loadSession_of_file hresolve rfl

end Saves

end Neutun.Cli
