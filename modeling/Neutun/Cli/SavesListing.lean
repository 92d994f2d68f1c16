/-
  Neutun/Cli/SavesListing.lean
  ============================
  All saved sessions (`list_sessions` in `saved_config.rs`), and the choice of one
  (`run_restore` in `interactive.rs`).

  A saved session is loaded by its name, but listed by what is in the directory.
  With plain names the two agree but for one name: the file of the session ""
  is ".json", which has no extension (`saves_listed`).
-/
import Neutun.Cli.Config
import Neutun.Cli.Migration
import Neutun.Cli.Saves
import Neutun.Server.ClientIp

namespace Neutun.Cli

open Foundation

/-- A file name: `/` and NUL are in none. -/
def IsFileName (name : Text) : Prop := ∀ c ∈ name, c ≠ '/' ∧ c.toNat ≠ 0

/-- A number may start with a plus sign. -/
def withoutPlus : Text → Text
  | '+' :: rest => rest
  | s => s

/-- `str::parse::<usize>`, with words of 64 bits -/
def parseUsize (s : Text) : Option Nat :=
  let digits := withoutPlus s
  if digits ≠ [] ∧ digits.all Char.isDigit = true then
    let n := Nat.ofDigitChars 10 digits 0
    if n < UInt64.size then some n else none
  else none

namespace Saves

section

variable {σ : Type} (json : Codec σ Char) (home : Place)

/-- The names are what `read_dir` gives. -/
def listSessions (fs : FileSystem) (names : List Text) : List σ :=
  if fs.node (savesDir home) = none then [] else fs.valuesIn json (savesDir home) isJson names

end

/-- `run_restore`, with what is typed; without a session the program exits. -/
def runRestore {σ : Type} (sessions : List σ) (selection : Text) : Option σ :=
  let idx := (parseUsize (getInput "1".toList (trim selection))).getD 1
  sessions[min (idx - 1) (sessions.length - 1)]?

variable {σ : Type} {nameOf : σ → Text} {json : Codec σ Char} {home : Place} {fs : FileSystem}
  {s t : Store σ} {operations : List (Operation σ)} {names : List Text}

/-! ### Listing -/

/-- The name without its extension. -/
def stem (name : Text) : Text := name.take (name.length - 5)

theorem stem_jsonFile (name : Text) : stem (jsonFile name) = name := by
  have hlength : (jsonFile name).length - 5 = name.length := by
    rw [jsonFile, List.length_append]
    exact Nat.add_sub_cancel _ _
  rw [stem, hlength, jsonFile, List.take_left]

theorem listSessions_eq (fs : FileSystem) (names : List Text) :
    listSessions json home fs names = fs.valuesIn json (savesDir home) isJson names := by
  unfold listSessions
  split
  next hnone =>
    symm
    apply FileSystem.valuesIn_eq_nil
    change fs.node (savesDir home) ≠ _
    rw [hnone]
    exact nofun
  · rfl

/-- A file of the directory is read by its name as by its path. -/
theorem valueIn_jsonFile {name : Text} (hname : IsFileName name) (fs : FileSystem) :
    fs.valueIn json (savesDir home) (jsonFile name) = loadSession json home fs name := by
  rw [loadSession, resolve_of_plain hname]
  by_cases hdir : fs.IsDirectory (savesDir home)
  · rw [if_pos hdir, FileSystem.valueIn, FileSystem.read]
    dsimp only
    cases fs.node (jsonFile name :: savesDir home) with
    | none => rfl
    | some node =>
      cases node with
      | directory => rfl
      | file bytes => rfl
  · have hnode : fs.node (jsonFile name :: savesDir home) = none :=
      FileSystem.node_of_below hdir ⟨[jsonFile name], List.cons_ne_nil _ _, rfl⟩
    rw [if_neg hdir, FileSystem.valueIn, FileSystem.read, hnode]
    rfl

/-- The files of a sequence of operations under plain names are a map. -/
theorem isMap_of_plain (hstart : (store nameOf json home).start s)
    (hplain : ∀ operation ∈ operations, IsFileName (operation.name nameOf))
    (hrun : (store nameOf json home).run s operations = some t) :
    IsMap json home {n | IsFileName n} s.fs t := by
  obtain ⟨hsaved, htouched⟩ := hstart
  have hfirst : IsMap json home {n | IsFileName n} s.fs s := by
    refine ⟨fun n _ => by rw [hsaved], ?_, fun _ _ => Or.inl rfl⟩
    rw [htouched]
    exact nofun
  have hmeets : (store nameOf json home).Meets
      (fun _ operation => IsFileName (operation.name nameOf)) s operations :=
    Machine.meets_of_mem fun operation h _ => hplain operation h
  refine Machine.run_invariant (I := IsMap json home {n | IsFileName n} s.fs) ?_ hfirst hmeets
    hrun
  intro u operation v hmap hname hstep
  obtain rfl := Option.some.inj hstep
  exact isMap_step hmap (safe_of_plain (fun _ hn => hn) u.fs) hname

theorem mem_stems {name : Text} (h : name ∈ names.filter isJson) :
    jsonFile (stem name) = name ∧ stem name ≠ [] := by
  obtain ⟨n, hn, rfl⟩ := isJson_iff.mp (List.mem_filter.mp h).2
  rw [stem_jsonFile]
  exact ⟨rfl, hn⟩

theorem isFileName_of_jsonFile {name : Text} (h : IsFileName (jsonFile name)) : IsFileName name :=
  fun c hc => h c (List.mem_append_left _ hc)

/-- What a listing of the sessions is, where the files are a map. -/
theorem listing_spec (hmap : ∀ n, IsFileName n → loadSession json home fs n = t.saved n)
    (hlists : fs.Lists (savesDir home) names) (hnames : ∀ name ∈ names, IsFileName name) :
    ∃ keys : List Text, keys.Nodup ∧
      (∀ n, n ∈ keys ↔ n ≠ [] ∧ IsFileName n ∧ t.saved n ≠ none) ∧
      listSessions json home fs names = keys.filterMap t.saved := by
  have hplain : ∀ name ∈ names.filter isJson, IsFileName (stem name) := by
    intro name hname
    apply isFileName_of_jsonFile
    rw [(mem_stems hname).1]
    exact hnames name (List.mem_filter.mp hname).1
  refine ⟨((names.filter isJson).map stem).filter fun n => (t.saved n).isSome, ?_, ?_, ?_⟩
  · refine List.Nodup.filter _ (List.Nodup.map_on ?_ (hlists.nodup.filter _))
    intro name hname name' hname' hsame
    rw [← (mem_stems hname).1, ← (mem_stems hname').1, hsame]
  · intro n
    rw [List.mem_filter, List.mem_map, Option.isSome_iff_ne_none]
    constructor
    · rintro ⟨⟨name, hname, rfl⟩, hsaved⟩
      exact ⟨(mem_stems hname).2, hplain name hname, hsaved⟩
    · rintro ⟨hne, hn, hsaved⟩
      refine ⟨⟨jsonFile n, List.mem_filter.mpr ⟨?_, isJson_iff.mpr ⟨n, hne, rfl⟩⟩,
        stem_jsonFile n⟩, hsaved⟩
      rw [hlists.mem]
      intro hnone
      rw [← hmap n hn, ← valueIn_jsonFile hn, FileSystem.valueIn, FileSystem.read, hnone] at hsaved
      exact hsaved rfl
  · have hsome : ∀ keys : List Text,
        (keys.filter fun n => (t.saved n).isSome).filterMap t.saved = keys.filterMap t.saved := by
      intro keys
      rw [List.filterMap_filter]
      apply List.filterMap_congr
      intro n _
      cases t.saved n with
      | none => rfl
      | some session => rfl
    rw [listSessions_eq, FileSystem.valuesIn, hsome, List.filterMap_map]
    apply List.filterMap_congr
    intro name hname
    have hvalue : fs.valueIn json (savesDir home) (jsonFile (stem name)) =
        loadSession json home fs (stem name) := valueIn_jsonFile (hplain name hname) fs
    rw [(mem_stems hname).1, hmap _ (hplain name hname)] at hvalue
    exact hvalue

/-- A new file is listed with the others. -/
theorem lists_saveSession {session : σ} {fs' : FileSystem} (hname : IsFileName (nameOf session))
    (hlists : fs.Lists (savesDir home) names) (hnew : jsonFile (nameOf session) ∉ names)
    (hok : saveSession nameOf json home fs session = (fs', true)) :
    fs'.Lists (savesDir home) (jsonFile (nameOf session) :: names) := by
  rcases saveSession_cases json fs session with ⟨place, fs'', hresolve, -, hsave, hnode⟩ | hsave
  · obtain ⟨rfl, -⟩ := Prod.mk.inj (hok.symm.trans hsave)
    rw [resolve_of_plain hname] at hresolve
    split at hresolve
    · obtain rfl := Option.some.inj hresolve
      refine ⟨List.nodup_cons.mpr ⟨hnew, hlists.nodup⟩, ?_⟩
      intro name
      have hbelow : Place.Below (name :: savesDir home) (savesDir home) :=
        ⟨[name], List.cons_ne_nil _ _, rfl⟩
      rw [hnode, Function.update_apply, List.mem_cons]
      by_cases hsame : name = jsonFile (nameOf session)
      · simp [hsame]
      · rw [if_neg fun h => hsame (List.cons.inj h).1, hlists.mem,
          prepared_node_of_below hbelow]
        exact or_iff_right hsame
    · cases hresolve
  · cases hok.symm.trans hsave

end Saves

open Saves

/-- After any operations under plain names, a listing gives what was last saved under
    each name and not deleted since, each once, and leaves out the name "", which is
    loaded like the others. -/
theorem saves_listed {σ : Type} (nameOf : σ → Text) (json : Codec σ Char) (home : Place)
    (s t : Store σ) (operations : List (Operation σ)) (names : List Text)
    (hstart : (store nameOf json home).start s)
    (hplain : ∀ operation ∈ operations, IsFileName (operation.name nameOf))
    (hrun : (store nameOf json home).run s operations = some t)
    (hlists : t.fs.Lists (savesDir home) names) (hnames : ∀ name ∈ names, IsFileName name) :
    ∃ keys : List Text, keys.Nodup ∧
      (∀ n, n ∈ keys ↔ n ≠ [] ∧ IsFileName n ∧ t.saved n ≠ none) ∧
      listSessions json home t.fs names = keys.filterMap t.saved ∧
      ∀ n, n = [] ∨ n ∈ keys → loadSession json home t.fs n = t.saved n := by
  have hloaded : ∀ n, IsFileName n → loadSession json home t.fs n = t.saved n :=
    fun n hn => (isMap_of_plain hstart hplain hrun).loaded n hn
  obtain ⟨keys, hnodup, hkeys, hlisted⟩ := listing_spec hloaded hlists hnames
  refine ⟨keys, hnodup, hkeys, hlisted, ?_⟩
  rintro n (rfl | hn)
  · exact hloaded [] (List.forall_mem_nil _)
  · exact hloaded n ((hkeys n).mp hn).2.1

namespace Saves.Disk

/-- The sessions "a" and "" are saved. -/
def twice : List (Operation (Text × SessionConfig)) :=
  [.save (session "a".toList), .save (session [])]

theorem plain_a : IsFileName "a".toList := by simp [IsFileName]

theorem twice_plain : ∀ operation ∈ twice, IsFileName (operation.name Prod.fst) := by
  intro operation h
  rcases List.mem_cons.mp h with rfl | h
  · exact plain_a
  · obtain rfl := List.mem_singleton.mp h
    exact nofun

theorem disk_lists : disk.Lists (savesDir homeDir) [] where
  nodup := .nil
  mem _ := by
    refine iff_of_false nofun (not_not.mpr ?_)
    exact FileSystem.node_of_below (by decide) ⟨[_], List.cons_ne_nil _ _, rfl⟩

theorem twice_runs : ∃ t, (store Prod.fst serde homeDir).run start twice = some t ∧
    t.saved "a".toList = some (session "a".toList) ∧ t.saved [] = some (session []) ∧
    t.fs.Lists (savesDir homeDir) [".json".toList, "a.json".toList] := by
  let fs := (saveSession Prod.fst serde homeDir disk (session "a".toList)).1
  have hfirst : saveSession Prod.fst serde homeDir disk (session "a".toList) = (fs, true) := rfl
  have hsecond : saveSession Prod.fst serde homeDir fs (session []) =
      ((saveSession Prod.fst serde homeDir fs (session [])).1, true) := rfl
  have hlists : fs.Lists (savesDir homeDir) ["a.json".toList] := by
    refine lists_saveSession ?_ disk_lists List.not_mem_nil hfirst
    exact plain_a
  refine ⟨_, rfl, rfl, rfl, ?_⟩
  refine lists_saveSession ?_ hlists (by decide) hsecond
  exact List.forall_mem_nil _

theorem twice_names : ∀ name ∈ [".json".toList, "a.json".toList], IsFileName name := by
  simp [IsFileName]

end Saves.Disk

open Saves.Disk in
/-- Of the sessions "a" and "" the first is listed, and the second only loaded. -/
theorem saves_listed_twice :
    ∃ (t : _) (keys : List Text), (store Prod.fst serde homeDir).run start twice = some t ∧
      loadSession serde homeDir t.fs [] = some (session []) ∧ keys.Nodup ∧
      "a".toList ∈ keys ∧ [] ∉ keys ∧
      listSessions serde homeDir t.fs [".json".toList, "a.json".toList] =
        keys.filterMap t.saved := by
  obtain ⟨t, hrun, hsaved, hunnamed, hlists⟩ := twice_runs
  obtain ⟨keys, hnodup, hkeys, hlisted, hloaded⟩ :=
    saves_listed Prod.fst serde homeDir start t twice
      [".json".toList, "a.json".toList] ⟨rfl, rfl⟩ twice_plain hrun hlists twice_names
  refine ⟨t, keys, hrun, (hloaded [] (Or.inl rfl)).trans hunnamed, hnodup, ?_, ?_, hlisted⟩
  · exact (hkeys _).mpr ⟨by decide, plain_a, by rw [hsaved]; exact nofun⟩
  · intro h
    exact ((hkeys []).mp h).1 rfl

/-! ### Choosing -/

theorem trim_toDigits (n : Nat) : trim (Nat.toDigits 10 n) = Nat.toDigits 10 n := by
  apply trim_eq_self
  intro c hc
  have hdigit : c.isDigit = true := Nat.isDigit_of_mem_toDigits (by decide) (by decide) hc
  rw [Char.isDigit_iff_toNat] at hdigit
  change 48 ≤ c.toNat ∧ c.toNat ≤ 57 at hdigit
  simp only [isWhitespace, decide_eq_false_iff_not]
  omega

/-- A number that is typed is read as that number. -/
theorem parseUsize_toDigits {n : Nat} (hn : n < UInt64.size) :
    parseUsize (Nat.toDigits 10 n) = some n := by
  have hdigit : ∀ c ∈ Nat.toDigits 10 n, c.isDigit = true :=
    fun c hc => Nat.isDigit_of_mem_toDigits (by decide) (by decide) hc
  have hplus : withoutPlus (Nat.toDigits 10 n) = Nat.toDigits 10 n := by
    unfold withoutPlus
    split
    next rest h =>
      have hmem : '+' ∈ Nat.toDigits 10 n := by rw [h]; exact List.mem_cons_self
      exact absurd (hdigit '+' hmem) (by decide)
    · rfl
  have hdigits : Nat.toDigits 10 n ≠ [] ∧ (Nat.toDigits 10 n).all Char.isDigit = true :=
    ⟨Nat.toDigits_ne_nil, List.all_eq_true.mpr hdigit⟩
  simp only [parseUsize, hplus, if_pos hdigits, Nat.ofDigitChars_ten_toDigits, if_pos hn]

namespace Saves

variable {σ : Type} {sessions : List σ}

/-- Whatever is typed, some session is chosen. -/
theorem runRestore_ne_none (hne : sessions ≠ []) (selection : Text) :
    ∃ session ∈ sessions, runRestore sessions selection = some session := by
  have hlength := List.length_pos_iff.mpr hne
  have hlt : min ((parseUsize (getInput "1".toList (trim selection))).getD 1 - 1)
      (sessions.length - 1) < sessions.length := by omega
  exact ⟨_, List.getElem_mem hlt, List.getElem?_eq_getElem hlt⟩

/-- The number shown with a session chooses it. -/
theorem runRestore_shown {k : Nat} (hk : k < sessions.length)
    (hshort : sessions.length < UInt64.size) :
    runRestore sessions (Nat.toDigits 10 (k + 1)) = sessions[k]? := by
  have hinput : getInput "1".toList (Nat.toDigits 10 (k + 1)) = Nat.toDigits 10 (k + 1) :=
    if_neg Nat.toDigits_ne_nil
  have hidx : min k (sessions.length - 1) = k := by omega
  unfold runRestore
  rw [trim_toDigits, hinput, parseUsize_toDigits (by omega)]
  simp only [Option.getD_some, Nat.add_sub_cancel, hidx]

end Saves

/-- After any operations under plain names, `run_restore` gives a session that is
    saved, whatever is typed, and each one, unless its name is "", for the number that
    is shown with it in the listing. -/
theorem restore_reaches {σ : Type} (nameOf : σ → Text) (json : Codec σ Char) (home : Place)
    (s t : Store σ) (operations : List (Operation σ)) (names : List Text)
    (hstart : (store nameOf json home).start s)
    (hplain : ∀ operation ∈ operations, IsFileName (operation.name nameOf))
    (hrun : (store nameOf json home).run s operations = some t)
    (hlists : t.fs.Lists (savesDir home) names) (hnames : ∀ name ∈ names, IsFileName name)
    (hshort : names.length < UInt64.size) :
    (∀ n session, n ≠ [] → IsFileName n → t.saved n = some session →
      ∃ k : Nat, (listSessions json home t.fs names)[k]? = some session) ∧
    (∀ (k : Nat) (session : σ), (listSessions json home t.fs names)[k]? = some session →
      runRestore (listSessions json home t.fs names) (Nat.toDigits 10 (k + 1)) = some session) ∧
    ∀ typed, match runRestore (listSessions json home t.fs names) typed with
      | some session => ∃ n, n ≠ [] ∧ IsFileName n ∧ t.saved n = some session
      | none => ∀ n, n ≠ [] → IsFileName n → t.saved n = none := by
  obtain ⟨keys, -, hkeys, hlisted⟩ :=
    listing_spec (fun n hn => (isMap_of_plain hstart hplain hrun).loaded n hn) hlists hnames
  have hmem : ∀ session, session ∈ listSessions json home t.fs names ↔
      ∃ n, n ≠ [] ∧ IsFileName n ∧ t.saved n = some session := by
    intro session
    rw [hlisted, List.mem_filterMap]
    constructor
    · rintro ⟨n, hn, hsaved⟩
      obtain ⟨hne, hplain, -⟩ := (hkeys n).mp hn
      exact ⟨n, hne, hplain, hsaved⟩
    · rintro ⟨n, hne, hplain, hsaved⟩
      exact ⟨n, (hkeys n).mpr ⟨hne, hplain, by rw [hsaved]; exact nofun⟩, hsaved⟩
  have hfew : (listSessions json home t.fs names).length ≤ names.length := by
    rw [listSessions_eq, FileSystem.valuesIn]
    exact (List.length_filterMap_le _ _).trans (List.length_filter_le _ _)
  refine ⟨?_, ?_, ?_⟩
  · intro n session hne hn hsaved
    exact List.mem_iff_getElem?.mp ((hmem session).mpr ⟨n, hne, hn, hsaved⟩)
  · intro k session hshown
    obtain ⟨hk, -⟩ := List.getElem?_eq_some_iff.mp hshown
    rw [runRestore_shown hk (Nat.lt_of_le_of_lt hfew hshort), hshown]
  · intro typed
    by_cases hempty : listSessions json home t.fs names = []
    · rw [hempty]
      intro n hne hn
      by_contra hsaved
      obtain ⟨session, hsession⟩ := Option.ne_none_iff_exists'.mp hsaved
      have hlisted := (hmem session).mpr ⟨n, hne, hn, hsession⟩
      rw [hempty] at hlisted
      cases hlisted
    · obtain ⟨session, hsession, hchosen⟩ := runRestore_ne_none hempty typed
      rw [hchosen]
      exact (hmem session).mp hsession

open Saves.Disk in
theorem restore_reaches_twice :
    ∃ t, (store Prod.fst serde homeDir).run start twice = some t ∧
      ∃ k : Nat, (listSessions serde homeDir t.fs [".json".toList, "a.json".toList])[k]? =
          some (session "a".toList) ∧
        runRestore (listSessions serde homeDir t.fs [".json".toList, "a.json".toList])
          (Nat.toDigits 10 (k + 1)) = some (session "a".toList) := by
  obtain ⟨t, hrun, hsaved, -, hlists⟩ := twice_runs
  have hreaches := restore_reaches Prod.fst serde homeDir start t twice
    [".json".toList, "a.json".toList] ⟨rfl, rfl⟩ twice_plain hrun hlists twice_names (by decide)
  obtain ⟨k, hshown⟩ := hreaches.1 _ _ (by decide) plain_a hsaved
  exact ⟨t, hrun, k, hshown, hreaches.2.1 k _ hshown⟩

end Neutun.Cli
