/-
  Neutun/Cli/ConfigFile.lean
  ==========================
  The text of `config.json` under the setters of `neutun config`
  (`handle_config_action` in `main.rs`, `load_config` and `save_config`).

  A setter loads the settings, or takes the defaults, and writes the file anew.
  A file that does not parse is no different from one that is not there, so the
  first setter destroys it (`config_setters_iff`).
-/
import Neutun.Foundation.Codec
import Neutun.Cli.Migration

namespace Neutun.Cli

open Foundation

/-! ### The file -/

/-- A file that is there; it may be one that cannot be read. -/
structure File where
  bytes : Bytes
  readable : Bool
deriving DecidableEq

/-- `fs::read_to_string` -/
def File.readToString (file : File) : Option Text :=
  if file.readable then fromUtf8 file.bytes else none

/-- `fs::write`, where it succeeds -/
def writeFile (file : Option File) (text : Text) : File :=
  ⟨utf8 text, (file.map File.readable).getD true⟩

namespace ConfigFile

-- serde for `NeutunConfig`
variable (json : Codec NeutunConfig Char) (p : Platform)

def loadConfig (file : Option File) : Option NeutunConfig :=
  file.bind fun f => f.readToString.bind json.decode

def saveConfig (file : Option File) (config : NeutunConfig) : Option File :=
  some (writeFile file (json.encode config))

def handleConfigAction (file : Option File) (action : ConfigAction) : Option File :=
  saveConfig json file (action.set p ((loadConfig json file).getD NeutunConfig.default))

/-- One setter after the other. -/
def setters (file : Option File) (actions : List ConfigAction) : Option File :=
  actions.foldl (handleConfigAction json p) file

variable {json p}

theorem loadConfig_saveConfig (file : Option File) (config : NeutunConfig) :
    loadConfig json (saveConfig json file config) =
      if (file.map File.readable).getD true then some config else none := by
  simp only [saveConfig, loadConfig, Option.bind_some, File.readToString, writeFile]
  cases (file.map File.readable).getD true with
  | true => simp
  | false => rfl

end ConfigFile

/-! ### Single values -/

inductive ConfigField where
  | host
  | ctrlHost
  | ctrlPort
  | tls
  | port
  | key
deriving DecidableEq

def ConfigAction.field : ConfigAction → ConfigField
  | .host _ => .host
  | .ctrlHost _ => .ctrlHost
  | .ctrlPort _ => .ctrlPort
  | .tls _ => .tls
  | .port _ => .port
  | .key _ => .key

/-- Two configurations have the same value there. -/
def NeutunConfig.SameAt (c c' : NeutunConfig) : ConfigField → Prop
  | .host => c.host = c'.host
  | .ctrlHost => c.ctrlHost = c'.ctrlHost
  | .ctrlPort => c.ctrlPort = c'.ctrlPort
  | .tls => c.tls = c'.tls
  | .port => c.port = c'.port
  | .key => c.key = c'.key

namespace ConfigAction

variable {p : Platform}

/-- A setter changes its own field only. -/
theorem set_sameAt_of_ne {action : ConfigAction} {field : ConfigField} (h : action.field ≠ field)
    (c : NeutunConfig) : (action.set p c).SameAt c field := by
  cases action <;> cases field <;> first | rfl | exact absurd rfl h

end ConfigAction

theorem NeutunConfig.SameAt.trans {c c' c'' : NeutunConfig} {field : ConfigField}
    (h : c.SameAt c' field) (h' : c'.SameAt c'' field) : c.SameAt c'' field := by
  cases field <;> exact Eq.trans h h'

/-- A field that no setter is for keeps its value. -/
theorem foldl_set_sameAt {p : Platform} {actions : List ConfigAction} {field : ConfigField}
    (h : ∀ action ∈ actions, action.field ≠ field) (c : NeutunConfig) :
    (actions.foldl (fun c action => ConfigAction.set p c action) c).SameAt c field := by
  induction actions generalizing c with
  | nil => cases field <;> rfl
  | cons action rest ih =>
    have hrest := ih (fun a ha => h a (List.mem_cons_of_mem _ ha)) (action.set p c)
    exact hrest.trans (ConfigAction.set_sameAt_of_ne (h action List.mem_cons_self) c)

/-! ### Sequences of setters -/

namespace ConfigFile

variable (json : Codec NeutunConfig Char) (p : Platform)

/-- A setter keeps the rest of a file that parses, and all of one that does not. -/
structure Kept (file : Option File) (action : ConfigAction) : Prop where
  parsed : ∀ c, loadConfig json file = some c →
    loadConfig json (handleConfigAction json p file action) = some (action.set p c)
  broken : ∀ f, file = some f → loadConfig json file = none →
    handleConfigAction json p file action = file

/-- A value that is in the file after some of the setters is there in the end, unless
    one of the others is for its field. -/
def NothingLost (file : Option File) (actions : List ConfigAction) : Prop :=
  ∀ before after, actions = before ++ after →
    ∀ c, loadConfig json (setters json p file before) = some c →
      ∃ c', loadConfig json (setters json p file actions) = some c' ∧
        ∀ field, (∀ action ∈ after, action.field ≠ field) → c'.SameAt c field

variable {json p}

theorem readable_of_loadConfig {file : Option File} {c : NeutunConfig}
    (h : loadConfig json file = some c) : (file.map File.readable).getD true = true := by
  cases file with
  | none => rfl
  | some f =>
    cases hf : f.readable with
    | true => simp [hf]
    | false => simp [loadConfig, File.readToString, hf] at h

theorem handleConfigAction_of_loadConfig {file : Option File} {c : NeutunConfig}
    (h : loadConfig json file = some c) (action : ConfigAction) :
    loadConfig json (handleConfigAction json p file action) = some (action.set p c) := by
  rw [handleConfigAction, loadConfig_saveConfig, readable_of_loadConfig h, h]
  rfl

/-- Setters on a file that parses are setters on the settings. -/
theorem setters_of_loadConfig {file : Option File} {c : NeutunConfig}
    (h : loadConfig json file = some c) (actions : List ConfigAction) :
    loadConfig json (setters json p file actions) =
      some (actions.foldl (fun c action => ConfigAction.set p c action) c) := by
  induction actions generalizing file c with
  | nil => exact h
  | cons action rest ih => exact ih (handleConfigAction_of_loadConfig h action)

theorem setters_append (file : Option File) (before after : List ConfigAction) :
    setters json p file (before ++ after) = setters json p (setters json p file before) after :=
  List.foldl_append

theorem nothingLost (file : Option File) (actions : List ConfigAction) :
    NothingLost json p file actions := by
  rintro before after rfl c hc
  rw [setters_append, setters_of_loadConfig hc]
  exact ⟨_, rfl, fun field hfield => foldl_set_sameAt hfield c⟩

/-- The file is one that a setter can do no harm to. -/
def Sound (json : Codec NeutunConfig Char) (file : Option File) : Prop :=
  file = none ∨ (loadConfig json file).isSome = true

theorem Sound.kept {file : Option File} (h : Sound json file) (action : ConfigAction) :
    Kept json p file action where
  parsed _ hc := handleConfigAction_of_loadConfig hc action
  broken := by
    rintro f rfl hnone
    rcases h with h | h
    · cases h
    · rw [hnone] at h
      cases h

theorem Sound.setters {file : Option File} (h : Sound json file) (actions : List ConfigAction) :
    Sound json (ConfigFile.setters json p file actions) := by
  induction actions generalizing file with
  | nil => exact h
  | cons action rest ih =>
    apply ih
    right
    rcases h with rfl | h
    · rw [handleConfigAction, loadConfig_saveConfig]
      rfl
    · obtain ⟨c, hc⟩ := Option.isSome_iff_exists.mp h
      rw [handleConfigAction_of_loadConfig hc]
      rfl

/-- A file that no setter of the sequence changes stays as it is. -/
theorem setters_of_fixed {file : Option File} {actions : List ConfigAction}
    (h : ∀ action ∈ actions, handleConfigAction json p file action = file) :
    setters json p file actions = file := by
  induction actions with
  | nil => rfl
  | cons action rest ih =>
    change setters json p (handleConfigAction json p file action) rest = file
    rw [h action List.mem_cons_self]
    exact ih fun a ha => h a (List.mem_cons_of_mem _ ha)

/-- If every setter keeps a broken file, none changes it. -/
theorem fixed_of_kept {f : File} {actions : List ConfigAction}
    (hbroken : loadConfig json (some f) = none)
    (h : ∀ before action after, actions = before ++ action :: after →
      Kept json p (setters json p (some f) before) action) :
    ∀ action ∈ actions, handleConfigAction json p (some f) action = some f := by
  induction actions with
  | nil =>
    intro action haction
    cases haction
  | cons action rest ih =>
    have hfirst : handleConfigAction json p (some f) action = some f :=
      (h [] action rest rfl).broken f rfl hbroken
    intro a ha
    rcases List.mem_cons.mp ha with rfl | ha
    · exact hfirst
    · refine ih ?_ a ha
      rintro before a' after rfl
      have hkept := h (action :: before) a' after rfl
      change Kept json p (setters json p (handleConfigAction json p (some f) action) before) a'
        at hkept
      rwa [hfirst] at hkept

/-- A broken file stays as it is if it cannot be read and is what is written. -/
theorem handleConfigAction_eq_self_iff {f : File} (hbroken : loadConfig json (some f) = none)
    (action : ConfigAction) : handleConfigAction json p (some f) action = some f ↔
      f.readable = false ∧ f.bytes = utf8 (json.encode (action.set p NeutunConfig.default)) := by
  have hwritten : handleConfigAction json p (some f) action =
      some ⟨utf8 (json.encode (action.set p NeutunConfig.default)), f.readable⟩ := by
    rw [handleConfigAction, hbroken]
    rfl
  constructor
  · intro h
    have hload : loadConfig json (handleConfigAction json p (some f) action) = _ :=
      loadConfig_saveConfig (some f) _
    rw [h, hbroken] at hload
    rw [hwritten] at h
    refine ⟨?_, (congrArg File.bytes (Option.some.inj h)).symm⟩
    cases hf : f.readable with
    | false => rfl
    | true => simp [hf] at hload
  · rintro ⟨-, hbytes⟩
    rw [hwritten, ← hbytes]

/-- The setters keep what they are not for if and only if the file parses or is not
    there to begin with (or no setter would change it). -/
theorem config_setters_iff (json : Codec NeutunConfig Char) (p : Platform) (file : Option File)
    (actions : List ConfigAction) :
    ((∀ before action after, actions = before ++ action :: after →
        Kept json p (setters json p file before) action) ∧ NothingLost json p file actions) ↔
      actions = [] ∨ file = none ∨ (loadConfig json file).isSome = true ∨
        ∃ f, file = some f ∧ f.readable = false ∧ ∀ action ∈ actions,
          f.bytes = utf8 (json.encode (action.set p NeutunConfig.default)) := by
  rw [and_iff_left (nothingLost file actions)]
  constructor
  · intro h
    cases file with
    | none => exact Or.inr (Or.inl rfl)
    | some f =>
      cases hload : loadConfig json (some f) with
      | some c => exact Or.inr (Or.inr (Or.inl rfl))
      | none =>
        cases actions with
        | nil => exact Or.inl rfl
        | cons action rest =>
          have hfixed := fixed_of_kept hload h
          have hfirst := (handleConfigAction_eq_self_iff hload action).mp
            (hfixed action List.mem_cons_self)
          refine Or.inr (Or.inr (Or.inr ⟨f, rfl, hfirst.1, ?_⟩))
          intro a ha
          exact ((handleConfigAction_eq_self_iff hload a).mp (hfixed a ha)).2
  · intro h before action after hactions
    subst hactions
    rcases h with h | h | h | ⟨f, rfl, hreadable, hbytes⟩
    · exact absurd h (by simp)
    · exact Sound.kept (Sound.setters (Or.inl h) before) action
    · exact Sound.kept (Sound.setters (Or.inr h) before) action
    · have hload : loadConfig json (some f) = none := by
        simp [loadConfig, File.readToString, hreadable]
      have hfixed : ∀ a ∈ before ++ action :: after,
          handleConfigAction json p (some f) a = some f :=
        fun a ha => (handleConfigAction_eq_self_iff hload a).mpr ⟨hreadable, hbytes a ha⟩
      rw [setters_of_fixed fun a ha => hfixed a (List.mem_append_left _ ha)]
      refine ⟨?_, fun _ _ _ => hfixed action (by simp)⟩
      intro c hc
      rw [hload] at hc
      cases hc

namespace Truncated

instance : Encodable NeutunConfig :=
  Encodable.ofLeftInverse
    (fun c => (c.host, c.ctrlHost, c.ctrlPort, c.tls, c.port, c.key))
    (fun (host, ctrlHost, ctrlPort, tls, port, key) => ⟨host, ctrlHost, ctrlPort, tls, port, key⟩)
    fun _ => rfl

/-- The settings after onboarding. -/
def config : NeutunConfig :=
  { NeutunConfig.default with host := "b.co".toList, key := some "k".toList }

def lines : List String :=
  ["\x7b", "  \"host\": \"b.co\",", "  \"ctrl_host\": null,", "  \"ctrl_port\": 5000,",
    "  \"tls\": true,", "  \"port\": 8000,", "  \"key\": \"k\""]

/-- `config.json` without its last line -/
def text : Text := lines.flatMap fun line => line.toList ++ ['\n']

def serde : Codec NeutunConfig Char :=
  .known config (text ++ ['\x7d']) '1' ⟨'\x7b', by decide, by decide⟩

def file (text : Text) : Option File := some ⟨utf8 text, true⟩

theorem loadConfig_file (text : Text) : loadConfig serde (file text) = serde.decode text := by
  simp [loadConfig, file, File.readToString]

end Truncated

open Truncated in
/-- The last line of the file is missing, and a new port costs the host and the
    key. -/
theorem truncated_config_overwritten :
    loadConfig serde (file (text ++ ['\x7d'])) = some config ∧
      loadConfig serde (file text) = none ∧
      loadConfig serde (handleConfigAction serde Platform.ascii (file text) (.port 9000)) =
        some { NeutunConfig.default with port := 9000 } ∧
      ¬Kept serde Platform.ascii (file text) (.port 9000) := by
  have hbroken : loadConfig serde (file text) = none := by
    rw [loadConfig_file]
    decide
  refine ⟨?_, hbroken, ?_, ?_⟩
  · rw [loadConfig_file]
    decide
  · rw [handleConfigAction, loadConfig_saveConfig, hbroken]
    rfl
  · intro h
    have hsame := (handleConfigAction_eq_self_iff hbroken (.port 9000)).mp (h.broken _ rfl hbroken)
    cases hsame.1

end ConfigFile

end Neutun.Cli
