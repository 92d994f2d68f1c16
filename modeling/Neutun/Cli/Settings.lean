/-
  Neutun/Cli/Settings.lean
  ========================
  What the client keeps under `~/.neutun` (`saved_config.rs`): its settings, the
  tunnel it was connected for last, and the saved tunnels.

  A file that is missing and one that does not parse are the same to every
  reader, so a file is an optional value of the type it is read as.
-/
import Neutun.Server.Connections

namespace Neutun.Cli

open Foundation

/-! ### Ports -/

/-- `port.to_string()` -/
def decimal (port : UInt16) : Text := Nat.toDigits 10 port.toNat

/-- `str::parse::<u16>` -/
def parseU16 (s : Text) : Option UInt16 :=
  let digits := match s with
    | '+' :: rest => rest
    | _ => s
  if digits ≠ [] ∧ digits.all Char.isDigit = true then
    let n := Nat.ofDigitChars 10 digits 0
    if n < UInt16.size then some (UInt16.ofNat n) else none
  else none

theorem isDigit_of_mem_decimal {port : UInt16} {c : Char} (h : c ∈ decimal port) :
    c.isDigit = true :=
  Nat.isDigit_of_mem_toDigits (by decide) (by decide) h

theorem colon_not_mem_decimal (port : UInt16) : ':' ∉ decimal port := by
  intro h
  have hdigit := isDigit_of_mem_decimal h
  exact absurd hdigit (by decide)

theorem decimal_injective : Function.Injective decimal := by
  intro port port' h
  have hvalue : ∀ q : UInt16, Nat.ofDigitChars 10 (decimal q) 0 = q.toNat :=
    fun _ => Nat.ofDigitChars_ten_toDigits
  apply UInt16.toNat_inj.mp
  rw [← hvalue port, ← hvalue port', h]

/-! ### The files -/

def DEFAULT_HOST : Text := "neutun.dev".toList

def DEFAULT_CONTROL_PORT : UInt16 := 5000

/-- `config.json` -/
structure NeutunConfig where
  host : Text
  ctrlHost : Option Text
  ctrlPort : UInt16
  tls : Bool
  port : UInt16
  key : Option Text
deriving DecidableEq

/-- `NeutunConfig::default` -/
def NeutunConfig.default : NeutunConfig where
  host := DEFAULT_HOST
  ctrlHost := none
  ctrlPort := DEFAULT_CONTROL_PORT
  tls := true
  port := 8000
  key := none

/-- The control host where none is set, `format!("wormhole.{}", host)`. -/
def derivedCtrlHost (host : Text) : Text := "wormhole.".toList ++ host

def NeutunConfig.effectiveCtrlHost (c : NeutunConfig) : Text :=
  c.ctrlHost.getD (derivedCtrlHost c.host)

def NeutunConfig.maskedKey (c : NeutunConfig) : Text :=
  match c.key with
  | some _ => "****saved****".toList
  | none => "(not set)".toList

/-- The name of a file in a directory, not of one elsewhere. -/
structure FileName where
  text : Text
  plain : ∀ c ∈ text, c ≠ '/' ∧ c.toNat ≠ 0
deriving DecidableEq

/-- `saves/<name>.json` and `last_session.json` -/
structure SessionConfig where
  name : FileName
  port : UInt16
  subdomain : Option Text
  domain : Text
  key : Option Text
  useTls : Bool
  wildcard : Bool
  localHost : Text
  ctrlHost : Option Text
  ctrlPort : UInt16
  tls : Bool
  dashboardPort : Option UInt16
deriving DecidableEq

/-- `~/.neutun` -/
structure SettingsDir where
  config : Option NeutunConfig
  lastSession : Option SessionConfig
  saves : Table FileName SessionConfig

namespace SettingsDir

variable (dir : SettingsDir)

/-- `load_config().unwrap_or_default()` -/
def loadConfigOrDefault : NeutunConfig := dir.config.getD NeutunConfig.default

def saveSession (session : SessionConfig) : SettingsDir :=
  { dir with saves := dir.saves.insert session.name session }

def loadSession (name : FileName) : Option SessionConfig := dir.saves.lookup name

def saveLastSession (session : SessionConfig) : SettingsDir :=
  { dir with lastSession := some session }

/-- `neutun saves add`; `false` is the complaint that there is no last session. -/
def savesAdd (name : FileName) : SettingsDir × Bool :=
  match dir.lastSession with
  | some session => (dir.saveSession { session with name := name }, true)
  | none => (dir, false)

/-- The last session is saved under the name, and the settings are as before. -/
theorem loadSession_savesAdd {session : SessionConfig} (h : dir.lastSession = some session)
    (name : FileName) :
    (dir.savesAdd name).1.loadSession name = some { session with name := name } ∧
      (dir.savesAdd name).1.config = dir.config := by
  simp only [savesAdd, h]
  exact ⟨AList.lookup_insert _, rfl⟩

end SettingsDir

end Neutun.Cli
