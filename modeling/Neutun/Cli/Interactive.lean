/-
  Neutun/Cli/Interactive.lean
  ===========================
  `interactive.rs` as a dialogue: what `neutun` asks without a command, in what
  order, and what becomes of the answers and of `config.json`.

  `get_input` shows a default and takes it where nothing is entered; `get_choice`
  takes the first option for anything it does not know.  The first start asks for
  the settings, unless there are files of an older version, and every later one
  loads them.

  Both panic where the prompt cannot be flushed or no line be read, a line that is
  not UTF-8 included; `save_config` panics where `config.json` cannot be written.
  That the messages between the questions are printed and that there is a home
  directory is assumed.
-/
import Neutun.Foundation.Dialogue
import Neutun.Cli.ConfigFile
import Neutun.Cli.SavesListing

namespace Neutun.Cli

open Foundation

/-! ### Trimmed texts -/

/-- There is nothing around it to trim. -/
def Trimmed (s : Text) : Prop := trim s = s

instance (s : Text) : Decidable (Trimmed s) := inferInstanceAs (Decidable (trim s = s))

theorem trimmed_trim (s : Text) : Trimmed (trim s) := by
  unfold Trimmed trim
  have hprefix := List.rdropWhile_prefix isWhitespace (s.dropWhile isWhitespace)
  have hdrop : ((s.dropWhile isWhitespace).rdropWhile isWhitespace).dropWhile isWhitespace =
      (s.dropWhile isWhitespace).rdropWhile isWhitespace := by
    cases hr : (s.dropWhile isWhitespace).rdropWhile isWhitespace with
    | nil => rfl
    | cons c rest =>
      rw [hr] at hprefix
      obtain ⟨more, hmore⟩ := hprefix
      have hhead := List.head?_dropWhile_not isWhitespace s
      rw [← hmore, List.cons_append, List.head?_cons] at hhead
      exact List.dropWhile_cons_of_neg (by simpa using hhead)
  rw [hdrop, List.rdropWhile_idempotent]

theorem trimmed_getInput {default : Text} (h : Trimmed default) (line : Text) :
    Trimmed (getInput default (trim line)) := by
  unfold getInput
  split
  · exact h
  · exact trimmed_trim line

/-- Something in front that does not begin with white space leaves it trimmed. -/
theorem Trimmed.append {s : Text} (h : Trimmed s) (hs : s ≠ []) {c : Char} (before : Text)
    (hc : isWhitespace c = false) : Trimmed (c :: before ++ s) := by
  have hlast : s.rdropWhile isWhitespace = s := by
    calc s.rdropWhile isWhitespace = (trim s).rdropWhile isWhitespace :=
        congrArg (List.rdropWhile isWhitespace) (h : trim s = s).symm
      _ = trim s := List.rdropWhile_idempotent _ _
      _ = s := h
  rw [List.rdropWhile_eq_self_iff] at hlast
  unfold Trimmed trim
  rw [List.cons_append, List.dropWhile_cons_of_neg (by simp [hc]), List.rdropWhile_eq_self_iff]
  intro hne
  have hget : (c :: (before ++ s)).getLast hne = s.getLast hs := by
    rw [List.getLast_cons (by simp [hs]), List.getLast_append_of_ne_nil _ hs]
  rw [hget]
  exact hlast hs

theorem trimmed_decimal (port : UInt16) : Trimmed (decimal port) := trim_toDigits _

/-! ### Questions -/

/-- The questions of a program that ends in `none` where it panics; a line is `none`
    where the prompt cannot be flushed or `read_line` fails. -/
abbrev Questions (α : Type) := Dialogue (Option Text) (Option α)

section

variable {α : Type} (p : Platform) (upper : Text → Text)

/-- `get_input`, and what is done with the answer -/
def askInput (default : Text) (next : Text → Questions α) : Questions α :=
  .ask (some default) fun line =>
    line.elim (.done none) fun line => next (getInput default (trim line))

/-- `get_choice`, for a number of options; `upper` is `str::to_uppercase`. -/
def getChoice (options : Nat) (line : Text) : Nat :=
  match upper (trim line) with
  | [] => 0
  | c :: rest =>
    if c.isUpper = true ∧ c.toNat - 'A'.toNat < options then c.toNat - 'A'.toNat
    else
      match parseUsize (c :: rest) with
      | some n => if 1 ≤ n ∧ n ≤ options then n - 1 else 0
      | none => 0

def askChoice (options : Nat) (next : Nat → Questions α) : Questions α :=
  .ask (some []) fun line =>
    line.elim (.done none) fun line => next (getChoice upper options line)

/-- `run_onboarding`, up to the writing of the file -/
def runOnboarding : Questions NeutunConfig :=
  askInput DEFAULT_HOST fun host =>
  askInput (derivedCtrlHost host) fun ctrlHostInput =>
  askInput (decimal DEFAULT_CONTROL_PORT) fun ctrlPortStr =>
  askInput "on".toList fun tlsInput =>
  askInput [] fun keyInput =>
  .done (some {
    host := host
    ctrlHost := if ctrlHostInput = derivedCtrlHost host then none else some ctrlHostInput
    ctrlPort := (parseU16 ctrlPortStr).getD DEFAULT_CONTROL_PORT
    tls := p.toLowercase tlsInput != "off".toList
    port := 8000
    key := if keyInput = [] then none else some keyInput })

inductive InteractiveResult where
  | StartTunnel (params : InteractiveParams)
  | RestoreSession (session : SessionConfig) (runAsDaemon : Bool)
  | JustOnboarded

/-- How `run_interactive` ends, unless it panics. -/
inductive Outcome where
  | returned (result : InteractiveResult)
  | exited

/-- `run_customize`, whose answers are those of `get_input` already. -/
def customize (config : NeutunConfig) : Questions InteractiveParams :=
  askInput (decimal config.port) fun port =>
  askChoice upper 2 fun subChoice =>
  Dialogue.bindSome (if subChoice = 0 then askInput [] fun s => .done (some (some s))
      else .done (some none)) fun subdomain =>
  askInput config.host fun domain =>
  askInput config.maskedKey fun key =>
  askInput "no".toList fun useTls =>
  askInput "no".toList fun wildcard =>
  .done (some (runCustomize p config ⟨port, subdomain, domain, key, useTls, wildcard⟩))

/-- `run_restore`, with what `list_sessions` gives -/
def restore (sessions : List SessionConfig) : Questions Outcome :=
  if sessions = [] then .done (some .exited)
  else
    askInput "1".toList fun selection =>
    .done ((Saves.runRestore sessions selection).map fun session =>
      .returned (.RestoreSession session false))

/-- `run_interactive` from the first question on -/
def menu (sessions : List SessionConfig) (config : NeutunConfig) : Questions Outcome :=
  askChoice upper 3 fun choice =>
  match choice with
  | 0 =>
    askInput (decimal config.port) fun port =>
    .done (some (.returned (.StartTunnel (runQuickStart config port))))
  | 1 =>
    (customize p upper config).bindSome fun params =>
    .done (some (.returned (.StartTunnel params)))
  | 2 => restore sessions
  -- unreachable!()
  | _ => .done none

end

/-! ### The file -/

/-- What the settings of a user are made of. -/
structure Account where
  config : Option File
  legacy : LegacyFiles

/-- What comes of writing `config.json`. -/
inductive Writing where
  | done
  /-- The directory or the file cannot be made, and everything is as before. -/
  | refused
  /-- Not all of it can be written. -/
  | cut (left : File)
deriving DecidableEq

/-- It does not stop half way. -/
def Writing.Whole : Writing → Prop
  | .cut _ => False
  | _ => True

namespace Account

open ConfigFile

variable (json : Codec NeutunConfig Char) (p : Platform) (upper : Text → Text)

/-- What `save_config` leaves; it returns only if the file is written. -/
def saveConfig (account : Account) (writing : Writing) (config : NeutunConfig) : Account :=
  match writing with
  | .done => { account with config := ConfigFile.saveConfig json account.config config }
  | .refused => account
  | .cut left => { account with config := some left }

/-- `run_interactive` once there is a `config.json` -/
def loaded (account : Account) (sessions : List SessionConfig) : Questions Outcome :=
  match loadConfig json account.config with
  | some config => menu p upper sessions config
  -- config should exist after onboarding/migration
  | none => .done none

/-- `run_onboarding`: what it leaves, and what it returns unless it panics -/
def onboard (account : Account) (writing : Writing) :
    Dialogue (Option Text) (Account × Option NeutunConfig) :=
  (runOnboarding p).bind fun answers =>
  match answers with
  | some config =>
    .done (account.saveConfig json writing config, if writing = .done then answers else none)
  | none => .done (account, none)

/-- `run_interactive`: what it leaves, and how it ends unless it panics -/
def runInteractive (account : Account) (writing : Writing) (sessions : List SessionConfig) :
    Dialogue (Option Text) (Account × Option Outcome) :=
  if account.config.isSome then
    (account.loaded json p upper sessions).bind fun outcome => .done (account, outcome)
  else
    match migrateLegacyConfig account.legacy with
    | some config =>
      let account := account.saveConfig json writing config
      if writing = .done then
        (account.loaded json p upper sessions).bind fun outcome => .done (account, outcome)
      else .done (account, none)
    | none =>
      (account.onboard json p writing).bind fun onboarded =>
      .done (onboarded.1, onboarded.2.map fun _ => .returned .JustOnboarded)

end Account

/-- The commands that write `config.json`, with what comes of the writing. -/
inductive AccountEvent where
  /-- `neutun`, with the saved sessions there are and the lines that are typed -/
  | interactive (writing : Writing) (sessions : List SessionConfig) (lines : List (Option Text))
  /-- `neutun config onboard` -/
  | onboard (writing : Writing) (lines : List (Option Text))
  | set (writing : Writing) (action : ConfigAction)

def AccountEvent.writing : AccountEvent → Writing
  | .interactive writing _ _ => writing
  | .onboard writing _ => writing
  | .set writing _ => writing

namespace Account

variable (json : Codec NeutunConfig Char) (p : Platform) (upper : Text → Text)

def step (account : Account) : AccountEvent → Account
  | .interactive writing sessions lines =>
    ((account.runInteractive json p upper writing sessions).answer (some []) lines).1.1
  | .onboard writing lines => ((account.onboard json p writing).answer (some []) lines).1.1
  | .set writing action =>
    account.saveConfig json writing
      (action.set p ((ConfigFile.loadConfig json account.config).getD NeutunConfig.default))

end Account

/-- The commands of a user, one after the other. -/
def accounts (json : Codec NeutunConfig Char) (p : Platform) (upper : Text → Text) :
    Machine Account AccountEvent where
  start account := ConfigFile.Sound json account.config
  step account e := some (account.step json p upper e)

/-- What the questions of `run_onboarding` come to, if all of them are answered. -/
def asked (p : Platform) (lines : List (Option Text)) : Option NeutunConfig :=
  ((runOnboarding p).answer (some []) lines).1

/-- The settings after a command: those of the older version or those asked for, if
    there are none yet, where they can be written. -/
def written (p : Platform) (legacy : LegacyFiles) (config : Option NeutunConfig)
    (e : AccountEvent) : Option NeutunConfig :=
  if e.writing = .done then
    match e with
    | .interactive _ _ lines => config.or ((migrateLegacyConfig legacy).or (asked p lines))
    | .onboard _ lines => (asked p lines).or config
    | .set _ action => some (action.set p (config.getD NeutunConfig.default))
  else config

/-- The command leaves no settings where there are none to start from. -/
def AccountEvent.Fails (p : Platform) (e : AccountEvent) : Prop :=
  e.writing ≠ .done ∨
    match e with
    | .interactive _ _ lines => none ∈ (runOnboarding p).reads (some []) lines
    | .onboard _ lines => none ∈ (runOnboarding p).reads (some []) lines
    | .set _ _ => False

/-! ### What is shown is what is taken -/

section

variable {α : Type} {p : Platform} {upper : Text → Text}

theorem getInput_nil (default : Text) : getInput default [] = default := if_pos rfl

theorem getInput_ne_nil {default : Text} (h : default ≠ []) (answer : Text) :
    getInput default answer ≠ [] := by
  unfold getInput
  split
  · exact h
  next hanswer => exact hanswer

theorem transparent_askInput {default : Text} {next : Text → Questions α}
    (hdefault : trim default = [] ∨ Trimmed default)
    (hnext : ∀ line, (next (getInput default (trim line))).Transparent (some [])) :
    (askInput default next).Transparent (some []) := by
  have hshown : getInput default (trim default) = getInput default (trim []) := by
    change getInput default (trim default) = getInput default []
    rw [getInput_nil]
    rcases hdefault with hblank | htrimmed
    · rw [hblank, getInput_nil]
    · rw [show trim default = default from htrimmed]
      exact ite_self default
  refine ⟨congrArg next hshown, ?_⟩
  intro line
  cases line with
  | none => trivial
  | some line => exact hnext line

theorem transparent_askChoice {options : Nat} {next : Nat → Questions α}
    (hnext : ∀ choice, (next choice).Transparent (some [])) :
    (askChoice upper options next).Transparent (some []) := by
  refine ⟨rfl, ?_⟩
  intro line
  cases line with
  | none => trivial
  | some line => exact hnext _

theorem transparent_runOnboarding : (runOnboarding p).Transparent (some []) := by
  refine transparent_askInput (Or.inr (by decide)) ?_
  intro line
  refine transparent_askInput (Or.inr ?_) ?_
  · have hhost : Trimmed (getInput DEFAULT_HOST (trim line)) := trimmed_getInput (by decide) line
    exact hhost.append (getInput_ne_nil (by decide) _) "ormhole.".toList (by decide)
  intro _
  refine transparent_askInput (Or.inr (trimmed_decimal _)) ?_
  intro _
  refine transparent_askInput (Or.inr (by decide)) ?_
  intro _
  exact transparent_askInput (Or.inl rfl) fun _ => trivial

theorem transparent_customize {config : NeutunConfig}
    (hhost : trim config.host = [] ∨ Trimmed config.host) :
    (customize p upper config).Transparent (some []) := by
  refine transparent_askInput (Or.inr (trimmed_decimal _)) ?_
  intro _
  refine transparent_askChoice ?_
  intro choice
  refine Dialogue.Transparent.bindSome ?_ ?_
  · split
    · exact transparent_askInput (Or.inl rfl) fun _ => trivial
    · trivial
  intro _
  refine transparent_askInput hhost ?_
  intro _
  refine transparent_askInput (Or.inr ?_) ?_
  · unfold NeutunConfig.maskedKey
    split <;> decide
  intro _
  refine transparent_askInput (Or.inr (by decide)) ?_
  intro _
  exact transparent_askInput (Or.inr (by decide)) fun _ => trivial

theorem transparent_menu {sessions : List SessionConfig} {config : NeutunConfig}
    (hhost : trim config.host = [] ∨ Trimmed config.host) :
    (menu p upper sessions config).Transparent (some []) := by
  refine transparent_askChoice ?_
  intro choice
  split
  · exact transparent_askInput (Or.inr (trimmed_decimal _)) fun _ => trivial
  · exact (transparent_customize hhost).bindSome fun _ => trivial
  · unfold restore
    split
    · trivial
    · exact transparent_askInput (Or.inr (by decide)) fun _ => trivial
  · trivial

theorem trimmed_migrated {files : LegacyFiles} {config : NeutunConfig}
    (h : migrateLegacyConfig files = some config) : Trimmed config.host := by
  rw [migrateLegacyConfig_eq_some h]
  change Trimmed (files.hostValue.getD DEFAULT_HOST)
  unfold LegacyFiles.hostValue
  cases files.domain.join with
  | none => decide
  | some domain =>
    rw [Option.bind_some]
    split
    · decide
    · exact trimmed_trim domain

theorem transparent_runInteractive {json : Codec NeutunConfig Char} {account : Account}
    (h : ∀ config, ConfigFile.loadConfig json account.config = some config →
      trim config.host = [] ∨ Trimmed config.host) (writing : Writing)
    (sessions : List SessionConfig) :
    (account.runInteractive json p upper writing sessions).Transparent (some []) := by
  have hloaded : ∀ u : Account, (∀ config, ConfigFile.loadConfig json u.config = some config →
      trim config.host = [] ∨ Trimmed config.host) →
      (u.loaded json p upper sessions).Transparent (some []) := by
    intro u hu
    unfold Account.loaded
    split
    next config hconfig => exact transparent_menu (hu config hconfig)
    · trivial
  unfold Account.runInteractive
  split
  · exact (hloaded account h).bind fun _ => trivial
  next habsent =>
    split
    next config hmigrate =>
      split
      next hdone =>
        refine (hloaded _ ?_).bind fun _ => trivial
        intro config' hconfig'
        have hnone : account.config = none := by simpa using habsent
        change ConfigFile.loadConfig json (account.saveConfig json writing config).config =
          some config' at hconfig'
        rw [hdone, Account.saveConfig, ConfigFile.loadConfig_saveConfig, hnone] at hconfig'
        obtain rfl := Option.some.inj hconfig'
        exact Or.inr (trimmed_migrated hmigrate)
      · trivial
    · refine (transparent_runOnboarding.bind ?_).bind fun _ => trivial
      intro answers
      cases answers <;> trivial

theorem getChoice_two {options : Nat} (h : 2 ≤ options)
    (hupper : ∀ s : Text, (∀ c ∈ s, c.toNat < 0x80) → upper s = s.map Char.toUpper) :
    getChoice upper options ['2'] = 1 := by
  have hascii : ∀ c ∈ ['2'], c.toNat < 0x80 := by
    intro c hc
    obtain rfl := List.mem_singleton.mp hc
    decide
  have hline : upper (trim ['2']) = ['2'] := by
    rw [show trim ['2'] = ['2'] by decide, hupper ['2'] hascii]
    rfl
  have hnumber : parseUsize ['2'] = some 2 := by decide
  unfold getChoice
  rw [hline]
  simp only [hnumber]
  rw [if_neg (fun hletter => absurd hletter.1 (by decide)), if_pos ⟨by decide, h⟩]

/-- A domain that is not trimmed is shown, and another one once it is typed. -/
theorem shown_domain_taken {config : NeutunConfig}
    (hupper : ∀ s : Text, (∀ c ∈ s, c.toNat < 0x80) → upper s = s.map Char.toUpper)
    (hblank : trim config.host ≠ []) (hhost : ¬ Trimmed config.host)
    (sessions : List SessionConfig) :
    ∃ lines lines', (menu p upper sessions config).Alike (some []) lines lines' ∧
      ((menu p upper sessions config).answer (some []) lines).1 ≠
        ((menu p upper sessions config).answer (some []) lines').1 := by
  have hmenu : getChoice upper 3 ['2'] = 1 := getChoice_two (by decide) hupper
  have hrandom : getChoice upper 2 ['2'] = 1 := getChoice_two (by decide) hupper
  refine ⟨[some ['2'], some [], some ['2'], some config.host],
    [some ['2'], some [], some ['2'], some []], ?_, ?_⟩
  · refine .same ?_
    simp only [Option.elim_some, hmenu]
    refine Dialogue.Alike.bind (.same (.same ?_)) _
    simp only [Option.elim_some, hrandom]
    exact .shown (.ended _ _)
  · simp only [menu, askChoice, customize, askInput, Dialogue.bindSome, Dialogue.answer_ask,
      Dialogue.answer_bind, Dialogue.answer, List.headD_cons, List.tail_cons, Option.elim_some,
      hmenu, hrandom, Nat.one_ne_zero, if_false]
    intro hsame
    have hdomain := congrArg InteractiveParams.domain
      (InteractiveResult.StartTunnel.inj (Outcome.returned.inj (Option.some.inj hsame)))
    simp only [runCustomize] at hdomain
    have htyped : getInput config.host (trim config.host) = trim config.host := if_neg hblank
    have hleft : getInput config.host (trim []) = config.host := getInput_nil _
    have hagain : getInput config.host config.host = config.host := ite_self _
    rw [htyped, htyped, hleft, hagain, if_neg (show ¬trim config.host = config.host from hhost),
      if_pos rfl] at hdomain
    cases hdomain

/-! ### How the dialogue ends -/

theorem failsAt_askInput {P : α → Prop} {default : Text} {next : Text → Questions α}
    (hnext : ∀ answer, (next answer).FailsAt none P) :
    (askInput default next).FailsAt none P := by
  refine ⟨rfl, ?_⟩
  intro line hline
  cases line with
  | none => exact absurd rfl hline
  | some line => exact hnext _

theorem getChoice_lt {options : Nat} (h : 0 < options) (line : Text) :
    getChoice upper options line < options := by
  unfold getChoice
  split
  · exact h
  next c rest _ =>
    split
    next hletter => exact hletter.2
    · split
      next n _ =>
        split
        · omega
        · exact h
      · exact h

theorem failsAt_askChoice {P : α → Prop} {options : Nat} {next : Nat → Questions α}
    (hoptions : 0 < options) (hnext : ∀ choice < options, (next choice).FailsAt none P) :
    (askChoice upper options next).FailsAt none P := by
  refine ⟨rfl, ?_⟩
  intro line hline
  cases line with
  | none => exact absurd rfl hline
  | some line => exact hnext _ (getChoice_lt hoptions line)

theorem failsAt_runOnboarding (p : Platform) :
    (runOnboarding p).FailsAt none fun _ => True := by
  refine failsAt_askInput fun host => ?_
  refine failsAt_askInput fun ctrlHost => ?_
  refine failsAt_askInput fun ctrlPort => ?_
  refine failsAt_askInput fun tls => ?_
  exact failsAt_askInput fun key => ⟨_, rfl, trivial⟩

theorem failsAt_customize (config : NeutunConfig) :
    (customize p upper config).FailsAt none fun _ => True := by
  refine failsAt_askInput fun port => ?_
  refine failsAt_askChoice (by decide) fun subChoice _ => ?_
  refine Dialogue.FailsAt.bindSome (P := fun _ => True) ?_ fun subdomain _ => ?_
  · split
    · exact failsAt_askInput fun s => ⟨_, rfl, trivial⟩
    · exact ⟨_, rfl, trivial⟩
  refine failsAt_askInput fun domain => ?_
  refine failsAt_askInput fun key => ?_
  refine failsAt_askInput fun useTls => ?_
  exact failsAt_askInput fun wildcard => ⟨_, rfl, trivial⟩

/-- None of the questions has an answer that the program panics at. -/
theorem failsAt_menu (p : Platform) (upper : Text → Text) (sessions : List SessionConfig)
    (config : NeutunConfig) :
    (menu p upper sessions config).FailsAt none (· ≠ .returned .JustOnboarded) := by
  refine failsAt_askChoice (by decide) fun choice hchoice => ?_
  obtain rfl | rfl | rfl : choice = 0 ∨ choice = 1 ∨ choice = 2 := by omega
  · exact failsAt_askInput fun port => ⟨_, rfl, nofun⟩
  · exact (failsAt_customize config).bindSome fun params _ => ⟨_, rfl, nofun⟩
  · simp only [restore]
    split
    · exact ⟨_, rfl, nofun⟩
    next hsome =>
      refine failsAt_askInput fun selection => ?_
      obtain ⟨session, -, hchosen⟩ := Saves.runRestore_ne_none hsome selection
      rw [hchosen]
      exact ⟨_, rfl, nofun⟩

theorem menu_nil (hupper : upper [] = []) (sessions : List SessionConfig)
    (config : NeutunConfig) : ((menu p upper sessions config).answer (some []) []).1 =
      some (.returned (.StartTunnel (runQuickStart config []))) := by
  have hchoice : getChoice upper 3 [] = 0 := by
    unfold getChoice
    change (match upper [] with
      | [] => 0
      | c :: rest => _) = 0
    rw [hupper]
  have hport : runQuickStart config (getInput (decimal config.port) (trim [])) =
      runQuickStart config [] := by
    change runQuickStart config (getInput (decimal config.port) []) = runQuickStart config []
    have hne : decimal config.port ≠ [] := Nat.toDigits_ne_nil
    simp only [runQuickStart, getInput_nil]
    rw [getInput, if_neg hne]
  simp only [menu, askChoice, Dialogue.answer_ask, List.headD_nil, Option.elim_some, hchoice,
    askInput]
  exact congrArg (fun params => some (Outcome.returned (.StartTunnel params))) hport

namespace Account

open ConfigFile

variable {json : Codec NeutunConfig Char} {account : Account} {legacy : LegacyFiles}
  {config : Option NeutunConfig}

/-- What the files of a user amount to. -/
structure Holds (json : Codec NeutunConfig Char) (legacy : LegacyFiles) (account : Account)
    (config : Option NeutunConfig) : Prop where
  sound : Sound json account.config
  legacy : account.legacy = legacy
  loads : loadConfig json account.config = config

theorem isSome_of_loadConfig {file : Option File} {config : NeutunConfig}
    (h : loadConfig json file = some config) : file.isSome = true := by
  cases file with
  | none => cases h
  | some f => rfl

theorem Holds.config_eq_none_iff (h : account.Holds json legacy config) :
    account.config = none ↔ config = none := by
  constructor
  · intro hnone
    rw [← h.loads, hnone]
    rfl
  · rintro rfl
    rcases h.sound with hnone | hsome
    · exact hnone
    · rw [h.loads] at hsome
      cases hsome

theorem Holds.config_eq_some (h : account.Holds json legacy config) {c : NeutunConfig}
    (hconfig : config = some c) : account.config.isSome = true :=
  isSome_of_loadConfig (h.loads.trans hconfig)

/-- A file is written whole or stays as it is. -/
theorem Holds.saveConfig (h : account.Holds json legacy config) {writing : Writing}
    (hwhole : writing.Whole) (new : NeutunConfig) :
    (account.saveConfig json writing new).Holds json legacy
      (if writing = .done then some new else config) := by
  cases writing with
  | done =>
    have hload : loadConfig json (account.saveConfig json .done new).config = some new := by
      rw [Account.saveConfig, loadConfig_saveConfig, if_pos]
      rcases h.sound with hnone | hsome
      · rw [hnone]
        rfl
      · obtain ⟨c, hc⟩ := Option.isSome_iff_exists.mp hsome
        exact readable_of_loadConfig hc
    exact ⟨Or.inr (by rw [hload]; rfl), h.legacy, hload⟩
  | refused => exact h
  | cut left => exact hwhole.elim

theorem answer_onboard (p : Platform) (writing : Writing) (lines : List (Option Text)) :
    ((account.onboard json p writing).answer (some []) lines).1 =
      (asked p lines).elim (account, none) fun config =>
        (account.saveConfig json writing config,
          if writing = .done then some config else none) := by
  rw [onboard, Dialogue.answer_bind, asked]
  cases ((runOnboarding p).answer (some []) lines).1 <;> rfl

theorem reads_onboard (p : Platform) (writing : Writing) (lines : List (Option Text)) :
    (account.onboard json p writing).reads (some []) lines =
      (runOnboarding p).reads (some []) lines := by
  rw [onboard, Dialogue.reads_bind]
  cases ((runOnboarding p).answer (some []) lines).1 <;> exact List.append_nil _

theorem asked_eq_none_iff (p : Platform) (lines : List (Option Text)) :
    asked p lines = none ↔ none ∈ (runOnboarding p).reads (some []) lines :=
  Dialogue.answer_eq_none_iff (failsAt_runOnboarding p) lines

/-- Either there are settings to go by, or those of an older version cannot be written,
    or they are asked for. -/
theorem runInteractive_cases (p : Platform) (upper : Text → Text)
    (h : account.Holds json legacy config) (writing : Writing) (sessions : List SessionConfig) :
    (∃ given changed, config.or (if writing = .done then migrateLegacyConfig legacy else none) =
          some given ∧ (config = none → writing = .done) ∧
        Holds json legacy changed (some given) ∧
        account.runInteractive json p upper writing sessions =
          (menu p upper sessions given).bind fun outcome => .done (changed, outcome)) ∨
      (∃ given, config = none ∧ migrateLegacyConfig legacy = some given ∧ writing ≠ .done ∧
        account.runInteractive json p upper writing sessions =
          .done (account.saveConfig json writing given, none)) ∨
      config = none ∧ migrateLegacyConfig legacy = none ∧
        account.runInteractive json p upper writing sessions =
          (account.onboard json p writing).bind fun onboarded =>
            .done (onboarded.1, onboarded.2.map fun _ => .returned .JustOnboarded) := by
  unfold runInteractive
  cases hconfig : config with
  | none =>
    rw [h.config_eq_none_iff.mpr hconfig, h.legacy]
    cases hmigrate : migrateLegacyConfig legacy with
    | none => exact Or.inr (Or.inr ⟨rfl, rfl, rfl⟩)
    | some given =>
      by_cases hdone : writing = .done
      · subst hdone
        have hsaved := h.saveConfig (show Writing.Whole .done from trivial) given
        refine Or.inl ⟨given, account.saveConfig json .done given, rfl, fun _ => rfl, hsaved, ?_⟩
        simp only [loaded, hsaved.loads]
        rfl
      · refine Or.inr (Or.inl ⟨given, rfl, rfl, hdone, ?_⟩)
        simp only [if_neg hdone]
        rfl
  | some given =>
    refine Or.inl ⟨given, account, rfl, nofun, hconfig ▸ h, ?_⟩
    rw [if_pos (h.config_eq_some hconfig)]
    simp only [loaded, h.loads, hconfig]

/-- It panics at a line that cannot be read and where the first settings cannot be
    written; whoever is asked for them has none yet. -/
theorem runInteractive_ends (p : Platform) (upper : Text → Text)
    (h : account.Holds json legacy config) (writing : Writing) (sessions : List SessionConfig)
    (lines : List (Option Text)) :
    let d := account.runInteractive json p upper writing sessions
    ((d.answer (some []) lines).1.2 = none ↔
        none ∈ d.reads (some []) lines ∨ config = none ∧ writing ≠ .done) ∧
      ((d.answer (some []) lines).1.2 = some (.returned .JustOnboarded) ↔
        (d.answer (some []) lines).1.2 ≠ none ∧ config = none ∧
          migrateLegacyConfig legacy = none) := by
  intro d
  rcases runInteractive_cases p upper h writing sessions with
    ⟨given, changed, hgiven, hfirst, -, heq⟩ | ⟨given, rfl, hmigrate, hwriting, heq⟩ |
      ⟨rfl, hmigrate, heq⟩
  · have hmenu := failsAt_menu p upper sessions given
    simp only [d, heq, Dialogue.answer_bind, Dialogue.reads_bind, Dialogue.answer, Dialogue.reads,
      List.append_nil]
    refine ⟨(Dialogue.answer_eq_none_iff hmenu lines).trans ⟨Or.inl, ?_⟩, ?_, ?_⟩
    · rintro (hread | ⟨hnone, hwriting⟩)
      · exact hread
      · exact absurd (hfirst hnone) hwriting
    · intro honboarded
      exact absurd rfl (hmenu.of_answer honboarded)
    · rintro ⟨-, hnone, hmigrate⟩
      rw [hnone, hmigrate, ite_self] at hgiven
      cases hgiven
  · simp only [d, heq, Dialogue.answer]
    exact ⟨⟨fun _ => Or.inr ⟨trivial, hwriting⟩, fun _ => trivial⟩, nofun, fun h => absurd rfl h.1⟩
  · simp only [d, heq, Dialogue.answer_bind, Dialogue.reads_bind, Dialogue.answer, Dialogue.reads,
      List.append_nil, answer_onboard, reads_onboard, ← asked_eq_none_iff]
    cases asked p lines with
    | none => simp
    | some config => by_cases hdone : writing = .done <;> simp [hmigrate, hdone]

/-- What a command writes is what is loaded from then on. -/
theorem Holds.step (h : account.Holds json legacy config) (e : AccountEvent)
    (hwhole : e.writing.Whole) :
    (account.step json p upper e).Holds json legacy (written p legacy config e) := by
  cases e with
  | interactive writing sessions lines =>
    change writing.Whole at hwhole
    change Holds json legacy
      ((account.runInteractive json p upper writing sessions).answer (some []) lines).1.1
      (if writing = .done then config.or ((migrateLegacyConfig legacy).or (asked p lines))
        else config)
    rcases runInteractive_cases p upper h writing sessions with
      ⟨given, changed, hgiven, -, hchanged, heq⟩ | ⟨given, rfl, -, hwriting, heq⟩ |
        ⟨rfl, hmigrate, heq⟩
    · rw [heq, Dialogue.answer_bind]
      have hwritten : (if writing = .done then
          config.or ((migrateLegacyConfig legacy).or (asked p lines)) else config) =
            some given := by
        split
        next hdone =>
          rw [if_pos hdone] at hgiven
          rw [← Option.or_assoc, hgiven]
          rfl
        next hwriting =>
          rw [if_neg hwriting, Option.or_none] at hgiven
          exact hgiven
      rw [hwritten]
      exact hchanged
    · rw [heq, if_neg hwriting]
      have hsaved := h.saveConfig hwhole given
      rwa [if_neg hwriting] at hsaved
    · rw [heq, Dialogue.answer_bind, answer_onboard, hmigrate]
      cases asked p lines with
      | none => exact (ite_self (c := writing = .done) (none : Option NeutunConfig)).symm ▸ h
      | some given => exact h.saveConfig hwhole given
  | onboard writing lines =>
    change writing.Whole at hwhole
    change Holds json legacy ((account.onboard json p writing).answer (some []) lines).1.1
      (if writing = .done then (asked p lines).or config else config)
    rw [answer_onboard]
    cases asked p lines with
    | none => exact (ite_self (c := writing = .done) config).symm ▸ h
    | some given => exact h.saveConfig hwhole given
  | set writing action =>
    change Holds json legacy (account.saveConfig json writing
      (action.set p ((loadConfig json account.config).getD NeutunConfig.default)))
      (if writing = .done then some (action.set p (config.getD NeutunConfig.default)) else config)
    rw [h.loads]
    exact h.saveConfig hwhole _

end Account

/-! ### The settings of a run -/

theorem written_isSome (legacy : LegacyFiles) (config : NeutunConfig) (e : AccountEvent) :
    (written p legacy (some config) e).isSome = true := by
  unfold written
  split
  · cases e with
    | interactive writing sessions lines => rfl
    | onboard writing lines =>
      change ((asked p lines).or (some config)).isSome = true
      cases asked p lines <;> rfl
    | set writing action => rfl
  · rfl

theorem written_eq_none_iff {legacy : LegacyFiles} (hmigrate : migrateLegacyConfig legacy = none)
    (e : AccountEvent) : written p legacy none e = none ↔ e.Fails p := by
  unfold written AccountEvent.Fails
  split
  next hdone =>
    rw [or_iff_right (not_not.mpr hdone)]
    cases e with
    | interactive writing sessions lines =>
      simp only [hmigrate, Option.none_or]
      exact Account.asked_eq_none_iff p lines
    | onboard writing lines =>
      simp only [Option.or_none]
      exact Account.asked_eq_none_iff p lines
    | set writing action => exact ⟨nofun, nofun⟩
  next hwriting => exact ⟨fun _ => Or.inl hwriting, fun _ => rfl⟩

/-- There are no settings only if there were none and no command has left any. -/
theorem foldl_written_eq_none_iff {legacy : LegacyFiles}
    (hmigrate : migrateLegacyConfig legacy = none) (config : Option NeutunConfig)
    (es : List AccountEvent) :
    es.foldl (written p legacy) config = none ↔ config = none ∧ ∀ e ∈ es, e.Fails p := by
  induction es generalizing config with
  | nil => simp
  | cons e es ih =>
    rw [List.foldl_cons, ih, List.forall_mem_cons, ← and_assoc]
    refine and_congr_left fun _ => ?_
    cases config with
    | none => simp [written_eq_none_iff hmigrate e]
    | some config =>
      refine ⟨fun hnone => ?_, nofun⟩
      have hsome := written_isSome (p := p) legacy config e
      rw [hnone] at hsome
      cases hsome

theorem accounts_run {json : Codec NeutunConfig Char} {s t : Account} {es : List AccountEvent}
    (hstart : ConfigFile.Sound json s.config) (hwhole : ∀ e ∈ es, e.writing.Whole)
    (hrun : (accounts json p upper).run s es = some t) :
    t.Holds json s.legacy
      (es.foldl (written p s.legacy) (ConfigFile.loadConfig json s.config)) := by
  have hmeets : (accounts json p upper).Meets (fun _ e => e.writing.Whole) s es :=
    Machine.meets_of_mem fun e he _ => hwhole e he
  refine Machine.run_foldl ?_ ⟨hstart, rfl, rfl⟩ hmeets hrun
  rintro u config e v h hwhole hstep
  obtain rfl := Option.some.inj hstep
  exact h.step e hwhole

end

open ConfigFile in
/-- Whatever has been typed and set, unless a write stopped half way, the settings in
    `config.json` are what was asked for, migrated or set last.  A bare `neutun` panics
    exactly if it reads a line that cannot be read or has no settings and cannot write
    any; it asks for them only if no command before has left any and there are no files
    of an older version; and with nothing entered it starts a tunnel by the settings. -/
theorem interactive_starts (json : Codec NeutunConfig Char) (p : Platform)
    (upper : Text → Text) (hupper : upper [] = []) (s t : Account) (es : List AccountEvent)
    (hstart : (accounts json p upper).start s) (hwhole : ∀ e ∈ es, e.writing.Whole)
    (hrun : (accounts json p upper).run s es = some t) :
    let dialogue := t.runInteractive json p upper
    let ends writing sessions lines := ((dialogue writing sessions).answer (some []) lines).1.2
    loadConfig json t.config = es.foldl (written p s.legacy) (loadConfig json s.config) ∧
      (∀ writing sessions lines,
        (ends writing sessions lines = none ↔
          none ∈ (dialogue writing sessions).reads (some []) lines ∨
            t.config = none ∧ writing ≠ .done) ∧
        (ends writing sessions lines = some (.returned .JustOnboarded) ↔
          ends writing sessions lines ≠ none ∧ s.config = none ∧
            migrateLegacyConfig s.legacy = none ∧ ∀ e ∈ es, e.Fails p)) ∧
      ∀ writing sessions config, (loadConfig json t.config).or
          (if writing = .done then migrateLegacyConfig s.legacy else none) = some config →
        ends writing sessions [] = some (.returned (.StartTunnel (runQuickStart config []))) := by
  intro dialogue ends
  have ht := accounts_run hstart hwhole hrun
  have hs : s.Holds json s.legacy (loadConfig json s.config) := ⟨hstart, rfl, rfl⟩
  refine ⟨ht.loads, ?_, ?_⟩
  · intro writing sessions lines
    obtain ⟨hpanics, honboards⟩ := t.runInteractive_ends p upper ht writing sessions lines
    rw [← ht.config_eq_none_iff] at hpanics
    refine ⟨hpanics, honboards.trans (and_congr_right fun _ => ?_)⟩
    rw [hs.config_eq_none_iff, and_comm, and_left_comm]
    refine and_congr_right fun hmigrate => ?_
    exact foldl_written_eq_none_iff hmigrate _ es
  · intro writing sessions config hconfig
    rw [ht.loads] at hconfig
    rcases t.runInteractive_cases p upper ht writing sessions with
      ⟨given, changed, hgiven, -, -, heq⟩ | ⟨given, hnone, -, hwriting, -⟩ | ⟨hnone, hmigrate, -⟩
    · rw [hconfig] at hgiven
      obtain rfl := Option.some.inj hgiven
      simp only [ends, dialogue, heq, Dialogue.answer_bind, Dialogue.answer]
      exact menu_nil hupper sessions config
    · rw [hnone, if_neg hwriting] at hconfig
      cases hconfig
    · rw [hnone, hmigrate, ite_self] at hconfig
      cases hconfig

/-- Nobody has been asked yet. -/
def Account.unasked : Account := ⟨none, ⟨none, none, none⟩⟩

/-- The first answers cannot be written, and the second ones break off in a line that is
    not UTF-8; then all of them are given. -/
def Account.attempts : List AccountEvent :=
  [.interactive .refused [] [some "a.co".toList], .onboard .done [some [], none],
    .interactive .done [] [some "b.co".toList, some [], some [], some [], some "k".toList]]

open ConfigFile Truncated in
/-- The answers are gone by without being asked for again. -/
theorem interactive_starts_onboarded :
    ∃ t, (accounts serde Platform.ascii (List.map Char.toUpper)).run Account.unasked
        Account.attempts = some t ∧
      ((t.runInteractive serde Platform.ascii (List.map Char.toUpper) .done []).answer (some [])
        []).1.2 = some (.returned (.StartTunnel (runQuickStart config []))) := by
  obtain ⟨t, ht⟩ : ∃ t, (accounts serde Platform.ascii (List.map Char.toUpper)).run
      Account.unasked Account.attempts = some t := ⟨_, rfl⟩
  have hwhole : ∀ e ∈ Account.attempts, e.writing.Whole := by
    simp only [Account.attempts, List.forall_mem_cons]
    exact ⟨trivial, trivial, trivial, nofun⟩
  have hstarts := interactive_starts serde Platform.ascii (List.map Char.toUpper) rfl
    Account.unasked t _ (Or.inl rfl) hwhole ht
  refine ⟨t, ht, hstarts.2.2 .done [] config ?_⟩
  rw [hstarts.1]
  decide

open ConfigFile in
/-- To type out what a question shows is to leave it out, for any of the questions and
    whatever was answered before, unless the domain in `config.json` has white space
    around it. -/
theorem shown_defaults_iff (json : Codec NeutunConfig Char) (p : Platform)
    (upper : Text → Text)
    (hupper : ∀ s : Text, (∀ c ∈ s, c.toNat < 0x80) → upper s = s.map Char.toUpper)
    (account : Account) (writing : Writing) (sessions : List SessionConfig) :
    (∀ lines lines',
      (account.runInteractive json p upper writing sessions).Alike (some []) lines lines' →
        (account.runInteractive json p upper writing sessions).answer (some []) lines =
          (account.runInteractive json p upper writing sessions).answer (some []) lines') ↔
      ∀ config, loadConfig json account.config = some config →
        trim config.host = [] ∨ Trimmed config.host := by
  constructor
  · intro hsame config hload
    by_contra hhost
    obtain ⟨hblank, hhost⟩ := not_or.mp hhost
    obtain ⟨lines, lines', halike, hdiffer⟩ :=
      shown_domain_taken (p := p) hupper hblank hhost sessions
    have hdialogue : account.runInteractive json p upper writing sessions =
        (menu p upper sessions config).bind fun outcome => .done (account, outcome) := by
      rw [Account.runInteractive, if_pos (Account.isSome_of_loadConfig hload)]
      simp only [Account.loaded, hload]
    rw [hdialogue] at hsame
    have hends := hsame lines lines' (halike.bind _)
    rw [Dialogue.answer_bind, Dialogue.answer_bind] at hends
    exact hdiffer (congrArg (fun r => r.1.2) hends)
  · intro hhost lines lines' halike
    exact Dialogue.answer_alike (transparent_runInteractive hhost writing sessions) halike

open ConfigFile.Truncated in
theorem shown_defaults_onboarding :
    (Account.unasked.runInteractive serde Platform.ascii (List.map Char.toUpper) .done []).answer
        (some []) [some "a.b".toList, some "wormhole.a.b".toList, some "5000".toList] =
      (Account.unasked.runInteractive serde Platform.ascii (List.map Char.toUpper) .done []).answer
        (some []) [some "a.b".toList, some [], some []] :=
  (shown_defaults_iff serde Platform.ascii (List.map Char.toUpper) (fun _ _ => rfl)
    Account.unasked .done []).mpr nofun _ _ (.same (.shown (.shown (.ended _ _))))

end Neutun.Cli
