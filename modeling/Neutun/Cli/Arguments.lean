/-
  Neutun/Cli/Arguments.lean
  =========================
  The command line (`Opts` and its subcommands in `config.rs`), and what
  `start_daemon` makes of it for the child.

  The child gets the arguments of its parent without those that read `--daemon`
  or `-D`.  These are words, not options: the flag may stand in a word with
  others, and a word may be no flag (`daemon_child_iff`).
-/
import Neutun.Foundation.CommandLine
import Neutun.Cli.Migration
import Neutun.Cli.Daemons

namespace Neutun.Cli

open Foundation

/-! ### Subcommands -/

inductive ConfigCommand where
  | show
  | set (action : ConfigAction)
  | onboard

inductive SavesAction where
  | ls
  | add (name : Text)
  | restore (name : Text) (daemon : Bool)
  | rm (name : Text)

inductive DaemonAction where
  | ls
  | stop (pid : Pid)
  | stopAll

inductive ServerAction where
  | domains
  | taken

inductive SubCommand where
  | config (action : ConfigCommand)
  | saves (action : SavesAction)
  | daemon (action : DaemonAction)
  | server (action : ServerAction)

def withoutSign : Text → Text
  | '+' :: rest => rest
  | '-' :: rest => rest
  | s => s

/-- clap reads an unsigned number as an `i64` in range. -/
def parseRanged (max : Nat) (s : Text) : Option Nat :=
  let digits := withoutSign s
  if digits ≠ [] ∧ digits.all Char.isDigit = true then
    let n := Nat.ofDigitChars 10 digits 0
    if s.head? = some '-' then if n = 0 then some 0 else none
    else if n ≤ max then some n else none
  else none

def parsePort (s : Text) : Option UInt16 := (parseRanged 65535 s).map UInt16.ofNat

def parsePid (s : Text) : Option Pid := (parseRanged 4294967295 s).map UInt32.ofNat

/-- A command without options of its own. -/
def noOptions : OptionSyntax Empty := ⟨fun _ => none, fun _ => none, fun _ => false⟩

/-- The action that a command has to be followed by. -/
def actionOf (names words : List Text) : Option (Text × List Text) :=
  match noOptions.parse (fun word => decide (word ∈ names)) none words with
  | some ⟨_, [], command⟩ => command
  | _ => none

/-- The values of an action without options. -/
def valuesOf (words : List Text) : Option (List Text) :=
  (noOptions.parse (fun _ => false) none words).map Parsed.positionals

def ConfigCommand.parse (words : List Text) : Option ConfigCommand :=
  match actionOf ["show".toList, "host".toList, "ctrl-host".toList, "ctrl-port".toList,
    "tls".toList, "port".toList, "key".toList, "onboard".toList] words with
  | none => none
  | some (name, rest) =>
    match valuesOf rest with
    | some [] =>
      if name = "show".toList then some .show
      else if name = "onboard".toList then some .onboard
      else none
    | some [value] =>
      if name = "host".toList then some (.set (.host value))
      else if name = "ctrl-host".toList then some (.set (.ctrlHost value))
      else if name = "ctrl-port".toList then
        (parsePort value).map fun port => .set (.ctrlPort port)
      else if name = "tls".toList then some (.set (.tls value))
      else if name = "port".toList then (parsePort value).map fun port => .set (.port port)
      else if name = "key".toList then some (.set (.key value))
      else none
    | _ => none

/-- The `--daemon` of `saves restore`. -/
def restoreOptions : OptionSyntax Unit where
  short c := if c = 'D' then some () else none
  long name := if name = "daemon".toList then some () else none
  takesValue _ := false

def SavesAction.parseRestore (words : List Text) : Option SavesAction :=
  match restoreOptions.parse (fun _ => false) none words with
  | none => none
  | some l =>
    match l.positionals with
    | [name] => if l.AtMostOnce then some (.restore name (l.isSet ())) else none
    | _ => none

def SavesAction.parse (words : List Text) : Option SavesAction :=
  match actionOf ["ls".toList, "add".toList, "restore".toList, "rm".toList] words with
  | none => none
  | some (name, rest) =>
    if name = "restore".toList then parseRestore rest
    else
      match valuesOf rest with
      | some [] => if name = "ls".toList then some .ls else none
      | some [value] =>
        if name = "add".toList then some (.add value)
        else if name = "rm".toList then some (.rm value)
        else none
      | _ => none

def DaemonAction.parse (words : List Text) : Option DaemonAction :=
  match actionOf ["ls".toList, "stop".toList, "stop-all".toList] words with
  | none => none
  | some (name, rest) =>
    match valuesOf rest with
    | some [] =>
      if name = "ls".toList then some .ls
      else if name = "stop-all".toList then some .stopAll
      else none
    | some [value] => if name = "stop".toList then (parsePid value).map .stop else none
    | _ => none

def ServerAction.parse (words : List Text) : Option ServerAction :=
  match actionOf ["domains".toList, "taken".toList] words with
  | none => none
  | some (name, rest) =>
    match valuesOf rest with
    | some [] => if name = "domains".toList then some .domains else some .taken
    | _ => none

def SubCommand.parse (name : Text) (words : List Text) : Option SubCommand :=
  if name = "config".toList then (ConfigCommand.parse words).map .config
  else if name = "saves".toList then (SavesAction.parse words).map .saves
  else if name = "daemon".toList then (DaemonAction.parse words).map .daemon
  else if name = "server".toList then (ServerAction.parse words).map .server
  else none

/-! ### Options -/

inductive Arg where
  | printVersion
  | key
  | subDomain
  | domain
  | localHost
  | useTls
  | port
  | dashboardPort
  | wildcard
  | daemon
  | verbose
deriving DecidableEq

def rootOptions : OptionSyntax Arg where
  short
    | 'v' => some .printVersion
    | 'k' => some .key
    | 's' => some .subDomain
    | 'd' => some .domain
    | 't' => some .useTls
    | 'p' => some .port
    | 'w' => some .wildcard
    | 'D' => some .daemon
    | _ => none
  long name :=
    if name = "version".toList then some .printVersion
    else if name = "key".toList then some .key
    else if name = "subdomain".toList then some .subDomain
    else if name = "domain".toList then some .domain
    else if name = "host".toList then some .localHost
    else if name = "use-tls".toList then some .useTls
    else if name = "port".toList then some .port
    else if name = "dashboard-port".toList then some .dashboardPort
    else if name = "wildcard".toList then some .wildcard
    else if name = "daemon".toList then some .daemon
    else if name = "verbose".toList then some .verbose
    else none
  takesValue
    | .key | .subDomain | .domain | .localHost | .port | .dashboardPort => true
    | _ => false

/-- A command line that clap has read; the local host is still without its
    default. -/
structure Arguments where
  printVersion : Bool
  command : Option SubCommand
  key : Option Text
  subDomain : Option Text
  domain : Option Text
  localHost : Option Text
  useTls : Bool
  port : Option UInt16
  dashboardPort : Option UInt16
  wildcard : Bool
  daemon : Bool
  verbose : Bool

namespace Arguments

def opts (a : Arguments) : Opts where
  key := a.key
  subDomain := a.subDomain
  domain := a.domain
  localHost := a.localHost.getD "localhost".toList
  useTls := a.useTls
  port := a.port
  dashboardPort := a.dashboardPort
  wildcard := a.wildcard
  daemon := a.daemon
  verbose := a.verbose

/-- A value that may be missing but not wrong. -/
def readPort : Option Text → Option (Option UInt16)
  | none => some none
  | some value => (parsePort value).map some

def readCommand : Option (Text × List Text) → Option (Option SubCommand)
  | none => some none
  | some (name, words) => (SubCommand.parse name words).map some

def read (l : Parsed Arg) : Option Arguments :=
  if l.AtMostOnce ∧ l.positionals = [] then
    match readPort (l.value .port), readPort (l.value .dashboardPort), readCommand l.command with
    | some port, some dashboardPort, some command =>
      some {
        printVersion := l.isSet .printVersion
        command := command
        key := l.value .key
        subDomain := l.value .subDomain
        domain := l.value .domain
        localHost := l.value .localHost
        useTls := l.isSet .useTls
        port := port
        dashboardPort := dashboardPort
        wildcard := l.isSet .wildcard
        daemon := l.isSet .daemon
        verbose := l.isSet .verbose }
    | _, _, _ => none
  else none

def isCommand (word : Text) : Bool :=
  decide (word ∈ ["config".toList, "saves".toList, "daemon".toList, "server".toList])

/-- `Opts::parse`; where clap complains or prints help there is no result. -/
def parse (words : List Text) : Option Arguments :=
  (rootOptions.parse isCommand none words).bind read

/-- The `--daemon` that `main` goes by. -/
def daemonFlag (a : Arguments) : Bool :=
  match a.command with
  | none => a.port.isSome && a.daemon
  | some (.saves (.restore _ daemon)) => daemon
  | some _ => false

/-- The same command line without that flag. -/
def withoutDaemon (a : Arguments) : Arguments :=
  match a.command with
  | none => { a with daemon := false }
  | some (.saves (.restore name _)) => { a with command := some (.saves (.restore name false)) }
  | some _ => a

end Arguments

/-- The filter of `start_daemon`. -/
def isDaemonArg (word : Text) : Bool := word == "--daemon".toList || word == "-D".toList

def childArgs (args : List Text) : List Text := args.filter fun word => !isDaemonArg word

theorem isDaemonArg_iff {word : Text} :
    isDaemonArg word = true ↔ word = "--daemon".toList ∨ word = "-D".toList := by
  simp [isDaemonArg]

theorem rootOptions_alone : rootOptions.Alone Arguments.isCommand isDaemonArg .daemon where
  isOption := by
    intro word h
    rcases isDaemonArg_iff.mp h with rfl | rfl <;> rfl
  command := by
    intro word h
    rcases isDaemonArg_iff.mp h with rfl | rfl <;> rfl
  escape := rfl
  option := by
    intro word h
    rcases isDaemonArg_iff.mp h with rfl | rfl <;> rfl

theorem restoreOptions_alone : restoreOptions.Alone (fun _ => false) isDaemonArg () where
  isOption := rootOptions_alone.isOption
  command := fun _ _ => rfl
  escape := rfl
  option := by
    intro word h
    rcases isDaemonArg_iff.mp h with rfl | rfl <;> rfl

/-! ### `saves restore` -/

theorem noOptions_option {word : Text} (h : isOption word = true) :
    noOptions.option word = none := by
  obtain ⟨c, rest, rfl⟩ := isOption_iff.mp h
  by_cases hdash : c = '-'
  · subst hdash
    rfl
  · rw [OptionSyntax.option_cluster _ hdash]
    rfl

/-- No word may stand before an action. -/
theorem actionOf_eq_none {names words : List Text} {word : Text} (h : word ∉ names) :
    actionOf names (word :: words) = none := by
  simp only [actionOf, OptionSyntax.parse, h, decide_false, Bool.false_eq_true, if_false]
  split
  next hparse =>
    split at hparse
    · obtain ⟨-, rfl, rfl⟩ := Parsed.mk.inj (Option.some.inj hparse)
      rfl
    · split at hparse
      next hoption => simp [noOptions_option hoption] at hparse
      · obtain ⟨l, -, hl⟩ := Option.map_eq_some_iff.mp hparse
        cases hl
  · rfl

theorem actionOf_eq_some_iff {names words rest : List Text} {name : Text} :
    actionOf names words = some (name, rest) ↔ words = name :: rest ∧ name ∈ names := by
  cases words with
  | nil => simp [actionOf, OptionSyntax.parse]
  | cons word words =>
    by_cases hname : word ∈ names
    · simp only [actionOf, OptionSyntax.parse, hname, decide_true, if_true, Option.some.injEq,
        Prod.mk.injEq, List.cons.injEq]
      constructor
      · rintro ⟨rfl, rfl⟩
        exact ⟨⟨rfl, rfl⟩, hname⟩
      · exact And.left
    · rw [actionOf_eq_none hname]
      simp only [reduceCtorEq, List.cons.injEq, false_iff]
      rintro ⟨⟨rfl, -⟩, hmem⟩
      exact hname hmem

theorem parseRestore_eq_some_iff {words : List Text} {action : SavesAction} :
    SavesAction.parseRestore words = some action ↔ ∃ l name,
      restoreOptions.parse (fun _ => false) none words = some l ∧ l.AtMostOnce ∧
        l.positionals = [name] ∧ action = .restore name (l.isSet ()) := by
  unfold SavesAction.parseRestore
  split
  next hparse => simp [hparse]
  next l hparse =>
    split
    next name hname =>
      split
      next honce =>
        rw [Option.some.injEq]
        constructor
        · rintro rfl
          exact ⟨l, name, hparse, honce, hname, rfl⟩
        · rintro ⟨l', name', hparse', -, hname', rfl⟩
          obtain rfl := Option.some.inj (hparse.symm.trans hparse')
          rw [hname] at hname'
          rw [(List.cons.inj hname').1]
      next honce =>
        simp only [reduceCtorEq, false_iff]
        rintro ⟨l', name', hparse', honce', -⟩
        obtain rfl := Option.some.inj (hparse.symm.trans hparse')
        exact honce honce'
    next hpositionals =>
      simp only [reduceCtorEq, false_iff]
      rintro ⟨l', name', hparse', -, hname', -⟩
      obtain rfl := Option.some.inj (hparse.symm.trans hparse')
      exact hpositionals _ hname'

theorem parse_saves_restore (rest : List Text) :
    SubCommand.parse "saves".toList ("restore".toList :: rest) =
      (SavesAction.parseRestore rest).map .saves := by
  have haction : actionOf ["ls".toList, "add".toList, "restore".toList, "rm".toList]
      ("restore".toList :: rest) = some ("restore".toList, rest) :=
    actionOf_eq_some_iff.mpr ⟨rfl, by decide⟩
  have hsaves : SavesAction.parse ("restore".toList :: rest) = SavesAction.parseRestore rest := by
    simp only [SavesAction.parse, haction, if_true]
  rw [SubCommand.parse, if_neg (by decide), if_pos rfl, hsaves]

/-- No other words are read as `saves restore`. -/
theorem words_of_restore {word name : Text} {words : List Text} {daemon : Bool}
    (h : SubCommand.parse word words = some (.saves (.restore name daemon))) :
    word = "saves".toList ∧ ∃ rest, words = "restore".toList :: rest := by
  have hsaves : word = "saves".toList ∧
      SavesAction.parse words = some (.restore name daemon) := by
    unfold SubCommand.parse at h
    repeat' split at h
    all_goals simp_all
  obtain ⟨hword, hparse⟩ := hsaves
  refine ⟨hword, ?_⟩
  unfold SavesAction.parse at hparse
  split at hparse
  · cases hparse
  next name' rest haction =>
  split at hparse
  next hname =>
    subst hname
    exact ⟨rest, (actionOf_eq_some_iff.mp haction).1⟩
  · repeat' split at hparse
    all_goals simp at hparse

/-- The letters of a word can all but be `D`. -/
theorem restoreOptions_cluster {letters : Text} {found : List (Unit × Option Text)}
    {pending : Option Unit} (h : restoreOptions.cluster letters = some (found, pending)) :
    pending = none ∧ letters = List.replicate found.length 'D' := by
  induction letters generalizing found pending with
  | nil =>
    obtain ⟨rfl, rfl⟩ := Prod.mk.inj (Option.some.inj h)
    exact ⟨rfl, rfl⟩
  | cons c rest ih =>
    by_cases hc : c = 'D'
    · subst hc
      obtain ⟨⟨found', pending'⟩, hrest, heq⟩ := Option.map_eq_some_iff.mp h
      obtain ⟨rfl, rfl⟩ := Prod.mk.inj heq
      obtain ⟨hnone, hletters⟩ := ih hrest
      exact ⟨hnone, by rw [hletters]; rfl⟩
    · have hshort : restoreOptions.short c = none := if_neg hc
      rw [OptionSyntax.cluster, hshort] at h
      cases h

/-- In `-D` the flag stands alone, and in `-DD` it is given twice. -/
theorem restoreOptions_option {word : Text} {found : List (Unit × Option Text)}
    {pending : Option Unit} (hoption : isOption word = true) (hword : isDaemonArg word = false)
    (h : restoreOptions.option word = some (found, pending)) :
    pending = none ∧ (found.countP fun o => o.1 == ()) ≠ 1 := by
  have hcount : (found.countP fun o => o.1 == ()) = found.length := by
    apply List.countP_eq_length.mpr
    intro o _
    rfl
  rw [hcount]
  obtain ⟨c, rest, rfl⟩ := isOption_iff.mp hoption
  by_cases hdash : c = '-'
  · -- the only long option is `--daemon`
    subst hdash
    change restoreOptions.longOption rest = some (found, pending) at h
    unfold OptionSyntax.longOption at h
    split at h
    · cases h
    next hlong =>
    split at h
    next hattached =>
      have hrest := List.takeWhile_append_dropWhile (p := fun c => !(c == '=')) (l := rest)
      rw [hattached, List.append_nil] at hrest
      rw [hrest] at hlong
      obtain rfl : rest = "daemon".toList := by
        by_contra hne
        have hnone : restoreOptions.long rest = none := if_neg hne
        rw [hnone] at hlong
        cases hlong
      cases hword
    · cases h
  · rw [OptionSyntax.option_cluster _ hdash] at h
    obtain ⟨hpending, hletters⟩ := restoreOptions_cluster h
    refine ⟨hpending, ?_⟩
    intro hone
    rw [hone] at hletters
    rw [hletters] at hword
    cases hword

/-- The words for `saves restore` set its flag in a word alone. -/
theorem childArgs_restore {words : List Text} {name : Text}
    (h : SavesAction.parseRestore words = some (.restore name true)) :
    words.countP isDaemonArg = 1 + [name].countP isDaemonArg ∧
      (isDaemonArg name = false →
        SavesAction.parseRestore (childArgs words) = some (.restore name false)) ∧
      (isDaemonArg name = true → SavesAction.parseRestore (childArgs words) = none) := by
  obtain ⟨l, name', hparse, honce, hname, heq⟩ := parseRestore_eq_some_iff.mp h
  obtain ⟨rfl, hset⟩ := SavesAction.restore.inj heq
  have hreads := OptionSyntax.reads_of_parse hparse
  obtain ⟨l', n, hreads', hwithout, hcount⟩ := hreads.filter restoreOptions_alone
  have hparse' := OptionSyntax.parse_of_reads hreads'
  obtain ⟨-, hset'⟩ := hwithout.isSet_self honce
  have hcommand : l.command = none := by
    cases hc : l.command with
    | none => rfl
    | some c => exact absurd (hreads.isCommand_command c hc) (by decide)
  have hn : n = 1 := by
    have hne := hreads'.countP_ne_one (fun _ _ _ => restoreOptions_option)
      fun word hword => by simpa using (List.mem_filter.mp hword).2
    have hone := Parsed.atMostOnce_iff.mp honce ()
    have hpos := Parsed.isSet_iff.mp hset.symm
    have hcounts := hwithout.count
    omega
  refine ⟨?_, ?_, ?_⟩
  · rw [hcount, hn, Parsed.unread, hname, hcommand]
    rfl
  · intro hkept
    refine parseRestore_eq_some_iff.mpr ⟨l', name, hparse', hwithout.atMostOnce honce, ?_, ?_⟩
    · rw [hwithout.positionals, hname]
      simp [hkept]
    · rw [hset', hn]
      simp
  · intro hdropped
    rw [Option.eq_none_iff_forall_ne_some]
    intro action haction
    obtain ⟨l'', name', hparse'', -, hname', -⟩ := parseRestore_eq_some_iff.mp haction
    obtain rfl := Option.some.inj (hparse'.symm.trans hparse'')
    rw [hwithout.positionals, hname] at hname'
    simp [hdropped] at hname'

/-! ### The child of a daemon -/

namespace Arguments

theorem read_eq_some_iff {l : Parsed Arg} {a : Arguments} :
    read l = some a ↔ l.AtMostOnce ∧ l.positionals = [] ∧
      readPort (l.value .port) = some a.port ∧
      readPort (l.value .dashboardPort) = some a.dashboardPort ∧
      readCommand l.command = some a.command ∧
      a = { a with
        printVersion := l.isSet .printVersion
        key := l.value .key
        subDomain := l.value .subDomain
        domain := l.value .domain
        localHost := l.value .localHost
        useTls := l.isSet .useTls
        wildcard := l.isSet .wildcard
        daemon := l.isSet .daemon
        verbose := l.isSet .verbose } := by
  unfold read
  split
  next hl =>
    split
    next port dashboardPort command hport hdashboard hcommand =>
      rw [hport, hdashboard, hcommand, Option.some.injEq]
      constructor
      · rintro rfl
        exact ⟨hl.1, hl.2, rfl, rfl, rfl, rfl⟩
      · rintro ⟨-, -, hp, hd, hc, ha⟩
        obtain rfl := Option.some.inj hp
        obtain rfl := Option.some.inj hd
        obtain rfl := Option.some.inj hc
        exact ha.symm
    next hnone =>
      simp only [reduceCtorEq, false_iff]
      rintro ⟨-, -, hp, hd, hc, -⟩
      exact hnone _ _ _ hp hd hc
  next hl =>
    simp only [reduceCtorEq, false_iff]
    rintro ⟨honce, hpositionals, -⟩
    exact hl ⟨honce, hpositionals⟩

/-- Without the words that are `--daemon` or `-D` the flags are the same but for
    `daemon`, and the command is what it is without them. -/
theorem parse_childArgs {args : List Text} {a : Arguments} (h : parse args = some a) :
    ∃ (command : Option (Text × List Text)) (n : Nat), readCommand command = some a.command ∧
      args.countP isDaemonArg = n + ((command.map Prod.snd).getD []).countP isDaemonArg ∧
      n ≤ a.daemon.toNat ∧
      parse (childArgs args) =
        (readCommand (command.map fun c => (c.1, childArgs c.2))).map fun command =>
          { a with command := command, daemon := a.daemon && decide (n = 0) } := by
  obtain ⟨l, hparse, hread⟩ := Option.bind_eq_some_iff.mp h
  obtain ⟨honce, hpositionals, hport, hdashboard, hcommand, ha⟩ := read_eq_some_iff.mp hread
  have hreads := OptionSyntax.reads_of_parse hparse
  obtain ⟨l', n, hreads', hwithout, hcount⟩ := hreads.filter rootOptions_alone
  have hdaemon : a.daemon = l.isSet .daemon := by rw [ha]
  obtain ⟨hn, hset⟩ := hwithout.isSet_self honce
  refine ⟨l.command, n, hcommand, ?_, by rw [hdaemon]; exact hn, ?_⟩
  · rw [hcount, Parsed.unread, hpositionals, List.nil_append]
  · have hchild : parse (childArgs args) = read l' := by
      rw [parse, childArgs, OptionSyntax.parse_of_reads hreads']
      rfl
    have hcommand' : l'.command = l.command.map fun c => (c.1, childArgs c.2) := hwithout.command
    have hpositionals' : l'.positionals = [] := by
      rw [hwithout.positionals, hpositionals]
      rfl
    rw [hchild, ← hcommand', read, if_pos ⟨hwithout.atMostOnce honce, hpositionals'⟩,
      hwithout.value_of_ne (j := .port) (by decide), hport,
      hwithout.value_of_ne (j := .dashboardPort) (by decide), hdashboard]
    cases readCommand l'.command with
    | none => rfl
    | some command =>
      rw [ha]
      simp only [Option.map_some, Option.some.injEq]
      congr 1
      all_goals
        first
        | exact hwithout.value_of_ne (by decide)
        | exact hwithout.isSet_of_ne (by decide)

end Arguments

/-- A flag of the root command is gone if it stood alone. -/
theorem childArgs_tunnel {args : List Text} {parent : Arguments}
    (hparse : Arguments.parse args = some parent) (hcommand : parent.command = none) :
    args.countP isDaemonArg ≤ parent.daemon.toNat ∧
      Arguments.parse (childArgs args) = some { parent with
        daemon := parent.daemon && decide (args.countP isDaemonArg = 0) } := by
  obtain ⟨command, n, hread, hcount, hn, hchild⟩ := Arguments.parse_childArgs hparse
  cases command with
  | some c =>
    obtain ⟨sub, -, hsub⟩ := Option.map_eq_some_iff.mp hread
    rw [hcommand] at hsub
    cases hsub
  | none =>
    obtain rfl : args.countP isDaemonArg = n := hcount
    rw [hchild, hcommand]
    exact ⟨hn, rfl⟩

/-- What `saves restore` has after it is read again without its flag, unless this
    takes its name away. -/
theorem childArgs_saves {args : List Text} {parent : Arguments} {name : Text}
    (hparse : Arguments.parse args = some parent)
    (hcommand : parent.command = some (.saves (.restore name true))) :
    ∃ n, args.countP isDaemonArg = n + 1 + [name].countP isDaemonArg ∧ n ≤ parent.daemon.toNat ∧
      Arguments.parse (childArgs args) =
        if isDaemonArg name then none
        else some { parent with
          command := some (.saves (.restore name false))
          daemon := parent.daemon && decide (n = 0) } := by
  obtain ⟨command, n, hread, hcount, hn, hchild⟩ := Arguments.parse_childArgs hparse
  rw [hcommand] at hread
  cases command with
  | none => cases hread
  | some c =>
    obtain ⟨word, words⟩ := c
    obtain ⟨sub, hsub, heq⟩ := Option.map_eq_some_iff.mp hread
    obtain rfl := Option.some.inj heq
    obtain ⟨rfl, rest, rfl⟩ := words_of_restore hsub
    rw [parse_saves_restore] at hsub
    obtain ⟨action, hrestore, haction⟩ := Option.map_eq_some_iff.mp hsub
    obtain rfl := SubCommand.saves.inj haction
    obtain ⟨hrest, hkept, hdropped⟩ := childArgs_restore hrestore
    have hwords : childArgs ("restore".toList :: rest) = "restore".toList :: childArgs rest := rfl
    have hcounts : ("restore".toList :: rest).countP isDaemonArg = rest.countP isDaemonArg := rfl
    simp only [Option.map_some, Option.getD_some] at hcount hchild
    rw [hcounts, hrest, ← Nat.add_assoc] at hcount
    refine ⟨n, hcount, hn, ?_⟩
    rw [hchild, hwords, Arguments.readCommand, parse_saves_restore]
    cases hname : isDaemonArg name with
    | false =>
      rw [hkept hname]
      rfl
    | true =>
      rw [hdropped hname]
      rfl

/-- The child of a daemon is the same command without its daemon flag if and only
    if exactly one argument reads `--daemon` or `-D`. -/
theorem daemon_child_iff (args : List Text) (parent : Arguments)
    (hparse : Arguments.parse args = some parent) (hdaemon : parent.daemonFlag = true) :
    Arguments.parse (childArgs args) = some parent.withoutDaemon ↔
      args.countP isDaemonArg = 1 := by
  unfold Arguments.daemonFlag at hdaemon
  split at hdaemon
  next hcommand =>
    rw [Bool.and_eq_true] at hdaemon
    obtain ⟨hn, hchild⟩ := childArgs_tunnel hparse hcommand
    have hwithout : parent.withoutDaemon = { parent with daemon := false } := by
      rw [Arguments.withoutDaemon, hcommand]
    rw [hdaemon.2] at hn hchild
    rw [hchild, hwithout, Option.some.injEq, Arguments.mk.injEq]
    simp only [Bool.true_and, decide_eq_false_iff_not, true_and, and_true]
    rw [Bool.toNat_true] at hn
    omega
  next name daemon hcommand =>
    rw [hdaemon] at hcommand
    obtain ⟨n, hcount, hn, hchild⟩ := childArgs_saves hparse hcommand
    have hwithout : parent.withoutDaemon =
        { parent with command := some (.saves (.restore name false)) } := by
      rw [Arguments.withoutDaemon, hcommand]
    rw [hchild, hcount, hwithout, List.countP_singleton]
    cases hname : isDaemonArg name with
    | true => simp
    | false =>
      -- a `-D` before the subcommand would be taken out as well
      have hroot : (parent.daemon && decide (n = 0)) = parent.daemon ↔ n = 0 := by
        cases hset : parent.daemon with
        | true => simp
        | false =>
          rw [hset, Bool.toNat_false] at hn
          simpa using hn
      simp only [Bool.false_eq_true, if_false, Option.some.injEq, Arguments.mk.injEq, true_and,
        and_true, hroot]
      omega
  · cases hdaemon

/-- `-D -p 3000` goes to the child as `-p 3000`. -/
theorem daemon_child_iff_port :
    ∃ parent, Arguments.parse ["-D".toList, "-p".toList, "3000".toList] = some parent ∧
      parent.daemon = true ∧ parent.port = some 3000 ∧
      Arguments.parse (childArgs ["-D".toList, "-p".toList, "3000".toList]) =
        some parent.withoutDaemon := by
  refine ⟨_, rfl, rfl, rfl, ?_⟩
  exact (daemon_child_iff ["-D".toList, "-p".toList, "3000".toList] _ rfl rfl).mpr (by decide)

/-- `-wD -p 3000` goes to the child as it is. -/
theorem clustered_daemon_again :
    ∃ parent, Arguments.parse ["-wD".toList, "-p".toList, "3000".toList] = some parent ∧
      parent.daemonFlag = true ∧
      Arguments.parse (childArgs ["-wD".toList, "-p".toList, "3000".toList]) = some parent ∧
      Arguments.parse (childArgs ["-wD".toList, "-p".toList, "3000".toList]) ≠
        some parent.withoutDaemon := by
  refine ⟨_, rfl, rfl, rfl, ?_⟩
  intro h
  exact absurd (congrArg (Option.map Arguments.daemon) h) (by decide)

end Neutun.Cli
