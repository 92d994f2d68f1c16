/-
  Neutun/Foundation/CommandLine.lean
  ==================================
  Command lines in the usual style: short options that may stand together in one
  word (`-abc`), long ones (`--name`), values in the word of their option
  (`-ovalue`, `-o=value`, `--name=value`) or in the next one, `--` before words
  that are no options, and commands with words of their own.

  A word that gives one option and nothing else can be taken out, and what is
  read is the same but for that option (`OptionSyntax.Reads.filter`).
-/
import Mathlib.Data.List.Nodup

namespace Foundation

/-- The options of one command: their names, and which of them take a value. -/
structure OptionSyntax (ι : Type) where
  short : Char → Option ι
  long : List Char → Option ι
  takesValue : ι → Bool

/-- What the words of one command say: the options in order, the words that are
    none, and the command they end in with the words left for it. -/
structure Parsed (ι : Type) where
  occurrences : List (ι × Option (List Char))
  positionals : List (List Char)
  command : Option (List Char × List (List Char))

variable {ι : Type}

def Parsed.prepend (found : List (ι × Option (List Char))) (l : Parsed ι) : Parsed ι :=
  { l with occurrences := found ++ l.occurrences }

/-- A word that cannot be the value of the option before it. -/
def isOption : List Char → Bool
  | '-' :: _ :: _ => true
  | _ => false

theorem isOption_iff {word : List Char} :
    isOption word = true ↔ ∃ c rest, word = '-' :: c :: rest := by
  constructor
  · intro h
    unfold isOption at h
    split at h
    next c rest => exact ⟨c, rest, rfl⟩
    · cases h
  · rintro ⟨c, rest, rfl⟩
    rfl

namespace OptionSyntax

variable (S : OptionSyntax ι)

/-- The letters of one word, and the option that still waits for its value. -/
def cluster : List Char → Option (List (ι × Option (List Char)) × Option ι)
  | [] => some ([], none)
  | letter :: rest =>
    match S.short letter with
    | none => none
    | some i =>
      if S.takesValue i then
        match rest with
        | [] => some ([], some i)
        | '=' :: value => some ([(i, some value)], none)
        | value => some ([(i, some value)], none)
      else (cluster rest).map fun found => ((i, none) :: found.1, found.2)

/-- The word without its dashes. -/
def longOption (word : List Char) : Option (List (ι × Option (List Char)) × Option ι) :=
  match S.long (word.takeWhile fun c => !(c == '=')) with
  | none => none
  | some i =>
    match word.dropWhile fun c => !(c == '=') with
    | [] => if S.takesValue i then some ([], some i) else some ([(i, none)], none)
    | _ :: value => if S.takesValue i then some ([(i, some value)], none) else none

def option : List Char → Option (List (ι × Option (List Char)) × Option ι)
  | '-' :: '-' :: word => S.longOption word
  | _ :: letters => S.cluster letters
  | [] => none

theorem option_cluster {c : Char} (hc : c ≠ '-') (rest : List Char) :
    S.option ('-' :: c :: rest) = S.cluster (c :: rest) := by
  unfold option
  split
  next heq =>
    obtain ⟨rfl, -⟩ := List.cons.inj (List.cons.inj heq).2
    exact absurd rfl hc
  next heq =>
    obtain ⟨-, rfl⟩ := List.cons.inj heq
    rfl
  next heq => cases heq

/-- Reading word by word; `pending` waits for its value. -/
def parse (isCommand : List Char → Bool) (pending : Option ι) :
    List (List Char) → Option (Parsed ι)
  | [] => if pending.isSome then none else some ⟨[], [], none⟩
  | word :: rest =>
    match pending with
    | some i =>
      if isOption word then none
      else (parse isCommand none rest).map (Parsed.prepend [(i, some word)])
    | none =>
      if isCommand word then some ⟨[], [], some (word, rest)⟩
      else if word = ['-', '-'] then some ⟨[], rest, none⟩
      else if isOption word then
        match S.option word with
        | none => none
        | some (found, pending) => (parse isCommand pending rest).map (Parsed.prepend found)
      else (parse isCommand none rest).map fun l => { l with positionals := word :: l.positionals }

/-- What `parse` does, one rule for each kind of word. -/
inductive Reads (isCommand : List Char → Bool) :
    Option ι → List (List Char) → Parsed ι → Prop
  | done : Reads isCommand none [] ⟨[], [], none⟩
  | value {i word rest l} (hoption : isOption word = false) (h : Reads isCommand none rest l) :
    Reads isCommand (some i) (word :: rest) (l.prepend [(i, some word)])
  | command {word rest} (hcommand : isCommand word = true) :
    Reads isCommand none (word :: rest) ⟨[], [], some (word, rest)⟩
  | escape {rest} (hcommand : isCommand ['-', '-'] = false) :
    Reads isCommand none (['-', '-'] :: rest) ⟨[], rest, none⟩
  | option {word rest found pending l} (hcommand : isCommand word = false)
    (hescape : word ≠ ['-', '-']) (hoption : isOption word = true)
    (hread : S.option word = some (found, pending)) (h : Reads isCommand pending rest l) :
    Reads isCommand none (word :: rest) (l.prepend found)
  | positional {word rest l} (hcommand : isCommand word = false) (hoption : isOption word = false)
    (h : Reads isCommand none rest l) :
    Reads isCommand none (word :: rest) { l with positionals := word :: l.positionals }

variable {S} {isCommand : List Char → Bool}

theorem reads_of_parse {pending : Option ι} {words : List (List Char)} {l : Parsed ι}
    (h : S.parse isCommand pending words = some l) : S.Reads isCommand pending words l := by
  induction words generalizing pending l with
  | nil =>
    cases pending with
    | some i => simp [parse] at h
    | none =>
      obtain rfl : _ = l := by simpa [parse] using h
      exact .done
  | cons word rest ih =>
    cases pending with
    | some i =>
      simp only [parse] at h
      split at h
      · cases h
      next hoption =>
      obtain ⟨l₀, hl₀, rfl⟩ := Option.map_eq_some_iff.mp h
      exact .value (Bool.eq_false_iff.mpr hoption) (ih hl₀)
    | none =>
      simp only [parse] at h
      split at h
      next hcommand =>
        obtain rfl := Option.some.inj h
        exact .command hcommand
      next hcommand =>
      rw [Bool.not_eq_true] at hcommand
      split at h
      next hescape =>
        obtain rfl := Option.some.inj h
        subst hescape
        exact .escape hcommand
      next hescape =>
      split at h
      next hoption =>
        split at h
        · cases h
        next hread =>
        obtain ⟨l₀, hl₀, rfl⟩ := Option.map_eq_some_iff.mp h
        exact .option hcommand hescape hoption hread (ih hl₀)
      next hoption =>
        obtain ⟨l₀, hl₀, rfl⟩ := Option.map_eq_some_iff.mp h
        exact .positional hcommand (Bool.eq_false_iff.mpr hoption) (ih hl₀)

theorem parse_of_reads {pending : Option ι} {words : List (List Char)} {l : Parsed ι}
    (h : S.Reads isCommand pending words l) : S.parse isCommand pending words = some l := by
  induction h with
  | done => rfl
  | value hoption h ih => simp [parse, hoption, ih]
  | command hcommand => simp [parse, hcommand]
  | escape hcommand => simp [parse, hcommand]
  | option hcommand hescape hoption hread h ih =>
    simp [parse, hcommand, hescape, hoption, hread, ih]
  | @positional word rest l hcommand hoption h ih =>
    have hescape : word ≠ ['-', '-'] := by
      rintro rfl
      cases hoption
    simp [parse, hcommand, hescape, hoption, ih]

end OptionSyntax

namespace Parsed

variable [DecidableEq ι] (l : Parsed ι)

/-- An option may be given once. -/
def AtMostOnce : Prop := (l.occurrences.map Prod.fst).Nodup

instance : Decidable l.AtMostOnce := inferInstanceAs (Decidable (List.Nodup _))

def isSet (i : ι) : Bool := l.occurrences.any fun o => o.1 == i

def value (i : ι) : Option (List Char) :=
  (l.occurrences.find? fun o => o.1 == i).bind Prod.snd

/-- The words that the command did not read as options. -/
def unread : List (List Char) := l.positionals ++ (l.command.map Prod.snd).getD []

/-- `l'` is `l` without `n` occurrences of `i`, and without the words of `p` among
    those that are no options. -/
structure Without (p : List Char → Bool) (i : ι) (n : Nat) (l l' : Parsed ι) : Prop where
  others : (l'.occurrences.filter fun o => !(o.1 == i)) = l.occurrences.filter fun o => !(o.1 == i)
  count : (l.occurrences.countP fun o => o.1 == i) = n + l'.occurrences.countP fun o => o.1 == i
  positionals : l'.positionals = l.positionals.filter fun word => !p word
  command : l'.command = l.command.map fun c => (c.1, c.2.filter fun word => !p word)

theorem Without.prepend {p : List Char → Bool} {i : ι} {n : Nat} {l l' : Parsed ι}
    (h : Without p i n l l') (found : List (ι × Option (List Char))) :
    Without p i n (l.prepend found) (l'.prepend found) where
  others := by simp only [Parsed.prepend, List.filter_append, h.others]
  count := by
    simp only [Parsed.prepend, List.countP_append, h.count]
    omega
  positionals := h.positionals
  command := h.command

/-- An occurrence of another option is not one of `i`. -/
theorem other_and {i j : ι} (hj : j ≠ i) :
    (fun o : ι × Option (List Char) => !(o.1 == i) && o.1 == j) = fun o => o.1 == j := by
  funext o
  by_cases ho : o.1 = j
  · simp [ho, hj]
  · simp [ho]

theorem other_and' {i j : ι} (hj : j ≠ i) :
    (fun o : ι × Option (List Char) => o.1 == j && !(o.1 == i)) = fun o => o.1 == j := by
  rw [← other_and hj]
  funext o
  exact Bool.and_comm _ _

section Without

variable {p : List Char → Bool} {i j : ι} {n : Nat} {l l' : Parsed ι}

/-- Another option is given as before. -/
theorem Without.value_of_ne (h : Without p i n l l') (hj : j ≠ i) : l'.value j = l.value j := by
  have hfind : ∀ os : List (ι × Option (List Char)), os.find? (fun o => o.1 == j) =
      (os.filter fun o => !(o.1 == i)).find? fun o => o.1 == j := by
    intro os
    rw [List.find?_filter, ← other_and hj]
    congr 1
    funext o
    simp only [Bool.decide_and, Bool.decide_eq_true]
  rw [value, value, hfind l'.occurrences, h.others, ← hfind]

theorem Without.isSet_of_ne (h : Without p i n l l') (hj : j ≠ i) : l'.isSet j = l.isSet j := by
  have hany : ∀ os : List (ι × Option (List Char)), os.any (fun o => o.1 == j) =
      (os.filter fun o => !(o.1 == i)).any fun o => o.1 == j := by
    intro os
    rw [List.any_filter, other_and hj]
  rw [isSet, isSet, hany l'.occurrences, h.others, ← hany]

theorem countP_of_other (hj : j ≠ i) (os : List (ι × Option (List Char))) :
    (os.filter fun o => !(o.1 == i)).countP (fun o => o.1 == j) =
      os.countP fun o => o.1 == j := by
  rw [List.countP_filter, other_and' hj]

theorem atMostOnce_iff : l.AtMostOnce ↔ ∀ j, (l.occurrences.countP fun o => o.1 == j) ≤ 1 := by
  rw [AtMostOnce, List.nodup_iff_count_le_one]
  apply forall_congr'
  intro j
  rw [List.count, List.countP_map]
  rfl

/-- What was given at most once is so without some of it. -/
theorem Without.atMostOnce (h : Without p i n l l') (hl : l.AtMostOnce) : l'.AtMostOnce := by
  rw [atMostOnce_iff] at hl ⊢
  intro j
  by_cases hj : j = i
  · subst hj
    have hcount := h.count
    have hone := hl j
    omega
  · rw [← countP_of_other hj, h.others, countP_of_other hj]
    exact hl j

theorem isSet_iff : l.isSet i = true ↔ 0 < l.occurrences.countP fun o => o.1 == i := by
  rw [isSet, List.any_eq_true, List.countP_pos_iff]

/-- An option given once is still set if nothing was taken out. -/
theorem Without.isSet_self (h : Without p i n l l') (hl : l.AtMostOnce) :
    n ≤ (l.isSet i).toNat ∧ l'.isSet i = (l.isSet i && decide (n = 0)) := by
  have hone := atMostOnce_iff.mp hl i
  have hcount := h.count
  have hset : ∀ m : Parsed ι, m.isSet i = decide (0 < m.occurrences.countP fun o => o.1 == i) := by
    intro m
    rw [Bool.eq_iff_iff, isSet_iff, decide_eq_true_iff]
  rw [hset, hset, hcount]
  constructor
  · by_cases hpos : 0 < n + l'.occurrences.countP fun o => o.1 == i
    · rw [decide_eq_true hpos, Bool.toNat_true]
      omega
    · omega
  · rw [← Bool.decide_and, decide_eq_decide]
    omega

end Without

end Parsed

namespace OptionSyntax

variable [DecidableEq ι] (S : OptionSyntax ι)

/-- The words of `p` each give the option `i` and nothing else. -/
structure Alone (isCommand p : List Char → Bool) (i : ι) : Prop where
  isOption : ∀ word, p word = true → Foundation.isOption word = true
  command : ∀ word, p word = true → isCommand word = false
  escape : p ['-', '-'] = false
  option : ∀ word, p word = true → S.option word = some ([(i, none)], none)

variable {S} {isCommand p : List Char → Bool} {i : ι}

/-- Without the words that give `i` alone the rest is read as it was. -/
theorem Reads.filter (hp : S.Alone isCommand p i) {pending : Option ι} {words : List (List Char)}
    {l : Parsed ι} (h : S.Reads isCommand pending words l) :
    ∃ l' n, S.Reads isCommand pending (words.filter fun word => !p word) l' ∧
      Parsed.Without p i n l l' ∧ words.countP p = n + l.unread.countP p := by
  have hkept : ∀ {word : List Char} (rest : List (List Char)), p word = false →
      (word :: rest).filter (fun word => !p word) = word :: rest.filter (fun word => !p word) ∧
        (word :: rest).countP p = rest.countP p := by
    intro word rest hword
    simp [hword]
  have hplain : ∀ {word : List Char}, isOption word = false → p word = false := by
    intro word hword
    rw [Bool.eq_false_iff]
    intro hpw
    rw [hp.isOption word hpw] at hword
    cases hword
  induction h with
  | done => exact ⟨_, 0, .done, ⟨rfl, by simp, rfl, rfl⟩, rfl⟩
  | @value j word rest l hoption h ih =>
    obtain ⟨l', n, hl', hwithout, hn⟩ := ih
    obtain ⟨hfilter, hcount⟩ := hkept rest (hplain hoption)
    rw [hfilter, hcount]
    exact ⟨_, n, .value hoption hl', hwithout.prepend _, hn⟩
  | @command word rest hcommand =>
    have hword : p word = false := by
      rw [Bool.eq_false_iff]
      intro hpw
      rw [hp.command word hpw] at hcommand
      cases hcommand
    obtain ⟨hfilter, hcount⟩ := hkept rest hword
    rw [hfilter, hcount]
    exact ⟨_, 0, .command hcommand, ⟨rfl, by simp, rfl, rfl⟩,
      by simp [Parsed.unread]⟩
  | @escape rest hcommand =>
    obtain ⟨hfilter, hcount⟩ := hkept rest hp.escape
    rw [hfilter, hcount]
    exact ⟨_, 0, .escape hcommand, ⟨rfl, by simp, rfl, rfl⟩,
      by simp [Parsed.unread]⟩
  | @option word rest found pending l hcommand hescape hoption hread h ih =>
    obtain ⟨l', n, hl', hwithout, hn⟩ := ih
    cases hpw : p word with
    | true =>
      -- one occurrence less
      rw [hp.option word hpw] at hread
      obtain ⟨rfl, rfl⟩ := Prod.mk.inj (Option.some.inj hread)
      refine ⟨l', n + 1, by simpa [hpw] using hl', ?_, ?_⟩
      · refine ⟨?_, ?_, hwithout.positionals, hwithout.command⟩
        · simp [Parsed.prepend, hwithout.others]
        · simp only [Parsed.prepend, List.singleton_append, List.countP_cons, hwithout.count,
            beq_self_eq_true, if_true]
          omega
      · rw [List.countP_cons, hpw, hn]
        simp only [Parsed.unread, Parsed.prepend, if_true]
        omega
    | false =>
      obtain ⟨hfilter, hcount⟩ := hkept rest hpw
      rw [hfilter, hcount]
      exact ⟨_, n, .option hcommand hescape hoption hread hl',
        hwithout.prepend _, hn⟩
  | @positional word rest l hcommand hoption h ih =>
    obtain ⟨l', n, hl', hwithout, hn⟩ := ih
    have hword := hplain hoption
    obtain ⟨hfilter, hcount⟩ := hkept rest hword
    rw [hfilter, hcount]
    refine ⟨_, n, .positional hcommand hoption hl',
      ⟨hwithout.others, hwithout.count, ?_, hwithout.command⟩, ?_⟩
    · simp [hword, hwithout.positionals]
    · rw [hn]
      simp [Parsed.unread, hword]

omit [DecidableEq ι] in
theorem Reads.isCommand_command {pending : Option ι} {words : List (List Char)} {l : Parsed ι}
    (h : S.Reads isCommand pending words l) :
    ∀ c, l.command = some c → isCommand c.1 = true := by
  induction h with
  | done =>
    intro c hc
    cases hc
  | value _ _ ih => exact ih
  | command hcommand =>
    rintro c ⟨⟩
    exact hcommand
  | escape =>
    intro c hc
    cases hc
  | option _ _ _ _ _ ih => exact ih
  | positional _ _ _ ih => exact ih

/-- Where only those words give `i` just once, it is not given once without them. -/
theorem Reads.countP_ne_one {words : List (List Char)} {l : Parsed ι}
    (hword : ∀ word found pending, isOption word = true → p word = false →
      S.option word = some (found, pending) →
        pending = none ∧ (found.countP fun o => o.1 == i) ≠ 1)
    (hp : ∀ word ∈ words, p word = false) (h : S.Reads isCommand none words l) :
    (l.occurrences.countP fun o => o.1 == i) ≠ 1 := by
  generalize hpending : (none : Option ι) = pending at h
  induction h with
  | done => simp
  | value => cases hpending
  | command => simp
  | escape => simp
  | @option word rest found pending l _ _ hoption hread h ih =>
    obtain ⟨rfl, hfound⟩ := hword word found pending hoption (hp word List.mem_cons_self) hread
    have hl := ih (fun w hw => hp w (List.mem_cons_of_mem _ hw)) rfl
    rw [Parsed.prepend, List.countP_append]
    omega
  | positional _ _ h ih => exact ih (fun w hw => hp w (List.mem_cons_of_mem _ hw)) rfl

end OptionSyntax

end Foundation
