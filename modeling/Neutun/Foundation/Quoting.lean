/-
  Neutun/Foundation/Quoting.lean
  ==============================
  Two ways in which quoted text is read back: the arguments in a command line, as a
  process on Windows gets them, and single-quoted literals, as in PowerShell.

  In a command line blanks separate arguments outside double quotes, a quote is
  escaped by a backslash or, inside quotes, by another quote, and backslashes count
  double only before a quote.  `sum_need_le` is the price list of these rules: an
  argument costs its characters, a separator, two quotes if it needs them, and one
  character more for every quote in it.  The last of the quotes may be left out.
-/
import Neutun.Foundation.Scanner

namespace Foundation

/-! ### Command lines -/

/-- Where a character stands; `closed` is right after a quote that may be the first
    of two. -/
inductive QuoteMode where
  | outside
  | inside
  | closed
deriving DecidableEq

/-- The argument that is read, without the backslashes that may still turn out to
    stand before a quote. -/
inductive ArgvState where
  | between
  | arg (mode : QuoteMode) (cur : Text) (backslashes : Nat)

def isBlank (c : Char) : Bool := c == ' ' || c == '\t'

def QuoteMode.after : QuoteMode → QuoteMode
  | .inside => .inside
  | .outside | .closed => .outside

def backslashes (n : Nat) : Text := List.replicate n '\\'

/-- One more character of an argument. -/
def argvChar (mode : QuoteMode) (cur : Text) (n : Nat) (c : Char) : ArgvState × List Text :=
  if c = '\\' then (.arg mode.after cur (n + 1), [])
  else if c = '"' then
    let kept := cur ++ backslashes (n / 2)
    if n % 2 = 1 then (.arg mode.after (kept ++ ['"']) 0, [])
    else
      match mode with
      | .outside => (.arg .inside kept 0, [])
      | .inside => (.arg .closed kept 0, [])
      | .closed => (.arg .inside (kept ++ ['"']) 0, [])
  else
    let text := cur ++ backslashes n
    if isBlank c = true ∧ mode ≠ .inside then (.between, [text])
    else (.arg mode.after (text ++ [c]) 0, [])

def argv : Scanner ArgvState Text where
  step
    | .between, c => if isBlank c = true then (.between, []) else argvChar .outside [] 0 c
    | .arg mode cur n, c => argvChar mode cur n c
  finish
    | .between => []
    | .arg _ cur n => [cur ++ backslashes n]

/-- The arguments in a command line. -/
def splitArgs (s : Text) : List Text := argv.scan .between s

/-! ### What arguments cost -/

/-- A pair of quotes, for an argument that cannot do without. -/
def quoting (a : Text) : Nat := if a = [] ∨ a.any isBlank = true then 2 else 0

def need (a : Text) : Nat := a.length + 1 + a.count '"' + quoting a

/-- What has been paid for an argument that is read. -/
def paid (mode : QuoteMode) (text : Text) : Nat :=
  text.length + text.count '"' +
    match mode with
    | .outside => quoting text
    | .inside => 1
    | .closed => 2

def ArgvState.paid : ArgvState → Nat
  | .between => 0
  | .arg mode cur n => Foundation.paid mode (cur ++ backslashes n)

theorem quoting_le (a : Text) : quoting a ≤ 2 := by
  unfold quoting
  split <;> omega

/-- Only blanks ask for quotes where there is anything at all. -/
theorem quoting_le_of_any {a b : Text} (hne : a ≠ [])
    (h : a.any isBlank = true → b.any isBlank = true) : quoting a ≤ quoting b := by
  unfold quoting
  by_cases ha : a.any isBlank = true
  · exact Nat.le_of_eq ((if_pos (Or.inr ha)).trans (if_pos (Or.inr (h ha))).symm)
  · rw [if_neg]
    · exact Nat.zero_le _
    · simpa [hne] using ha

/-- A character that is no quote costs at most itself. -/
theorem paid_concat_le (mode : QuoteMode) (text : Text) {c : Char} (hquote : c ≠ '"')
    (hblank : isBlank c = false ∨ mode = .inside) :
    paid mode.after (text ++ [c]) ≤ 1 + paid mode text := by
  unfold paid
  have hcount : List.count '"' [c] = 0 := List.count_eq_zero.mpr (by simp [hquote.symm])
  rw [List.length_append, List.count_append, hcount]
  have htwo := quoting_le (text ++ [c])
  cases mode with
  | inside =>
    simp only [QuoteMode.after, List.length_singleton]
    omega
  | outside =>
    have hc : isBlank c = false := hblank.resolve_right (by simp)
    have hquoting : quoting (text ++ [c]) ≤ quoting text := by
      apply quoting_le_of_any
      · simp
      · simp [List.any_append, hc]
    simp only [QuoteMode.after, List.length_singleton]
    omega
  | closed =>
    simp only [QuoteMode.after, List.length_singleton]
    omega

theorem length_backslashes (n : Nat) : (backslashes n).length = n := List.length_replicate

theorem count_backslashes {c : Char} (hc : c ≠ '\\') (n : Nat) : (backslashes n).count c = 0 := by
  rw [backslashes, List.count_replicate, if_neg]
  simp [hc.symm]

@[simp] theorem any_backslashes (n : Nat) : (backslashes n).any isBlank = false := by
  rw [backslashes, List.any_replicate]
  split <;> rfl

/-- A quote costs itself, or what has been paid before. -/
theorem paid_argvChar_quote (mode : QuoteMode) (cur : Text) (n : Nat) :
    ((argvChar mode cur n '"').2.map need).sum + (argvChar mode cur n '"').1.paid ≤
      1 + paid mode (cur ++ backslashes n) := by
  have hlength (m : Nat) : (cur ++ backslashes m).length = cur.length + m := by
    rw [List.length_append, length_backslashes]
  have hcount (m : Nat) : (cur ++ backslashes m).count '"' = cur.count '"' := by
    rw [List.count_append, count_backslashes (by decide), Nat.add_zero]
  have hnil : backslashes 0 = [] := rfl
  have hquoting : quoting (cur ++ backslashes (n / 2) ++ ['"']) ≤
      quoting (cur ++ backslashes n) := by
    apply quoting_le_of_any
    · simp
    · rw [List.any_append, List.any_append, List.any_append, any_backslashes, any_backslashes]
      simp [isBlank]
  have htwo := quoting_le (cur ++ backslashes (n / 2) ++ ['"'])
  unfold argvChar
  rw [if_neg (by decide), if_pos rfl]
  simp only
  split_ifs with hodd
  · simp only [ArgvState.paid, paid, hnil, List.append_nil, List.length_append, List.count_append,
      hlength, hcount, List.map_nil, List.sum_nil, List.length_singleton,
      List.count_singleton_self]
    cases mode <;> simp only [QuoteMode.after] <;> omega
  · cases mode with
    | outside =>
      simp only [ArgvState.paid, paid, hnil, List.append_nil, hlength, hcount, List.map_nil,
        List.sum_nil]
      omega
    | inside =>
      simp only [ArgvState.paid, paid, hnil, List.append_nil, hlength, hcount, List.map_nil,
        List.sum_nil]
      omega
    | closed =>
      simp only [ArgvState.paid, paid, hnil, List.append_nil, List.length_append,
        List.count_append, hlength, hcount, List.map_nil, List.sum_nil, List.length_singleton,
        List.count_singleton_self]
      omega

/-- What a step puts out has been paid by its character and before. -/
theorem paid_argvChar_le (mode : QuoteMode) (cur : Text) (n : Nat) (c : Char) :
    ((argvChar mode cur n c).2.map need).sum + (argvChar mode cur n c).1.paid ≤
      1 + paid mode (cur ++ backslashes n) := by
  by_cases hbackslash : c = '\\'
  · subst hbackslash
    have hsucc : cur ++ backslashes (n + 1) = cur ++ backslashes n ++ ['\\'] := by
      rw [backslashes, List.replicate_succ', ← List.append_assoc]
      rfl
    have hle := paid_concat_le mode (cur ++ backslashes n) (c := '\\') (by decide) (Or.inl rfl)
    rw [← hsucc] at hle
    exact (Nat.zero_add _).trans_le hle
  by_cases hquote : c = '"'
  · subst hquote
    exact paid_argvChar_quote mode cur n
  unfold argvChar
  rw [if_neg hbackslash, if_neg hquote]
  simp only
  split
  next hsep =>
    simp only [List.map_cons, List.map_nil, List.sum_cons, List.sum_nil, ArgvState.paid]
    have htwo := quoting_le (cur ++ backslashes n)
    unfold need paid
    cases mode with
    | inside => exact absurd rfl hsep.2
    | outside =>
      simp only
      omega
    | closed =>
      simp only
      omega
  next hsep =>
    have hblank : isBlank c = false ∨ mode = .inside := by
      rcases Bool.eq_false_or_eq_true (isBlank c) with hc | hc
      · exact Or.inr (not_not.mp fun hmode => hsep ⟨hc, hmode⟩)
      · exact Or.inl hc
    have hle := paid_concat_le mode (cur ++ backslashes n) hquote hblank
    have hnil : backslashes 0 = [] := rfl
    simp only [List.map_nil, List.sum_nil, ArgvState.paid, hnil, List.append_nil]
    omega

/-- An argument that begins has paid for its first character only. -/
theorem paid_argvChar_first {c : Char} (hc : isBlank c = false) :
    ((argvChar .outside [] 0 c).2.map need).sum + (argvChar .outside [] 0 c).1.paid ≤ 1 := by
  by_cases hbackslash : c = '\\'
  · subst hbackslash
    decide
  by_cases hquote : c = '"'
  · subst hquote
    decide
  unfold argvChar
  rw [if_neg hbackslash, if_neg hquote]
  simp only
  have hcount : List.count '"' [c] = 0 := List.count_eq_zero.mpr (by simp [Ne.symm hquote])
  rw [if_neg (by simp [hc])]
  simp [ArgvState.paid, paid, quoting, backslashes, QuoteMode.after, hc, hcount]

/-- The price of arguments is paid by the characters of their command line, but for
    the first separator and the last quote. -/
theorem sum_need_le (s : Text) : ((splitArgs s).map need).sum ≤ s.length + 2 := by
  have hlength : (s.map fun _ => 1).sum = s.length := by
    simp
  have hle := argv.sum_scan_le need ArgvState.paid (fun _ => 1) 2 ?_ ?_ .between s
  · rw [hlength] at hle
    exact hle
  · rintro (_ | ⟨mode, cur, n⟩) c
    · simp only [argv]
      split
      · exact Nat.zero_le _
      next hblank => exact paid_argvChar_first (eq_false_of_ne_true hblank)
    · exact paid_argvChar_le mode cur n c
  · rintro (_ | ⟨mode, cur, n⟩)
    · exact Nat.zero_le _
    · simp only [argv, ArgvState.paid, List.map_cons, List.map_nil, List.sum_cons, List.sum_nil]
      have htwo := quoting_le (cur ++ backslashes n)
      unfold need paid
      cases mode <;> simp only <;> omega

/-! ### What becomes of the characters -/

def ArgvState.text : ArgvState → Text
  | .between => []
  | .arg _ cur _ => cur

theorem count_eq_sum (x : Char) (s : Text) : (s.map fun c => List.count x [c]).sum = s.count x := by
  induction s with
  | nil => rfl
  | cons c s ih =>
    rw [List.map_cons, List.sum_cons, ih, ← List.count_append]
    rfl

/-- A character that the rules do not speak of gets into an argument. -/
theorem count_splitArgs {x : Char} (hquote : x ≠ '"') (hbackslash : x ≠ '\\')
    (hblank : isBlank x = false) (s : Text) :
    ((splitArgs s).map (List.count x)).sum = s.count x := by
  have hnone (n : Nat) : (backslashes n).count x = 0 := count_backslashes hbackslash n
  have hquote' : List.count x ['"'] = 0 := List.count_eq_zero.mpr (by simp [hquote])
  have hchar (mode : QuoteMode) (cur : Text) (n : Nat) (c : Char) :
      ((argvChar mode cur n c).2.map (List.count x)).sum +
        (argvChar mode cur n c).1.text.count x = List.count x [c] + cur.count x := by
    unfold argvChar ArgvState.text
    split_ifs with h₁ h₂ h₃ h₄
    · subst h₁
      simp [hbackslash.symm]
    · subst h₂
      simp [List.count_append, hnone, hquote']
    · subst h₂
      cases mode <;> simp [List.count_append, hnone, hquote']
    · have hne : c ≠ x := by
        rintro rfl
        rw [hblank] at h₄
        cases h₄.1
      simp [List.count_append, hnone, hne]
    · simp only [List.map_nil, List.sum_nil, List.count_append, hnone]
      omega
  have heq := argv.sum_scan_eq (List.count x) (fun state => state.text.count x)
    (fun c => List.count x [c]) ?_ ?_ .between s
  · rw [count_eq_sum] at heq
    exact heq
  · rintro (_ | ⟨mode, cur, n⟩) c
    · simp only [argv]
      split
      next hc =>
        have hne : c ≠ x := by
          rintro rfl
          rw [hblank] at hc
          cases hc
        simp [ArgvState.text, hne]
      · exact hchar .outside [] 0 c
    · exact hchar mode cur n c
  · rintro (_ | ⟨mode, cur, n⟩)
    · rfl
    · simp [argv, ArgvState.text, List.count_append, hnone]

/-! ### Pieces of a command line -/

@[simp] theorem backslashes_zero : backslashes 0 = [] := rfl

theorem backslashes_succ (n : Nat) : backslashes (n + 1) = backslashes n ++ ['\\'] :=
  List.replicate_succ'

theorem scan_arg_cons (mode : QuoteMode) (cur : Text) (n : Nat) (c : Char) (s : Text) :
    argv.scan (.arg mode cur n) (c :: s) =
      (argvChar mode cur n c).2 ++ argv.scan (argvChar mode cur n c).1 s := rfl

theorem scan_between {c : Char} (hc : isBlank c = false) (s : Text) :
    argv.scan .between (c :: s) = argv.scan (.arg .outside [] 0) (c :: s) := by
  rw [Scanner.scan_cons, Scanner.scan_cons]
  simp only [argv, hc, Bool.false_eq_true, if_false]

/-- After a closing quote an argument goes on as outside of quotes. -/
theorem scan_closed {c : Char} (hc : c ≠ '"') (cur s : Text) :
    argv.scan (.arg .closed cur 0) (c :: s) = argv.scan (.arg .outside cur 0) (c :: s) := by
  have hsame : argvChar .closed cur 0 c = argvChar .outside cur 0 c := by
    unfold argvChar
    rw [if_neg hc, if_neg hc]
    simp only [QuoteMode.after, ne_eq, reduceCtorEq, not_false_eq_true]
  rw [scan_arg_cons, scan_arg_cons, hsame]

/-- Outside of quotes a blank ends the argument. -/
theorem scan_blank {mode : QuoteMode} (hmode : mode ≠ .inside) {c : Char} (hc : isBlank c = true)
    (cur : Text) (n : Nat) (s : Text) :
    argv.scan (.arg mode cur n) (c :: s) = (cur ++ backslashes n) :: argv.scan .between s := by
  have hbackslash : c ≠ '\\' := by
    rintro rfl
    cases hc
  have hquote : c ≠ '"' := by
    rintro rfl
    cases hc
  rw [scan_arg_cons]
  unfold argvChar
  rw [if_neg hbackslash, if_neg hquote]
  simp only
  rw [if_pos ⟨hc, hmode⟩]
  rfl

theorem scan_backslash (mode : QuoteMode) (cur : Text) (n : Nat) (s : Text) :
    argv.scan (.arg mode cur n) ('\\' :: s) = argv.scan (.arg mode.after cur (n + 1)) s := rfl

/-- Any other character is taken. -/
theorem scan_char {mode : QuoteMode} {c : Char} (hbackslash : c ≠ '\\') (hquote : c ≠ '"')
    (hc : mode = .inside ∨ isBlank c = false) (cur : Text) (n : Nat) (s : Text) :
    argv.scan (.arg mode cur n) (c :: s) =
      argv.scan (.arg mode.after (cur ++ backslashes n ++ [c]) 0) s := by
  have hstay : ¬ (isBlank c = true ∧ mode ≠ .inside) := by
    rintro ⟨hblank, hne⟩
    rw [hc.resolve_left hne] at hblank
    cases hblank
  rw [scan_arg_cons]
  unfold argvChar
  rw [if_neg hbackslash, if_neg hquote]
  simp only
  rw [if_neg hstay]
  rfl

/-- A quote after an odd number of backslashes is taken. -/
theorem scan_escaped (mode : QuoteMode) (cur : Text) {n : Nat} (hn : n % 2 = 1) (s : Text) :
    argv.scan (.arg mode cur n) ('"' :: s) =
      argv.scan (.arg mode.after (cur ++ backslashes (n / 2) ++ ['"']) 0) s := by
  rw [scan_arg_cons]
  unfold argvChar
  rw [if_neg (by decide), if_pos rfl]
  simp only
  rw [if_pos hn]
  rfl

/-- After an even number it opens or closes. -/
theorem scan_quote (mode : QuoteMode) (cur : Text) {n : Nat} (hn : n % 2 = 0) (s : Text) :
    argv.scan (.arg mode cur n) ('"' :: s) =
      match mode with
      | .outside => argv.scan (.arg .inside (cur ++ backslashes (n / 2)) 0) s
      | .inside => argv.scan (.arg .closed (cur ++ backslashes (n / 2)) 0) s
      | .closed => argv.scan (.arg .inside (cur ++ backslashes (n / 2) ++ ['"']) 0) s := by
  rw [scan_arg_cons]
  unfold argvChar
  rw [if_neg (by decide), if_pos rfl]
  simp only
  rw [if_neg (by omega)]
  cases mode <;> rfl

theorem scan_open (cur : Text) {n : Nat} (hn : n % 2 = 0) (s : Text) :
    argv.scan (.arg .outside cur n) ('"' :: s) =
      argv.scan (.arg .inside (cur ++ backslashes (n / 2)) 0) s := scan_quote .outside cur hn s

theorem scan_close (cur : Text) {n : Nat} (hn : n % 2 = 0) (s : Text) :
    argv.scan (.arg .inside cur n) ('"' :: s) =
      argv.scan (.arg .closed (cur ++ backslashes (n / 2)) 0) s := scan_quote .inside cur hn s

/-- The second of two quotes inside of quotes is taken. -/
theorem scan_doubled (cur s : Text) :
    argv.scan (.arg .closed cur 0) ('"' :: s) = argv.scan (.arg .inside (cur ++ ['"']) 0) s := by
  apply (scan_quote .closed cur rfl s).trans
  rw [Nat.zero_div, backslashes_zero, List.append_nil]

/-- Text without quotes is taken as it is; the backslashes at its end are kept back. -/
theorem exists_scan_text (mode : QuoteMode) (hmode : mode ≠ .closed) {w : Text}
    (hquote : '"' ∉ w) (hblank : mode = .inside ∨ ∀ c ∈ w, isBlank c = false) :
    ∃ v k, w = v ++ backslashes k ∧ v.getLast? ≠ some '\\' ∧
      ∀ cur s, argv.scan (.arg mode cur 0) (w ++ s) = argv.scan (.arg mode (cur ++ v) k) s := by
  have hafter : mode.after = mode := by
    cases mode with
    | closed => exact absurd rfl hmode
    | _ => rfl
  induction w using List.reverseRecOn with
  | nil =>
    refine ⟨[], 0, rfl, by simp, ?_⟩
    intro cur s
    rw [List.append_nil]
    rfl
  | append_singleton w c ih =>
    obtain ⟨v, k, rfl, hlast, hscan⟩ := ih (fun h => hquote (List.mem_append_left _ h))
      (hblank.imp_right fun h c hc => h c (List.mem_append_left _ hc))
    have hc : c ≠ '"' := by
      rintro rfl
      exact hquote (by simp)
    by_cases hbackslash : c = '\\'
    · subst hbackslash
      refine ⟨v, k + 1, ?_, hlast, ?_⟩
      · rw [backslashes_succ, List.append_assoc]
      · intro cur s
        rw [List.append_assoc _ ['\\'] s, hscan, List.singleton_append, scan_backslash, hafter]
    · refine ⟨v ++ backslashes k ++ [c], 0, (List.append_nil _).symm, ?_, ?_⟩
      · simpa using hbackslash
      · intro cur s
        rw [List.append_assoc _ [c] s, hscan, List.singleton_append,
          scan_char hbackslash hc (hblank.imp_right fun h => h c (by simp)), hafter,
          List.append_assoc, List.append_assoc, List.append_assoc]

/-- What has been taken stays in front of the argument. -/
theorem exists_scan_arg (mode : QuoteMode) (cur : Text) (n : Nat) (s : Text) :
    ∃ a rest, argv.scan (.arg mode cur n) s = a :: rest ∧ cur <+: a := by
  induction s generalizing mode cur n with
  | nil => exact ⟨_, [], rfl, List.prefix_append _ _⟩
  | cons c s ih =>
    have hnext (mode' : QuoteMode) (t : Text) : ∃ a rest,
        argv.scan (.arg mode' (cur ++ t) 0) s = a :: rest ∧ cur <+: a := by
      obtain ⟨a, rest, ha, hcur⟩ := ih mode' (cur ++ t) 0
      exact ⟨a, rest, ha, (List.prefix_append cur t).trans hcur⟩
    by_cases hbackslash : c = '\\'
    · subst hbackslash
      exact ih mode.after cur (n + 1)
    by_cases hquote : c = '"'
    · subst hquote
      rcases Nat.mod_two_eq_zero_or_one n with hn | hn
      · rw [scan_quote mode cur hn]
        cases mode with
        | outside => exact hnext .inside _
        | inside => exact hnext .closed _
        | closed =>
          simp only [List.append_assoc]
          exact hnext .inside _
      · rw [scan_escaped mode cur hn, List.append_assoc]
        exact hnext _ _
    by_cases hblank : mode = .inside ∨ isBlank c = false
    · rw [scan_char hbackslash hquote hblank, List.append_assoc]
      exact hnext _ _
    · rw [not_or, Bool.not_eq_false] at hblank
      rw [scan_blank hblank.1 hblank.2]
      exact ⟨_, _, rfl, List.prefix_append _ _⟩

/-! ### Single-quoted literals -/

inductive Token where
  | word (s : Text)
  | literal (s : Text)
  | semicolon
  | unterminated (s : Text)
deriving DecidableEq

/-- `closing` is right after an apostrophe that may be the first of two. -/
inductive LexState where
  | between
  | word (s : Text)
  | literal (s : Text)
  | closing (s : Text)

/-- A character where a token may begin. -/
def startToken (c : Char) : LexState × List Token :=
  if isBlank c = true then (.between, [])
  else if c = ';' then (.between, [.semicolon])
  else if c = '\'' then (.literal [], [])
  else (.word [c], [])

/-- A literal ends at a lone apostrophe, and two stand for one. -/
def lexer : Scanner LexState Token where
  step
    | .between, c => startToken c
    | .word s, c =>
      if isBlank c = true ∨ c = ';' ∨ c = '\'' then
        ((startToken c).1, .word s :: (startToken c).2)
      else (.word (s ++ [c]), [])
    | .literal s, c => if c = '\'' then (.closing s, []) else (.literal (s ++ [c]), [])
    | .closing s, c =>
      if c = '\'' then (.literal (s ++ ['\'']), [])
      else ((startToken c).1, .literal s :: (startToken c).2)
  finish
    | .between => []
    | .word s => [.word s]
    | .literal s => [.unterminated s]
    | .closing s => [.literal s]

def tokens (s : Text) : List Token := lexer.scan .between s

/-- A text without apostrophes is a literal as it is. -/
theorem scan_literal {s : Text} (hs : '\'' ∉ s) (cur rest : Text) :
    lexer.scan (.literal cur) (s ++ '\'' :: ' ' :: rest) =
      .literal (cur ++ s) :: lexer.scan .between rest := by
  induction s generalizing cur with
  | nil =>
    rw [List.append_nil]
    rfl
  | cons c s ih =>
    obtain ⟨hc, hs⟩ := not_or.mp (mt List.mem_cons.mpr hs)
    have hstep : lexer.step (.literal cur) c = (.literal (cur ++ [c]), []) := if_neg (Ne.symm hc)
    rw [List.cons_append, Scanner.scan_cons, hstep, ih hs, List.append_assoc]
    rfl

/-- The apostrophes that a token is written with. -/
def Token.apostrophes : Token → Nat
  | .word s => s.count '\''
  | .literal s => 2 + 2 * s.count '\''
  | .semicolon => 0
  | .unterminated s => 1 + 2 * s.count '\''

def LexState.apostrophes : LexState → Nat
  | .between => 0
  | .word s => s.count '\''
  | .literal s => 1 + 2 * s.count '\''
  | .closing s => 2 + 2 * s.count '\''

/-- No apostrophe gets lost. -/
theorem sum_apostrophes (s : Text) :
    ((tokens s).map Token.apostrophes).sum = s.count '\'' := by
  have hstart (c : Char) : ((startToken c).2.map Token.apostrophes).sum +
      (startToken c).1.apostrophes = List.count '\'' [c] := by
    unfold startToken
    split_ifs with h₁ h₂ h₃
    · have hne : c ≠ '\'' := by
        rintro rfl
        cases h₁
      simp [LexState.apostrophes, hne]
    · subst h₂
      rfl
    · subst h₃
      rfl
    · simp [LexState.apostrophes]
  have heq := lexer.sum_scan_eq Token.apostrophes LexState.apostrophes
    (fun c => List.count '\'' [c]) ?_ ?_ .between s
  · rw [count_eq_sum] at heq
    exact heq
  · rintro (_ | s | s | s) c
    · exact hstart c
    · simp only [lexer]
      split
      · have hc := hstart c
        have hheld : (LexState.word s).apostrophes = s.count '\'' := rfl
        simp only [List.map_cons, List.sum_cons, Token.apostrophes]
        omega
      · simp [LexState.apostrophes, List.count_append, Nat.add_comm]
    · simp only [lexer]
      split
      next h =>
        subst h
        simp [LexState.apostrophes]
        omega
      next h =>
        simp [LexState.apostrophes, List.count_append, h]
    · simp only [lexer]
      split
      next h =>
        subst h
        simp [LexState.apostrophes, List.count_append]
        omega
      next h =>
        have hc := hstart c
        have hheld : (LexState.closing s).apostrophes = 2 + 2 * s.count '\'' := rfl
        simp only [List.map_cons, List.sum_cons, Token.apostrophes]
        omega
  · rintro (_ | s | s | s) <;> rfl

end Foundation
