/-
  Neutun/Cli/Quoting.lean
  =======================
  The command line of a daemon on Windows (`spawn_detached` in `daemon.rs`).

  The arguments go through two languages: each with a space in it is put between
  double quotes, and the line they make is put between single quotes in a
  PowerShell command.  Neither pair of quotes is escaped inside.
-/
import Neutun.Foundation.Quoting

namespace Neutun.Cli

open Foundation

/-! ### The command -/

def quoteArg (a : Text) : Text := if ' ' ∈ a then '"' :: a ++ ['"'] else a

def argsStr (args : List Text) : Text := [' '].intercalate (args.map quoteArg)

/-- The `-Command` of `spawn_detached`. -/
def psCommand (exe : Text) (args : List Text) : Text :=
  if argsStr args = [] then
    "$p = Start-Process -FilePath '".toList ++ exe ++
      "' -WindowStyle Hidden -PassThru; $p.Id".toList
  else
    "$p = Start-Process -FilePath '".toList ++ exe ++ "' -ArgumentList '".toList ++
      argsStr args ++ "' -WindowStyle Hidden -PassThru; $p.Id".toList

/-! ### What PowerShell starts -/

/-- A call of `Start-Process` with what `spawn_detached` means to give it. -/
structure StartProcess where
  filePath : Text
  argumentList : Option Text

def StartProcess.tokens (call : StartProcess) : List Token :=
  [.word "$p".toList, .word "=".toList, .word "Start-Process".toList, .word "-FilePath".toList,
    .literal call.filePath] ++
  call.argumentList.elim [] (fun args => [.word "-ArgumentList".toList, .literal args]) ++
  [.word "-WindowStyle".toList, .word "Hidden".toList, .word "-PassThru".toList, .semicolon,
    .word "$p.Id".toList]

/-- The command is one such call, for the executable and with these arguments. -/
def SurvivesQuoting (exe : Text) (args : List Text) : Prop :=
  ∃ call : StartProcess, tokens (psCommand exe args) = call.tokens ∧ call.filePath = exe ∧
    splitArgs (call.argumentList.getD []) = args

/-! ### Command lines that are split where they were joined -/

/-- An argument that the quotes around it, if it gets any, are right for. -/
structure Plain (a : Text) : Prop where
  nonempty : a ≠ []
  quote : '"' ∉ a
  tab : ' ' ∉ a → '\t' ∉ a
  last : ' ' ∈ a → a.getLast? ≠ some '\\'

/-- Plain arguments, but that the last of them, if it gets quotes, may end in one. -/
def Separable : List Text → Prop
  | [] => True
  | [a] => Plain a ∨ ∃ b, a = b ++ ['"'] ∧ Plain b ∧ ' ' ∈ b
  | a :: b :: rest => Plain a ∧ Separable (b :: rest)

/-- The rest of the line after an argument. -/
def restStr : List Text → Text
  | [] => []
  | b :: rest => ' ' :: argsStr (b :: rest)

variable {a : Text} {rest : List Text}

theorem argsStr_cons : argsStr (a :: rest) = quoteArg a ++ restStr rest := by
  cases rest with
  | nil =>
    rw [restStr, List.append_nil]
    exact List.intercalate_singleton
  | cons b rest =>
    rw [argsStr, List.map_cons, List.map_cons, List.intercalate_cons_cons, List.append_assoc]
    rfl

theorem quoteArg_spaced (h : ' ' ∈ a) : quoteArg a = '"' :: (a ++ ['"']) := if_pos h

theorem quoteArg_unspaced (h : ' ' ∉ a) : quoteArg a = a := if_neg h

theorem isBlank_eq_false (h : ' ' ∉ a) (htab : '\t' ∉ a) : ∀ c ∈ a, isBlank c = false := by
  intro c hc
  have hspace : c ≠ ' ' := fun heq => h (heq ▸ hc)
  have htab' : c ≠ '\t' := fun heq => htab (heq ▸ hc)
  simp [isBlank, hspace, htab']

/-- Outside of quotes the rest of the line ends the argument. -/
theorem scan_restStr (mode : QuoteMode) (hmode : mode ≠ .inside) (cur : Text) (n : Nat) :
    argv.scan (.arg mode cur n) (restStr rest) =
      (cur ++ backslashes n) :: splitArgs (argsStr rest) := by
  cases rest with
  | nil => rfl
  | cons b rest => exact scan_blank hmode rfl cur n _

/-- Inside of quotes it goes on with the argument, if there is any. -/
theorem scan_restStr_inside (rest : List Text) (cur : Text) (n : Nat) :
    rest = [] ∧ argv.scan (.arg .inside cur n) (restStr rest) = [cur ++ backslashes n] ∨
      ∃ a' rest', argv.scan (.arg .inside cur n) (restStr rest) = a' :: rest' ∧
        cur ++ backslashes n ++ [' '] <+: a' := by
  cases rest with
  | nil => exact Or.inl ⟨rfl, rfl⟩
  | cons b rest =>
    right
    rw [restStr, scan_char (by decide) (by decide) (Or.inl rfl)]
    exact exists_scan_arg _ _ _ _

/-- An argument with a space is read from its opening quote on. -/
theorem splitArgs_spaced (h : ' ' ∈ a) (s : Text) :
    splitArgs (quoteArg a ++ s) = argv.scan (.arg .inside [] 0) (a ++ '"' :: s) := by
  rw [quoteArg_spaced h, List.cons_append, splitArgs, scan_between rfl,
    scan_open [] rfl, List.append_assoc]
  rfl

theorem splitArgs_unspaced (hne : a ≠ []) (h : ' ' ∉ a) (htab : '\t' ∉ a) (s : Text) :
    splitArgs (quoteArg a ++ s) = argv.scan (.arg .outside [] 0) (a ++ s) := by
  rw [quoteArg_unspaced h]
  cases a with
  | nil => exact absurd rfl hne
  | cons c a => exact scan_between (isBlank_eq_false h htab c List.mem_cons_self) _

/-- No backslash is at the end of a text that does not end in one. -/
theorem eq_zero_of_getLast? {v : Text} {k : Nat}
    (h : (v ++ backslashes k).getLast? ≠ some '\\') : k = 0 := by
  cases k with
  | zero => rfl
  | succ k =>
    rw [backslashes_succ, ← List.append_assoc, List.getLast?_concat] at h
    exact absurd rfl h

/-- A text between quotes is taken as it is. -/
theorem scan_quoted {b : Text} (hquote : '"' ∉ b) (hlast : b.getLast? ≠ some '\\') (s : Text) :
    argv.scan (.arg .inside [] 0) (b ++ '"' :: s) = argv.scan (.arg .closed b 0) s := by
  obtain ⟨v, k, rfl, -, hscan⟩ := exists_scan_text .inside (by decide) hquote (Or.inl rfl)
  obtain rfl := eq_zero_of_getLast? hlast
  rw [hscan, scan_close _ rfl, List.nil_append]

theorem splitArgs_plain (ha : Plain a) (rest : List Text) :
    splitArgs (quoteArg a ++ restStr rest) = a :: splitArgs (argsStr rest) := by
  by_cases hspace : ' ' ∈ a
  · rw [splitArgs_spaced hspace, scan_quoted ha.quote (ha.last hspace),
      scan_restStr .closed (by decide), backslashes_zero, List.append_nil]
  · have htab := ha.tab hspace
    obtain ⟨v, k, hv, -, hscan⟩ := exists_scan_text .outside (by decide) ha.quote
      (Or.inr (isBlank_eq_false hspace htab))
    rw [splitArgs_unspaced ha.nonempty hspace htab, hscan, scan_restStr .outside (by decide), hv]
    rfl

/-- Where the last argument ends in a quote, that and the closing one are read as one
    quote, and the line ends inside of quotes. -/
theorem splitArgs_last {b : Text} (hb : Plain b) (hspace : ' ' ∈ b) :
    splitArgs (argsStr [b ++ ['"']]) = [b ++ ['"']] := by
  rw [argsStr_cons, splitArgs_spaced (List.mem_append_left _ hspace), List.append_assoc,
    List.singleton_append, scan_quoted hb.quote (hb.last hspace), scan_doubled]
  exact congrArg (fun text => [text]) (List.append_nil _)

theorem splitArgs_argsStr : ∀ {args : List Text}, Separable args → splitArgs (argsStr args) = args
  | [], _ => rfl
  | [a], Or.inl ha => by
    rw [argsStr_cons, splitArgs_plain ha]
    rfl
  | [_], Or.inr ⟨b, rfl, hb, hspace⟩ => splitArgs_last hb hspace
  | a :: b :: rest, ⟨ha, hrest⟩ => by
    rw [argsStr_cons, splitArgs_plain ha, splitArgs_argsStr hrest]

/-! ### What a line costs that is split where it was joined -/

/-- The part of an argument's price that `quoteArg` does not pay. -/
def unpaid (a : Text) : Nat := a.count '"' + if ' ' ∈ a then 0 else quoting a

theorem need_eq (a : Text) : need a = (quoteArg a).length + 1 + unpaid a := by
  unfold need unpaid
  by_cases hspace : ' ' ∈ a
  · have hquoting : quoting a = 2 := by
      apply if_pos
      right
      rw [List.any_eq_true]
      exact ⟨' ', hspace, rfl⟩
    rw [quoteArg_spaced hspace, if_pos hspace, hquoting, List.length_cons, List.length_append,
      List.length_singleton]
    omega
  · rw [quoteArg_unspaced hspace, if_neg hspace]
    omega

theorem length_restStr (rest : List Text) :
    (restStr rest).length = (rest.map fun a => (quoteArg a).length + 1).sum := by
  induction rest with
  | nil => rfl
  | cons b rest ih =>
    rw [restStr, argsStr_cons, List.length_cons, List.length_append, ih, List.map_cons,
      List.sum_cons]
    omega

/-- The arguments leave at most one character unpaid. -/
theorem sum_unpaid_le {args : List Text} (h : splitArgs (argsStr args) = args) :
    (args.map unpaid).sum ≤ 1 := by
  cases args with
  | nil => exact Nat.zero_le 1
  | cons a rest =>
    have hle := sum_need_le (argsStr (a :: rest))
    have hsum (args : List Text) : (args.map need).sum =
        (args.map fun a => (quoteArg a).length + 1).sum + (args.map unpaid).sum := by
      rw [← List.sum_map_add]
      exact congrArg List.sum (List.map_congr_left fun a _ => need_eq a)
    rw [h, hsum, argsStr_cons, List.length_append, length_restStr, List.map_cons,
      List.sum_cons] at hle
    omega

/-! ### The first argument of such a line -/

theorem not_prefix_backslashes {v t : Text} {k' k : Nat} (hlt : k' < k) :
    ¬ v ++ backslashes k' ++ ['"'] <+: v ++ backslashes k ++ t := by
  obtain ⟨d, rfl⟩ := Nat.exists_eq_add_of_lt hlt
  have hsplit : backslashes (k' + d + 1) = backslashes k' ++ '\\' :: backslashes d := by
    rw [backslashes, Nat.add_assoc, ← List.replicate_append_replicate]
    rfl
  rw [hsplit, List.append_assoc, List.append_assoc, List.append_assoc,
    List.prefix_append_right_inj, List.prefix_append_right_inj, List.cons_append]
  intro h
  cases (List.cons_prefix_cons.mp h).1

/-- Without a quote in it, it does not end in a backslash before the closing quote. -/
theorem getLast?_of_splitArgs (hspace : ' ' ∈ a) (hquote : '"' ∉ a)
    (h : splitArgs (quoteArg a ++ restStr rest) = a :: rest) : a.getLast? ≠ some '\\' := by
  intro hlast
  obtain ⟨v, k, rfl, hv, hscan⟩ := exists_scan_text .inside (by decide) hquote (Or.inl rfl)
  have hk : 0 < k := by
    apply Nat.pos_of_ne_zero
    rintro rfl
    rw [backslashes_zero, List.append_nil] at hlast
    exact hv hlast
  rw [splitArgs_spaced hspace, hscan, List.nil_append] at h
  rcases Nat.mod_two_eq_zero_or_one k with heven | hodd
  · rw [scan_close _ heven, scan_restStr .closed (by decide)] at h
    have hlength := congrArg List.length (List.cons.inj h).1
    simp only [List.length_append, length_backslashes] at hlength
    omega
  · rw [scan_escaped _ _ hodd] at h
    obtain ⟨a', rest', ha', htaken⟩ := exists_scan_arg QuoteMode.inside.after
      (v ++ backslashes (k / 2) ++ ['"']) 0 (restStr rest)
    obtain rfl := (List.cons.inj (h.symm.trans ha')).1
    exact hquote (htaken.mem (by simp))

variable {u w : Text}

/-- It has no quote without a space. -/
theorem not_splitArgs_unspaced (hspace : ' ' ∉ u ++ '"' :: w) (htab : '\t' ∉ u ++ '"' :: w)
    (hu : '"' ∉ u) (hw : '"' ∉ w) :
    splitArgs (quoteArg (u ++ '"' :: w) ++ restStr rest) ≠ (u ++ '"' :: w) :: rest := by
  intro h
  have hblank := isBlank_eq_false hspace htab
  obtain ⟨v, k, rfl, -, hscan⟩ := exists_scan_text .outside (by decide) hu
    (Or.inr fun c hc => hblank c (List.mem_append_left _ hc))
  rw [splitArgs_unspaced (by simp) hspace htab, List.append_assoc, hscan, List.nil_append,
    List.cons_append] at h
  rcases Nat.mod_two_eq_zero_or_one k with heven | hodd
  · obtain ⟨v', k', rfl, -, hscan'⟩ := exists_scan_text .inside (by decide) hw (Or.inl rfl)
    rw [scan_open _ heven, hscan'] at h
    rcases scan_restStr_inside rest (v ++ backslashes (k / 2) ++ v') k' with ⟨rfl, hend⟩ |
      ⟨a', rest', hmore, htaken⟩
    · have hlength := congrArg List.length (List.cons.inj (h.symm.trans hend)).1
      simp only [List.length_append, List.length_cons, length_backslashes] at hlength
      omega
    · obtain rfl := (List.cons.inj (h.symm.trans hmore)).1
      exact hspace (htaken.mem (by simp))
  · rw [scan_escaped _ _ hodd] at h
    obtain ⟨a', rest', ha', htaken⟩ := exists_scan_arg QuoteMode.outside.after
      (v ++ backslashes (k / 2) ++ ['"']) 0 (w ++ restStr rest)
    obtain rfl := (List.cons.inj (h.symm.trans ha')).1
    exact not_prefix_backslashes (by omega) htaken

theorem quote_not_mem_backslashes (n : Nat) : '"' ∉ backslashes n := by
  intro h
  cases List.eq_of_mem_replicate h

/-- It does not go on after a closed pair of quotes, to end in a quote that opens
    another, -/
theorem not_scan_reopened {v : Text} {k : Nat} (hv : '"' ∉ v) (hw : '"' ∉ w)
    (hblank : ∀ c ∈ w, isBlank c = false) :
    argv.scan (.arg .outside (v ++ backslashes (k / 2)) 0) (w ++ '"' :: restStr rest) ≠
      (v ++ backslashes k ++ '"' :: w) :: rest := by
  intro h
  obtain ⟨v', k', rfl, -, hscan⟩ := exists_scan_text .outside (by decide) hw (Or.inr hblank)
  have hv' : '"' ∉ v' := fun hmem => hw (List.mem_append_left _ hmem)
  rw [hscan] at h
  rcases Nat.mod_two_eq_zero_or_one k' with heven | hodd
  · rw [scan_open _ heven] at h
    rcases scan_restStr_inside rest _ 0 with ⟨-, hend⟩ | ⟨a', rest', hmore, htaken⟩
    · have heq := (List.cons.inj (h.symm.trans hend)).1
      have hmem : '"' ∈ v ++ backslashes k ++ '"' :: (v' ++ backslashes k') := by simp
      rw [heq] at hmem
      simp [hv, hv', quote_not_mem_backslashes] at hmem
    · obtain rfl := (List.cons.inj (h.symm.trans hmore)).1
      simp only [List.append_assoc, List.prefix_append_right_inj] at htaken
      have hmem : ' ' ∈ backslashes k ++ '"' :: (v' ++ backslashes k') := htaken.mem (by simp)
      rcases List.mem_append.mp hmem with hmem | hmem
      · cases List.eq_of_mem_replicate hmem
      · rcases List.mem_cons.mp hmem with hmem | hmem
        · cases hmem
        · cases hblank ' ' hmem
  · rw [scan_escaped _ _ hodd] at h
    have hend := h.symm.trans (scan_restStr .outside (by decide) _ 0)
    have hlength := congrArg List.length (List.cons.inj hend).1
    simp only [List.length_append, List.length_cons, length_backslashes, List.length_nil]
      at hlength
    omega

theorem exists_first_blank (h : ¬ ∀ c ∈ w, isBlank c = false) :
    ∃ w₁ b w₂, w = w₁ ++ b :: w₂ ∧ isBlank b = true ∧ ∀ c ∈ w₁, isBlank c = false := by
  simp only [not_forall, Bool.not_eq_false] at h
  obtain ⟨c, hc, hblank⟩ := h
  obtain ⟨b, hfind⟩ := Option.isSome_iff_exists.mp (List.find?_isSome.mpr ⟨c, hc, hblank⟩)
  obtain ⟨hb, w₁, w₂, rfl, hw₁⟩ := List.find?_eq_some_iff_append.mp hfind
  exact ⟨w₁, b, w₂, rfl, hb, fun c hc => by simpa using hw₁ c hc⟩

/-- and not to a blank, which would end it. -/
theorem not_scan_ended {v : Text} {k : Nat} (hv : '"' ∉ v) (hw : '"' ∉ w)
    (hblank : ¬ ∀ c ∈ w, isBlank c = false) :
    argv.scan (.arg .outside (v ++ backslashes (k / 2)) 0) (w ++ '"' :: restStr rest) ≠
      (v ++ backslashes k ++ '"' :: w) :: rest := by
  intro h
  obtain ⟨w₁, b, w₂, rfl, hb, hw₁⟩ := exists_first_blank hblank
  have hquote : '"' ∉ w₁ := fun hmem => hw (List.mem_append_left _ hmem)
  obtain ⟨v', k', rfl, -, hscan⟩ := exists_scan_text .outside (by decide) hquote (Or.inr hw₁)
  have hv' : '"' ∉ v' := fun hmem => hquote (List.mem_append_left _ hmem)
  rw [List.append_assoc, hscan, List.cons_append, scan_blank (by decide) hb] at h
  have heq := (List.cons.inj h).1
  have hmem : '"' ∈ v ++ backslashes k ++ '"' :: (v' ++ backslashes k' ++ b :: w₂) := by simp
  rw [← heq] at hmem
  simp [hv, hv', quote_not_mem_backslashes] at hmem

/-- What follows a closed pair of quotes has no quote to end in, so that the second
    quote of an argument with a space is its last character, and nothing follows. -/
theorem of_splitArgs_spaced (hspace : ' ' ∈ u ++ '"' :: w) (hu : '"' ∉ u) (hw : '"' ∉ w)
    (h : splitArgs (quoteArg (u ++ '"' :: w) ++ restStr rest) = (u ++ '"' :: w) :: rest) :
    w = [] ∧ u.getLast? ≠ some '\\' ∧ rest = [] := by
  obtain ⟨v, k, rfl, hlast, hscan⟩ := exists_scan_text .inside (by decide) hu (Or.inl rfl)
  rw [splitArgs_spaced hspace, List.append_assoc, hscan, List.nil_append, List.cons_append] at h
  rcases Nat.mod_two_eq_zero_or_one k with heven | hodd
  · rw [scan_close _ heven] at h
    cases w with
    | nil =>
      rw [List.nil_append, scan_doubled] at h
      have hk : k = 0 := by
        by_contra hne
        obtain ⟨a', rest', ha', htaken⟩ := exists_scan_arg .inside
          (v ++ backslashes (k / 2) ++ ['"']) 0 (restStr rest)
        obtain rfl := (List.cons.inj (h.symm.trans ha')).1
        exact not_prefix_backslashes (by omega) htaken
      subst hk
      refine ⟨rfl, ?_, ?_⟩
      · rw [backslashes_zero, List.append_nil]
        exact hlast
      · rcases scan_restStr_inside rest (v ++ backslashes (0 / 2) ++ ['"']) 0 with ⟨rfl, -⟩ |
          ⟨a', rest', hmore, htaken⟩
        · rfl
        · obtain rfl := (List.cons.inj (h.symm.trans hmore)).1
          have hlength := htaken.length_le
          simp only [List.length_append, List.length_singleton, length_backslashes] at hlength
          omega
    | cons c w =>
      exfalso
      have hc : c ≠ '"' := by
        rintro rfl
        exact hw List.mem_cons_self
      rw [List.cons_append, scan_closed hc, ← List.cons_append] at h
      have hv : '"' ∉ v := fun hmem => hu (List.mem_append_left _ hmem)
      by_cases hblank : ∀ b ∈ c :: w, isBlank b = false
      · exact not_scan_reopened hv hw hblank h
      · exact not_scan_ended hv hw hblank h
  · rw [scan_escaped _ _ hodd] at h
    obtain ⟨a', rest', ha', htaken⟩ := exists_scan_arg QuoteMode.inside.after
      (v ++ backslashes (k / 2) ++ ['"']) 0 (w ++ '"' :: restStr rest)
    obtain rfl := (List.cons.inj (h.symm.trans ha')).1
    exact absurd htaken (not_prefix_backslashes (by omega))

/-- What an argument that leaves so little unpaid is made of. -/
theorem of_unpaid_le_one (h : unpaid a ≤ 1) :
    a ≠ [] ∧ (' ' ∉ a → '\t' ∉ a) ∧ a.count '"' ≤ 1 := by
  -- a pair of quotes would be too much
  have hpair : (if ' ' ∈ a then 0 else quoting a) = 0 := by
    unfold unpaid quoting at *
    split_ifs at * <;> omega
  have hcount : a.count '"' ≤ 1 := le_trans (Nat.le_add_right _ _) h
  by_cases hspace : ' ' ∈ a
  · exact ⟨List.ne_nil_of_mem hspace, fun hno => absurd hspace hno, hcount⟩
  · rw [if_neg hspace, quoting] at hpair
    have hno : ¬ (a = [] ∨ a.any isBlank = true) := by
      intro hyes
      rw [if_pos hyes] at hpair
      cases hpair
    rw [not_or] at hno
    refine ⟨hno.1, ?_, hcount⟩
    intro _ htab
    exact hno.2 (List.any_eq_true.mpr ⟨'\t', htab, rfl⟩)

theorem separable_of_splitArgs {args : List Text} (hsum : (args.map unpaid).sum ≤ 1)
    (h : splitArgs (argsStr args) = args) : Separable args := by
  induction args with
  | nil => trivial
  | cons a rest ih =>
    rw [argsStr_cons] at h
    rw [List.map_cons, List.sum_cons] at hsum
    obtain ⟨hne, htab, hcount⟩ := of_unpaid_le_one (le_trans (Nat.le_add_right _ _) hsum)
    by_cases hquote : '"' ∈ a
    · obtain ⟨u, w, rfl, hu⟩ := List.eq_append_cons_of_mem hquote
      have hw : '"' ∉ w := by
        rw [List.count_append, List.count_cons_self, List.count_eq_zero.mpr hu] at hcount
        exact List.count_eq_zero.mp (by omega)
      by_cases hspace : ' ' ∈ u ++ '"' :: w
      · obtain ⟨rfl, hlast, rfl⟩ := of_splitArgs_spaced hspace hu hw h
        have hu' : ' ' ∈ u := by simpa using hspace
        refine Or.inr ⟨u, rfl, ?_, hu'⟩
        exact ⟨List.ne_nil_of_mem hu', hu, fun hno => absurd hu' hno, fun _ => hlast⟩
      · exact absurd h (not_splitArgs_unspaced hspace (htab hspace) hu hw)
    · have ha : Plain a :=
        ⟨hne, hquote, htab, fun hspace => getLast?_of_splitArgs hspace hquote h⟩
      rw [splitArgs_plain ha] at h
      have hrest := ih (by omega) (List.cons.inj h).2
      cases rest with
      | nil => exact Or.inl ha
      | cons b rest => exact ⟨ha, hrest⟩

/-! ### The PowerShell command -/

theorem count_argsStr (args : List Text) :
    (argsStr args).count '\'' = (args.map (List.count '\'')).sum := by
  have hquoteArg (a : Text) : (quoteArg a).count '\'' = a.count '\'' := by
    unfold quoteArg
    split
    · simp [List.count_append]
    · rfl
  have hrestStr (rest : List Text) :
      (restStr rest).count '\'' = (rest.map (List.count '\'')).sum := by
    induction rest with
    | nil => rfl
    | cons b rest ih =>
      rw [restStr, argsStr_cons, List.count_cons_of_ne (by decide), List.count_append, hquoteArg,
        ih, List.map_cons, List.sum_cons]
  cases args with
  | nil => rfl
  | cons a rest =>
    rw [argsStr_cons, List.count_append, hquoteArg, hrestStr, List.map_cons, List.sum_cons]

/-- The call that the command is meant to be. -/
def intended (exe : Text) (args : List Text) : StartProcess :=
  ⟨exe, if argsStr args = [] then none else some (argsStr args)⟩

theorem tokens_psCommand {exe : Text} {args : List Text} (hexe : '\'' ∉ exe)
    (hargs : '\'' ∉ argsStr args) : tokens (psCommand exe args) = (intended exe args).tokens := by
  have hstart : lexer.steps .between "$p = Start-Process -FilePath '".toList =
      (.literal [], [.word "$p".toList, .word "=".toList, .word "Start-Process".toList,
        .word "-FilePath".toList]) := rfl
  have hlist : lexer.steps .between "-ArgumentList '".toList =
      (.literal [], [.word "-ArgumentList".toList]) := rfl
  have hend : lexer.scan .between "-WindowStyle Hidden -PassThru; $p.Id".toList =
      [.word "-WindowStyle".toList, .word "Hidden".toList, .word "-PassThru".toList, .semicolon,
        .word "$p.Id".toList] := rfl
  have hclose : "' -WindowStyle Hidden -PassThru; $p.Id".toList =
      '\'' :: ' ' :: "-WindowStyle Hidden -PassThru; $p.Id".toList := rfl
  have hnext (s : Text) : "' -ArgumentList '".toList ++ s =
      '\'' :: ' ' :: ("-ArgumentList '".toList ++ s) := rfl
  unfold tokens psCommand intended
  split
  · rw [List.append_assoc, Scanner.scan_append, hstart, hclose, scan_literal hexe, hend]
    rfl
  · simp only [List.append_assoc]
    rw [Scanner.scan_append, hstart, hnext, scan_literal hexe, Scanner.scan_append, hlist, hclose,
      scan_literal hargs, hend]
    rfl

theorem count_psCommand (exe : Text) (args : List Text) : (psCommand exe args).count '\'' =
    if argsStr args = [] then 2 + exe.count '\''
    else 4 + exe.count '\'' + (argsStr args).count '\'' := by
  have hstart : "$p = Start-Process -FilePath '".toList.count '\'' = 1 := by decide
  have hnext : "' -ArgumentList '".toList.count '\'' = 2 := by decide
  have hend : "' -WindowStyle Hidden -PassThru; $p.Id".toList.count '\'' = 1 := by decide
  unfold psCommand
  split
  · rw [List.count_append, List.count_append, hstart, hend]
    omega
  · rw [List.count_append, List.count_append, List.count_append, List.count_append, hstart, hnext,
      hend]
    omega

theorem apostrophes_tokens (call : StartProcess) :
    (call.tokens.map Token.apostrophes).sum =
      2 + 2 * call.filePath.count '\'' +
        call.argumentList.elim 0 fun args => 2 + 2 * args.count '\'' := by
  obtain ⟨exe, list⟩ := call
  cases list <;> simp [StartProcess.tokens, Token.apostrophes]

/-- A command that is read as a call for the executable and the arguments has no
    apostrophe but the four that it is quoted with. -/
theorem no_apostrophes {exe : Text} {args : List Text} (h : SurvivesQuoting exe args) :
    '\'' ∉ exe ∧ '\'' ∉ argsStr args := by
  obtain ⟨call, htokens, rfl, hsplit⟩ := h
  have hcount := sum_apostrophes (psCommand call.filePath args)
  rw [htokens, apostrophes_tokens, count_psCommand] at hcount
  rw [← List.count_eq_zero, ← List.count_eq_zero]
  cases hlist : call.argumentList with
  | none =>
    rw [hlist, Option.getD_none] at hsplit
    obtain rfl : [] = args := hsplit
    have hempty : argsStr [] = [] := rfl
    rw [hlist, if_pos hempty, Option.elim_none] at hcount
    exact ⟨by omega, rfl⟩
  | some line =>
    rw [hlist, Option.getD_some] at hsplit
    have hline : (argsStr args).count '\'' = line.count '\'' := by
      rw [count_argsStr, ← count_splitArgs (by decide) (by decide) rfl line, hsplit]
    rw [hlist, Option.elim_some] at hcount
    split at hcount <;> omega

theorem StartProcess.tokens_injective : Function.Injective StartProcess.tokens := by
  rintro ⟨exe, _ | line⟩ ⟨exe', _ | line'⟩ h
  all_goals simp [StartProcess.tokens] at h ⊢
  all_goals exact h

theorem argumentList_intended (exe : Text) (args : List Text) :
    (intended exe args).argumentList.getD [] = argsStr args := by
  unfold intended
  by_cases hempty : argsStr args = []
  · rw [if_pos hempty, hempty]
    rfl
  · rw [if_neg hempty]
    rfl

theorem separable_of_survives {exe : Text} {args : List Text} (h : SurvivesQuoting exe args) :
    Separable args := by
  obtain ⟨hexe, hargs⟩ := no_apostrophes h
  obtain ⟨call, htokens, -, hsplit⟩ := h
  obtain rfl : intended exe args = call :=
    StartProcess.tokens_injective ((tokens_psCommand hexe hargs).symm.trans htokens)
  rw [argumentList_intended] at hsplit
  exact separable_of_splitArgs (sum_unpaid_le hsplit) hsplit

/-- A daemon on Windows is started with the arguments it is meant to get exactly if
    neither its path nor they have an apostrophe and they can be told apart. -/
theorem spawn_detached_iff (exe : Text) (args : List Text) : SurvivesQuoting exe args ↔
    '\'' ∉ exe ∧ (∀ a ∈ args, '\'' ∉ a) ∧ Separable args := by
  have hmem : '\'' ∉ argsStr args ↔ ∀ a ∈ args, '\'' ∉ a := by
    rw [← List.count_eq_zero, count_argsStr, List.sum_eq_zero_iff_forall_eq_nat]
    simp [List.count_eq_zero]
  rw [← hmem]
  constructor
  · intro h
    obtain ⟨hexe, hargs⟩ := no_apostrophes h
    exact ⟨hexe, hargs, separable_of_survives h⟩
  · rintro ⟨hexe, hargs, hsep⟩
    refine ⟨intended exe args, tokens_psCommand hexe hargs, rfl, ?_⟩
    rw [argumentList_intended, splitArgs_argsStr hsep]

/-- A path with an apostrophe, an argument that is empty, one that ends in a backslash
    and one with quotes. -/
theorem quoting_lost :
    ¬ SurvivesQuoting "C:\\Users\\O'Neil\\neutun.exe".toList ["-p".toList, "80".toList] ∧
      ¬ SurvivesQuoting "neutun.exe".toList ["-k".toList, []] ∧
      ¬ SurvivesQuoting "neutun.exe".toList ["-k".toList, "a b\\".toList] ∧
      ¬ SurvivesQuoting "neutun.exe".toList ["-k".toList, "\"a\"".toList] := by
  refine ⟨?_, ?_, ?_, ?_⟩
  · intro h
    exact (no_apostrophes h).1 (by decide)
  · intro h
    rcases (separable_of_survives h).2 with ha | ⟨b, hb, -⟩
    · exact ha.nonempty rfl
    · simp at hb
  · intro h
    rcases (separable_of_survives h).2 with ha | ⟨b, hb, -⟩
    · exact ha.last (by decide) rfl
    · have hlast := congrArg List.getLast? hb
      rw [List.getLast?_concat] at hlast
      cases hlast
  · intro h
    rcases (separable_of_survives h).2 with ha | ⟨b, hb, hplain, hspace⟩
    · exact ha.quote (by decide)
    · have hspace' : ' ' ∈ "\"a\"".toList := by
        rw [hb]
        exact List.mem_append_left _ hspace
      revert hspace'
      decide

end Neutun.Cli
