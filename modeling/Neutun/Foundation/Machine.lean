/-
  Neutun/Foundation/Machine.lean
  ==============================
  Event-driven machines and their runs.

  A `Machine` is a set of start states and a partial step function over named
  events: `step s e = none` says that the event cannot happen in `s`.  Every
  scheduling decision and every answer of the environment is part of the event,
  so a run is nothing but a list of events, and a statement about "every
  interleaving" is a statement about every list.

  The rules below are the only inductions over runs:

    * `run_invariant`  : what every step keeps, every run keeps; the steps may
      be restricted by a guard (`Meets`) on the state before the step;
    * `run_trace`      : the same for a property that also speaks about what the
      steps of the run have put out so far;
    * `run_foldl`      : a state that every step carries along;
    * `run_simulates`  : two machines that do alike event by event do so in whole
      runs;
    * `run_origin`     : what a run ends with and did not start with, some step
      of it brought about;
    * `always_iff_meets` : what holds throughout exactly the runs whose steps meet
      a condition;
    * `run_unwinding`  : runs of which somebody sees the same look the same to them
      in the end;
    * `run_bounded`, `exists_stuck` : steps that use something up come to an end.
-/
import Mathlib.Data.List.Basic

namespace Foundation

/-- A machine over states `σ` and events `ε`. -/
structure Machine (σ : Type*) (ε : Type*) where
  start : σ → Prop
  step : σ → ε → Option σ

namespace Machine

variable {σ ε ω : Type*} (M : Machine σ ε)

/-! ### Runs -/

/-- The state after a list of events, if every one of them could happen. -/
def run : σ → List ε → Option σ
  | s, [] => some s
  | s, e :: es => (M.step s e).bind fun t => run t es

theorem run_cons (s : σ) (e : ε) (es : List ε) :
    M.run s (e :: es) = (M.step s e).bind fun t => M.run t es := rfl

/-- Inversion of a non-empty run: its first step and the rest. -/
theorem run_cons_eq_some {s u : σ} {e : ε} {es : List ε} :
    M.run s (e :: es) = some u ↔ ∃ t, M.step s e = some t ∧ M.run t es = some u := by
  rw [run_cons, Option.bind_eq_some_iff]

theorem run_append (s : σ) (es fs : List ε) :
    M.run s (es ++ fs) = (M.run s es).bind fun t => M.run t fs := by
  induction es generalizing s with
  | nil => rfl
  | cons e es ih =>
    rw [List.cons_append, run_cons, run_cons, Option.bind_assoc]
    exact congrArg _ (funext ih)

theorem run_append_eq_some {s u : σ} {es fs : List ε} :
    M.run s (es ++ fs) = some u ↔ ∃ t, M.run s es = some t ∧ M.run t fs = some u := by
  rw [run_append, Option.bind_eq_some_iff]

theorem run_singleton (s : σ) (e : ε) : M.run s [e] = M.step s e := by
  rw [run_cons]
  cases M.step s e <;> rfl

/-- A state some run leads to. -/
def Reachable (s : σ) : Prop := ∃ s₀ es, M.start s₀ ∧ M.run s₀ es = some s

/-! ### Conditions on the steps and on the states of a run -/

/-- Every step of the run is taken in a state where `guard` allows it. -/
def Meets (guard : σ → ε → Prop) : σ → List ε → Prop
  | _, [] => True
  | s, e :: es => guard s e ∧ ∀ t, M.step s e = some t → Meets guard t es

/-- Every state of the run, the first one included, satisfies `P`. -/
def Always (P : σ → Prop) : σ → List ε → Prop
  | s, [] => P s
  | s, e :: es => P s ∧ ∀ t, M.step s e = some t → Always P t es

variable {M}

/-- The condition can be evaluated along a run of an executable machine. -/
instance Meets.decidable (guard : σ → ε → Prop) [∀ s e, Decidable (guard s e)] :
    ∀ (s : σ) (es : List ε), Decidable (M.Meets guard s es)
  | _, [] => isTrue trivial
  | s, e :: es =>
    have : Decidable (∀ t, M.step s e = some t → M.Meets guard t es) :=
      match M.step s e with
      | none => isTrue nofun
      | some t =>
        match Meets.decidable guard t es with
        | isTrue h => isTrue fun _ hu => Option.some.inj hu ▸ h
        | isFalse h => isFalse fun hall => h (hall t rfl)
    inferInstanceAs (Decidable (_ ∧ _))

theorem Meets.cons {guard : σ → ε → Prop} {s t : σ} {e : ε} {es : List ε} (hg : guard s e)
    (hstep : M.step s e = some t) (hrest : M.Meets guard t es) : M.Meets guard s (e :: es) := by
  refine ⟨hg, ?_⟩
  intro u hu
  obtain rfl : t = u := Option.some.inj (hstep.symm.trans hu)
  exact hrest

theorem Meets.append {guard : σ → ε → Prop} {s : σ} {es fs : List ε} (h : M.Meets guard s es)
    (hrest : ∀ t, M.run s es = some t → M.Meets guard t fs) : M.Meets guard s (es ++ fs) := by
  induction es generalizing s with
  | nil => exact hrest s rfl
  | cons e es ih =>
    refine ⟨h.1, ?_⟩
    intro u hu
    exact ih (h.2 u hu) fun t ht => hrest t (M.run_cons_eq_some.mpr ⟨u, hu, ht⟩)

theorem Meets.and {guard guard' : σ → ε → Prop} :
    ∀ {s : σ} {es : List ε}, M.Meets guard s es → M.Meets guard' s es →
      M.Meets (fun s e => guard s e ∧ guard' s e) s es
  | _, [], _, _ => trivial
  | _, _ :: _, h, h' => ⟨⟨h.1, h'.1⟩, fun t ht => Meets.and (h.2 t ht) (h'.2 t ht)⟩

theorem meets_of_forall {guard : σ → ε → Prop} (h : ∀ s e, guard s e) :
    ∀ (s : σ) (es : List ε), M.Meets guard s es
  | _, [] => trivial
  | s, e :: es => ⟨h s e, fun t _ => meets_of_forall h t es⟩

/-- A condition that the events of a run meet in any state. -/
theorem meets_of_mem {guard : σ → ε → Prop} :
    ∀ {s : σ} {es : List ε}, (∀ e ∈ es, ∀ s, guard s e) → M.Meets guard s es
  | _, [], _ => trivial
  | s, e :: _, h => ⟨h e List.mem_cons_self s,
      fun _ _ => meets_of_mem fun e he => h e (List.mem_cons_of_mem _ he)⟩

theorem meets_true (s : σ) (es : List ε) : M.Meets (fun _ _ => True) s es :=
  meets_of_forall (fun _ _ => trivial) s es

theorem Always.head {P : σ → Prop} {s : σ} {es : List ε} (h : M.Always P s es) : P s := by
  cases es with
  | nil => exact h
  | cons e es => exact h.1

theorem Always.last {P : σ → Prop} {s t : σ} {es : List ε} (h : M.Always P s es)
    (hrun : M.run s es = some t) : P t := by
  induction es generalizing s with
  | nil =>
    obtain rfl : s = t := Option.some.inj hrun
    exact h
  | cons e es ih =>
    obtain ⟨u, hu, hrest⟩ := (M.run_cons_eq_some).mp hrun
    exact ih (h.2 u hu) hrest

theorem Always.mono {P Q : σ → Prop} (hsub : ∀ s, P s → Q s) :
    ∀ {s : σ} {es : List ε}, M.Always P s es → M.Always Q s es
  | _, [], h => hsub _ h
  | _, _ :: _, h => ⟨hsub _ h.1, fun t ht => Always.mono hsub (h.2 t ht)⟩

/-- A run that keeps `P` throughout keeps it after each of its prefixes. -/
theorem always_iff_prefixes {P : σ → Prop} {s : σ} {es : List ε} :
    M.Always P s es ↔ ∀ fs gs t, es = fs ++ gs → M.run s fs = some t → P t := by
  constructor
  · rintro h fs gs t rfl hrun
    induction fs generalizing s with
    | nil =>
      obtain rfl : s = t := Option.some.inj hrun
      exact h.head
    | cons e fs ih =>
      obtain ⟨u, hu, hrest⟩ := (M.run_cons_eq_some).mp hrun
      exact ih (h.2 u hu) hrest
  · intro h
    induction es generalizing s with
    | nil => exact h [] [] s rfl rfl
    | cons e es ih =>
      refine ⟨h [] (e :: es) s rfl rfl, fun u hu => ih ?_⟩
      intro fs gs t hes hrun
      exact h (e :: fs) gs t (by rw [hes]; rfl) (M.run_cons_eq_some.mpr ⟨u, hu, hrun⟩)

/-! ### The invariant rules -/

/-- What every guarded step keeps holds in every state of a guarded run. -/
theorem always_of_invariant {I : σ → Prop} {guard : σ → ε → Prop}
    (hstep : ∀ s e t, I s → guard s e → M.step s e = some t → I t) :
    ∀ {s : σ} {es : List ε}, I s → M.Meets guard s es → M.Always I s es
  | _, [], hs, _ => hs
  | _, _ :: _, hs, hg =>
    ⟨hs, fun t ht => always_of_invariant hstep (hstep _ _ t hs hg.1 ht) (hg.2 t ht)⟩

/-- A condition that the invariant turns into another one. -/
theorem Meets.of_invariant {I : σ → Prop} {guard guard' : σ → ε → Prop}
    (hstep : ∀ s e t, I s → guard s e → M.step s e = some t → I t)
    (h : ∀ s e, I s → guard s e → guard' s e) {s : σ} {es : List ε} (hs : I s)
    (hmeets : M.Meets guard s es) : M.Meets guard' s es := by
  induction es generalizing s with
  | nil => trivial
  | cons e es ih =>
    refine ⟨h s e hs hmeets.1, ?_⟩
    intro t ht
    exact ih (hstep s e t hs hmeets.1 ht) (hmeets.2 t ht)

/-- What every guarded step keeps holds at the end of a guarded run. -/
theorem run_invariant {I : σ → Prop} {G : σ → ε → Prop}
    (hstep : ∀ s e t, I s → G s e → M.step s e = some t → I t)
    {s t : σ} {es : List ε} (hs : I s) (hg : M.Meets G s es) (hrun : M.run s es = some t) :
    I t :=
  (always_of_invariant hstep hs hg).last hrun

/-- A run follows a fold over its events, if its steps do. -/
theorem run_foldl {τ : Type*} {R : σ → τ → Prop} {f : τ → ε → τ} {guard : σ → ε → Prop}
    (hstep : ∀ s c e t, R s c → guard s e → M.step s e = some t → R t (f c e)) {s t : σ} {c : τ}
    {es : List ε} (hs : R s c) (hmeets : M.Meets guard s es) (hrun : M.run s es = some t) :
    R t (es.foldl f c) := by
  induction es generalizing s c with
  | nil =>
    obtain rfl : s = t := Option.some.inj hrun
    exact hs
  | cons e es ih =>
    obtain ⟨u, hu, hrest⟩ := (M.run_cons_eq_some).mp hrun
    exact ih (hstep s c e u hs hmeets.1 hu) (hmeets.2 u hu) hrest

/-- Two machines that do alike on related states, event by event, do alike on runs. -/
theorem run_simulates {τ δ : Type*} {N : Machine τ δ} {f : ε → δ} {R : σ → τ → Prop}
    {guard : σ → ε → Prop}
    (hstep : ∀ s u e, R s u → guard s e → Option.Rel R (M.step s e) (N.step u (f e))) :
    ∀ {s : σ} {u : τ} {es : List ε}, R s u → M.Meets guard s es →
      Option.Rel R (M.run s es) (N.run u (es.map f))
  | _, _, [], hR, _ => .some hR
  | s, u, e :: es, hR, hmeets => by
    have hfirst := hstep s u e hR hmeets.1
    have hrest := hmeets.2
    rw [List.map_cons, M.run_cons, N.run_cons]
    generalize M.step s e = t at hfirst hrest
    generalize N.step u (f e) = v at hfirst
    cases hfirst with
    | none => exact .none
    | some hR' => exact run_simulates hstep hR' (hrest _ rfl)

/-- An invariant of every step holds in every reachable state. -/
theorem Reachable.invariant {I : σ → Prop} (h₀ : ∀ s, M.start s → I s)
    (hstep : ∀ s e t, I s → M.step s e = some t → I t) {s : σ} (h : M.Reachable s) : I s := by
  obtain ⟨s₀, es, hs₀, hrun⟩ := h
  exact run_invariant (G := fun _ _ => True) (fun s e t hI _ ht => hstep s e t hI ht)
    (h₀ s₀ hs₀) (meets_true s₀ es) hrun

/-- Two conditions that agree on the steps of a run are met by the same runs. -/
theorem meets_congr {I : σ → Prop} {guard guard' : σ → ε → Prop}
    (hI : ∀ s e t, I s → M.step s e = some t → I t)
    (h : ∀ s e t, I s → M.step s e = some t → (guard s e ↔ guard' s e)) :
    ∀ {s t : σ} {es : List ε}, I s → M.run s es = some t →
      (M.Meets guard s es ↔ M.Meets guard' s es)
  | _, _, [], _, _ => Iff.rfl
  | s, t, e :: es, hs, hrun => by
    obtain ⟨u, hu, hrest⟩ := (M.run_cons_eq_some).mp hrun
    refine and_congr (h s e u hs hu) (forall_congr' fun v => ?_)
    refine imp_congr_right fun hv => ?_
    obtain rfl : u = v := Option.some.inj (hu.symm.trans hv)
    exact meets_congr hI h (hI s e u hs hu) hrest

/-- What a run ends with and did not start with was brought about by one of its
    steps. -/
theorem run_origin {I P : σ → Prop} {Q : σ → ε → Prop}
    (hI : ∀ s e t, I s → M.step s e = some t → I t)
    (hstep : ∀ s e t, I s → M.step s e = some t → P t → P s ∨ Q s e) {s t : σ} {es : List ε}
    (hs : I s) (hnot : ¬ P s) (hrun : M.run s es = some t) (ht : P t) :
    ∃ fs e gs u, es = fs ++ e :: gs ∧ M.run s fs = some u ∧ I u ∧ Q u e := by
  induction es generalizing s with
  | nil =>
    obtain rfl : s = t := Option.some.inj hrun
    exact absurd ht hnot
  | cons e es ih =>
    obtain ⟨u, hu, hrest⟩ := (M.run_cons_eq_some).mp hrun
    by_cases hPu : P u
    · rcases hstep s e u hs hu hPu with hPs | hQ
      · exact absurd hPs hnot
      · exact ⟨[], e, es, s, rfl, rfl, hs, hQ⟩
    · obtain ⟨fs, e', gs, v, hes, hv, hIv, hQ⟩ := ih (hI s e u hs hu) hPu hrest
      exact ⟨e :: fs, e', gs, v, by rw [hes]; rfl, (M.run_cons_eq_some).mpr ⟨u, hu, hv⟩, hIv, hQ⟩

/-- Among the runs whose steps are of a domain `D`, those that keep `P` throughout
    are exactly those whose steps meet a condition that, under the invariant `I`,
    is necessary and sufficient for `P` after the step. -/
theorem always_iff_meets {I P : σ → Prop} {D guard : σ → ε → Prop}
    (hP : ∀ s, I s → P s)
    (hstep : ∀ s e t, I s → D s e → M.step s e = some t → (guard s e → I t))
    (hnec : ∀ s e t, I s → D s e → M.step s e = some t → P t → guard s e) :
    ∀ {s t : σ} {es : List ε}, I s → M.Meets D s es → M.run s es = some t →
      (M.Always P s es ↔ M.Meets guard s es)
  | _, _, [], hs, _, _ => ⟨fun _ => trivial, fun _ => hP _ hs⟩
  | s, _, e :: es, hs, hD, hrun => by
    obtain ⟨u, hu, hrest⟩ := (M.run_cons_eq_some).mp hrun
    constructor
    · intro h
      have hg : guard s e := hnec s e u hs hD.1 hu (h.2 u hu).head
      refine ⟨hg, ?_⟩
      intro t ht
      obtain rfl : u = t := Option.some.inj (hu.symm.trans ht)
      exact (always_iff_meets hP hstep hnec (hstep s e u hs hD.1 hu hg) (hD.2 u hu) hrest).mp
        (h.2 u hu)
    · intro h
      refine ⟨hP s hs, ?_⟩
      intro t ht
      obtain rfl : u = t := Option.some.inj (hu.symm.trans ht)
      exact (always_iff_meets hP hstep hnec (hstep s e u hs hD.1 hu h.1) (hD.2 u hu) hrest).mpr
        (h.2 u hu)

/-! ### What a run puts out -/

variable (M)

/-- The outputs of the steps of a run, in order. -/
def trace (out : σ → ε → List ω) : σ → List ε → List ω
  | _, [] => []
  | s, e :: es => out s e ++ ((M.step s e).elim [] fun t => trace out t es)

variable {M}

theorem trace_cons {out : σ → ε → List ω} {s t : σ} {e : ε} {es : List ε}
    (h : M.step s e = some t) : M.trace out s (e :: es) = out s e ++ M.trace out t es := by
  rw [trace, h]
  rfl

theorem trace_append {out : σ → ε → List ω} :
    ∀ {s t : σ} {es : List ε}, M.run s es = some t → ∀ fs,
      M.trace out s (es ++ fs) = M.trace out s es ++ M.trace out t fs
  | s, t, [], hrun, fs => by
    obtain rfl : s = t := Option.some.inj hrun
    rfl
  | s, t, e :: es, hrun, fs => by
    obtain ⟨u, hu, hrest⟩ := (M.run_cons_eq_some).mp hrun
    rw [List.cons_append, trace_cons hu, trace_cons hu, trace_append hrest fs, List.append_assoc]

/-- What a run has put out, one of its steps has. -/
theorem exists_of_mem_trace {out : σ → ε → List ω} {x : ω} :
    ∀ {s : σ} {es : List ε}, x ∈ M.trace out s es → ∃ e ∈ es, ∃ u, x ∈ out u e
  | s, e :: es, h => by
    rw [trace, List.mem_append] at h
    rcases h with h | h
    · exact ⟨e, List.mem_cons_self, s, h⟩
    · cases hstep : M.step s e with
      | none =>
        rw [hstep] at h
        cases h
      | some u =>
        rw [hstep] at h
        obtain ⟨f, hf, v, hv⟩ := exists_of_mem_trace h
        exact ⟨f, List.mem_cons_of_mem e hf, v, hv⟩

/-- What can be read off the output of each step can be read off the output of the run. -/
theorem flatMap_trace {α : Type*} {out : σ → ε → List ω} {f : ω → List α} {g : ε → List α}
    (hstep : ∀ s e t, M.step s e = some t → (out s e).flatMap f = g e) :
    ∀ {s t : σ} {es : List ε}, M.run s es = some t →
      (M.trace out s es).flatMap f = es.flatMap g
  | _, _, [], _ => rfl
  | s, t, e :: es, hrun => by
    obtain ⟨u, hu, hrest⟩ := (M.run_cons_eq_some).mp hrun
    rw [trace_cons hu, List.flatMap_append, hstep s e u hu, flatMap_trace hstep hrest]
    rfl

/-- The invariant rule for properties of the state and of all output so far, from the
    middle of a run. -/
theorem run_trace_from {I : σ → List ω → Prop} {guard : σ → ε → Prop} {out : σ → ε → List ω}
    (hstep : ∀ s e t log, I s log → guard s e → M.step s e = some t → I t (log ++ out s e)) :
    ∀ {s t : σ} {es : List ε} {log : List ω}, I s log → M.Meets guard s es →
      M.run s es = some t → I t (log ++ M.trace out s es)
  | s, t, [], log, hs, _, hrun => by
    obtain rfl : s = t := Option.some.inj hrun
    rw [trace, List.append_nil]
    exact hs
  | s, t, e :: es, log, hs, hg, hrun => by
    obtain ⟨u, hu, hrest⟩ := (M.run_cons_eq_some).mp hrun
    rw [trace_cons hu, ← List.append_assoc]
    exact run_trace_from hstep (hstep s e u log hs hg.1 hu) (hg.2 u hu) hrest

/-- The same for a whole run. -/
theorem run_trace {I : σ → List ω → Prop} {guard : σ → ε → Prop} {out : σ → ε → List ω}
    (hstep : ∀ s e t log, I s log → guard s e → M.step s e = some t → I t (log ++ out s e))
    {s t : σ} {es : List ε} (hs : I s []) (hg : M.Meets guard s es) (hrun : M.run s es = some t) :
    I t (M.trace out s es) :=
  run_trace_from hstep hs hg hrun

/-! ### Views

Noninterference by unwinding.  Someone sees a `view` of the state and some of the
steps.  If steps they do not see leave the view as it is, and steps they see
alike change equal views alike, then two runs of which they see the same steps
end in states that look the same. -/

section Views

variable {ν : Type*} {I : σ → Prop} {G : σ → ε → Prop} (view : σ → ν) (seen : σ → ε → Option ω)
  (hI : ∀ s e t, I s → G s e → M.step s e = some t → I t)
  (hquiet : ∀ s e t, I s → G s e → M.step s e = some t → seen s e = none → view t = view s)

include hI hquiet

/-- A run of which nothing is seen. -/
theorem view_of_trace_nil : ∀ {es : List ε} {s t : σ}, I s → M.Meets G s es →
    M.run s es = some t → M.trace (fun s e => (seen s e).toList) s es = [] → view t = view s
  | [], s, t, _, _, hrun, _ => by
    obtain rfl : s = t := Option.some.inj hrun
    rfl
  | e :: es, s, t, hs, hG, hrun, htrace => by
    obtain ⟨u, hu, hrest⟩ := (M.run_cons_eq_some).mp hrun
    rw [trace_cons hu, List.append_eq_nil_iff] at htrace
    have hnone : seen s e = none := Option.toList_eq_nil_iff.mp htrace.1
    exact (view_of_trace_nil (hI s e u hs hG.1 hu) (hG.2 u hu) hrest htrace.2).trans
      (hquiet s e u hs hG.1 hu hnone)

/-- A run up to and with the first step of it that is seen. -/
theorem run_until_seen {o : ω} {log : List ω} : ∀ {es : List ε} {s t : σ}, I s →
    M.Meets G s es → M.run s es = some t →
    M.trace (fun s e => (seen s e).toList) s es = o :: log →
    ∃ u e v rest, I u ∧ view u = view s ∧ M.step u e = some v ∧ seen u e = some o ∧
      I v ∧ M.Meets G v rest ∧ M.run v rest = some t ∧
      M.trace (fun s e => (seen s e).toList) v rest = log
  | [], _, _, _, _, _, htrace => nomatch htrace
  | e :: es, s, t, hs, hG, hrun, htrace => by
    obtain ⟨u, hu, hrest⟩ := (M.run_cons_eq_some).mp hrun
    have hIu := hI s e u hs hG.1 hu
    rw [trace_cons hu] at htrace
    cases ho : seen s e with
    | none =>
      rw [ho] at htrace
      obtain ⟨u', e', v, rest, hIu', hview, hstep⟩ := run_until_seen hIu (hG.2 u hu) hrest htrace
      exact ⟨u', e', v, rest, hIu', hview.trans (hquiet s e u hs hG.1 hu ho), hstep⟩
    | some o' =>
      rw [ho] at htrace
      obtain ⟨rfl, hlog⟩ := List.cons.inj htrace
      exact ⟨s, e, u, es, hs, rfl, hu, ho, hIu, hG.2 u hu, hrest, hlog⟩

/-- Runs of which the same is seen end in states that look the same. -/
theorem run_unwinding
    (hloud : ∀ s₁ s₂ e₁ e₂ t₁ t₂ o, I s₁ → I s₂ → view s₁ = view s₂ → M.step s₁ e₁ = some t₁ →
      M.step s₂ e₂ = some t₂ → seen s₁ e₁ = some o → seen s₂ e₂ = some o → view t₁ = view t₂)
    {log : List ω} : ∀ {es₁ es₂ : List ε} {s₁ s₂ t₁ t₂ : σ}, I s₁ → I s₂ → view s₁ = view s₂ →
      M.Meets G s₁ es₁ → M.Meets G s₂ es₂ → M.run s₁ es₁ = some t₁ → M.run s₂ es₂ = some t₂ →
      M.trace (fun s e => (seen s e).toList) s₁ es₁ = log →
      M.trace (fun s e => (seen s e).toList) s₂ es₂ = log → view t₁ = view t₂ := by
  induction log with
  | nil =>
    intro es₁ es₂ s₁ s₂ t₁ t₂ hI₁ hI₂ hview hG₁ hG₂ h₁ h₂ htrace₁ htrace₂
    rw [view_of_trace_nil view seen hI hquiet hI₁ hG₁ h₁ htrace₁, hview,
      view_of_trace_nil view seen hI hquiet hI₂ hG₂ h₂ htrace₂]
  | cons o log ih =>
    intro es₁ es₂ s₁ s₂ t₁ t₂ hI₁ hI₂ hview hG₁ hG₂ h₁ h₂ htrace₁ htrace₂
    obtain ⟨u₁, e₁, v₁, rest₁, hIu₁, hview₁, hstep₁, hseen₁, hIv₁, hGv₁, hrun₁, hlog₁⟩ :=
      run_until_seen view seen hI hquiet hI₁ hG₁ h₁ htrace₁
    obtain ⟨u₂, e₂, v₂, rest₂, hIu₂, hview₂, hstep₂, hseen₂, hIv₂, hGv₂, hrun₂, hlog₂⟩ :=
      run_until_seen view seen hI hquiet hI₂ hG₂ h₂ htrace₂
    have hsame : view u₁ = view u₂ := by rw [hview₁, hview, hview₂]
    exact ih hIv₁ hIv₂ (hloud u₁ u₂ e₁ e₂ v₁ v₂ o hIu₁ hIu₂ hsame hstep₁ hstep₂ hseen₁ hseen₂)
      hGv₁ hGv₂ hrun₁ hrun₂ hlog₁ hlog₂

end Views

/-! ### Progress

Steps of a kind `D` that keep the invariant `I` and use up the measure `μ` cannot
go on for ever: there are no more of them than the measure allows, and when none
is possible any more the run is `Stuck`. -/

section Progress

/-- No step of the kind `D` is possible. -/
def Stuck (M : Machine σ ε) (D : ε → Prop) (s : σ) : Prop := ∀ e, D e → M.step s e = none

variable {I : σ → Prop} {D : ε → Prop} {μ : σ → Nat}
  (hstep : ∀ s e t, I s → D e → M.step s e = some t → I t ∧ μ t < μ s)

include hstep

theorem run_bounded {s t : σ} {es : List ε} (hs : I s) (hes : ∀ e ∈ es, D e)
    (hrun : M.run s es = some t) : I t ∧ es.length + μ t ≤ μ s := by
  induction es generalizing s with
  | nil =>
    obtain rfl : s = t := Option.some.inj hrun
    exact ⟨hs, Nat.le_of_eq (Nat.zero_add _)⟩
  | cons e es ih =>
    obtain ⟨u, hu, hrest⟩ := (M.run_cons_eq_some).mp hrun
    obtain ⟨hIu, hless⟩ := hstep s e u hs (hes e List.mem_cons_self) hu
    obtain ⟨hIt, hbound⟩ := ih hIu (fun f hf => hes f (List.mem_cons_of_mem e hf)) hrest
    refine ⟨hIt, ?_⟩
    rw [List.length_cons]
    omega

/-- Some run of such steps gets stuck. -/
theorem exists_stuck {s : σ} (hs : I s) :
    ∃ es t, (∀ e ∈ es, D e) ∧ M.run s es = some t ∧ M.Stuck D t := by
  generalize hn : μ s = n
  induction n using Nat.strongRecOn generalizing s with
  | _ n ih =>
    by_cases hstuck : M.Stuck D s
    · exact ⟨[], s, nofun, rfl, hstuck⟩
    · obtain ⟨e, he, hne⟩ : ∃ e, D e ∧ M.step s e ≠ none := by
        by_contra hall
        exact hstuck fun e he => by_contra fun hne => hall ⟨e, he, hne⟩
      obtain ⟨u, hu⟩ := Option.ne_none_iff_exists'.mp hne
      obtain ⟨hIu, hless⟩ := hstep s e u hs he hu
      obtain ⟨es, t, hes, hrun, ht⟩ := ih (μ u) (hn ▸ hless) hIu rfl
      refine ⟨e :: es, t, ?_, (M.run_cons_eq_some).mpr ⟨u, hu, hrun⟩, ht⟩
      intro f hf
      rcases List.mem_cons.mp hf with rfl | hf
      · exact he
      · exact hes f hf

end Progress

end Machine

end Foundation
