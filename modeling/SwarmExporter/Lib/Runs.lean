import Mathlib.Data.List.Induction
import Mathlib.Order.Basic

/-!
# Runs of a guarded step function

`step s a` is the state after action `a`, or none where `a` is not enabled. A `Run` keeps its trace,
the steps in the order they were taken, each with the states around it, so that "after step i" and
"between i and j" are statements about the parts of a list. `Run.invariant` is the rule for a
property of states, `Run.history` the one for a property of the trace and the state it ends in, and
`Run.exists_done` the one for progress by a measure; `replay` runs a list of actions.
-/

namespace SwarmExporter.Lib

variable {σ α : Type}

/-- One step of a run. -/
structure Step (σ α : Type) where
  pre : σ
  act : α
  post : σ

/-- The steps `trace`, taken in order, lead from `s` to the last index. -/
inductive Run (step : σ → α → Option σ) (s : σ) : List (Step σ α) → σ → Prop
  | nil : Run step s [] s
  | snoc {trace : List (Step σ α)} {t u : σ} {a : α} :
      Run step s trace t → step t a = some u → Run step s (trace ++ [⟨t, a, u⟩]) u

namespace Run

variable {step : σ → α → Option σ} {s t u : σ} {trace trace' : List (Step σ α)} {a : α}

theorem single (h : step s a = some t) : Run step s [⟨s, a, t⟩] t := .snoc .nil h

theorem append (h : Run step s trace t) (h' : Run step t trace' u) :
    Run step s (trace ++ trace') u := by
  induction h' with
  | nil => rwa [List.append_nil]
  | snoc _ hstep ih =>
    rw [← List.append_assoc]
    exact ih.snoc hstep

theorem eq_of_nil (h : Run step s [] t) : s = t := by
  generalize hnil : [] = trace at h
  cases h with
  | nil => rfl
  | snoc => simp at hnil

theorem of_snoc {st : Step σ α} (h : Run step s (trace ++ [st]) t) :
    Run step s trace st.pre ∧ step st.pre st.act = some st.post ∧ st.post = t := by
  generalize hfull : trace ++ [st] = full at h
  cases h with
  | nil => simp at hfull
  | snoc hrun hstep =>
    obtain ⟨rfl, hst⟩ := List.append_inj' hfull rfl
    obtain rfl := List.head_eq_of_cons_eq hst
    exact ⟨hrun, hstep, rfl⟩

/-- A run over `trace ++ trace'` passes through a state between the two. -/
theorem of_append (h : Run step s (trace ++ trace') t) :
    ∃ u, Run step s trace u ∧ Run step u trace' t := by
  induction trace' using List.reverseRecOn generalizing t with
  | nil => exact ⟨t, by rwa [List.append_nil] at h, .nil⟩
  | append_singleton trace' st ih =>
    rw [← List.append_assoc] at h
    obtain ⟨hrun, hstep, rfl⟩ := of_snoc h
    obtain ⟨u, hfirst, hsecond⟩ := ih hrun
    exact ⟨u, hfirst, hsecond.snoc hstep⟩

/-- What holds at the start and is kept by every step holds at the end. -/
theorem invariant (inv : σ → Prop) (hstart : inv s)
    (hstep : ∀ t a u, inv t → step t a = some u → inv u) (h : Run step s trace t) : inv t := by
  induction h with
  | nil => exact hstart
  | snoc _ hs ih => exact hstep _ _ _ ih hs

/-- The rule for a property of the trace and the state it ends in; the step may use that the state
before it was reached. -/
theorem history (inv : List (Step σ α) → σ → Prop) (hstart : inv [] s)
    (hstep : ∀ trace t a u, Run step s trace t → inv trace t → step t a = some u →
      inv (trace ++ [⟨t, a, u⟩]) u) (h : Run step s trace t) : inv trace t := by
  induction h with
  | nil => exact hstart
  | snoc hrun hs ih => exact hstep _ _ _ _ hrun ih hs

/-- A step of the trace is one of `step`, taken where the steps before it lead. -/
theorem of_mid {before after : List (Step σ α)} {st : Step σ α}
    (h : Run step s (before ++ st :: after) t) :
    Run step s before st.pre ∧ step st.pre st.act = some st.post ∧ Run step st.post after t := by
  rw [List.append_cons] at h
  obtain ⟨u, hfirst, hafter⟩ := of_append h
  obtain ⟨hbefore, hstep, rfl⟩ := of_snoc hfirst
  exact ⟨hbefore, hstep, hafter⟩

section Measure

variable {β : Type} [Preorder β] (measure : σ → β) (inv : σ → Prop)

/-- What no step lowers, as long as `inv` holds, is never below where it started. -/
theorem monotone (hstart : inv s)
    (hstep : ∀ t a u, inv t → step t a = some u → inv u ∧ measure t ≤ measure u)
    (h : Run step s trace t) : inv t ∧ measure s ≤ measure t := by
  refine h.invariant (fun t => inv t ∧ measure s ≤ measure t) ⟨hstart, le_rfl⟩ ?_
  rintro t a u ⟨hinv, hle⟩ hs
  obtain ⟨hinv', hle'⟩ := hstep t a u hinv hs
  exact ⟨hinv', hle.trans hle'⟩

/-- Of two steps of a trace, the one whose measure is larger came later. -/
theorem later_of_lt (hstart : inv s)
    (hstep : ∀ t a u, inv t → step t a = some u → inv u ∧ measure t ≤ measure u)
    {before after before' after' : List (Step σ α)} {st st' : Step σ α}
    (h : Run step s (before ++ st :: after) t)
    (heq : before ++ st :: after = before' ++ st' :: after') (hlt : measure st.pre < measure st'.pre) :
    ∃ between, before' = before ++ st :: between ∧ after = between ++ st' :: after' := by
  rcases List.append_eq_append_iff.1 heq with ⟨between, hbefore', hafter⟩ | ⟨between, hbefore, hafter'⟩
  · cases between with
    | nil =>
      obtain ⟨rfl, -⟩ := List.cons_eq_cons.1 hafter
      exact absurd hlt (lt_irrefl _)
    | cons first between =>
      obtain ⟨rfl, rfl⟩ := List.cons_eq_cons.1 hafter
      exact ⟨between, hbefore', rfl⟩
  · cases between with
    | nil =>
      obtain ⟨rfl, -⟩ := List.cons_eq_cons.1 hafter'
      exact absurd hlt (lt_irrefl _)
    | cons first between =>
      -- The other step came first, and the measure did not fall from it to this one.
      obtain ⟨rfl, -⟩ := List.cons_eq_cons.1 hafter'
      obtain ⟨hrun, -⟩ := of_mid h
      rw [hbefore] at hrun
      obtain ⟨hprior, hfirst, hbetween⟩ := of_mid hrun
      obtain ⟨hinv, -⟩ := hprior.monotone measure inv hstart hstep
      obtain ⟨hinv', hle⟩ := hstep _ _ _ hinv hfirst
      obtain ⟨-, hle'⟩ := hbetween.monotone measure inv hinv' hstep
      exact absurd (hlt.trans_le (hle.trans hle')) (lt_irrefl _)

end Measure

section Progress

variable (measure : σ → Nat) (inv : σ → Prop)

/-- Where a counted step lowers the measure and no other step raises it, a run counts no more steps than
the measure fell by. -/
theorem count_le (counts : Step σ α → Bool) (hstart : inv s)
    (hstep : ∀ t a u, inv t → step t a = some u →
      inv u ∧ measure u + (counts ⟨t, a, u⟩).toNat ≤ measure t)
    (h : Run step s trace t) : inv t ∧ trace.countP counts + measure t ≤ measure s := by
  refine h.history (fun trace t => inv t ∧ trace.countP counts + measure t ≤ measure s)
    ⟨hstart, by simp⟩ ?_
  intro trace t a u _ hinv hs
  obtain ⟨hinv', hlower⟩ := hstep t a u hinv.1 hs
  have hle := hinv.2
  refine ⟨hinv', ?_⟩
  rw [List.countP_append, List.countP_singleton]
  cases hcounts : counts ⟨t, a, u⟩ with
  | false =>
    rw [hcounts, Bool.toNat_false] at hlower
    rw [if_neg (by simp)]
    omega
  | true =>
    rw [hcounts, Bool.toNat_true] at hlower
    rw [if_pos rfl]
    omega

/-- Where every state that is not done has a good step that lowers the measure, good steps lead to a done
state, no more of them than the measure. -/
theorem exists_done (done : σ → Prop) (good : Step σ α → Prop)
    (hstep : ∀ t, inv t → ¬done t →
      ∃ a u, step t a = some u ∧ good ⟨t, a, u⟩ ∧ inv u ∧ measure u < measure t)
    (hstart : inv s) : ∃ trace t, Run step s trace t ∧ inv t ∧ done t ∧ trace.length ≤ measure s ∧
      ∀ st ∈ trace, good st := by
  -- By induction on the measure: each step taken lowers it.
  induction hmeasure : measure s using Nat.strongRecOn generalizing s with
  | _ m ih =>
    subst hmeasure
    by_cases hdone : done s
    · exact ⟨[], s, .nil, hstart, hdone, Nat.zero_le _, by simp⟩
    obtain ⟨a, u, hs, hgood, hinv, hlower⟩ := hstep s hstart hdone
    obtain ⟨trace, t, hrun, hinv', hend, hlength, hall⟩ := ih (measure u) hlower hinv rfl
    refine ⟨⟨s, a, u⟩ :: trace, t, (single hs).append hrun, hinv', hend, ?_, ?_⟩
    · rw [List.length_cons]
      omega
    · rw [List.forall_mem_cons]
      exact ⟨hgood, hall⟩

end Progress

end Run

/-- The steps and the end state of the actions `acts`, if each is enabled where it is taken. -/
def replay (step : σ → α → Option σ) (s : σ) : List α → Option (List (Step σ α) × σ)
  | [] => some ([], s)
  | a :: acts =>
    match step s a with
    | none => none
    | some t => (replay step t acts).map fun rest => (⟨s, a, t⟩ :: rest.1, rest.2)

theorem run_of_replay {step : σ → α → Option σ} {acts : List α} {s t : σ}
    {trace : List (Step σ α)} (h : replay step s acts = some (trace, t)) : Run step s trace t := by
  induction acts generalizing s trace with
  | nil =>
    simp only [replay, Option.some.injEq, Prod.mk.injEq] at h
    obtain ⟨rfl, rfl⟩ := h
    exact .nil
  | cons a acts ih =>
    unfold replay at h
    split at h
    · cases h
    · rename_i u hstep
      obtain ⟨⟨rest, last⟩, hrest, heq⟩ := Option.map_eq_some_iff.1 h
      cases heq
      exact (Run.single hstep).append (ih hrest)

theorem map_act_of_replay {step : σ → α → Option σ} {acts : List α} {s t : σ}
    {trace : List (Step σ α)} (h : replay step s acts = some (trace, t)) :
    trace.map (·.act) = acts := by
  induction acts generalizing s trace with
  | nil =>
    simp only [replay, Option.some.injEq, Prod.mk.injEq] at h
    obtain ⟨rfl, rfl⟩ := h
    rfl
  | cons a acts ih =>
    unfold replay at h
    split at h
    · cases h
    · obtain ⟨⟨rest, last⟩, hrest, heq⟩ := Option.map_eq_some_iff.1 h
      cases heq
      rw [List.map_cons, ih hrest]

/-- A replay whose result passes `check` is a run of these actions that ends in such a result. -/
theorem exists_run_of_replay {step : σ → α → Option σ} {acts : List α} {s : σ}
    {check : List (Step σ α) × σ → Bool} (h : (replay step s acts).any check = true) :
    ∃ trace t, Run step s trace t ∧ trace.map (·.act) = acts ∧ check (trace, t) = true := by
  obtain ⟨⟨trace, t⟩, hreplay, hcheck⟩ := (Option.any_eq_true _ _).1 h
  exact ⟨trace, t, run_of_replay hreplay, map_act_of_replay hreplay, hcheck⟩

/-- The last step of a replay, where a check on it holds. -/
theorem exists_last_of_replay {step : σ → α → Option σ} {acts : List α} {act : α} {s : σ}
    {check : Step σ α → Bool}
    (h : (replay step s (acts ++ [act])).any (fun result => result.1.getLast?.any check) = true) :
    ∃ trace st, Run step s trace st.pre ∧ step st.pre st.act = some st.post ∧ st.act = act ∧
      check st = true := by
  obtain ⟨trace, t, hrun, hacts, hcheck⟩ := exists_run_of_replay h
  obtain ⟨before, rest, rfl, -, hrest⟩ := List.map_eq_append_iff.1 hacts
  obtain ⟨st, rfl, hact⟩ := List.map_eq_singleton_iff.1 hrest
  obtain ⟨hbefore, hstep, -⟩ := hrun.of_snoc
  rw [List.getLast?_concat, Option.any_some] at hcheck
  exact ⟨before, st, hbefore, hstep, hact, hcheck⟩

end SwarmExporter.Lib
