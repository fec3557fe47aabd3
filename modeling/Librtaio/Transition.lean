/-!
# Runs of a labelled transition relation

A run keeps the states it went through with the labels of their steps, so that
a condition can be put on every step of it. The rules below are the ones a
safety proof needs: an invariant of every run, an invariant of the runs whose
steps meet a condition, a property that holds up to the first step that misses
its condition, and a simulation. A state may be a family of components, each of
which only its own labels change; then it is reached by runs of the components.
-/

namespace Librtaio.Transition

variable {σ ι : Type}

/-- The runs from `s`: the steps, each with the state before it, and the state reached. -/
inductive Run (step : σ → ι → σ → Prop) (s : σ) : List (σ × ι) → σ → Prop where
  | nil : Run step s [] s
  | snoc {log : List (σ × ι)} {t u : σ} {i : ι} (hrun : Run step s log t) (hstep : step t i u) :
      Run step s (log ++ [(t, i)]) u

/-- Every step of a run meets the condition. -/
def Meets (guard : σ → ι → Prop) (log : List (σ × ι)) : Prop := ∀ p ∈ log, guard p.1 p.2

@[simp] theorem meets_nil (guard : σ → ι → Prop) : Meets guard [] := by simp [Meets]

@[simp] theorem meets_append (guard : σ → ι → Prop) (log log' : List (σ × ι)) :
    Meets guard (log ++ log') ↔ Meets guard log ∧ Meets guard log' := by
  simp only [Meets, List.mem_append]
  exact ⟨fun h => ⟨fun p hp => h p (.inl hp), fun p hp => h p (.inr hp)⟩,
    fun h p hp => hp.elim (h.1 p) (h.2 p)⟩

@[simp] theorem meets_singleton (guard : σ → ι → Prop) (s : σ) (i : ι) :
    Meets guard [(s, i)] ↔ guard s i := by
  simp [Meets]

namespace Run

variable {step : σ → ι → σ → Prop} {s t : σ} {log : List (σ × ι)}

theorem single {i : ι} (h : step s i t) : Run step s [(s, i)] t := .snoc .nil h

theorem trans {u : σ} {log' : List (σ × ι)} (h : Run step s log t) (h' : Run step t log' u) :
    Run step s (log ++ log') u := by
  induction h' with
  | nil => rwa [List.append_nil]
  | snoc _ hstep ih =>
    rw [← List.append_assoc]
    exact .snoc ih hstep

/-- A run of some of the steps is a run. -/
theorem mono {step' : σ → ι → σ → Prop} (h : Run step s log t)
    (himp : ∀ {t i u}, step t i u → step' t i u) : Run step' s log t := by
  induction h with
  | nil => exact .nil
  | snoc _ hstep ih => exact .snoc ih (himp hstep)

/-- **Invariants.** What holds at the start and is kept by every step holds at the end. -/
theorem invariant {Inv : σ → Prop} (h : Run step s log t) (hinit : Inv s)
    (hkeep : ∀ {t i u}, Inv t → step t i u → Inv u) : Inv t := by
  induction h with
  | nil => exact hinit
  | snoc _ hstep ih => exact hkeep ih hstep

/-- **Guarded invariants.** It is enough to keep it in the steps that meet the condition. -/
theorem guarded (Inv : σ → Prop) {guard : σ → ι → Prop} (h : Run step s log t) (hinit : Inv s)
    (hguard : Meets guard log) (hkeep : ∀ {t i u}, Inv t → guard t i → step t i u → Inv u) :
    Inv t := by
  induction h with
  | nil => exact hinit
  | snoc _ hstep ih =>
    rw [meets_append, meets_singleton] at hguard
    exact hkeep (ih hguard.1) hguard.2 hstep

/-- **Properties of the past.** One that a step keeps exactly if it meets the condition
holds at the end exactly if every step did. -/
theorem good_iff {Inv Good : σ → Prop} {guard : σ → ι → Prop} (h : Run step s log t)
    (hinit : Inv s) (hgood : Good s) (hkeep : ∀ {t i u}, Inv t → step t i u → Inv u)
    (hiff : ∀ {t i u}, Inv t → step t i u → (Good u ↔ Good t ∧ guard t i)) :
    Good t ↔ Meets guard log := by
  induction h with
  | nil => simp [hgood]
  | snoc hrun hstep ih =>
    have hinv := hrun.invariant hinit hkeep
    rw [hiff hinv hstep, ih, meets_append, meets_singleton]

/-- **Simulation.** Related starts reach related states, if every step that meets the
condition is matched by a run. -/
theorem simulates {σ' ι' : Type} {step' : σ' → ι' → σ' → Prop} {R : σ → σ' → Prop}
    {guard : σ → ι → Prop} {s' : σ'} (h : Run step s log t) (hinit : R s s')
    (hguard : Meets guard log)
    (hmatch : ∀ {t i u t'}, R t t' → guard t i → step t i u →
      ∃ log' u', Run step' t' log' u' ∧ R u u') :
    ∃ log' t', Run step' s' log' t' ∧ R t t' := by
  induction h with
  | nil => exact ⟨[], s', .nil, hinit⟩
  | snoc _ hstep ih =>
    rw [meets_append, meets_singleton] at hguard
    obtain ⟨log', t', hrun', hR⟩ := ih hguard.1
    obtain ⟨log'', u', hrun'', hR'⟩ := hmatch hR hguard.2 hstep
    exact ⟨log' ++ log'', u', hrun'.trans hrun'', hR'⟩

/-- Where runs cannot be longer than some length, one comes to where it cannot go on. -/
theorem exists_stuck {n : Nat} (hle : ∀ log t, Run step s log t → log.length ≤ n) :
    ∃ log t, Run step s log t ∧ ∀ i u, ¬ step t i u := by
  have hlong (k : Nat) : (∃ log t, Run step s log t ∧ ∀ i u, ¬ step t i u) ∨
      ∃ log t, Run step s log t ∧ log.length = k := by
    induction k with
    | zero => exact .inr ⟨[], s, .nil, rfl⟩
    | succ k ih =>
      rcases ih with hstuck | ⟨log, t, hrun, hlength⟩
      · exact .inl hstuck
      · by_cases hnext : ∃ i u, step t i u
        · obtain ⟨i, u, hnext⟩ := hnext
          refine .inr ⟨log ++ [(t, i)], u, hrun.snoc hnext, ?_⟩
          rw [List.length_append, hlength]
          rfl
        · exact .inl ⟨log, t, hrun, fun i u h => hnext ⟨i, u, h⟩⟩
  rcases hlong (n + 1) with hstuck | ⟨log, t, hrun, hlength⟩
  · exact hstuck
  · have hbound := hle log t hrun
    rw [hlength] at hbound
    exact absurd hbound (Nat.not_succ_le_self n)

end Run

/-! ### Families of components -/

section Family

variable {τ κ : Type}

def labels (log : List (σ × ι)) : List ι := log.map Prod.snd

@[simp] theorem labels_nil : labels ([] : List (σ × ι)) = [] := rfl

@[simp] theorem labels_snoc (log : List (σ × ι)) (s : σ) (i : ι) :
    labels (log ++ [(s, i)]) = labels log ++ [i] := by simp [labels]

/-- What of the labels is for component `k`. -/
def visits (target : ι → Option (Nat × κ)) (k : Nat) (labels : List ι) : List κ :=
  labels.filterMap fun i => (target i).bind fun p => if p.1 = k then some p.2 else none

/-- A step of a family of components: its label is for one component or none, which takes a step
of its own, and may bring about another component. -/
structure Composed (own : τ → κ → τ → Prop) (family : σ → List τ) (target : ι → Option (Nat × κ))
    (birth : ι → Option τ) (t : σ) (i : ι) (u : σ) : Prop where
  length : (family u).length = (family t).length + (birth i).toList.length
  born : ∀ x, birth i = some x → (family u)[(family t).length]? = some x
  idle : ∀ k x, (family t)[k]? = some x → (∀ o, target i ≠ some (k, o)) → (family u)[k]? = some x
  visited : ∀ k o, target i = some (k, o) →
    ∃ x y, (family t)[k]? = some x ∧ own x o y ∧ (family u)[k]? = some y

/-- A component after a step is new, or as before, or took a step of its own. -/
theorem Composed.cases {own : τ → κ → τ → Prop} {family : σ → List τ} {target : ι → Option (Nat × κ)}
    {birth : ι → Option τ} {t u : σ} {i : ι} (h : Composed own family target birth t i u) {k : Nat}
    {y : τ} (hy : (family u)[k]? = some y) :
    (family t)[k]? = none ∧ birth i = some y ∨
      ∃ x, (family t)[k]? = some x ∧
        ((∀ o, target i ≠ some (k, o)) ∧ x = y ∨ ∃ o, target i = some (k, o) ∧ own x o y) := by
  rcases Nat.lt_or_ge k (family t).length with hk | hk
  · right
    refine ⟨_, List.getElem?_eq_getElem hk, ?_⟩
    by_cases htarget : ∃ o, target i = some (k, o)
    · obtain ⟨o, ho⟩ := htarget
      obtain ⟨x, y', hx, hstep, hy'⟩ := h.visited k o ho
      rw [List.getElem?_eq_getElem hk] at hx
      cases hx
      cases hy'.symm.trans hy
      exact .inr ⟨o, ho, hstep⟩
    · have hother (o : κ) : target i ≠ some (k, o) := fun ho => htarget ⟨o, ho⟩
      have hidle := h.idle k _ (List.getElem?_eq_getElem hk) hother
      exact .inl ⟨hother, Option.some.inj (hidle.symm.trans hy)⟩
  · left
    refine ⟨List.getElem?_eq_none hk, ?_⟩
    have hlt := (List.getElem?_eq_some_iff.mp hy).1
    rw [h.length] at hlt
    rcases hi : birth i with _ | x
    · rw [hi] at hlt
      exact absurd hlt (by simpa using hk)
    · rw [hi, Option.toList_some, List.length_singleton] at hlt
      obtain rfl : k = (family t).length := by omega
      exact (h.born x hi).symm.trans hy

section Visits

variable {target : ι → Option (Nat × κ)} {k : Nat} {labels : List ι} {i : ι}

theorem visits_snoc : visits target k (labels ++ [i]) = visits target k labels ++ visits target k [i] :=
  List.filterMap_append

theorem visits_of_target {o : κ} (h : target i = some (k, o)) : visits target k [i] = [o] := by
  simp [visits, h]

theorem visits_of_not_target (h : ∀ o, target i ≠ some (k, o)) : visits target k [i] = [] := by
  rcases hi : target i with _ | ⟨j, o⟩
  · simp [visits, hi]
  · have hne : j ≠ k := fun hj => h o (by rw [hi, hj])
    simp [visits, hi, hne]

end Visits

namespace Run

variable {step : σ → ι → σ → Prop} {s t : σ} {log : List (σ × ι)} {own : τ → κ → τ → Prop}
  {family : σ → List τ} {target : ι → Option (Nat × κ)} {birth : ι → Option τ} {Inv : σ → Prop}

theorem visits_eq_nil (h : Run step s log t) (hinit : Inv s)
    (hkeep : ∀ {t i u}, Inv t → step t i u → Inv u)
    (hcomposed : ∀ {t i u}, Inv t → step t i u → Composed own family target birth t i u) {k : Nat}
    (hk : (family t).length ≤ k) : visits target k (labels log) = [] := by
  induction h with
  | nil => rfl
  | @snoc log t u i hrun hstep ih =>
    have hc := hcomposed (hrun.invariant hinit hkeep) hstep
    have hlength := hc.length
    rw [labels_snoc, visits_snoc, ih (by omega), List.nil_append]
    apply visits_of_not_target
    intro o ho
    obtain ⟨x, y, hx, -, -⟩ := hc.visited k o ho
    have hlt := (List.getElem?_eq_some_iff.mp hx).1
    omega

theorem family_length (h : Run step s log t) (hinit : Inv s)
    (hkeep : ∀ {t i u}, Inv t → step t i u → Inv u)
    (hcomposed : ∀ {t i u}, Inv t → step t i u → Composed own family target birth t i u) :
    (family t).length = (family s ++ (labels log).filterMap birth).length := by
  induction h with
  | nil => simp
  | @snoc log t u i hrun hstep ih =>
    have hc := hcomposed (hrun.invariant hinit hkeep) hstep
    rw [hc.length, ih, labels_snoc, List.filterMap_append, ← List.append_assoc,
      List.length_append]
    cases hi : birth i <;> simp [hi, Nat.add_assoc]

/-- **Components.** Each component of the state a run reaches was reached by a run of its own, with
just the labels that were for it, from what it was brought about as. -/
theorem component (h : Run step s log t) (hinit : Inv s)
    (hkeep : ∀ {t i u}, Inv t → step t i u → Inv u)
    (hcomposed : ∀ {t i u}, Inv t → step t i u → Composed own family target birth t i u) {k : Nat}
    {y : τ} (hy : (family t)[k]? = some y) :
    ∃ x log', (family s ++ (labels log).filterMap birth)[k]? = some x ∧ Run own x log' y ∧
      labels log' = visits target k (labels log) := by
  induction h generalizing y with
  | nil => exact ⟨y, [], by simpa using hy, .nil, rfl⟩
  | @snoc log t u i hrun hstep ih =>
    have hc := hcomposed (hrun.invariant hinit hkeep) hstep
    have hlength := hrun.family_length hinit hkeep hcomposed
    rw [labels_snoc, visits_snoc, List.filterMap_append, ← List.append_assoc]
    rcases hc.cases hy with ⟨hnone, hi⟩ | ⟨z, hz, hafter⟩
    · -- the step brought it about
      have hk : k = (family t).length := by
        have hge := List.getElem?_eq_none_iff.mp hnone
        have hlt := (List.getElem?_eq_some_iff.mp hy).1
        rw [hc.length, hi, Option.toList_some, List.length_singleton] at hlt
        omega
      refine ⟨y, [], ?_, .nil, ?_⟩
      · rw [hk, hlength, List.getElem?_append_right (Nat.le_refl _), Nat.sub_self]
        simp [hi]
      · rw [hrun.visits_eq_nil hinit hkeep hcomposed (Nat.le_of_eq hk.symm), List.nil_append]
        symm
        apply visits_of_not_target
        intro o ho
        obtain ⟨z, -, hz, -, -⟩ := hc.visited _ o ho
        cases hnone.symm.trans hz
    · -- it was there before the step
      obtain ⟨x, log', hx, hown, hlabels⟩ := ih hz
      have hx' : (family s ++ (labels log).filterMap birth ++ [i].filterMap birth)[k]? = some x := by
        have hlt := (List.getElem?_eq_some_iff.mp hz).1
        rw [List.getElem?_append_left (by omega)]
        exact hx
      rcases hafter with ⟨hother, rfl⟩ | ⟨o, ho, hstep⟩
      · refine ⟨x, log', hx', hown, ?_⟩
        rw [hlabels, visits_of_not_target hother, List.append_nil]
      · exact ⟨x, _, hx', hown.snoc hstep, by rw [labels_snoc, hlabels, visits_of_target ho]⟩

end Run

end Family

end Librtaio.Transition
