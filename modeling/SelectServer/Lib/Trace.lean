import Mathlib.Data.List.Basic

/- Transition systems whose steps emit lists, and observers of what they emit. An
   observer is a partial function folded over the emissions: it may stop. The two
   rules relate the state of the system to the state of the observer: along a trace
   the relation is kept if the observer goes on (`Trace.keeps`), and the observer
   does go on if every step lets it (`Trace.follows`). -/
namespace Traces
universe u v w
variable {σ : Type u} {ω : Type v} {μ : Type w}

/-- Steps in a row, with all they emit. -/
inductive Trace (step : σ → List ω → σ → Prop) : σ → List ω → σ → Prop
  | nil (s : σ) : Trace step s [] s
  | cons {s s1 s2 : σ} {a b : List ω} (h : step s a s1) (rest : Trace step s1 b s2) :
      Trace step s (a ++ b) s2

variable {step step' : σ → List ω → σ → Prop} {s s1 s2 : σ} {a b : List ω}

theorem Trace.single (h : step s a s1) : Trace step s a s1 := by
  have ht := Trace.cons h (.nil s1)
  rwa [List.append_nil] at ht

theorem Trace.append (h : Trace step s a s1) (h' : Trace step s1 b s2) :
    Trace step s (a ++ b) s2 := by
  induction h with
  | nil => exact h'
  | cons hstep _ ih =>
    rw [List.append_assoc]
    exact .cons hstep (ih h')

theorem Trace.mono (hle : ∀ s a s', step s a s' → step' s a s') (h : Trace step s a s1) :
    Trace step' s a s1 := by
  induction h with
  | nil => exact .nil _
  | cons hstep _ ih => exact .cons (hle _ _ _ hstep) ih

/-- What every step keeps, a trace keeps. -/
theorem Trace.invariant {P : σ → Prop} (hstep : ∀ s a s', step s a s' → P s → P s')
    (h : Trace step s a s1) (hs : P s) : P s1 := by
  induction h with
  | nil => exact hs
  | cons h _ ih => exact ih (hstep _ _ _ h hs)

section Observers
variable {f : μ → ω → Option μ} {R : σ → μ → Prop}

theorem Trace.keeps
    (hstep : ∀ s a s' v v', step s a s' → a.foldlM f v = some v' → R s v → R s' v')
    (h : Trace step s a s1) : ∀ {v v' : μ}, a.foldlM f v = some v' → R s v → R s1 v' := by
  induction h with
  | nil =>
    intro v v' e hR
    cases e
    exact hR
  | cons hs _ ih =>
    intro v v' e hR
    rw [List.foldlM_append] at e
    obtain ⟨mid, e1, e2⟩ := Option.bind_eq_some_iff.mp e
    exact ih e2 (hstep _ _ _ _ _ hs e1 hR)

theorem Trace.follows
    (hstep : ∀ s a s' v, step s a s' → R s v → ∃ v', a.foldlM f v = some v' ∧ R s' v')
    (h : Trace step s a s1) : ∀ {v : μ}, R s v → ∃ v', a.foldlM f v = some v' ∧ R s1 v' := by
  induction h with
  | nil => exact fun hR => ⟨_, rfl, hR⟩
  | cons hs _ ih =>
    intro v hR
    obtain ⟨mid, e1, hmid⟩ := hstep _ _ _ _ hs hR
    obtain ⟨v', e2, hv'⟩ := ih hmid
    refine ⟨v', ?_, hv'⟩
    rw [List.foldlM_append]
    exact Option.bind_eq_some_iff.mpr ⟨mid, e1, e2⟩

end Observers
end Traces
