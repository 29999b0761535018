import Mathlib.Data.List.Basic

/- Loops that are not bounded in form. A body either goes on with a new state or
   is over with a result, and `loop` runs it for at most so many rounds; no answer
   is a loop that is still running. Once there is an answer more rounds do not
   change it (`loop_mono`). `Visits` are the states before a round; a measure that
   every round from one of them lowers bounds the rounds needed (`loop_ends`). -/
namespace Loops
universe u v
variable {σ : Type u} {ρ : Type v}

inductive Round (σ : Type u) (ρ : Type v) where
  | next (s : σ)
  | halt (r : ρ)

def loop (body : σ → Round σ ρ) : Nat → σ → Option ρ
  | 0, _ => none
  | fuel + 1, s =>
    match body s with
    | .next s' => loop body fuel s'
    | .halt r => some r

variable {body : σ → Round σ ρ}

theorem loop_next {s s' : σ} (h : body s = .next s') (fuel : Nat) :
    loop body (fuel + 1) s = loop body fuel s' := by
  rw [loop, h]

theorem loop_halt {s : σ} {r : ρ} (h : body s = .halt r) (fuel : Nat) :
    loop body (fuel + 1) s = some r := by
  rw [loop, h]

theorem loop_mono {fuel fuel' : Nat} (hle : fuel ≤ fuel') {s : σ} {r : ρ}
    (h : loop body fuel s = some r) : loop body fuel' s = some r := by
  induction fuel generalizing s fuel' with
  | zero => cases h
  | succ fuel ih =>
    obtain ⟨more, rfl⟩ : ∃ more, fuel' = more + 1 := ⟨fuel' - 1, by omega⟩
    cases hbody : body s with
    | next s' =>
      rw [loop_next hbody] at h ⊢
      exact ih (by omega) h
    | halt r' =>
      rw [loop_halt hbody] at h ⊢
      exact h

/-- The states that come before a round of the loop from `s`. -/
inductive Visits (body : σ → Round σ ρ) (s : σ) : σ → Prop
  | start : Visits body s s
  | next {a b : σ} (before : Visits body s a) (h : body a = .next b) : Visits body s b

theorem Visits.invariant {P : σ → Prop} {s s' : σ} (hs : P s)
    (hnext : ∀ a b, P a → body a = .next b → P b) (h : Visits body s s') : P s' := by
  induction h with
  | start => exact hs
  | next _ h ih => exact hnext _ _ ih h

theorem Visits.after {s s' a : σ} (hs : body s = .next s') (h : Visits body s' a) :
    Visits body s a := by
  induction h with
  | start => exact .next .start hs
  | next _ h ih => exact .next ih h

theorem loop_result {fuel : Nat} {s : σ} {r : ρ} (h : loop body fuel s = some r) :
    ∃ last, Visits body s last ∧ body last = .halt r := by
  induction fuel generalizing s with
  | zero => cases h
  | succ fuel ih =>
    cases hbody : body s with
    | halt r' =>
      rw [loop_halt hbody] at h
      cases h
      exact ⟨s, .start, hbody⟩
    | next s' =>
      rw [loop_next hbody] at h
      obtain ⟨last, hlast, hr⟩ := ih h
      exact ⟨last, hlast.after hbody, hr⟩

/-- A loop whose rounds lower a measure is over after so many of them. -/
theorem loop_ends {measure : σ → Nat} {s : σ}
    (hless : ∀ a b, Visits body s a → body a = .next b → measure b < measure a) :
    ∃ last r, Visits body s last ∧ body last = .halt r ∧
      ∀ fuel, measure s < fuel → loop body fuel s = some r := by
  induction hm : measure s using Nat.strongRecOn generalizing s with
  | ind n ih =>
    cases hbody : body s with
    | halt r =>
      refine ⟨s, r, .start, hbody, fun fuel hfuel => ?_⟩
      obtain ⟨more, rfl⟩ : ∃ more, fuel = more + 1 := ⟨fuel - 1, by omega⟩
      exact loop_halt hbody more
    | next s' =>
      have hfirst := hless s s' .start hbody
      obtain ⟨last, r, hlast, hr, hall⟩ := ih (measure s') (by omega)
        (fun a b ha => hless a b (ha.after hbody)) rfl
      refine ⟨last, r, hlast.after hbody, hr, fun fuel hfuel => ?_⟩
      obtain ⟨more, rfl⟩ : ∃ more, fuel = more + 1 := ⟨fuel - 1, by omega⟩
      rw [loop_next hbody]
      exact hall more (by omega)

end Loops
