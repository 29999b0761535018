import Mathlib.Data.List.Basic
import Mathlib.Tactic.Ring

/- Runs on a line. `P` marks points of a line indexed by the integers, with the
   point of interest at 0. A run of `n` marked points leaves 0 upwards and one of
   `m` leaves it downwards, each as far as it goes. A window of `len` marked
   points over 0 exists exactly when the two runs and 0 itself make up `len`. -/
namespace LineRuns

/-- The marked points right after 0 are `1 .. n`, and `n + 1` is not marked. -/
structure Run (P : Int → Prop) (n : Nat) : Prop where
  marked : ∀ k : Int, 1 ≤ k → k ≤ n → P k
  ends : ¬ P (n + 1)

/-- `len` marked points in a row, from `start` on. -/
def Window (P : Int → Prop) (len : Nat) (start : Int) : Prop :=
  ∀ k : Int, start ≤ k → k < start + len → P k

variable {P : Int → Prop} {n m len : Nat}

theorem Window.le_run {start : Int} (hw : Window P len start) (hr : Run P n) (h0 : start ≤ 0) :
    start + len ≤ n + 1 := by
  by_contra h
  exact hr.ends (hw (n + 1) (by omega) (by omega))

theorem Window.flip {start : Int} (hw : Window P len start) :
    Window (fun k => P (-k)) len (1 - start - len) := by
  intro k hlo hhi
  exact hw (-k) (by omega) (by omega)

/-- The two-sided count decides whether a window over 0 exists. -/
theorem window_over_iff (h0 : P 0) (hup : Run P n) (hdown : Run (fun k => P (-k)) m)
    (hlen : 0 < len) :
    (∃ start : Int, start ≤ 0 ∧ 0 < start + len ∧ Window P len start) ↔ len ≤ 1 + n + m := by
  constructor
  · rintro ⟨start, hlo, hhi, hw⟩
    have h1 := hw.le_run hup hlo
    have h2 := hw.flip.le_run hdown (by omega)
    omega
  · intro h
    refine ⟨-(min m (len - 1) : Nat), by omega, by omega, fun k hlo hhi => ?_⟩
    rcases lt_trichotomy k 0 with hk | rfl | hk
    · have := hdown.marked (-k) (by omega) (by omega)
      simpa using this
    · exact h0
    · exact hup.marked k (by omega) (by omega)

end LineRuns
