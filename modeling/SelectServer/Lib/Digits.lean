import Mathlib.Data.Nat.Digits.Defs

/- Numbers written with the most significant digit first, and a reader that
   keeps the value of what it has read below a bound. The reader never forms a
   value over the bound: before each digit it compares the value it has with a
   quotient that depends on the digit. -/
namespace Digits

/-- The number whose digits in base `b` are `ds`. -/
def number (b : Nat) (ds : List Nat) : Nat := Nat.ofDigits b ds.reverse

theorem number_nil (b : Nat) : number b [] = 0 := by simp [number]

/-- One more digit is one more step of Horner's rule. -/
theorem number_concat (b : Nat) (ds : List Nat) (d : Nat) :
    number b (ds ++ [d]) = number b ds * b + d := by
  unfold number
  rw [List.reverse_append, List.reverse_singleton, List.singleton_append, Nat.ofDigits_cons,
    Nat.mul_comm, Nat.add_comm]

theorem number_le_append {b : Nat} (hb : 0 < b) (ds es : List Nat) :
    number b ds ≤ number b (ds ++ es) := by
  induction es generalizing ds with
  | nil => rw [List.append_nil]
  | cons e es ih =>
    have hstep : number b ds ≤ number b (ds ++ [e]) := by
      rw [number_concat]
      exact Nat.le_trans (Nat.le_mul_of_pos_right _ hb) (Nat.le_add_right _ _)
    calc number b ds ≤ number b (ds ++ [e]) := hstep
      _ ≤ number b (ds ++ [e] ++ es) := ih (ds ++ [e])
      _ = number b (ds ++ e :: es) := by rw [List.append_assoc, List.singleton_append]

/-- The quotient is exact: a digit passes the comparison if and only if the
    next value respects the bound. -/
theorem guard_iff {b bound value d : Nat} (hb : 0 < b) (hd : d ≤ bound) :
    value ≤ (bound - d) / b ↔ value * b + d ≤ bound := by
  rw [Nat.le_div_iff_mul_le hb]
  omega

/-- One digit: none where the next value would exceed the bound. -/
def readDigit (b bound value d : Nat) : Option Nat :=
  if value > (bound - d) / b then none else some (value * b + d)

def read (b bound : Nat) : List Nat → Nat → Option Nat
  | [], value => some value
  | d :: ds, value => (readDigit b bound value d).bind (read b bound ds)

theorem readDigit_eq {b bound value d : Nat} (hb : 0 < b) (hd : d ≤ bound) :
    readDigit b bound value d = if value * b + d ≤ bound then some (value * b + d) else none := by
  have hguard := @guard_iff b bound value d hb hd
  unfold readDigit
  by_cases hle : value * b + d ≤ bound
  · rw [if_neg (Nat.not_lt.mpr (hguard.mpr hle)), if_pos hle]
  · rw [if_pos (Nat.not_le.mp fun h => hle (hguard.mp h)), if_neg hle]

/-- The reader with `pre` already read. A digit it refuses leads to a number over
    the bound whatever follows, since a number is no smaller than its prefixes. -/
theorem read_from {b bound : Nat} (hb : 0 < b) (ds pre : List Nat) (hds : ∀ d ∈ ds, d ≤ bound)
    (hpre : number b pre ≤ bound) : read b bound ds (number b pre) =
      if number b (pre ++ ds) ≤ bound then some (number b (pre ++ ds)) else none := by
  induction ds generalizing pre with
  | nil => rw [List.append_nil, if_pos hpre, read]
  | cons d ds ih =>
    have hsplit : pre ++ d :: ds = pre ++ [d] ++ ds := by simp
    rw [read, readDigit_eq hb (hds d (by simp)), ← number_concat, hsplit]
    by_cases hnext : number b (pre ++ [d]) ≤ bound
    · rw [if_pos hnext, Option.bind_some]
      exact ih (pre ++ [d]) (fun e he => hds e (by simp [he])) hnext
    · have hlong := number_le_append hb (pre ++ [d]) ds
      rw [if_neg hnext, if_neg (by omega), Option.bind_none]

theorem read_eq {b bound : Nat} (hb : 0 < b) {ds : List Nat} (hds : ∀ d ∈ ds, d ≤ bound) :
    read b bound ds 0 = if number b ds ≤ bound then some (number b ds) else none := by
  have h := read_from hb ds [] hds (by rw [number_nil]; exact Nat.zero_le bound)
  rwa [number_nil, List.nil_append] at h

end Digits
