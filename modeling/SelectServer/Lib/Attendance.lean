import Mathlib.Data.Finset.Card
import Mathlib.Data.List.Infix

/- Who is present, as a log of comings and goings tells. A log `Fits` a limit if at
   no point of it more are present; it is enough to look at the points where someone
   comes. Whoever follows the log, however far behind, has then no more of them to
   keep than the limit. -/
namespace Attendance
variable {α : Type}

inductive Move (α : Type) where
  | comes (a : α)
  | goes (a : α)
  deriving DecidableEq, Repr

def Move.who : Move α → α
  | .comes a => a
  | .goes a => a

variable {a : α} {limit : Nat} {log more : List (Move α)}

/-- `a` has come, and has not gone since. -/
def Stays (a : α) (log : List (Move α)) : Prop :=
  ∃ before after, log = before ++ .comes a :: after ∧ .goes a ∉ after

theorem stays_snoc {move : Move α} :
    Stays a (log ++ [move]) ↔ move = .comes a ∨ (move ≠ .goes a ∧ Stays a log) := by
  constructor
  · intro h
    obtain ⟨before, after, e, hafter⟩ := h
    cases after using List.reverseRecOn with
    | nil =>
      obtain ⟨-, e⟩ := List.append_inj' e rfl
      exact .inl (List.cons.inj e).1
    | append_singleton after last =>
      have hsplit : log ++ [move] = (before ++ .comes a :: after) ++ [last] := by
        rw [e, List.append_assoc]
        rfl
      obtain ⟨hlog, hlast⟩ := List.append_inj' hsplit rfl
      have hlast : move = last := (List.cons.inj hlast).1
      refine .inr ⟨fun hgoes => hafter ?_, before, after, hlog, fun hin => ?_⟩
      · rw [← hlast, hgoes]
        exact List.mem_append_right _ (List.mem_singleton_self _)
      · exact hafter (List.mem_append_left _ hin)
  · intro h
    cases h with
    | inl hcomes =>
      rw [hcomes]
      exact ⟨log, [], rfl, List.not_mem_nil⟩
    | inr h =>
      obtain ⟨hne, before, after, rfl, hafter⟩ := h
      refine ⟨before, after ++ [move], List.append_assoc .., fun hin => ?_⟩
      cases List.mem_append.mp hin with
      | inl hin => exact hafter hin
      | inr hin => exact hne (List.mem_singleton.mp hin).symm

variable [DecidableEq α]

def Move.apply (sessions : Finset α) : Move α → Finset α
  | .comes a => insert a sessions
  | .goes a => sessions.erase a

def present (log : List (Move α)) : Finset α := log.foldl Move.apply ∅

theorem present_snoc (log : List (Move α)) (move : Move α) :
    present (log ++ [move]) = move.apply (present log) := by
  unfold present
  rw [List.foldl_append]
  rfl

/-- What the others do does not matter. -/
theorem stays_own : Stays a (log.filter (·.who = a)) ↔ Stays a log := by
  induction log using List.reverseRecOn with
  | nil => exact Iff.rfl
  | append_singleton log move ih =>
    rw [List.filter_append, stays_snoc, ← ih]
    by_cases hwho : move.who = a
    · rw [List.filter_singleton, decide_eq_true hwho, cond_true, stays_snoc]
    · have hcomes : move ≠ .comes a := fun e => hwho (by rw [e]; rfl)
      have hgoes : move ≠ .goes a := fun e => hwho (by rw [e]; rfl)
      rw [List.filter_singleton, decide_eq_false hwho, cond_false, List.append_nil]
      simp [hcomes, hgoes]

theorem mem_present : a ∈ present log ↔ Stays a log := by
  induction log using List.reverseRecOn with
  | nil =>
    constructor
    · intro h
      cases h
    · intro h
      obtain ⟨before, after, e, -⟩ := h
      cases before <;> cases e
  | append_singleton log move ih =>
    rw [present_snoc, stays_snoc, ← ih]
    cases move with
    | comes b =>
      show a ∈ insert b (present log) ↔ _
      simp [Finset.mem_insert, eq_comm]
    | goes b =>
      show a ∈ (present log).erase b ↔ _
      simp [Finset.mem_erase, eq_comm]

/-- Who has come and never gone is present. -/
theorem present_of_comes (hcame : .comes a ∈ log) (hstays : .goes a ∉ log) : a ∈ present log := by
  obtain ⟨before, after, e⟩ := List.append_of_mem hcame
  refine mem_present.mpr ⟨before, after, e, fun hin => hstays ?_⟩
  rw [e]
  exact List.mem_append_right _ (List.mem_cons_of_mem _ hin)

/-! ## Limits -/

/-- At no point of `log` more than `limit` are present. -/
def Fits (limit : Nat) (log : List (Move α)) : Prop :=
  ∀ first, first <+: log → (present first).card ≤ limit

theorem fits_nil (limit : Nat) : Fits limit ([] : List (Move α)) := by
  intro first hfirst
  obtain rfl := List.prefix_nil.mp hfirst
  exact Nat.zero_le _

theorem Fits.snoc {move : Move α} (h : Fits limit log)
    (hcard : (present (log ++ [move])).card ≤ limit) : Fits limit (log ++ [move]) := by
  intro first hfirst
  cases List.prefix_concat_iff.mp hfirst with
  | inl hall =>
    rw [hall]
    exact hcard
  | inr hfirst => exact h first hfirst

/-- Goings never break a limit. -/
theorem Fits.goings (h : Fits limit log) (hgoes : ∀ move ∈ more, ∃ a, move = .goes a) :
    Fits limit (log ++ more) := by
  induction more using List.reverseRecOn with
  | nil =>
    rw [List.append_nil]
    exact h
  | append_singleton more move ih =>
    have hbefore := ih fun move hmove => hgoes move (List.mem_append_left _ hmove)
    obtain ⟨a, rfl⟩ := hgoes move (List.mem_append_right _ (List.mem_singleton_self _))
    rw [← List.append_assoc]
    refine hbefore.snoc ?_
    rw [present_snoc]
    calc ((present (log ++ more)).erase a).card
        ≤ (present (log ++ more)).card := Finset.card_erase_le
      _ ≤ limit := hbefore _ List.prefix_rfl

end Attendance
