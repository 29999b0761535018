import Mathlib.Data.List.Basic

/- Programs that are written against an interface. A `Program` is the tree of its
   calls, each with what it does on every answer; a `Device` implements the
   interface on some state, and `run` has the program's calls answered by it. What
   every call keeps every run keeps (`run_invariant`), and what every call can lead
   to every run leads to (`run_leads`). `run_simulates` compares two devices: if
   each call is answered alike the programs cannot tell them apart. A device whose
   answers depend on what is settled later is compared with one that settles it in
   advance: `F` then says of a state what must come true in the end, and is handed
   back from the end of a run to its start. -/
namespace Programs
variable {α β σ τ : Type}

structure Interface where
  Call : Type
  Answer : Call → Type

inductive Program (I : Interface) (α : Type) where
  | done (a : α)
  | call (c : I.Call) (next : I.Answer c → Program I α)

abbrev Device (I : Interface) (σ : Type) := (c : I.Call) → σ → I.Answer c × σ

variable {I : Interface}

namespace Program

def bind : Program I α → (α → Program I β) → Program I β
  | .done a, f => f a
  | .call c next, f => .call c fun answer => bind (next answer) f

instance : Monad (Program I) where
  pure := .done
  bind := bind

/-- One call and its answer. -/
def perform (c : I.Call) : Program I (I.Answer c) := .call c .done

def run (d : Device I σ) : Program I α → σ → α × σ
  | .done a, s => (a, s)
  | .call c next, s => run d (next (d c s).1) (d c s).2

variable {d : Device I σ} {e : Device I τ}

@[simp] theorem run_pure (a : α) (s : σ) : (pure a : Program I α).run d s = (a, s) := rfl

@[simp] theorem run_perform (c : I.Call) (s : σ) : (perform c).run d s = d c s := rfl

@[simp] theorem run_bind (program : Program I α) (f : α → Program I β) (s : σ) :
    (program >>= f).run d s = (f (program.run d s).1).run d (program.run d s).2 := by
  show (bind program f).run d s = _
  induction program generalizing s with
  | done a => rfl
  | call c next ih => exact ih (d c s).1 (d c s).2

/-- A loop over a list is a fold of what its body does. -/
theorem run_forM (xs : List β) (body : β → Program I PUnit) (s : σ) :
    (xs.forM body).run d s = (⟨⟩, xs.foldl (fun s x => ((body x).run d s).2) s) := by
  induction xs generalizing s with
  | nil => rfl
  | cons x xs ih =>
    show (body x >>= fun _ => xs.forM body).run d s = _
    rw [run_bind, ih]
    rfl

theorem run_invariant {P : σ → Prop} (hcall : ∀ c s, P s → P (d c s).2)
    (program : Program I α) {s : σ} (hs : P s) : P (program.run d s).2 := by
  induction program generalizing s with
  | done a => exact hs
  | call c next ih => exact ih (d c s).1 (hcall c s hs)

theorem run_leads {R : σ → σ → Prop} (hrefl : ∀ s, R s s)
    (htrans : ∀ a b c, R a b → R b c → R a c) (hcall : ∀ c s, R s (d c s).2)
    (program : Program I α) (s : σ) : R s (program.run d s).2 := by
  induction program generalizing s with
  | done a => exact hrefl s
  | call c next ih => exact htrans _ _ _ (hcall c s) (ih (d c s).1 (d c s).2)

/-- What holds at the end of a run only if it held before each call held at the start. -/
theorem run_back {P F : σ → Prop} (hkept : ∀ c s, P s → P (d c s).2)
    (hback : ∀ c s, P s → F (d c s).2 → F s) (program : Program I α) {s : σ} (hs : P s)
    (hend : F (program.run d s).2) : F s := by
  induction program generalizing s with
  | done a => exact hend
  | call c next ih => exact hback c s hs (ih (d c s).1 (hkept c s hs) hend)

/-- A relation that every call keeps, with the same answer on both sides, is kept by every run, with
the same result. `F` may be relied on at the end of a call, for it holds at the end of the run. -/
theorem run_simulates {P F : σ → Prop} {R : σ → τ → Prop} (hkept : ∀ c s, P s → P (d c s).2)
    (hback : ∀ c s, P s → F (d c s).2 → F s)
    (hcall : ∀ c s t, P s → R s t → F (d c s).2 → (d c s).1 = (e c t).1 ∧ R (d c s).2 (e c t).2)
    (program : Program I α) {s : σ} {t : τ} (hs : P s) (hst : R s t)
    (hend : F (program.run d s).2) :
    (program.run d s).1 = (program.run e t).1 ∧ R (program.run d s).2 (program.run e t).2 := by
  induction program generalizing s t with
  | done a => exact ⟨rfl, hst⟩
  | call c next ih =>
    have hF := run_back hkept hback (next (d c s).1) (hkept c s hs) hend
    obtain ⟨hanswer, hR⟩ := hcall c s t hs hst hF
    have hrun : (call c next).run e t = (next (d c s).1).run e (e c t).2 := by
      rw [hanswer]
      rfl
    rw [hrun]
    exact ih (d c s).1 (hkept c s hs) hR hend

end Program
end Programs
