import Mathlib.Data.Set.Defs
import Mathlib.Data.List.Perm.Basic

/- Operations that look at and change only some cells of a state, and add to a log
   that none of them reads. `Confined` says of an operation at one state that it
   does the same at every state with the same content of its cells. Two operations
   confined to disjoint cells can change places (`Confined.commute`): the log tells
   the order, nothing else. -/
namespace Footprints
universe u v w r
variable {σ : Type u} {ι : Type v} {V : ι → Type w} {ρ : Type r} {β γ : Type u}

/-- A state as the content of its cells, and a log. -/
structure View (σ : Type u) (ι : Type v) (V : ι → Type w) (ρ : Type r) where
  read : σ → (i : ι) → V i
  log : σ → List ρ

variable (v : View σ ι V ρ) (Good : σ → Prop)

/-- The states have the same content of these cells. -/
def View.Agree (cells : Set ι) (x y : σ) : Prop := ∀ i ∈ cells, v.read x i = v.read y i

/-- What `op` does at `y` is what it does at `x`, and it leaves all but its cells. -/
structure Does (cells : Set ι) (op : σ → β × σ) (x y : σ) (new : List ρ) : Prop where
  good : Good (op y).2
  answer : (op y).1 = (op x).1
  inside : v.Agree cells (op y).2 (op x).2
  outside : ∀ i, i ∉ cells → v.read (op y).2 i = v.read y i
  log : v.log (op y).2 = v.log y ++ new

/-- At `x`, the operation looks at `cells` only and changes them only. -/
def Confined (cells : Set ι) (op : σ → β × σ) (x : σ) : Prop :=
  ∃ new, ∀ y, Good y → v.Agree cells y x → Does v Good cells op x y new

/-- Both orders return the same and end in the same cells, and in the same log but for its order. -/
structure Commute (f : σ → β × σ) (g : σ → γ × σ) (x : σ) : Prop where
  first : (f (g x).2).1 = (f x).1
  second : (g (f x).2).1 = (g x).1
  cells : ∀ i, v.read (g (f x).2).2 i = v.read (f (g x).2).2 i
  log : (v.log (g (f x).2).2).Perm (v.log (f (g x).2).2)

variable {v Good} {cells cells' : Set ι} {f : σ → β × σ} {g : σ → γ × σ} {x y : σ}

theorem View.Agree.refl (x : σ) : v.Agree cells x x := fun _ _ => rfl

/-- What an operation leaves alone is what a confined one with other cells looks at. -/
theorem Does.agree {new : List ρ} (h : Does v Good cells' g x y new)
    (hdisj : ∀ i ∈ cells, i ∉ cells') : v.Agree cells (g y).2 y :=
  fun i hi => h.outside i (hdisj i hi)

theorem Confined.commute (hf : Confined v Good cells f x) (hg : Confined v Good cells' g x)
    (hx : Good x) (hdisj : ∀ i ∈ cells, i ∉ cells') : Commute v f g x := by
  obtain ⟨newf, hf⟩ := hf
  obtain ⟨newg, hg⟩ := hg
  have hfx := hf x hx (.refl x)
  have hgx := hg x hx (.refl x)
  have hfg := hf (g x).2 hgx.good (hgx.agree hdisj)
  have hgf := hg (f x).2 hfx.good (hfx.agree fun i hi hi' => hdisj i hi' hi)
  refine ⟨hfg.answer, hgf.answer, fun i => ?_, ?_⟩
  · by_cases hi : i ∈ cells
    · calc v.read (g (f x).2).2 i = v.read (f x).2 i := hgf.outside i (hdisj i hi)
        _ = v.read (f (g x).2).2 i := (hfg.inside i hi).symm
    by_cases hi' : i ∈ cells'
    · calc v.read (g (f x).2).2 i = v.read (g x).2 i := hgf.inside i hi'
        _ = v.read (f (g x).2).2 i := (hfg.outside i hi).symm
    · calc v.read (g (f x).2).2 i = v.read (f x).2 i := hgf.outside i hi'
        _ = v.read x i := hfx.outside i hi
        _ = v.read (g x).2 i := (hgx.outside i hi').symm
        _ = v.read (f (g x).2).2 i := (hfg.outside i hi).symm
  · rw [hgf.log, hfx.log, hfg.log, hgx.log, List.append_assoc, List.append_assoc]
    exact List.perm_append_comm.append_left _

end Footprints
