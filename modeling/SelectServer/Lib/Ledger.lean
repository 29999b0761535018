import Mathlib.Data.List.Nodup
import Mathlib.Data.List.Count
import Mathlib.Logic.ExistsUnique

/- A ledger of numbered things: an owner opens one under a number never issued
   before, and closing it appends one record with its number. `Ledger.partition`
   says what follows for every issued number: it is open with one owner and has no
   record, or it is closed and has one record. -/
namespace Ledgers
universe u v w
variable {Owner : Type u} {Id : Type v} {Record : Type w}

structure Ledger (idOf : Record → Id) (issued : Id → Prop) (live : Owner → Id → Prop)
    (records : List Record) : Prop where
  single : ∀ o i i', live o i → live o i' → i = i'
  once : ∀ o o' i, live o i → live o' i → o = o'
  open_issued : ∀ o i, live o i → issued i
  open_unrecorded : ∀ o i, live o i → ∀ f ∈ records, idOf f ≠ i
  recorded_issued : ∀ f ∈ records, issued (idOf f)
  accounted : ∀ i, issued i → (∃ o, live o i) ∨ ∃ f ∈ records, idOf f = i
  nodup : (records.map idOf).Nodup

variable {idOf : Record → Id} {issued issued' : Id → Prop} {live live' : Owner → Id → Prop}
  {records : List Record}

theorem Ledger.empty (hissued : ∀ i, ¬ issued i) (hlive : ∀ o i, ¬ live o i) :
    Ledger idOf issued live [] where
  single o i _ h := absurd h (hlive o i)
  once o _ i h := absurd h (hlive o i)
  open_issued o i h := absurd h (hlive o i)
  open_unrecorded o i h := absurd h (hlive o i)
  recorded_issued := by simp
  accounted i h := absurd h (hissued i)
  nodup := by simp

/-- A step that opens and closes nothing. -/
theorem Ledger.congr (h : Ledger idOf issued live records) (hlive : ∀ o i, live' o i ↔ live o i) :
    Ledger idOf issued live' records := by
  have e : live' = live := by
    funext o i
    exact propext (hlive o i)
  rw [e]
  exact h

/-- An owner with nothing open opens the number `new`. -/
theorem Ledger.opened (h : Ledger idOf issued live records) (owner : Owner) (new : Id)
    (hidle : ∀ i, ¬ live owner i) (hnew : ¬ issued new)
    (hissued : ∀ i, issued' i ↔ issued i ∨ i = new)
    (hlive : ∀ o i, live' o i ↔ live o i ∨ (o = owner ∧ i = new)) :
    Ledger idOf issued' live' records where
  single o i i' hi hi' := by
    rcases (hlive o i).mp hi with hi | ⟨rfl, rfl⟩ <;> rcases (hlive o i').mp hi' with hi' | ⟨e, rfl⟩
    · exact h.single o i i' hi hi'
    · exact absurd hi (e ▸ hidle i)
    · exact absurd hi' (hidle i')
    · rfl
  once o o' i hi hi' := by
    rcases (hlive o i).mp hi with hi | ⟨rfl, rfl⟩ <;> rcases (hlive o' i).mp hi' with hi' | ⟨rfl, e⟩
    · exact h.once o o' i hi hi'
    · exact absurd (h.open_issued o i hi) (e ▸ hnew)
    · exact absurd (h.open_issued o' _ hi') hnew
    · rfl
  open_issued o i hi := by
    rw [hissued]
    rcases (hlive o i).mp hi with hi | ⟨-, rfl⟩
    · exact Or.inl (h.open_issued o i hi)
    · exact Or.inr rfl
  open_unrecorded o i hi f hf := by
    rcases (hlive o i).mp hi with hi | ⟨-, rfl⟩
    · exact h.open_unrecorded o i hi f hf
    · intro e
      exact hnew (e ▸ h.recorded_issued f hf)
  recorded_issued f hf := (hissued _).mpr (Or.inl (h.recorded_issued f hf))
  accounted i hi := by
    rcases (hissued i).mp hi with hi | rfl
    · rcases h.accounted i hi with ⟨o, ho⟩ | hf
      · exact Or.inl ⟨o, (hlive o i).mpr (Or.inl ho)⟩
      · exact Or.inr hf
    · exact Or.inl ⟨owner, (hlive owner i).mpr (Or.inr ⟨rfl, rfl⟩)⟩
  nodup := h.nodup

/-- An owner closes what it has open, and the record is appended. -/
theorem Ledger.closed (h : Ledger idOf issued live records) {owner : Owner} {f : Record}
    (hopen : live owner (idOf f)) (hlive : ∀ o i, live' o i ↔ live o i ∧ o ≠ owner) :
    Ledger idOf issued live' (records ++ [f]) where
  single o i i' hi hi' := h.single o i i' ((hlive o i).mp hi).1 ((hlive o i').mp hi').1
  once o o' i hi hi' := h.once o o' i ((hlive o i).mp hi).1 ((hlive o' i).mp hi').1
  open_issued o i hi := h.open_issued o i ((hlive o i).mp hi).1
  open_unrecorded o i hi g hg := by
    obtain ⟨hi, hne⟩ := (hlive o i).mp hi
    rcases List.mem_append.mp hg with hg | hg
    · exact h.open_unrecorded o i hi g hg
    · obtain rfl := List.mem_singleton.mp hg
      intro e
      exact hne (h.once o owner i hi (e ▸ hopen))
  recorded_issued g hg := by
    rcases List.mem_append.mp hg with hg | hg
    · exact h.recorded_issued g hg
    · obtain rfl := List.mem_singleton.mp hg
      exact h.open_issued owner _ hopen
  accounted i hi := by
    rcases h.accounted i hi with ⟨o, ho⟩ | ⟨g, hg, e⟩
    · by_cases howner : o = owner
      · subst howner
        exact Or.inr ⟨f, by simp, h.single o _ _ hopen ho⟩
      · exact Or.inl ⟨o, (hlive o i).mpr ⟨ho, howner⟩⟩
    · exact Or.inr ⟨g, by simp [hg], e⟩
  nodup := by
    rw [List.map_append, List.map_singleton, List.nodup_append]
    refine ⟨h.nodup, List.nodup_singleton _, ?_⟩
    intro i hi j hj
    obtain ⟨g, hg, rfl⟩ := List.mem_map.mp hi
    obtain rfl := List.mem_singleton.mp hj
    exact h.open_unrecorded owner _ hopen g hg

/-- Every issued number is open once and unrecorded, or closed and recorded once. -/
theorem Ledger.partition [DecidableEq Id] (h : Ledger idOf issued live records) {i : Id}
    (hi : issued i) :
    ((∃! o, live o i) ∧ records.countP (fun f => idOf f = i) = 0) ∨
      ((¬ ∃ o, live o i) ∧ records.countP (fun f => idOf f = i) = 1) := by
  have hcount : records.countP (fun f => idOf f = i) = (records.map idOf).count i := by
    rw [List.count, List.countP_map]
    congr
  by_cases hopen : ∃ o, live o i
  · obtain ⟨o, ho⟩ := hopen
    refine Or.inl ⟨⟨o, ho, fun o' ho' => h.once o' o i ho' ho⟩, ?_⟩
    rw [List.countP_eq_zero]
    intro f hf
    simpa using h.open_unrecorded o i ho f hf
  · obtain ⟨f, hf, rfl⟩ := (h.accounted i hi).resolve_left hopen
    refine Or.inr ⟨hopen, ?_⟩
    rw [hcount]
    exact List.count_eq_one_of_mem h.nodup (List.mem_map_of_mem hf)

end Ledgers
