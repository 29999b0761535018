import Mathlib.Data.List.Basic

/- Runs of a labelled transition system with the history of what happened. A run
   is built at its end, so an induction on it has the state before the last step
   and everything that led there. `Run.invariant` is the rule for a property of
   the state, `Run.split` gives an entry of the history with the run before it,
   `Run.brought` an entry that brought about what holds at the end, and `Run.since`
   one that brought about what has held ever since. -/
namespace Histories
universe u v
variable {σ : Type u} {ι : Type v}

/-- One step that was taken. -/
structure Entry (σ : Type u) (ι : Type v) where
  pre : σ
  label : ι
  post : σ

/-- The runs from `init`, each with its entries in order and the state it ends in. -/
inductive Run (step : σ → ι → σ → Prop) (init : σ) : List (Entry σ ι) → σ → Prop
  | start : Run step init [] init
  | snoc {history : List (Entry σ ι)} {s s' : σ} {l : ι} (before : Run step init history s)
      (taken : step s l s') : Run step init (history ++ [⟨s, l, s'⟩]) s'

variable {step : σ → ι → σ → Prop} {init : σ} {history : List (Entry σ ι)} {s : σ}

/-- What holds at the start and is kept by every step holds after every run. -/
theorem Run.invariant {P : σ → Prop} (h0 : P init) (hstep : ∀ s l s', P s → step s l s' → P s')
    (h : Run step init history s) : P s := by
  induction h with
  | start => exact h0
  | snoc _ taken ih => exact hstep _ _ _ ih taken

/-- An entry of a run was a step, taken after the run of the entries before it. -/
theorem Run.split (h : Run step init history s) {e : Entry σ ι} (he : e ∈ history) :
    ∃ before after, history = before ++ e :: after ∧ Run step init before e.pre ∧
      step e.pre e.label e.post := by
  induction h with
  | start => cases he
  | snoc before taken ih =>
    rcases List.mem_append.mp he with he | he
    · obtain ⟨b, a, e1, hb, hs⟩ := ih he
      exact ⟨b, a ++ [_], by rw [e1, List.append_assoc, List.cons_append], hb, hs⟩
    · obtain rfl := List.mem_singleton.mp he
      exact ⟨_, [], rfl, before, taken⟩

theorem Run.nil_eq (h : Run step init [] s) : s = init := by
  generalize hnone : ([] : List (Entry σ ι)) = history at h
  cases h with
  | start => rfl
  | snoc => cases List.append_ne_nil_of_right_ne_nil _ (List.cons_ne_nil _ _) hnone.symm

/-- A run, and another that goes on where it ends. -/
theorem Run.append {later : List (Entry σ ι)} {s' : σ} (h : Run step init history s)
    (h' : Run step s later s') : Run step init (history ++ later) s' := by
  induction h' with
  | start =>
    rw [List.append_nil]
    exact h
  | snoc _ taken ih =>
    rw [← List.append_assoc]
    exact ih.snoc taken

/-- The entries before one of a run are the run that led to it. -/
theorem Run.until {before after : List (Entry σ ι)} {e : Entry σ ι}
    (h : Run step init (before ++ e :: after) s) : Run step init before e.pre := by
  generalize hall : before ++ e :: after = history at h
  induction h generalizing after with
  | start => cases before <;> cases hall
  | @snoc history s s' l hbefore taken ih =>
    rcases after.eq_nil_or_concat with rfl | ⟨after, last, rfl⟩
    · obtain ⟨rfl, he⟩ := List.append_inj' hall rfl
      obtain rfl := (List.cons.inj he).1
      exact hbefore
    · have hall : (before ++ e :: after) ++ [last] = history ++ [⟨s, l, s'⟩] := by
        rw [← hall, List.concat_eq_append, List.append_assoc]
        rfl
      exact ih (List.append_inj' hall rfl).1

/-- What holds after a run held at its start, or an entry has brought it about. -/
theorem Run.brought {P : σ → Prop} {Q : Entry σ ι → Prop}
    (hstep : ∀ before s l s', Run step init before s → step s l s' → P s' → P s ∨ Q ⟨s, l, s'⟩)
    (h : Run step init history s) (hs : P s) :
    P init ∨ ∃ before e after, history = before ++ e :: after ∧ Run step init before e.pre ∧
      step e.pre e.label e.post ∧ Q e := by
  induction h with
  | start => exact .inl hs
  | @snoc history s s' l hbefore taken ih =>
    rcases hstep _ _ _ _ hbefore taken hs with hold | hnew
    · rcases ih hold with hinit | ⟨before, e, after, rfl, he⟩
      · exact .inl hinit
      · refine .inr ⟨before, e, after ++ [⟨s, l, s'⟩], ?_, he⟩
        rw [List.append_assoc, List.cons_append]
    · exact .inr ⟨history, _, [], rfl, hbefore, taken, hnew⟩

/-- An entry of the history was a `start`, and every one after it a `hold`. -/
def Since (start hold : Entry σ ι → Prop) (history : List (Entry σ ι)) : Prop :=
  ∃ before e after, history = before ++ e :: after ∧ start e ∧ ∀ x ∈ after, hold x

theorem Since.now {start hold : Entry σ ι → Prop} {e : Entry σ ι} (h : start e) :
    Since start hold (history ++ [e]) :=
  ⟨history, e, [], rfl, h, fun x hx => by cases hx⟩

theorem Since.keep {start hold : Entry σ ι → Prop} {e : Entry σ ι}
    (h : Since start hold history) (he : hold e) : Since start hold (history ++ [e]) := by
  obtain ⟨before, first, after, rfl, hstart, hafter⟩ := h
  refine ⟨before, first, after ++ [e], by rw [List.append_assoc, List.cons_append], hstart, ?_⟩
  intro x hx
  rcases List.mem_append.mp hx with hx | hx
  · exact hafter x hx
  · obtain rfl := List.mem_singleton.mp hx
    exact he

/-- What only a `start` can bring about and only a `hold` can pass on has been so since a `start`. -/
theorem Run.since {start hold : Entry σ ι → Prop} {P : σ → Prop} (h0 : ¬ P init)
    (hstep : ∀ before s l s', Run step init before s → step s l s' → P s' →
      start ⟨s, l, s'⟩ ∨ (P s ∧ hold ⟨s, l, s'⟩))
    (h : Run step init history s) (hs : P s) : Since start hold history := by
  induction h with
  | start => exact absurd hs h0
  | snoc before taken ih =>
    rcases hstep _ _ _ _ before taken hs with hstart | ⟨hpre, hhold⟩
    · exact .now hstart
    · exact (ih hpre).keep hhold

/-! ## Runs of a given list of labels -/

/-- The run of `labels` from `s`, if every step can be taken. -/
def play (next : σ → ι → Option σ) (s : σ) : List ι → Option (List (Entry σ ι) × σ)
  | [] => some ([], s)
  | l :: labels =>
    match next s l with
    | none => none
    | some s' => (play next s' labels).map fun (rest, last) => (⟨s, l, s'⟩ :: rest, last)

theorem Run.play {next : σ → ι → Option σ} (hnext : ∀ s l s', next s l = some s' → step s l s')
    (labels : List ι) : ∀ {s last : σ} {before history : List (Entry σ ι)},
      Run step init before s → play next s labels = some (history, last) →
        Run step init (before ++ history) last := by
  induction labels with
  | nil =>
    intro s last before history h e
    cases e
    rwa [List.append_nil]
  | cons l labels ih =>
    intro s last before history h e
    simp only [Histories.play] at e
    split at e
    · cases e
    rename_i s' hs'
    obtain ⟨⟨rest, last'⟩, hrest, e⟩ := Option.map_eq_some_iff.mp e
    cases e
    have hall := ih (h.snoc (hnext s l s' hs')) hrest
    rwa [List.append_assoc] at hall

/-- A run of `labels` that ends as `check` says. -/
theorem Run.played {next : σ → ι → Option σ} (hnext : ∀ s l s', next s l = some s' → step s l s')
    {labels : List ι} {check : List (Entry σ ι) → σ → Bool}
    (h : (Histories.play next init labels).any (fun r => check r.1 r.2) = true) :
    ∃ history last, Run step init history last ∧ check history last = true := by
  obtain ⟨⟨history, last⟩, e, hcheck⟩ := (Option.any_eq_true _ _).mp h
  exact ⟨history, last, Run.play hnext labels Run.start e, hcheck⟩

end Histories
