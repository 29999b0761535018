import Mathlib.Data.List.Nodup

/- Paging through a table by its keys: a page holds the first rows above a key, and
   the next page begins above the last key of the one before. The table may change
   between two pages. No key is met twice all the same, for the keys only go up
   (`Scan.ascending`), and a key that every page could have met is met
   (`Scan.complete`). A table that stays as it is is listed as a whole, in as many
   pages as its length takes (`Scan.still`). -/
namespace Paging
universe u v
variable {κ : Type u} {β : Type v} [LT κ]

/-- The rows above each key, in the order of their keys. -/
structure Listed (key : β → κ) (rows : κ → List β) : Prop where
  sorted : ∀ k, (rows k).Pairwise fun x y => key x < key y
  above : ∀ k, ∀ x ∈ rows k, k < key x
  rest : ∀ k k' x, k < k' → (x ∈ rows k' ↔ x ∈ rows k ∧ k' < key x)

/-- The pages of a scan from a key on: the table at each of them, and all rows they list. -/
inductive Scan (key : β → κ) (size : Nat) : κ → List (κ → List β) → List β → Prop
  | last {k : κ} {rows : κ → List β} (h : (rows k).length ≤ size) :
      Scan key size k [rows] ((rows k).take size)
  | more {k : κ} {rows : κ → List β} {tables : List (κ → List β)} {final : β} {listed : List β}
      (h : size < (rows k).length) (hfinal : ((rows k).take size).getLast? = some final)
      (rest : Scan key size (key final) tables listed) :
      Scan key size k (rows :: tables) ((rows k).take size ++ listed)

variable {key : β → κ} {size : Nat} {k : κ} {rows : κ → List β} {tables : List (κ → List β)}
  {listed : List β} {final : β}

/-- The last row of a page is the highest of the page and below every row that is left. -/
theorem Listed.final_split (h : Listed key rows)
    (hfinal : ((rows k).take size).getLast? = some final) :
    (∀ x ∈ (rows k).take size, key x < key final ∨ x = final) ∧
      ∀ x ∈ (rows k).drop size, key final < key x := by
  have hsorted := h.sorted k
  rw [← List.take_append_drop size (rows k), List.pairwise_append] at hsorted
  obtain ⟨hpage, -, hrest⟩ := hsorted
  have hmem := List.mem_of_getLast? hfinal
  refine ⟨?_, fun x hx => hrest final hmem x hx⟩
  obtain ⟨front, e⟩ := List.getLast?_eq_some_iff.mp hfinal
  rw [e] at hpage ⊢
  rw [List.pairwise_append] at hpage
  intro x hx
  rcases List.mem_append.mp hx with hx | hx
  · exact Or.inl (hpage.2.2 x hx final (List.mem_singleton_self final))
  · exact Or.inr (List.mem_singleton.mp hx)

/-- A key that every table of the scan has a row of is met. -/
theorem Scan.complete (h : Scan key size k tables listed) (ht : ∀ rows ∈ tables, Listed key rows)
    {k0 : κ} (hk : k < k0) (hall : ∀ rows ∈ tables, ∀ k < k0, ∃ x ∈ rows k, key x = k0) :
    ∃ x ∈ listed, key x = k0 := by
  induction h with
  | @last k rows h =>
    rw [List.take_of_length_le h]
    exact hall rows (List.mem_cons_self ..) k hk
  | @more k rows tables final listed h hfinal rest ih =>
    have hrows := ht rows (List.mem_cons_self ..)
    obtain ⟨x, hx, hkey⟩ := hall rows (List.mem_cons_self ..) k hk
    rw [← List.take_append_drop size (rows k)] at hx
    rcases List.mem_append.mp hx with hx | hx
    · exact ⟨x, List.mem_append_left _ hx, hkey⟩
    · -- it is on a later page
      have hlater : key final < k0 := hkey ▸ (hrows.final_split hfinal).2 x hx
      obtain ⟨y, hy, hkey'⟩ := ih (fun rows' hr => ht rows' (List.mem_cons_of_mem _ hr)) hlater
        fun rows' hr => hall rows' (List.mem_cons_of_mem _ hr)
      exact ⟨y, List.mem_append_right _ hy, hkey'⟩

variable [LE κ] [Std.LawfulOrderLT κ] [Std.IsLinearOrder κ]

theorem Scan.ascending (h : Scan key size k tables listed)
    (ht : ∀ rows ∈ tables, Listed key rows) :
    (listed.Pairwise fun x y => key x < key y) ∧ ∀ x ∈ listed, k < key x := by
  induction h with
  | @last k rows h =>
    have hrows := ht rows (List.mem_cons_self ..)
    exact ⟨(hrows.sorted k).sublist (List.take_sublist _ _),
      fun x hx => hrows.above k x (List.mem_of_mem_take hx)⟩
  | @more k rows tables final listed h hfinal rest ih =>
    have hrows := ht rows (List.mem_cons_self ..)
    obtain ⟨hsorted, habove⟩ := ih fun rows' hr => ht rows' (List.mem_cons_of_mem _ hr)
    have hpage := (hrows.final_split hfinal).1
    have hk : k < key final :=
      hrows.above k final (List.mem_of_mem_take (List.mem_of_getLast? hfinal))
    constructor
    · refine List.pairwise_append.mpr
        ⟨(hrows.sorted k).sublist (List.take_sublist _ _), hsorted, ?_⟩
      intro x hx y hy
      rcases hpage x hx with hlt | rfl
      · exact Std.lt_trans hlt (habove y hy)
      · exact habove y hy
    · intro x hx
      rcases List.mem_append.mp hx with hx | hx
      · exact hrows.above k x (List.mem_of_mem_take hx)
      · exact Std.lt_trans hk (habove x hx)

/-- The rows above the last key of a page are the rows that are left. -/
theorem Listed.after_final (h : Listed key rows)
    (hfinal : ((rows k).take size).getLast? = some final) :
    rows (key final) = (rows k).drop size := by
  have hmem : final ∈ rows k := List.mem_of_mem_take (List.mem_of_getLast? hfinal)
  have hk : k < key final := h.above k final hmem
  have hdistinct : ∀ {l : List β}, (l.Pairwise fun x y => key x < key y) → l.Nodup := by
    intro l hl
    refine List.Pairwise.imp ?_ hl
    intro x y hlt e
    subst e
    exact Std.lt_irrefl hlt
  have hsorted := (h.sorted k).sublist (List.drop_sublist size (rows k))
  refine List.Perm.eq_of_pairwise (fun a b _ _ hab hba => ?_) (h.sorted _) hsorted ?_
  · exact absurd (Std.lt_trans hab hba) Std.lt_irrefl
  · rw [List.perm_ext_iff_of_nodup (hdistinct (h.sorted _)) (hdistinct hsorted)]
    intro x
    rw [h.rest k (key final) x hk]
    constructor
    · rintro ⟨hx, hlt⟩
      rw [← List.take_append_drop size (rows k)] at hx
      rcases List.mem_append.mp hx with hx | hx
      · rcases (h.final_split hfinal).1 x hx with hle | rfl
        · exact absurd (Std.lt_trans hlt hle) Std.lt_irrefl
        · exact absurd hlt Std.lt_irrefl
      · exact hx
    · exact fun hx => ⟨List.mem_of_mem_drop hx, (h.final_split hfinal).2 x hx⟩

/-- One page for each `size` rows, and one if there are none. -/
def pages (size n : Nat) : Nat := max 1 ((n + size - 1) / size)

theorem pages_one {n : Nat} (hsize : 0 < size) (h : n ≤ size) : pages size n = 1 := by
  unfold pages
  have hle : (n + size - 1) / size ≤ 1 := by
    have hlt : n + size - 1 < 2 * size := by omega
    have := Nat.div_lt_of_lt_mul (Nat.mul_comm 2 size ▸ hlt)
    omega
  omega

theorem pages_more {n : Nat} (hsize : 0 < size) (h : size < n) :
    pages size n = 1 + pages size (n - size) := by
  unfold pages
  have hsplit : n + size - 1 = (n - size + size - 1) + size := by omega
  have hpos : 1 ≤ (n - size + size - 1) / size := by
    rw [Nat.le_div_iff_mul_le hsize]
    omega
  rw [hsplit, Nat.add_div_right _ hsize]
  omega

/-- A table that does not change is listed as a whole. -/
theorem Scan.still (h : Scan key size k tables listed) (hl : Listed key rows) (hsize : 0 < size)
    (hsame : ∀ table ∈ tables, table = rows) :
    listed = rows k ∧ tables.length = pages size (rows k).length := by
  induction h with
  | @last k table h =>
    obtain rfl := hsame table (List.mem_cons_self ..)
    exact ⟨List.take_of_length_le h, (pages_one hsize h).symm⟩
  | @more k table tables final listed h hfinal rest ih =>
    obtain rfl := hsame table (List.mem_cons_self ..)
    obtain ⟨hlisted, hlength⟩ := ih fun table' ht => hsame table' (List.mem_cons_of_mem _ ht)
    rw [hl.after_final hfinal] at hlisted hlength
    constructor
    · rw [hlisted, List.take_append_drop]
    · rw [List.length_cons, hlength, List.length_drop, pages_more hsize h, Nat.add_comm]

/-- A table that does not change can be scanned to its end. -/
theorem Listed.scans (hl : Listed key rows) (hsize : 0 < size) (n : Nat) : ∀ k : κ,
    (rows k).length ≤ n → ∃ count listed, Scan key size k (List.replicate count rows) listed := by
  induction n with
  | zero =>
    intro k hn
    exact ⟨1, _, .last (by omega)⟩
  | succ n ih =>
    intro k hn
    by_cases h : (rows k).length ≤ size
    · exact ⟨1, _, .last h⟩
    · have hpage : (rows k).take size ≠ [] := by
        rw [← List.length_pos_iff, List.length_take]
        omega
      have hfinal := List.getLast?_eq_some_getLast hpage
      obtain ⟨count, listed, hrest⟩ := ih (key (((rows k).take size).getLast hpage)) (by
        rw [hl.after_final hfinal, List.length_drop]
        omega)
      exact ⟨count + 1, _, .more (by omega) hfinal hrest⟩

end Paging
