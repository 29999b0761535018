import SelectServer.Lib.TextInput

/- Formatted output to a text of bytes, as `operator<<` of a stream in the classic
   locale does it: a number is its decimal digits, and `setw` puts spaces before
   what is shorter than the width. A number can be told from what follows it
   (`decimal_append_inj`), and so can the entries of a table, which are all of one
   length (`flatMap_inj`), and its rows (`rows_inj`). -/
namespace TextOutput
open TextInput

/-- The digits of a number, the most significant one first. -/
def decimal (n : Nat) : Text := (Nat.toDigits 10 n).map fun ch => UInt8.ofNat ch.toNat

/-- A text with spaces before it, up to the width. -/
def setw (width : Nat) (text : Text) : Text := List.replicate (width - text.length) 32 ++ text

theorem digit_bounds {ch : Char} {n : Nat} (h : ch ∈ Nat.toDigits 10 n) :
    48 ≤ ch.toNat ∧ ch.toNat ≤ 57 := by
  have hdigit := Nat.isDigit_of_mem_toDigits (by decide) (by decide) h
  unfold Char.isDigit at hdigit
  rw [Bool.and_eq_true, decide_eq_true_eq, decide_eq_true_eq] at hdigit
  exact hdigit

theorem decimal_digits (n : Nat) : ∀ ch ∈ decimal n, isDigit ch = true := by
  intro ch hch
  obtain ⟨c, hc, rfl⟩ := List.mem_map.mp hch
  obtain ⟨hlo, hhi⟩ := digit_bounds hc
  have hnat : (UInt8.ofNat c.toNat).toNat = c.toNat := UInt8.toNat_ofNat_of_lt' (by
    show c.toNat < 256
    omega)
  unfold isDigit
  rw [Bool.and_eq_true, decide_eq_true_eq, decide_eq_true_eq, UInt8.le_iff_toNat_le,
    UInt8.le_iff_toNat_le, hnat]
  exact ⟨hlo, hhi⟩

/-- The digits are read back as characters. -/
theorem decimal_chars (n : Nat) :
    (decimal n).map (fun ch => Char.ofNat ch.toNat) = Nat.toDigits 10 n := by
  unfold decimal
  rw [List.map_map]
  refine (List.map_congr_left fun ch hch => ?_).trans (List.map_id _)
  obtain ⟨-, hhi⟩ := digit_bounds hch
  have hnat : (UInt8.ofNat ch.toNat).toNat = ch.toNat := UInt8.toNat_ofNat_of_lt' (by
    show ch.toNat < 256
    omega)
  show Char.ofNat (UInt8.ofNat ch.toNat).toNat = ch
  rw [hnat, Char.ofNat_toNat]

theorem decimal_inj {n n' : Nat} (h : decimal n = decimal n') : n = n' := by
  have hdigits : Nat.toDigits 10 n = Nat.toDigits 10 n' := by
    rw [← decimal_chars, ← decimal_chars, h]
  have hvalue := congrArg (fun digits => Nat.ofDigitChars 10 digits 0) hdigits
  rwa [Nat.ofDigitChars_ten_toDigits, Nat.ofDigitChars_ten_toDigits] at hvalue

/-- A number ends where something other than a digit follows. -/
theorem decimal_append_inj {n n' : Nat} {rest rest' : Text}
    (hrest : ∀ ch ∈ rest.head?, isDigit ch = false) (hrest' : ∀ ch ∈ rest'.head?, isDigit ch = false)
    (h : decimal n ++ rest = decimal n' ++ rest') : n = n' ∧ rest = rest' := by
  obtain ⟨htake, hdrop⟩ := takeWhile_digits (decimal_digits n) hrest
  obtain ⟨htake', hdrop'⟩ := takeWhile_digits (decimal_digits n') hrest'
  refine ⟨decimal_inj ?_, ?_⟩
  · rw [← htake, h, htake']
  · rw [← hdrop, h, hdrop']

/-- Texts of one length each tell what they are written for. -/
theorem flatMap_inj {α : Type} {f : α → Text} {width : Nat} (hwidth : ∀ a, (f a).length = width)
    (hf : ∀ a b, f a = f b → a = b) {l l' : List α} (hlength : l.length = l'.length)
    (h : l.flatMap f = l'.flatMap f) : l = l' := by
  have hlengths : ∀ l : List α, (l.map f).map List.length = List.replicate l.length width := by
    intro l
    rw [List.map_map]
    exact List.map_eq_replicate_iff.mpr fun a _ => hwidth a
  have hmap : l.map f = l'.map f := by
    refine List.eq_iff_flatten_eq.mpr ⟨h, ?_⟩
    rw [hlengths, hlengths, hlength]
  exact (List.map_inj_right hf).mp hmap

/-- Two tables with the same rows, each as long as the other's, are equal row by row. -/
theorem rows_inj {α : Type} {f g : α → Text} {rows : List α}
    (hlength : ∀ a ∈ rows, (f a).length = (g a).length) (h : rows.flatMap f = rows.flatMap g) :
    ∀ a ∈ rows, f a = g a := by
  have hmap : rows.map f = rows.map g := by
    refine List.eq_iff_flatten_eq.mpr ⟨h, ?_⟩
    rw [List.map_map, List.map_map]
    exact List.map_congr_left hlength
  exact List.map_inj_left.mp hmap

end TextOutput
