import Mathlib.Data.List.TakeWhile
import SelectServer.Lib.Digits

/- Formatted input from a text of bytes, as `operator>>` of a stream in the classic
   locale does it: white space is skipped, a word goes up to the next white space,
   and a number is an optional sign and as many digits as follow. A number that is
   out of bounds makes the read fail, as one without digits does. `readInt_iff` says
   which texts a number is read from, and what is left of them. -/
namespace TextInput

abbrev Text := List UInt8

def isSpace (ch : UInt8) : Bool := ch = 32 || (9 ≤ ch && ch ≤ 13)

def isDigit (ch : UInt8) : Bool := 48 ≤ ch && ch ≤ 57

def skipSpace (text : Text) : Text := text.dropWhile isSpace

/-- The word and what is left; none at the end of the text. -/
def readWord (text : Text) : Option (Text × Text) :=
  let text := skipSpace text
  if text.isEmpty then none
  else some (text.takeWhile (!isSpace ·), text.dropWhile (!isSpace ·))

/-- Whether there is a minus, and what is left after a sign. -/
def readSign : Text → Bool × Text
  | 45 :: text => (true, text)
  | 43 :: text => (false, text)
  | text => (false, text)

/-- The value of a row of digits. -/
def valueOf (digits : Text) : Nat := Digits.number 10 (digits.map fun ch => ch.toNat - 48)

def signed (negative : Bool) (n : Nat) : Int := if negative then -n else n

/-- An integer from `lo` to `hi`, and what is left. -/
def readInt (lo hi : Int) (text : Text) : Option (Int × Text) :=
  let (negative, text) := readSign (skipSpace text)
  let digits := text.takeWhile isDigit
  if digits.isEmpty then none
  else
    let v := signed negative (valueOf digits)
    if lo ≤ v ∧ v ≤ hi then some (v, text.dropWhile isDigit) else none

/-! ## What is read -/

/-- A sign that may be written, and whether it is a minus. -/
inductive Sign : Bool → Text → Prop
  | none : Sign false []
  | plus : Sign false [43]
  | minus : Sign true [45]

/-- `text` is white space, a sign, digits with the value `v` and then `rest`, which has no digit to
add. -/
structure Reads (text : Text) (v : Int) (rest : Text) : Prop where
  split : ∃ blank sign digits, text = blank ++ (sign ++ (digits ++ rest)) ∧
    (∀ ch ∈ blank, isSpace ch = true) ∧ (∀ ch ∈ digits, isDigit ch = true) ∧ digits ≠ [] ∧
      ∃ negative, Sign negative sign ∧ v = signed negative (valueOf digits)
  longest : ∀ ch ∈ rest.head?, isDigit ch = false

/-- A digit is neither white space nor a sign. -/
theorem isDigit_apart {ch : UInt8} (h : isDigit ch = true) :
    isSpace ch = false ∧ ch ≠ 45 ∧ ch ≠ 43 := by
  unfold isDigit at h
  rw [Bool.and_eq_true, decide_eq_true_eq, decide_eq_true_eq, UInt8.le_iff_toNat_le,
    UInt8.le_iff_toNat_le] at h
  obtain ⟨hlo, hhi⟩ := h
  have hlo : 48 ≤ ch.toNat := hlo
  have hne : ∀ c : UInt8, c.toNat < 48 → ch ≠ c := by
    intro c hc hsame
    rw [hsame] at hlo
    omega
  have hspace : isSpace ch = false := by
    unfold isSpace
    rw [decide_eq_false (hne 32 (by decide)), Bool.false_or, Bool.and_eq_false_iff]
    right
    rw [decide_eq_false_iff_not, UInt8.le_iff_toNat_le]
    show ¬ ch.toNat ≤ 13
    omega
  exact ⟨hspace, hne 45 (by decide), hne 43 (by decide)⟩

theorem skipSpace_blank {blank text : Text} (hblank : ∀ ch ∈ blank, isSpace ch = true)
    (htext : ∀ ch ∈ text.head?, isSpace ch = false) : skipSpace (blank ++ text) = text := by
  unfold skipSpace
  rw [List.dropWhile_append_of_pos hblank]
  cases text with
  | nil => rfl
  | cons ch text =>
    rw [List.dropWhile_cons_of_neg]
    rw [htext ch (by simp)]
    exact Bool.false_ne_true

theorem readSign_sign {negative : Bool} {sign text : Text} (h : Sign negative sign)
    (htext : ∀ ch ∈ text.head?, ch ≠ 45 ∧ ch ≠ 43) :
    readSign (sign ++ text) = (negative, text) := by
  cases h with
  | plus => rfl
  | minus => rfl
  | none =>
    cases text with
    | nil => rfl
    | cons ch text =>
      obtain ⟨hminus, hplus⟩ := htext ch (by simp)
      show readSign (ch :: text) = _
      unfold readSign
      split
      · exact absurd (List.cons.inj (by assumption)).1 hminus
      · exact absurd (List.cons.inj (by assumption)).1 hplus
      · rfl

theorem sign_readSign (text : Text) :
    ∃ sign, Sign (readSign text).1 sign ∧ text = sign ++ (readSign text).2 := by
  unfold readSign
  split
  · exact ⟨[45], .minus, rfl⟩
  · exact ⟨[43], .plus, rfl⟩
  · exact ⟨[], .none, rfl⟩

theorem takeWhile_digits {digits rest : Text} (hdigits : ∀ ch ∈ digits, isDigit ch = true)
    (hrest : ∀ ch ∈ rest.head?, isDigit ch = false) :
    (digits ++ rest).takeWhile isDigit = digits ∧ (digits ++ rest).dropWhile isDigit = rest := by
  rw [List.takeWhile_append_of_pos hdigits, List.dropWhile_append_of_pos hdigits]
  cases rest with
  | nil => exact ⟨List.append_nil _, rfl⟩
  | cons ch rest =>
    have hch := hrest ch (by simp)
    rw [List.takeWhile_cons_of_neg (by simp [hch]), List.dropWhile_cons_of_neg (by simp [hch])]
    exact ⟨List.append_nil _, rfl⟩

theorem head_of_digits {digits rest : Text} (hdigits : ∀ ch ∈ digits, isDigit ch = true)
    (hne : digits ≠ []) : ∀ ch ∈ (digits ++ rest).head?, isDigit ch = true := by
  intro ch hch
  cases digits with
  | nil => exact absurd rfl hne
  | cons d digits =>
    obtain rfl := Option.some.inj hch
    exact hdigits d (List.mem_cons_self ..)

/-- A number is read exactly from the texts that begin with one in bounds, and it is the longest. -/
theorem readInt_iff {lo hi v : Int} {text rest : Text} :
    readInt lo hi text = some (v, rest) ↔ Reads text v rest ∧ lo ≤ v ∧ v ≤ hi := by
  constructor
  · intro h
    unfold readInt at h
    dsimp only at h
    split at h
    · cases h
    rename_i hne
    split at h
    · rename_i hbounds
      obtain ⟨rfl, rfl⟩ := Prod.mk.inj (Option.some.inj h)
      obtain ⟨sign, hsign, hsplit⟩ := sign_readSign (skipSpace text)
      refine ⟨⟨?_, fun ch hch => ?_⟩, hbounds⟩
      · refine ⟨text.takeWhile isSpace, sign, _, ?_, fun ch hch => List.mem_takeWhile_imp hch,
          fun ch hch => List.mem_takeWhile_imp hch, ?_, _, hsign, rfl⟩
        · rw [List.takeWhile_append_dropWhile, ← hsplit]
          exact List.takeWhile_append_dropWhile.symm
        · intro hempty
          rw [hempty] at hne
          exact hne rfl
      · have hhead := List.head?_dropWhile_not isDigit (readSign (skipSpace text)).2
        rw [Option.mem_def.mp hch] at hhead
        exact hhead
    · cases h
  · rintro ⟨⟨⟨blank, sign, digits, rfl, hblank, hdigits, hne, negative, hsign, rfl⟩, hrest⟩, hbounds⟩
    have hfirst := @head_of_digits _ rest hdigits hne
    have hnumber : ∀ ch ∈ (sign ++ (digits ++ rest)).head?, isSpace ch = false := by
      cases hsign with
      | none => exact fun ch hch => (isDigit_apart (hfirst ch hch)).1
      | plus =>
        intro ch hch
        obtain rfl := Option.some.inj hch
        decide
      | minus =>
        intro ch hch
        obtain rfl := Option.some.inj hch
        decide
    obtain ⟨htake, hdrop⟩ := takeWhile_digits hdigits hrest
    unfold readInt
    rw [skipSpace_blank hblank hnumber,
      readSign_sign hsign fun ch hch => (isDigit_apart (hfirst ch hch)).2]
    dsimp only
    rw [htake, hdrop, if_pos hbounds, if_neg]
    rw [List.isEmpty_iff]
    exact hne

/-- There is another word unless only white space is left. -/
theorem readWord_none {text : Text} : readWord text = none ↔ ∀ ch ∈ text, isSpace ch = true := by
  unfold readWord skipSpace
  dsimp only
  constructor
  · intro h
    split at h
    · rename_i hempty
      exact List.dropWhile_eq_nil_iff.mp (List.isEmpty_iff.mp hempty)
    · cases h
  · intro h
    rw [List.dropWhile_eq_nil_iff.mpr h]
    rfl

/-- The word that a text begins with. -/
theorem readWord_append {word rest : Text} (hword : ∀ ch ∈ word, isSpace ch = false)
    (hne : word ≠ []) (hrest : ∀ ch ∈ rest.head?, isSpace ch = true) :
    readWord (word ++ rest) = some (word, rest) := by
  have hskip : skipSpace (word ++ rest) = word ++ rest := by
    cases word with
    | nil => exact absurd rfl hne
    | cons ch word =>
      show (ch :: (word ++ rest)).dropWhile isSpace = _
      rw [List.dropWhile_cons_of_neg]
      · rfl
      · rw [hword ch (List.mem_cons_self ..)]
        exact Bool.false_ne_true
  have hword' : ∀ ch ∈ word, (!isSpace ch) = true := by
    intro ch hch
    rw [hword ch hch]
    rfl
  unfold readWord
  rw [hskip]
  dsimp only
  rw [List.takeWhile_append_of_pos hword', List.dropWhile_append_of_pos hword', if_neg]
  · cases rest with
    | nil => rw [List.takeWhile_nil, List.dropWhile_nil, List.append_nil]
    | cons ch rest =>
      have hch := hrest ch (by simp)
      rw [List.takeWhile_cons_of_neg (by simp [hch]), List.dropWhile_cons_of_neg (by simp [hch]),
        List.append_nil]
  · rw [List.isEmpty_iff]
    intro hempty
    exact hne (List.append_eq_nil_iff.mp hempty).1

end TextInput
