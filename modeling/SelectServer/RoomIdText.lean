import SelectServer.Lib.Digits
import SelectServer.Protocol

/- `TryParseRoomId` of `ChatClient.cpp`: the room number a user types after a
   command. The loop keeps a 32-bit value and refuses a digit by a comparison
   with a quotient. `roomIdLoop_toNat` relates it to the reader over the naturals
   and `accumulate_exact` says that its two 32-bit operations are exact. -/
namespace SelectServer
open Wire (Bytes)

/-! ## The source -/

/-- `ch < '0' || ch > '9'` is the refusal. -/
def isDigit (ch : UInt8) : Bool := !(ch < 48 || ch > 57)

def digitOf (ch : UInt8) : UInt32 := (ch - 48).toUInt32

/-- `std::numeric_limits<std::uint32_t>::max()` -/
def maxUInt32 : UInt32 := 0xFFFFFFFF

/-- One round of the loop; none where it returns false. -/
def roomIdStep (value : UInt32) (ch : UInt8) : Option UInt32 :=
  if !isDigit ch then none
  else if value > (maxUInt32 - digitOf ch) / 10 then none
  else some (value * 10 + digitOf ch)

def roomIdLoop : Bytes → UInt32 → Option UInt32
  | [], value => some value
  | ch :: text, value => (roomIdStep value ch).bind (roomIdLoop text)

/-- What is returned, and `out` afterwards. -/
def tryParseRoomId (text : Bytes) (out : UInt32) : Bool × UInt32 :=
  if text.isEmpty then (false, out)
  else
    match roomIdLoop text 0 with
    | some value => (true, value)
    | none => (false, out)

/-! ## What the text denotes -/

/-- A non-empty sequence of ASCII digits with the decimal value `n`. -/
structure Denotes (text : Bytes) (n : Nat) : Prop where
  nonempty : text ≠ []
  digits : ∀ ch ∈ text, isDigit ch = true
  value : Digits.number 10 (text.map fun ch => ch.toNat - 48) = n

theorem isDigit_iff (ch : UInt8) : isDigit ch = true ↔ 48 ≤ ch.toNat ∧ ch.toNat ≤ 57 := by
  simp only [isDigit, Bool.not_eq_true', Bool.or_eq_false_iff, decide_eq_false_iff_not,
    UInt8.lt_iff_toNat_lt, GT.gt, show (48 : UInt8).toNat = 48 from rfl,
    show (57 : UInt8).toNat = 57 from rfl]
  omega

theorem digitOf_toNat {ch : UInt8} (h : isDigit ch = true) :
    (digitOf ch).toNat = ch.toNat - 48 := by
  have hch := (isDigit_iff ch).mp h
  have hle : (48 : UInt8) ≤ ch := UInt8.le_iff_toNat_le.mpr hch.1
  unfold digitOf
  rw [UInt8.toNat_toUInt32, UInt8.toNat_sub_of_le _ _ hle]
  rfl

theorem digitOf_le {ch : UInt8} (h : isDigit ch = true) : (digitOf ch).toNat ≤ 9 := by
  have hch := (isDigit_iff ch).mp h
  rw [digitOf_toNat h]
  omega

/-! ## The loop on the naturals -/

/-- `maxValue - digit` does not wrap, so the quotient is the one over the naturals. -/
theorem quotient_toNat {ch : UInt8} (h : isDigit ch = true) :
    ((maxUInt32 - digitOf ch) / 10).toNat = (maxUInt32.toNat - (digitOf ch).toNat) / 10 := by
  have hdigit := digitOf_le h
  have hmax : maxUInt32.toNat = 4294967295 := rfl
  have hle : digitOf ch ≤ maxUInt32 := UInt32.le_iff_toNat_le.mpr (by omega)
  rw [UInt32.toNat_div, UInt32.toNat_sub_of_le _ _ hle]
  rfl

/-- Where the comparison lets a digit pass, neither operation wraps. -/
theorem accumulate_exact {value : UInt32} {ch : UInt8} (h : isDigit ch = true)
    (hguard : ¬ value > (maxUInt32 - digitOf ch) / 10) :
    value.toNat * 10 + (digitOf ch).toNat < 2 ^ 32 ∧
      (value * 10).toNat = value.toNat * 10 ∧
      (value * 10 + digitOf ch).toNat = value.toNat * 10 + (digitOf ch).toNat := by
  have hdigit := digitOf_le h
  have hmax : maxUInt32.toNat = 4294967295 := rfl
  have hle : value.toNat ≤ (maxUInt32.toNat - (digitOf ch).toNat) / 10 := by
    rw [← quotient_toNat h]
    exact UInt32.le_iff_toNat_le.mp (UInt32.not_lt.mp hguard)
  have hnext := (Digits.guard_iff (by decide) (by omega)).mp hle
  have hten : (value * 10).toNat = value.toNat * 10 := by
    rw [UInt32.toNat_mul, show (10 : UInt32).toNat = 10 from rfl]
    exact Nat.mod_eq_of_lt (by omega)
  refine ⟨by omega, hten, ?_⟩
  rw [UInt32.toNat_add, hten]
  exact Nat.mod_eq_of_lt (by omega)

theorem roomIdStep_toNat {ch : UInt8} (h : isDigit ch = true) (value : UInt32) :
    (roomIdStep value ch).map UInt32.toNat =
      Digits.readDigit 10 maxUInt32.toNat value.toNat (ch.toNat - 48) := by
  have hquot := quotient_toNat h
  unfold roomIdStep Digits.readDigit
  rw [h, Bool.not_true, if_neg Bool.false_ne_true, ← digitOf_toNat h, ← hquot]
  by_cases hguard : value > (maxUInt32 - digitOf ch) / 10
  · rw [if_pos hguard, if_pos (UInt32.lt_iff_toNat_lt.mp hguard), Option.map_none]
  · have hpass : ¬ value.toNat > ((maxUInt32 - digitOf ch) / 10).toNat := fun hgt =>
      hguard (UInt32.lt_iff_toNat_lt.mpr hgt)
    rw [if_neg hguard, if_neg hpass, Option.map_some, (accumulate_exact h hguard).2.2]

theorem roomIdLoop_toNat {text : Bytes} (h : ∀ ch ∈ text, isDigit ch = true) (value : UInt32) :
    (roomIdLoop text value).map UInt32.toNat =
      Digits.read 10 maxUInt32.toNat (text.map fun ch => ch.toNat - 48) value.toNat := by
  induction text generalizing value with
  | nil => rfl
  | cons ch text ih =>
    have hstep := roomIdStep_toNat (h ch (by simp)) value
    rw [roomIdLoop, List.map_cons, Digits.read, ← hstep]
    cases roomIdStep value ch with
    | none => rfl
    | some next => exact ih (fun c hc => h c (by simp [hc])) next

/-- A byte that is no digit ends the loop, if nothing before it did. -/
theorem roomIdLoop_digits {text : Bytes} {value v : UInt32} (h : roomIdLoop text value = some v) :
    ∀ ch ∈ text, isDigit ch = true := by
  induction text generalizing value with
  | nil =>
    intro ch hch
    cases hch
  | cons ch text ih =>
    obtain ⟨next, hstep, hrest⟩ := Option.bind_eq_some_iff.mp h
    intro c hc
    cases hc with
    | tail _ hc => exact ih hrest c hc
    | head =>
      cases hd : isDigit ch with
      | true => rfl
      | false =>
        rw [roomIdStep, hd, Bool.not_false, if_pos rfl] at hstep
        cases hstep

theorem roomIdLoop_eq_some {text : Bytes} {v : UInt32} : roomIdLoop text 0 = some v ↔
    (∀ ch ∈ text, isDigit ch = true) ∧
      Digits.number 10 (text.map fun ch => ch.toNat - 48) = v.toNat := by
  have hread (hdigits : ∀ ch ∈ text, isDigit ch = true) :
      (roomIdLoop text 0).map UInt32.toNat = some v.toNat ↔
        Digits.number 10 (text.map fun ch => ch.toNat - 48) = v.toNat := by
    have hsmall : ∀ d ∈ text.map fun ch => ch.toNat - 48, d ≤ maxUInt32.toNat := by
      intro d hd
      obtain ⟨ch, hch, rfl⟩ := List.mem_map.mp hd
      have := ((isDigit_iff ch).mp (hdigits ch hch)).2
      have hmax : maxUInt32.toNat = 4294967295 := rfl
      omega
    have hv : v.toNat ≤ maxUInt32.toNat := Nat.lt_succ_iff.mp v.toNat_lt
    rw [roomIdLoop_toNat hdigits, show (0 : UInt32).toNat = 0 from rfl,
      Digits.read_eq (by decide) hsmall]
    by_cases hle : Digits.number 10 (text.map fun ch => ch.toNat - 48) ≤ maxUInt32.toNat
    · rw [if_pos hle, Option.some.injEq]
    · rw [if_neg hle]
      constructor
      · intro h
        cases h
      · intro h
        omega
  constructor
  · intro h
    have hdigits := roomIdLoop_digits h
    exact ⟨hdigits, (hread hdigits).mp (by rw [h, Option.map_some])⟩
  · intro ⟨hdigits, hvalue⟩
    obtain ⟨w, hw, hwv⟩ := Option.map_eq_some_iff.mp ((hread hdigits).mpr hvalue)
    rw [hw, UInt32.toNat_inj.mp hwv]

/-! ## The answer -/

theorem tryParseRoomId_loop {text : Bytes} (h : text ≠ []) (out : UInt32) :
    tryParseRoomId text out =
      match roomIdLoop text 0 with
      | some value => (true, value)
      | none => (false, out) := by
  unfold tryParseRoomId
  rw [if_neg (by simpa using h)]

theorem tryParseRoomId_true_iff {text : Bytes} {out v : UInt32} :
    tryParseRoomId text out = (true, v) ↔ Denotes text v.toNat := by
  by_cases hempty : text = []
  · subst hempty
    constructor
    · intro h
      cases h
    · intro h
      exact absurd rfl h.nonempty
  · have hloop := tryParseRoomId_loop hempty out
    have hsome := @roomIdLoop_eq_some text v
    constructor
    · intro h
      rw [hloop] at h
      cases hr : roomIdLoop text 0 with
      | none =>
        rw [hr] at h
        cases h
      | some value =>
        rw [hr] at h
        cases h
        obtain ⟨hdigits, hvalue⟩ := hsome.mp hr
        exact ⟨hempty, hdigits, hvalue⟩
    · intro h
      rw [hloop, hsome.mpr ⟨h.digits, h.value⟩]

theorem tryParseRoomId_false {text : Bytes} {out : UInt32}
    (h : (tryParseRoomId text out).1 = false) : tryParseRoomId text out = (false, out) := by
  unfold tryParseRoomId at h ⊢
  split
  · rfl
  · rename_i hempty
    rw [if_neg hempty] at h
    split
    · rename_i hr
      rw [hr] at h
      cases h
    · rfl

/-- `TryParseRoomId` on every text: it answers true with the decimal value where that
    fits 32 bits, and otherwise false with `out` as it was. In every round that gets to
    the multiplication, the product and the sum are those of the naturals. -/
theorem tryParseRoomId_decimal (text : Bytes) (out : UInt32) :
    (∀ v : UInt32, tryParseRoomId text out = (true, v) ↔
        ∃ n, Denotes text n ∧ n ≤ 2 ^ 32 - 1 ∧ v.toNat = n) ∧
      ((¬ ∃ n, Denotes text n ∧ n ≤ 2 ^ 32 - 1) → tryParseRoomId text out = (false, out)) ∧
      ∀ pre ch post value, text = pre ++ ch :: post → roomIdLoop pre 0 = some value →
        isDigit ch = true → ¬ value > (maxUInt32 - digitOf ch) / 10 →
          value.toNat * 10 + (digitOf ch).toNat < 2 ^ 32 ∧
            (value * 10).toNat = value.toNat * 10 ∧
            (value * 10 + digitOf ch).toNat = value.toNat * 10 + (digitOf ch).toNat := by
  refine ⟨fun v => ?_, fun hnone => ?_, fun pre ch post value _ _ hdigit hguard =>
    accumulate_exact hdigit hguard⟩
  · rw [tryParseRoomId_true_iff]
    constructor
    · intro h
      exact ⟨v.toNat, h, Nat.le_sub_one_of_lt v.toNat_lt, rfl⟩
    · intro ⟨n, h, _, hv⟩
      rwa [hv]
  · apply tryParseRoomId_false
    cases hres : tryParseRoomId text out with
    | mk ok v =>
      cases ok with
      | false => rfl
      | true =>
        have h := tryParseRoomId_true_iff.mp hres
        exact absurd ⟨v.toNat, h, Nat.le_sub_one_of_lt v.toNat_lt⟩ hnone

/-- 4294967295 and 4294967296. -/
example : tryParseRoomId [52, 50, 57, 52, 57, 54, 55, 50, 57, 53] 7 = (true, 4294967295) ∧
    tryParseRoomId [52, 50, 57, 52, 57, 54, 55, 50, 57, 54] 7 = (false, 7) := by decide

end SelectServer
