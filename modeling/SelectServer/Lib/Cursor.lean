import Mathlib.Data.List.Basic

/- A checked cursor over a byte list. A decoder is a state transformer on a
   body and a position. It can stop in three ways: it rejects the body, it
   indexes outside the body, or it subtracts a position from a smaller size.
   Only the first is an answer a program may give; the other two are what a
   C++ decoder must never do, so they are results here and not totalised away.

   `Reads d input a rest` says that on every body whose unread part is `input`
   the decoder `d` succeeds with `a` and leaves `rest` unread. The rules below
   compose such facts along `do` blocks; a round trip is then one chain of them.
   `Only d R` is the converse: where `d` succeeds, the unread part before, the
   value and the unread part after are related by `R`. -/
namespace Wire

abbrev Bytes := List UInt8

/-- Why a decoder stopped without a value. -/
inductive Fault where
  | reject
  | outOfBounds
  | underflow
  deriving DecidableEq, Repr

structure Cursor where
  body : Bytes
  pos : Nat
  deriving DecidableEq, Repr

abbrev Decoder (α : Type) := StateT Cursor (Except Fault) α

namespace Decoder

def reject {α : Type} : Decoder α := fun _ => .error .reject

/-- `if (!c) return false;` -/
def require (c : Bool) : Decoder Unit := fun cur => if c then .ok ((), cur) else .error .reject

/-- `body[i]`, an index that the caller should have checked. -/
def byteAt (i : Nat) : Decoder UInt8 := fun cur =>
  match cur.body[i]? with
  | some b => .ok (b, cur)
  | none => .error .outOfBounds

def position : Decoder Nat := fun cur => .ok (cur.pos, cur)

def size : Decoder Nat := fun cur => .ok (cur.body.length, cur)

/-- `body.size() - pos` on an unsigned type. -/
def remaining : Decoder Nat := fun cur =>
  if cur.pos ≤ cur.body.length then .ok (cur.body.length - cur.pos, cur) else .error .underflow

def advance (n : Nat) : Decoder Unit := fun cur => .ok ((), { cur with pos := cur.pos + n })

/-- `body[pos++]`. -/
def next : Decoder UInt8 := do
  let b ← byteAt (← position)
  advance 1
  return b

/-- The bytes from `pos` up to `pos + n`, each one indexed. -/
def take : Nat → Decoder Bytes
  | 0 => return []
  | n + 1 => do
    let b ← next
    let bs ← take n
    return b :: bs

/-- Run a decoder over a whole body from its first byte. -/
def run {α : Type} (d : Decoder α) (body : Bytes) : Except Fault α :=
  (StateT.run d ⟨body, 0⟩).map (·.1)

end Decoder

theorem Decoder.next_run (cur : Cursor) : StateT.run Decoder.next cur =
    match cur.body[cur.pos]? with
    | some b => .ok (b, { cur with pos := cur.pos + 1 })
    | none => .error .outOfBounds := by
  have e : StateT.run Decoder.next cur = ((StateT.run (Decoder.byteAt cur.pos) cur) >>= fun r =>
      Except.ok (r.1, { r.2 with pos := r.2.pos + 1 })) := rfl
  rw [e]
  cases h : cur.body[cur.pos]? <;> simp only [StateT.run, Decoder.byteAt, h] <;> rfl

theorem Decoder.run_size {α : Type} (f : Nat → Decoder α) (body : Bytes) :
    Decoder.run (Decoder.size >>= f) body = Decoder.run (f body.length) body := rfl

/-- `rest` is what the cursor has not read yet. -/
def Cursor.At (cur : Cursor) (rest : Bytes) : Prop :=
  cur.pos ≤ cur.body.length ∧ cur.body.drop cur.pos = rest

theorem Cursor.At.length {cur : Cursor} {rest : Bytes} (h : cur.At rest) :
    cur.body.length - cur.pos = rest.length := by
  rw [← h.2, List.length_drop]

theorem Cursor.At.get {cur : Cursor} {b : UInt8} {rest : Bytes} (h : cur.At (b :: rest)) :
    cur.body[cur.pos]? = some b := by
  have := congrArg (·[0]?) h.2
  simpa using this

theorem Cursor.At.step {cur : Cursor} {b : UInt8} {rest : Bytes} (h : cur.At (b :: rest)) :
    ({ cur with pos := cur.pos + 1 } : Cursor).At rest := by
  have hl := h.length
  simp only [List.length_cons] at hl
  refine ⟨by dsimp only; omega, ?_⟩
  dsimp only
  rw [← List.tail_drop, h.2, List.tail_cons]

theorem Cursor.at_start (body : Bytes) : (⟨body, 0⟩ : Cursor).At body := ⟨Nat.zero_le _, rfl⟩

/-- From unread `input` the decoder succeeds with `a` and leaves `rest`. -/
def Reads {α : Type} (d : Decoder α) (input : Bytes) (a : α) (rest : Bytes) : Prop :=
  ∀ cur : Cursor, cur.At input → ∃ cur', StateT.run d cur = .ok (a, cur') ∧ cur'.At rest

namespace Reads
variable {α β : Type} {input mid rest : Bytes}

theorem pure (a : α) (input : Bytes) : Reads (Pure.pure a) input a input :=
  fun cur h => ⟨cur, rfl, h⟩

theorem bind {d : Decoder α} {f : α → Decoder β} {a : α} {b : β}
    (hd : Reads d input a mid) (hf : Reads (f a) mid b rest) : Reads (d >>= f) input b rest := by
  intro cur hcur
  obtain ⟨cur₁, e₁, h₁⟩ := hd cur hcur
  obtain ⟨cur₂, e₂, h₂⟩ := hf cur₁ h₁
  exact ⟨cur₂, by rw [StateT.run_bind, e₁]; exact e₂, h₂⟩

theorem require {c : Bool} (hc : c = true) (input : Bytes) :
    Reads (Decoder.require c) input () input := by
  intro cur h
  exact ⟨cur, by simp [Decoder.require, StateT.run, hc], h⟩

theorem remaining (input : Bytes) : Reads Decoder.remaining input input.length input := by
  intro cur h
  refine ⟨cur, ?_, h⟩
  simp [Decoder.remaining, StateT.run, h.1, h.length]

theorem next (b : UInt8) (rest : Bytes) : Reads Decoder.next (b :: rest) b rest := by
  intro cur h
  exact ⟨{ cur with pos := cur.pos + 1 }, by rw [Decoder.next_run, h.get], h.step⟩

theorem take : ∀ (bs rest : Bytes), Reads (Decoder.take bs.length) (bs ++ rest) bs rest
  | [], rest => Reads.pure [] rest
  | b :: bs, rest => (Reads.next b (bs ++ rest)).bind ((take bs rest).bind (Reads.pure _ _))

/-- A decoder that consumes the whole body, run from the first byte. -/
theorem run {d : Decoder α} {a : α} (h : Reads d input a []) : Decoder.run d input = .ok a := by
  obtain ⟨cur, e, -⟩ := h ⟨input, 0⟩ (Cursor.at_start input)
  simp [Decoder.run, e, Except.map]

end Reads

/-- `d` succeeds only in the ways `R` says, from the unread part before it to the one after. -/
def Only {α : Type} (d : Decoder α) (R : Bytes → α → Bytes → Prop) : Prop :=
  ∀ (cur cur' : Cursor) (input : Bytes) (a : α), cur.At input → StateT.run d cur = .ok (a, cur') →
    ∃ rest, cur'.At rest ∧ R input a rest

namespace Only
variable {α β : Type}

theorem pure (a : α) : Only (Pure.pure a) fun input a' rest => a' = a ∧ rest = input := by
  intro cur cur' input a' hcur h
  cases h
  exact ⟨input, hcur, rfl, rfl⟩

theorem bind {d : Decoder α} {f : α → Decoder β} {R : Bytes → α → Bytes → Prop}
    {S : α → Bytes → β → Bytes → Prop} (hd : Only d R) (hf : ∀ a, Only (f a) (S a)) :
    Only (d >>= f) fun input b rest => ∃ a mid, R input a mid ∧ S a mid b rest := by
  intro cur cur'' input b hcur h
  rw [StateT.run_bind] at h
  cases e : StateT.run d cur with
  | error fault =>
    rw [e] at h
    cases h
  | ok r =>
    obtain ⟨a, cur'⟩ := r
    rw [e] at h
    obtain ⟨mid, hmid, hR⟩ := hd cur cur' input a hcur e
    obtain ⟨rest, hrest, hS⟩ := hf a cur' cur'' mid b hmid h
    exact ⟨rest, hrest, a, mid, hR, hS⟩

theorem weaken {d : Decoder α} {R S : Bytes → α → Bytes → Prop} (h : Only d R)
    (hle : ∀ input a rest, R input a rest → S input a rest) : Only d S := by
  intro cur cur' input a hcur e
  obtain ⟨rest, hrest, hR⟩ := h cur cur' input a hcur e
  exact ⟨rest, hrest, hle input a rest hR⟩

theorem reject : Only (Decoder.reject : Decoder α) fun _ _ _ => False := by
  intro cur cur' input a hcur h
  cases h

theorem require (c : Bool) :
    Only (Decoder.require c) fun input _ rest => c = true ∧ rest = input := by
  intro cur cur' input a hcur h
  simp only [Decoder.require, StateT.run] at h
  split at h
  · rename_i hc
    cases h
    exact ⟨input, hcur, hc, rfl⟩
  · cases h

theorem remaining :
    Only Decoder.remaining fun input n rest => n = input.length ∧ rest = input := by
  intro cur cur' input n hcur h
  simp only [Decoder.remaining, StateT.run] at h
  split at h
  · cases h
    exact ⟨input, hcur, hcur.length, rfl⟩
  · cases h

theorem next : Only Decoder.next fun input b rest => input = b :: rest := by
  intro cur cur' input b hcur h
  rw [Decoder.next_run] at h
  cases hget : cur.body[cur.pos]? with
  | none =>
    rw [hget] at h
    cases h
  | some b' =>
    rw [hget] at h
    cases h
    obtain ⟨hlt, hval⟩ := List.getElem?_eq_some_iff.mp hget
    have hinput : input = b :: cur.body.drop (cur.pos + 1) := by
      rw [← hcur.2, List.drop_eq_getElem_cons hlt, hval]
    rw [hinput] at hcur
    exact ⟨_, hcur.step, hinput⟩

theorem take (n : Nat) :
    Only (Decoder.take n) fun input bs rest => bs.length = n ∧ input = bs ++ rest := by
  induction n with
  | zero =>
    refine (Only.pure []).weaken ?_
    rintro input bs rest ⟨rfl, rfl⟩
    exact ⟨rfl, rfl⟩
  | succ n ih =>
    refine (next.bind fun b => ih.bind fun bs => Only.pure (b :: bs)).weaken ?_
    rintro input bs rest ⟨b, mid, rfl, bs', mid', ⟨hlen, rfl⟩, rfl, rfl⟩
    exact ⟨by rw [List.length_cons, hlen], rfl⟩

/-- What a decoder that is run over a whole body can accept. -/
theorem run {d : Decoder α} {R : Bytes → α → Bytes → Prop} (h : Only d R) {body : Bytes} {a : α}
    (e : Decoder.run d body = .ok a) : ∃ rest, R body a rest := by
  unfold Decoder.run at e
  cases hrun : StateT.run d ⟨body, 0⟩ with
  | error fault =>
    rw [hrun] at e
    cases e
  | ok r =>
    rw [hrun] at e
    cases e
    obtain ⟨rest, -, hR⟩ := h _ _ body r.1 (Cursor.at_start body) hrun
    exact ⟨rest, hR⟩

end Only
end Wire
