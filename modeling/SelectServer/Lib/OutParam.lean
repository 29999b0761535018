import SelectServer.Lib.Cursor

/- Decoders that write to an output parameter. `Wire.Decoder` forgets its state
   where it stops; here the position and what has been written so far stay, as
   they do when a C++ function returns false half-way.

   `Tracks P m d Q` is a triple for such a decoder `m` next to a plain one `d`:
   from a cursor with `P` they do the same, `m` leaves the output alone, and where
   it stops it has rejected the body without having left it. `Fills P m d` is the
   same for a whole decoder, whose output in the end is the value of `d`. -/
namespace Wire

structure Frame (α : Type) where
  cursor : Cursor
  out : α

/-- A decoder into an output of type `α`. -/
abbrev Filling (α β : Type) := EStateM Fault (Frame α) β

namespace Filling
variable {α β : Type}

/-- A plain decoder that stops, if it does, before it has moved. -/
def lift (d : Decoder β) : Filling α β := fun frame =>
  match StateT.run d frame.cursor with
  | .ok (b, cursor) => .ok b { frame with cursor := cursor }
  | .error fault => .error fault frame

def require (c : Bool) : Filling α Unit := lift (Decoder.require c)

def position : Filling α Nat := lift Decoder.position

def size : Filling α Nat := lift Decoder.size

def remaining : Filling α Nat := lift Decoder.remaining

/-- `body[pos++]`. -/
def next : Filling α UInt8 := do
  let b ← lift (Decoder.byteAt (← position))
  lift (Decoder.advance 1)
  return b

def take : Nat → Filling α Bytes
  | 0 => return []
  | n + 1 => do
    let b ← next
    let bs ← take n
    return b :: bs

/-- A write to the output. -/
def setOut (write : α → α) : Filling α Unit := fun frame =>
  .ok () { frame with out := write frame.out }

end Filling

/-- At least `n` bytes are unread. -/
def Cursor.Ahead (n : Nat) (cur : Cursor) : Prop := cur.pos + n ≤ cur.body.length

theorem Cursor.ahead_start {cur : Cursor} (h : cur.pos = 0) : cur.Ahead 0 := by
  unfold Cursor.Ahead
  omega

theorem Cursor.Ahead.less {n m : Nat} {cur : Cursor} (h : cur.Ahead n) (hle : m ≤ n) :
    cur.Ahead m := by
  unfold Cursor.Ahead at h ⊢
  omega

/-- A size check against what `remaining` returned. -/
theorem Cursor.Ahead.of_left {left n : Nat} {cur : Cursor}
    (hsum : cur.pos + left = cur.body.length) (hle : n ≤ left) : cur.Ahead n := by
  unfold Cursor.Ahead
  omega

section
variable {α β γ : Type}

/-- `m` stops at `cur` where `d` does: it rejects, inside the body, with nothing written. -/
def Stops (m : Filling α β) (d : Decoder γ) (cur : Cursor) (out : α) : Prop :=
  ∃ cur' : Cursor, m ⟨cur, out⟩ = .error .reject ⟨cur', out⟩ ∧
    StateT.run d cur = .error .reject ∧ cur'.body = cur.body ∧ cur'.Ahead 0

def Tracks (P : Cursor → Prop) (m : Filling α β) (d : Decoder β) (Q : β → Cursor → Prop) : Prop :=
  ∀ (cur : Cursor) (out : α), P cur →
    (∃ b cur', m ⟨cur, out⟩ = .ok b ⟨cur', out⟩ ∧ StateT.run d cur = .ok (b, cur') ∧
      cur'.body = cur.body ∧ Q b cur') ∨ Stops m d cur out

def Fills (P : Cursor → Prop) (m : Filling α Unit) (d : Decoder α) : Prop :=
  ∀ (cur : Cursor) (out : α), P cur →
    (∃ a cur', m ⟨cur, out⟩ = .ok () ⟨cur', a⟩ ∧ StateT.run d cur = .ok (a, cur') ∧
      cur'.body = cur.body ∧ cur'.Ahead 0) ∨ Stops m d cur out

end

namespace Tracks
variable {α β γ : Type} {P P' : Cursor → Prop} {m : Filling α β} {d : Decoder β}
  {Q : β → Cursor → Prop}

/-- The first part of a sequence: it hands over to the second, or the whole stops there. -/
theorem first {δ ε : Type} (hm : Tracks P m d Q) (f : β → Filling α δ) (g : β → Decoder ε)
    {cur : Cursor} (out : α) (hcur : P cur) :
    (∃ b cur₁, (m >>= f) ⟨cur, out⟩ = f b ⟨cur₁, out⟩ ∧
      StateT.run (d >>= g) cur = StateT.run (g b) cur₁ ∧ cur₁.body = cur.body ∧ Q b cur₁) ∨
      Stops (m >>= f) (d >>= g) cur out := by
  have hbind : (m >>= f) ⟨cur, out⟩ = EStateM.bind m f ⟨cur, out⟩ := rfl
  rw [Stops, hbind, EStateM.bind, StateT.run_bind]
  cases hm cur out hcur with
  | inl h =>
    obtain ⟨b, cur₁, em, ed, hbody, hb⟩ := h
    rw [em, ed]
    exact .inl ⟨b, cur₁, rfl, rfl, hbody, hb⟩
  | inr h =>
    obtain ⟨cur₁, em, ed, hstop⟩ := h
    rw [em, ed]
    exact .inr ⟨cur₁, rfl, rfl, hstop⟩

theorem bind {f : β → Filling α γ} {g : β → Decoder γ} {R : γ → Cursor → Prop}
    (hm : Tracks P m d Q) (hf : ∀ b, Tracks (Q b) (f b) (g b) R) :
    Tracks P (m >>= f) (d >>= g) R := by
  intro cur out hcur
  rcases hm.first f g out hcur with ⟨b, cur₁, em, ed, hbody, hb⟩ | hstop
  · unfold Stops
    rw [em, ed, ← hbody]
    exact hf b cur₁ out hb
  · exact .inr hstop

theorem weaken (h : Tracks P m d Q) {R : β → Cursor → Prop} (hpre : ∀ cur, P' cur → P cur)
    (hpost : ∀ b cur, Q b cur → R b cur) : Tracks P' m d R := by
  intro cur out hcur
  rcases h cur out (hpre cur hcur) with ⟨b, cur', em, ed, hbody, hb⟩ | hstop
  · exact .inl ⟨b, cur', em, ed, hbody, hpost b cur' hb⟩
  · exact .inr hstop

theorem pure (b : β) (h : ∀ cur, P cur → Q b cur) :
    Tracks P (Pure.pure b : Filling α β) (Pure.pure b) Q :=
  fun cur _ hcur => .inl ⟨b, cur, rfl, rfl, rfl, h cur hcur⟩

theorem position : Tracks P (Filling.position : Filling α Nat) Decoder.position
    fun p cur => p = cur.pos ∧ P cur :=
  fun cur _ hcur => .inl ⟨cur.pos, cur, rfl, rfl, rfl, rfl, hcur⟩

theorem size : Tracks P (Filling.size : Filling α Nat) Decoder.size
    fun n cur => n = cur.body.length ∧ P cur :=
  fun cur _ hcur => .inl ⟨cur.body.length, cur, rfl, rfl, rfl, rfl, hcur⟩

/-- The subtraction does not wrap: the position is inside the body. -/
theorem remaining (h : ∀ cur, P cur → cur.Ahead 0) :
    Tracks P (Filling.remaining : Filling α Nat) Decoder.remaining
      fun n cur => cur.pos + n = cur.body.length ∧ P cur := by
  intro cur out hcur
  have hle : cur.pos ≤ cur.body.length := h cur hcur
  refine .inl ⟨cur.body.length - cur.pos, cur, ?_, ?_, rfl, by omega, hcur⟩
  · simp [Filling.remaining, Filling.lift, StateT.run, Decoder.remaining, hle]
  · simp [StateT.run, Decoder.remaining, hle]

theorem require (c : Bool) (h : ∀ cur, P cur → cur.Ahead 0) :
    Tracks P (Filling.require c : Filling α Unit) (Decoder.require c)
      fun _ cur => c = true ∧ P cur := by
  intro cur out hcur
  cases c with
  | true => exact .inl ⟨(), cur, rfl, rfl, rfl, rfl, hcur⟩
  | false => exact .inr ⟨cur, rfl, rfl, rfl, h cur hcur⟩

/-- The index is inside the body where a byte is ahead. -/
theorem next (n : Nat) : Tracks (Cursor.Ahead (n + 1)) (Filling.next : Filling α UInt8)
    Decoder.next fun _ cur => cur.Ahead n := by
  intro cur out hcur
  have hlt : cur.pos < cur.body.length := by
    unfold Cursor.Ahead at hcur
    omega
  have hget : cur.body[cur.pos]? = some cur.body[cur.pos] := List.getElem?_eq_getElem hlt
  refine .inl ⟨cur.body[cur.pos], { cur with pos := cur.pos + 1 }, ?_, ?_, rfl, ?_⟩
  · show EStateM.bind (Filling.lift (Decoder.byteAt cur.pos)) _ ⟨cur, out⟩ = _
    simp only [EStateM.bind, Filling.lift, StateT.run, Decoder.byteAt, hget]
    rfl
  · rw [Decoder.next_run, hget]
  · unfold Cursor.Ahead at hcur ⊢
    dsimp only
    omega

theorem take (n k : Nat) : Tracks (Cursor.Ahead (n + k)) (Filling.take n : Filling α Bytes)
    (Decoder.take n) fun _ cur => cur.Ahead k := by
  induction n with
  | zero => exact pure [] fun cur h => h.less (by omega)
  | succ n ih =>
    refine ((next (n + k)).weaken (fun cur h => h.less (by omega)) fun _ _ h => h).bind fun b => ?_
    exact ih.bind fun bs => pure (b :: bs) fun cur h => h

/-- A whole decoder that begins with `m`. -/
theorem fill {f : β → Filling α Unit} {g : β → Decoder α} (hm : Tracks P m d Q)
    (hf : ∀ b, Fills (Q b) (f b) (g b)) : Fills P (m >>= f) (d >>= g) := by
  intro cur out hcur
  rcases hm.first f g out hcur with ⟨b, cur₁, em, ed, hbody, hb⟩ | hstop
  · unfold Stops
    rw [em, ed, ← hbody]
    exact hf b cur₁ out hb
  · exact .inr hstop

end Tracks

/-- A read that may be made wherever the position is inside the body, and leaves it there. -/
def Inside {α β : Type} (m : Filling α β) (d : Decoder β) : Prop :=
  Tracks (Cursor.Ahead 0) m d fun _ cur => cur.Ahead 0

namespace Inside
variable {α β γ : Type} {m : Filling α β} {d : Decoder β}

theorem bind {f : β → Filling α γ} {g : β → Decoder γ} (hm : Inside m d)
    (hf : ∀ b, Inside (f b) (g b)) : Inside (m >>= f) (d >>= g) :=
  Tracks.bind hm hf

theorem pure (b : β) : Inside (Pure.pure b : Filling α β) (Pure.pure b) :=
  Tracks.pure b fun _ h => h

theorem require (c : Bool) : Inside (Filling.require c : Filling α Unit) (Decoder.require c) :=
  (Tracks.require c fun _ h => h).weaken (fun _ h => h) fun _ _ h => h.2

theorem fill {f : β → Filling α Unit} {g : β → Decoder α} (hm : Inside m d)
    (hf : ∀ b, Fills (Cursor.Ahead 0) (f b) (g b)) : Fills (Cursor.Ahead 0) (m >>= f) (d >>= g) :=
  Tracks.fill hm hf

end Inside

/-- `m` is `decode` with an output. On every body it never indexes outside or subtracts below
    zero, its position ends inside the body, and the output is the decoded value where it
    succeeds and what it was where it returns false. -/
def Decodes {α : Type} (m : Filling α Unit) (decode : Bytes → Except Fault α) : Prop :=
  ∀ (body : Bytes) (out : α), ∃ pos, pos ≤ body.length ∧
    ((∃ a, decode body = .ok a ∧ m ⟨⟨body, 0⟩, out⟩ = .ok () ⟨⟨body, pos⟩, a⟩) ∨
      (decode body = .error .reject ∧ m ⟨⟨body, 0⟩, out⟩ = .error .reject ⟨⟨body, pos⟩, out⟩))

namespace Fills
variable {α : Type} {P : Cursor → Prop}

/-- `out = decoded; return true;` -/
theorem setOut {write : α → α} {a : α} (hwrite : ∀ out, write out = a)
    (h : ∀ cur, P cur → cur.Ahead 0) : Fills P (Filling.setOut write) (Pure.pure a) := by
  intro cur out hcur
  refine .inl ⟨a, cur, ?_, rfl, rfl, h cur hcur⟩
  rw [← hwrite out]
  rfl

theorem written {write : α → α} {a : α} (hwrite : ∀ out, write out = a) :
    Fills (Cursor.Ahead 0) (Filling.setOut write) (Pure.pure a) :=
  setOut hwrite fun _ h => h

/-- A decoder of a type with one value, which need not write it. -/
theorem unwritten {m : Filling α Unit} {d : Decoder Unit} {a : α} (hout : ∀ out, out = a)
    (h : Tracks P m d fun _ cur => cur.Ahead 0) : Fills P m (d >>= fun _ => Pure.pure a) := by
  intro cur out hcur
  have hbind : StateT.run (d >>= fun _ => Pure.pure a) cur =
      (StateT.run d cur >>= fun r => Except.ok (a, r.2)) := rfl
  rw [Stops, hbind]
  rcases h cur out hcur with ⟨b, cur', em, ed, hbody, hle⟩ | ⟨cur', em, ed, hstop⟩
  · rw [ed]
    exact .inl ⟨a, cur', by rw [em, hout out], rfl, hbody, hle⟩
  · rw [ed]
    exact .inr ⟨cur', em, rfl, hstop⟩

theorem decodes {m : Filling α Unit} {d : Decoder α} (h : Fills P m d)
    (hstart : ∀ cur : Cursor, cur.pos = 0 → P cur) : Decodes m (Decoder.run d) := by
  intro body out
  rcases h ⟨body, 0⟩ out (hstart ⟨body, 0⟩ rfl) with
    ⟨a, cur, em, ed, hbody, hle⟩ | ⟨cur, em, ed, hbody, hle⟩
  all_goals
    obtain ⟨body', pos⟩ := cur
    obtain rfl : body' = body := hbody
  · exact ⟨pos, hle, .inl ⟨a, by rw [Decoder.run, ed]; rfl, em⟩⟩
  · exact ⟨pos, hle, .inr ⟨by rw [Decoder.run, ed]; rfl, em⟩⟩

/-- The same for a `decode` that is not written as a cursor's. -/
theorem decodes_as {m : Filling α Unit} {d : Decoder α} {decode : Bytes → Except Fault α}
    (h : Fills P m d) (hstart : ∀ cur : Cursor, cur.pos = 0 → P cur)
    (hrun : ∀ body, Decoder.run d body = decode body) : Decodes m decode := by
  intro body out
  have hbody := h.decodes hstart body out
  rwa [hrun] at hbody

theorem decodes_inside {m : Filling α Unit} {d : Decoder α} (h : Fills (Cursor.Ahead 0) m d) :
    Decodes m (Decoder.run d) :=
  h.decodes fun _ => Cursor.ahead_start

end Fills
end Wire
