import SelectServer.CodecRoundTrip
import SelectServer.Lib.Framing

/- Packets on a connection. Both ends write a packet as a header of its total size
   and its id, followed by the body, and both cut what they receive by the same
   loop; they differ in where a packet that is complete is put, which is the
   loop's parameter here. `processLoop_eq` says that the loop ends and does what the
   reference parse of the buffer says. -/
namespace SelectServer
open Wire (Bytes)
open Framing (Format Ending Parsed)

/-- `ReadUInt16(data + i)`. -/
def readUInt16At (data : Bytes) (i : Nat) : UInt16 :=
  readUInt16 (data.getD i 0) (data.getD (i + 1) 0)

/-- The id and the body of a packet. -/
abbrev Payload := UInt16 × Bytes

/-- A packet as `QueuePacket` and `TcpClient::SendPacket` write it. -/
def packetBytes (p : Payload) : Bytes :=
  writeUInt16 (UInt16.ofNat (headerSize + p.2.length)) ++ (writeUInt16 p.1 ++ p.2)

/-- What one `recv` into a `char buffer[4096]` has read. -/
structure Chunk where
  bytes : Bytes
  nonempty : bytes ≠ []
  fits : bytes.length ≤ 4096

/-- What `recv` comes back with. -/
inductive Received where
  | data (chunk : Chunk)
  | finished
  | wouldBlock
  | failed

/-- What `send` comes back with. -/
inductive Sent where
  | bytes (n : Nat)
  | wouldBlock
  | failed
  | noProgress
  deriving DecidableEq, Repr

/-- Why a connection is given up while receiving, as it is reported. -/
inductive ReceiveFault where
  | bufferLimit
  | invalidPacketSize
  | queueFull
  | peerFinished
  | recvFailed
  deriving DecidableEq, Repr

/-! ## `ProcessRecvBuffer` -/

section Loop
variable {σ : Type} (enqueue : σ → UInt16 → Bytes → Bool × σ) (buffer : Bytes)

/-- The loop from `readPos` on, with the position where it breaks; none if it has not ended after the
given number of iterations. -/
def processLoop : Nat → Nat → σ → Option (Except ReceiveFault Nat × σ)
  | 0, _, _ => none
  | iterations + 1, readPos, queue =>
    let available := buffer.length - readPos
    if available < headerSize then some (.ok readPos, queue)
    else
      let packet := buffer.drop readPos
      let totalSize := (readUInt16At packet 0).toNat
      let packetId := readUInt16At packet 2
      if totalSize < headerSize ∨ totalSize > maxPacketSize then
        some (.error .invalidPacketSize, queue)
      else if available < totalSize then some (.ok readPos, queue)
      else
        let bodySize := totalSize - headerSize
        let body := (packet.drop headerSize).take bodySize
        match enqueue queue packetId body with
        | (false, queue) => some (.error .queueFull, queue)
        | (true, queue) => processLoop iterations (readPos + totalSize) queue

/-- The whole buffer, with what stays in it: the part that was processed is erased. -/
def processBuffer (queue : σ) : Option (Except ReceiveFault Bytes × σ) :=
  (processLoop enqueue buffer (buffer.length + 1) 0 queue).map fun (result, queue) =>
    (result.map fun readPos => buffer.drop readPos, queue)

/-- Packets are queued one after the other, up to one that is not taken. -/
def enqueueAll : List Payload → σ → Bool × σ
  | [], queue => (true, queue)
  | (packetId, body) :: packets, queue =>
    match enqueue queue packetId body with
    | (false, queue) => (false, queue)
    | (true, queue) => enqueueAll packets queue

end Loop

/-! ## The format -/

theorem readUInt16At_append (s t : Bytes) {i : Nat} (h : i + 1 < s.length) :
    readUInt16At (s ++ t) i = readUInt16At s i := by
  unfold readUInt16At
  rw [List.getD_append _ _ _ _ (by omega), List.getD_append _ _ _ _ h]

/-- The size that a header gives, if it is valid. -/
def totalSize? (s : Bytes) : Option Nat :=
  let totalSize := (readUInt16At s 0).toNat
  if totalSize < headerSize ∨ totalSize > maxPacketSize then none else some totalSize

def packetFormat : Format UInt8 where
  headerSize := headerSize
  maxSize := maxPacketSize
  total := totalSize?
  header_pos := by decide
  header_le_max := by decide
  total_append s t h := by
    have h4 : 4 ≤ s.length := h
    rw [totalSize?, totalSize?, readUInt16At_append s t (by omega)]
  total_bounds s n h := by
    unfold totalSize? at h
    dsimp only at h
    split at h
    · cases h
    · rename_i hvalid
      obtain rfl := Option.some.inj h
      omega

/-- The id and the body in a frame. -/
def payload (frame : Bytes) : Payload := (readUInt16At frame 2, frame.drop headerSize)

theorem writeUInt16_read (v : UInt16) (rest : Bytes) : readUInt16At (writeUInt16 v ++ rest) 0 = v :=
  readUInt16_write v

theorem packetBytes_length (p : Payload) : (packetBytes p).length = headerSize + p.2.length := by
  simp [packetBytes, writeUInt16, headerSize]
  omega

/-- A body that is not too long is framed with its own size: the 16 bits do not truncate it. -/
theorem packetBytes_frame {p : Payload} (h : p.2.length ≤ maxPacketSize - headerSize) :
    packetFormat.IsFrame (packetBytes p) := by
  have hbody : p.2.length ≤ 4092 := h
  have hsize : (UInt16.ofNat (headerSize + p.2.length)).toNat = headerSize + p.2.length := by
    rw [UInt16.toNat_ofNat']
    exact Nat.mod_eq_of_lt (by simp only [headerSize]; omega)
  have hread : readUInt16At (packetBytes p) 0 = UInt16.ofNat (headerSize + p.2.length) :=
    writeUInt16_read _ _
  show totalSize? (packetBytes p) = _
  rw [totalSize?, hread, hsize, packetBytes_length]
  apply if_neg
  simp only [headerSize, maxPacketSize]
  omega

theorem payload_take {s : Bytes} {n : Nat} (hheader : headerSize ≤ n) (hn : n ≤ s.length) :
    payload (s.take n) = (readUInt16At s 2, (s.drop headerSize).take (n - headerSize)) := by
  have hheader' : 4 ≤ n := hheader
  have hread := readUInt16At_append (s.take n) (s.drop n) (i := 2)
    (by rw [List.length_take_of_le hn]; omega)
  rw [List.take_append_drop] at hread
  rw [payload, ← hread, List.drop_take]

theorem payload_packetBytes (p : Payload) : payload (packetBytes p) = p := by
  have hid : readUInt16At (packetBytes p) 2 = p.1 := writeUInt16_read p.1 p.2
  rw [payload, hid]
  rfl

/-- One read completes at most 1024 packets. -/
theorem burst_le {rest : Bytes} (h : packetFormat.Incomplete rest) (chunk : Chunk) :
    (packetFormat.parse (rest ++ chunk.bytes)).frames.length ≤ 1024 := by
  by_cases hnone : (packetFormat.parse (rest ++ chunk.bytes)).frames = []
  · rw [hnone]
    exact Nat.zero_le _
  · have hlt := h.frames_lt chunk.bytes hnone
    have hfits := chunk.fits
    simp only [packetFormat, headerSize] at hlt ⊢
    omega

/-! ## The loop against the reference -/

/-- How `ProcessRecvBuffer` ends, with the bytes it leaves. -/
def verdict : Ending UInt8 → Except ReceiveFault Bytes
  | .kept rest => .ok rest
  | .broken => .error .invalidPacketSize

section Loop
variable {σ : Type} {enqueue : σ → UInt16 → Bytes → Bool × σ} {buffer : Bytes}

/-- The loop's outcome from the parse of the bytes it is to process. -/
def outcome (enqueue : σ → UInt16 → Bytes → Bool × σ) (buffer : Bytes) (p : Parsed UInt8)
    (queue : σ) : Except ReceiveFault Nat × σ :=
  match enqueueAll enqueue (p.frames.map payload) queue with
  | (false, queue) => (.error .queueFull, queue)
  | (true, queue) => ((verdict p.ending).map fun rest => buffer.length - rest.length, queue)

theorem outcome_cons (p : Parsed UInt8) (frame : Bytes) (queue : σ) :
    outcome enqueue buffer (p.cons frame) queue =
      match enqueue queue (payload frame).1 (payload frame).2 with
      | (false, queue) => (.error .queueFull, queue)
      | (true, queue) => outcome enqueue buffer p queue := by
  simp only [outcome, Parsed.cons, List.map_cons, enqueueAll]
  cases enqueue queue (payload frame).1 (payload frame).2 with
  | mk taken queue =>
    cases taken with
    | true => rfl
    | false => rfl

/-- The loop ends, and it does what the reference parse says. -/
theorem processLoop_eq (iterations : Nat) : ∀ (readPos : Nat) (queue : σ), readPos ≤ buffer.length →
    buffer.length - readPos < iterations →
      processLoop enqueue buffer iterations readPos queue =
        some (outcome enqueue buffer (packetFormat.parse (buffer.drop readPos)) queue) := by
  induction iterations with
  | zero =>
    intro readPos queue _ h
    omega
  | succ iterations ih =>
    intro readPos queue hpos h
    have havailable : (buffer.drop readPos).length = buffer.length - readPos := List.length_drop
    -- the loop breaks at `readPos`
    have hbreak : packetFormat.Incomplete (buffer.drop readPos) →
        some (Except.ok readPos, queue) =
          some (outcome enqueue buffer (packetFormat.parse (buffer.drop readPos)) queue) := by
      intro hincomplete
      rw [Format.parse_incomplete hincomplete]
      show _ = some (Except.ok (buffer.length - (buffer.drop readPos).length), queue)
      rw [havailable, Nat.sub_sub_self hpos]
    simp only [processLoop]
    by_cases hheader : buffer.length - readPos < headerSize
    · rw [if_pos hheader]
      exact hbreak fun hlong => absurd hlong (by rw [havailable]; exact Nat.not_le.mpr hheader)
    rw [if_neg hheader]
    have hlong : headerSize ≤ (buffer.drop readPos).length := by
      rw [havailable]
      omega
    generalize hn : (readUInt16At (buffer.drop readPos) 0).toNat = n
    have htotal : packetFormat.total (buffer.drop readPos) =
        if n < headerSize ∨ n > maxPacketSize then none else some n := by
      rw [← hn]
      rfl
    by_cases hinvalid : n < headerSize ∨ n > maxPacketSize
    · rw [if_pos hinvalid] at htotal ⊢
      rw [Format.parse_refused ⟨hlong, htotal⟩]
      rfl
    rw [if_neg hinvalid] at htotal ⊢
    by_cases hbody : buffer.length - readPos < n
    · rw [if_pos hbody]
      exact hbreak fun _ => ⟨n, htotal, by rw [havailable]; exact hbody⟩
    rw [if_neg hbody]
    -- one more frame
    have hframe : packetFormat.IsFrame ((buffer.drop readPos).take n) :=
      Format.isFrame_take htotal (by omega)
    have hmore : packetFormat.parse (buffer.drop readPos) =
        (packetFormat.parse (buffer.drop (readPos + n))).cons ((buffer.drop readPos).take n) := by
      rw [← Format.parse_frame hframe, ← List.drop_drop, List.take_append_drop]
    have hpayload := payload_take (s := buffer.drop readPos) (n := n) (by omega) (by omega)
    rw [hmore, outcome_cons, hpayload]
    dsimp only
    cases enqueue queue (readUInt16At (buffer.drop readPos) 2)
      (((buffer.drop readPos).drop headerSize).take (n - headerSize)) with
    | mk taken queue =>
      cases taken with
      | false => rfl
      | true => exact ih _ _ (by omega) (by simp only [headerSize] at *; omega)

/-- `ProcessRecvBuffer` by the reference parse of the buffer. -/
theorem processBuffer_eq (queue : σ) : processBuffer enqueue buffer queue =
    some (match enqueueAll enqueue ((packetFormat.parse buffer).frames.map payload) queue with
      | (false, queue) => (.error .queueFull, queue)
      | (true, queue) => (verdict (packetFormat.parse buffer).ending, queue)) := by
  rw [processBuffer, processLoop_eq _ 0 queue (Nat.zero_le _) (by omega), List.drop_zero]
  unfold outcome
  cases enqueueAll enqueue ((packetFormat.parse buffer).frames.map payload) queue with
  | mk taken queue =>
    cases taken with
    | false => rfl
    | true =>
      cases hending : (packetFormat.parse buffer).ending with
      | broken => rfl
      | kept rest =>
        have hsplit := (Format.parse_kept hending).2
        show some (Except.ok (buffer.drop (buffer.length - rest.length)), queue) =
          some (.ok rest, queue)
        generalize (packetFormat.parse buffer).frames.flatten = front at hsplit
        rw [hsplit, List.length_append, Nat.add_sub_cancel, List.drop_left]

end Loop
end SelectServer
