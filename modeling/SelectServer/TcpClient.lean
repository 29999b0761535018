import SelectServer.ChatClient
import SelectServer.PacketFraming

/- `TcpClient`: the client's end of the connection. Its own loop over the buffer
   queues packets up to a limit, which no read reaches if the queue has been
   emptied before it (`receive_drained`). -/
namespace SelectServer
open Wire (Bytes)
open Framing (Format Ending Parsed)

structure TcpClient where
  /-- `m_socket` is valid. -/
  connected : Bool := true
  recvBuffer : Bytes := []
  sendBuffer : Bytes := []
  packets : List ClientPacket := []
  deriving DecidableEq, Repr

namespace TcpClient

def maxRecvBuffer : Nat := maxPacketSize * 2

def maxSendBuffer : Nat := 1024 * 1024

def maxPendingPackets : Nat := 1024

def sendPacket (c : TcpClient) (packetId : UInt16) (body : Bytes) : Bool × TcpClient :=
  if !c.connected then (false, c)
  else if body.length > maxPacketSize - headerSize then (false, c)
  else
    let totalSize := headerSize + body.length
    if c.sendBuffer.length + totalSize > maxSendBuffer then (false, c)
    else (true, { c with sendBuffer := c.sendBuffer ++ packetBytes (packetId, body) })

def tryPopPacket (c : TcpClient) : Option (ClientPacket × TcpClient) :=
  match c.packets with
  | [] => none
  | packet :: packets => some (packet, { c with packets := packets })

def disconnect (_ : TcpClient) : TcpClient where
  connected := false

/-- What `ProcessRecvBuffer` does with a complete packet. -/
def pushPacket (packets : List ClientPacket) (packetId : UInt16) (body : Bytes) :
    Bool × List ClientPacket :=
  if packets.length ≥ maxPendingPackets then (false, packets)
  else (true, packets ++ [⟨packetId, body⟩])

/-- With the fault for which it returns false. -/
def processRecvBuffer (c : TcpClient) : Option (Option ReceiveFault × TcpClient) :=
  (processBuffer pushPacket c.recvBuffer c.packets).map fun (result, packets) =>
    match result with
    | .error fault => (some fault, { c with packets := packets })
    | .ok rest => (none, { c with recvBuffer := rest, packets := packets })

def receive (c : TcpClient) : Received → Option (Option ReceiveFault × TcpClient)
  | .data chunk =>
    if c.recvBuffer.length + chunk.bytes.length > maxRecvBuffer then some (some .bufferLimit, c)
    else processRecvBuffer { c with recvBuffer := c.recvBuffer ++ chunk.bytes }
  | .finished => some (some .peerFinished, c)
  | .wouldBlock => some (none, c)
  | .failed => some (some .recvFailed, c)

/-- None: it returns false. -/
def flushSend (c : TcpClient) (sent : Sent) : Option TcpClient :=
  if c.sendBuffer.isEmpty then some c
  else
    match sent with
    | .bytes n => some { c with sendBuffer := c.sendBuffer.drop n }
    | .wouldBlock => some c
    | .failed => none
    | .noProgress => none

/-- A packet is refused without a trace, or written whole. -/
theorem sendPacket_cases (c : TcpClient) (p : Payload) :
    c.sendPacket p.1 p.2 = (false, c) ∨
      (p.2.length ≤ maxPacketSize - headerSize ∧
        c.sendPacket p.1 p.2 = (true, { c with sendBuffer := c.sendBuffer ++ packetBytes p })) := by
  unfold sendPacket
  by_cases hsocket : (!c.connected) = true
  · exact Or.inl (if_pos hsocket)
  by_cases hbody : p.2.length > maxPacketSize - headerSize
  · rw [if_neg hsocket, if_pos hbody]
    exact Or.inl rfl
  rw [if_neg hsocket, if_neg hbody]
  dsimp only
  split
  · exact Or.inl rfl
  · exact Or.inr ⟨Nat.not_lt.mp hbody, rfl⟩

/-- What is too long for a packet, or for what is left of the send buffer. -/
theorem sendPacket_refused {c : TcpClient} (hconnected : c.connected = true) {packetId : UInt16}
    {body : Bytes} (h : (c.sendPacket packetId body).1 = false) :
    maxPacketSize - headerSize < body.length ∨
      maxSendBuffer < c.sendBuffer.length + (headerSize + body.length) := by
  unfold sendPacket at h
  rw [if_neg (by simp [hconnected])] at h
  split at h
  · rename_i hlong
    exact .inl hlong
  dsimp only at h
  split at h
  · rename_i hfull
    exact .inr hfull
  · cases h

theorem flushSend_bytes {c : TcpClient} {n : Nat} (hpos : 0 < n) (hn : n ≤ c.sendBuffer.length) :
    c.flushSend (.bytes n) = some { c with sendBuffer := c.sendBuffer.drop n } := by
  have hsome : c.sendBuffer.isEmpty = false := by
    rw [List.isEmpty_eq_false_iff, ← List.length_pos_iff]
    omega
  rw [flushSend, hsome]
  rfl

/-! ## Receiving -/

/-- A packet as it is popped. -/
def packetOf (p : Payload) : ClientPacket := ⟨p.1, p.2⟩

theorem enqueueAll_push (ps : List Payload) : ∀ packets : List ClientPacket,
    packets.length + ps.length ≤ maxPendingPackets →
      enqueueAll pushPacket ps packets = (true, packets ++ ps.map packetOf) := by
  induction ps with
  | nil =>
    intro packets _
    rw [List.map_nil, List.append_nil]
    rfl
  | cons p ps ih =>
    intro packets h
    rw [List.length_cons] at h
    have hpush : pushPacket packets p.1 p.2 = (true, packets ++ [packetOf p]) :=
      if_neg (by omega)
    rw [enqueueAll, hpush]
    dsimp only
    rw [ih _ (by rw [List.length_append, List.length_singleton]; omega), List.append_assoc]
    rfl

variable {c : TcpClient}

/-- A read by a client whose queue is empty: no limit is reached. -/
theorem receive_drained (h : packetFormat.Incomplete c.recvBuffer) (hpackets : c.packets = [])
    (chunk : Chunk) {p : Parsed UInt8} (hp : packetFormat.parse (c.recvBuffer ++ chunk.bytes) = p) :
    c.receive (.data chunk) =
      some (match p.ending with
        | .kept rest =>
          (none, { c with recvBuffer := rest, packets := p.frames.map fun f => packetOf (payload f) })
        | .broken =>
          (some .invalidPacketSize, { c with
            recvBuffer := c.recvBuffer ++ chunk.bytes
            packets := p.frames.map fun f => packetOf (payload f) })) := by
  have hlt : c.recvBuffer.length < maxPacketSize := h.length_lt
  have hfits := chunk.fits
  have hlimit : ¬ c.recvBuffer.length + chunk.bytes.length > maxRecvBuffer := by
    simp only [maxRecvBuffer, maxPacketSize] at hlt ⊢
    omega
  have hburst := burst_le h chunk
  rw [hp] at hburst
  have hpush := enqueueAll_push (p.frames.map payload) []
    (by rw [List.length_map, List.length_nil, Nat.zero_add]; exact hburst)
  rw [List.nil_append, List.map_map] at hpush
  show (if _ then _ else _) = _
  rw [if_neg hlimit, processRecvBuffer, processBuffer_eq, hp, hpackets, hpush]
  cases p.ending with
  | kept rest => rfl
  | broken => rfl

end TcpClient
end SelectServer
