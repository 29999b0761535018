import SelectServer.Network
import SelectServer.PacketFraming

/- `TcpNetwork`: what it does with the buffers of one session. `receive_parses` is
   about receiving: however the bytes of a session are cut into reads, and whatever
   else the network does in between, the packets that are queued, whether the
   session is kept, and what stays in its buffer are those of the reference parse
   of all its bytes. -/
namespace SelectServer
open Wire (Bytes)
open Framing (Format Ending Parsed)

structure NetworkConfig where
  port : UInt16 := 32452
  maxClients : Nat := 63
  maxAcceptsPerRun : Nat := 16
  maxRecvBufferBytes : Nat := 8192
  maxSendBufferBytes : Nat := 1024 * 1024
  maxQueuedEvents : Nat := 8192
  /-- In milliseconds. -/
  selectTimeout : Int := 10
  deriving DecidableEq, Repr

/-- Of `winsock2.h`. -/
def fdSetSize : Nat := 64

/-- `(std::numeric_limits<int>::max)()` -/
def maxSendSize : Nat := 2147483647

/-- The check of `Init`. -/
def NetworkConfig.isValid (config : NetworkConfig) : Bool :=
  !(config.port == 0 ||
    config.maxClients == 0 ||
    config.maxClients > fdSetSize - 1 ||
    config.maxAcceptsPerRun == 0 ||
    config.maxRecvBufferBytes < maxPacketSize + 4096 ||
    config.maxSendBufferBytes < maxPacketSize ||
    config.maxSendBufferBytes > maxSendSize ||
    config.maxQueuedEvents < config.maxClients * 2 ||
    config.selectTimeout ≤ 0 ||
    config.selectTimeout > 1000)

structure ClientSession where
  id : SessionId := 0
  recvBuffer : Bytes := []
  sendBuffer : Bytes := []
  deriving DecidableEq, Repr

/-- A network after `Init` has accepted its configuration. -/
structure TcpNetwork where
  config : NetworkConfig
  valid : config.isValid = true
  clients : List ClientSession := []
  events : List NetworkEvent := []
  lastSessionId : SessionId := 0

namespace TcpNetwork

def tryPopEvent (t : TcpNetwork) : Option (NetworkEvent × TcpNetwork) :=
  match t.events with
  | [] => none
  | event :: events => some (event, { t with events := events })

def enqueueReceivedPacket (client : ClientSession) (t : TcpNetwork) (packetId : UInt16)
    (body : Bytes) : Bool × TcpNetwork :=
  if t.events.length + t.clients.length ≥ t.config.maxQueuedEvents then (false, t)
  else
    (true, { t with events :=
      t.events ++ [{ type := .packet, session := client.id, packetId := packetId, body := body }] })

/-- With the session as it is left; a session with a fault is closed. -/
def processRecvBuffer (t : TcpNetwork) (client : ClientSession) :
    Option (Except ReceiveFault ClientSession × TcpNetwork) :=
  (processBuffer (enqueueReceivedPacket client) client.recvBuffer t).map fun (result, t) =>
    (result.map fun rest => { client with recvBuffer := rest }, t)

def receiveClient (t : TcpNetwork) (client : ClientSession) :
    Received → Option (Except ReceiveFault ClientSession × TcpNetwork)
  | .data chunk =>
    if client.recvBuffer.length > t.config.maxRecvBufferBytes ∨
        chunk.bytes.length > t.config.maxRecvBufferBytes - client.recvBuffer.length then
      some (.error .bufferLimit, t)
    else t.processRecvBuffer { client with recvBuffer := client.recvBuffer ++ chunk.bytes }
  | .finished => some (.error .peerFinished, t)
  | .wouldBlock => some (.ok client, t)
  | .failed => some (.error .recvFailed, t)

/-- None: the session is closed. -/
def sendClient (client : ClientSession) (sent : Sent) : Option ClientSession :=
  if client.sendBuffer.isEmpty then some client
  else
    match sent with
    | .bytes n => some { client with sendBuffer := client.sendBuffer.drop n }
    | .wouldBlock => some client
    | .failed => none
    | .noProgress => none

def queuePacket (t : TcpNetwork) (client : ClientSession) (packetId : UInt16) (body : Bytes) :
    Bool × ClientSession :=
  if body.length > maxPacketSize - headerSize then (false, client)
  else
    let totalSize := headerSize + body.length
    if client.sendBuffer.length > t.config.maxSendBufferBytes ∨
        totalSize > t.config.maxSendBufferBytes - client.sendBuffer.length then
      (false, client)
    else (true, { client with sendBuffer := client.sendBuffer ++ packetBytes (packetId, body) })

end TcpNetwork

namespace TcpNetwork

/-- A packet is refused without a trace, or written whole. -/
theorem queuePacket_cases (t : TcpNetwork) (client : ClientSession) (p : Payload) :
    t.queuePacket client p.1 p.2 = (false, client) ∨
      (p.2.length ≤ maxPacketSize - headerSize ∧
        t.queuePacket client p.1 p.2 =
          (true, { client with sendBuffer := client.sendBuffer ++ packetBytes p })) := by
  unfold queuePacket
  by_cases hbody : p.2.length > maxPacketSize - headerSize
  · exact Or.inl (if_pos hbody)
  rw [if_neg hbody]
  dsimp only
  split
  · exact Or.inl rfl
  · exact Or.inr ⟨Nat.not_lt.mp hbody, rfl⟩

theorem sendClient_bytes {client : ClientSession} {n : Nat} (hpos : 0 < n)
    (hn : n ≤ client.sendBuffer.length) :
    sendClient client (.bytes n) = some { client with sendBuffer := client.sendBuffer.drop n } := by
  have hsome : client.sendBuffer.isEmpty = false := by
    rw [List.isEmpty_eq_false_iff, ← List.length_pos_iff]
    omega
  rw [sendClient, hsome]
  rfl

end TcpNetwork

/-! ## Receiving -/

theorem NetworkConfig.isValid_recv {config : NetworkConfig} (h : config.isValid = true) :
    maxPacketSize + 4096 ≤ config.maxRecvBufferBytes := by
  simp only [isValid, Bool.not_eq_true', Bool.or_eq_false_iff, decide_eq_false_iff_not] at h
  omega

/-- The event of a packet. -/
def packetEvent (s : SessionId) (p : Payload) : NetworkEvent :=
  { type := .packet, session := s, packetId := p.1, body := p.2 }

namespace TcpNetwork
variable {t : TcpNetwork} {client : ClientSession}

/-- `n` packets in a row find the queue below its limit. -/
def HasRoom (t : TcpNetwork) (n : Nat) : Prop :=
  ∀ k < n, t.events.length + k + t.clients.length < t.config.maxQueuedEvents

/-- The packets are queued, or the first of them up to the limit. -/
theorem enqueueAll_events (client : ClientSession) (packets : List Payload) : ∀ t : TcpNetwork,
    ∃ queued refused, packets = queued ++ refused ∧
      enqueueAll (enqueueReceivedPacket client) packets t =
        (refused.isEmpty, { t with events := t.events ++ queued.map (packetEvent client.id) }) ∧
      (t.HasRoom packets.length → refused = []) := by
  induction packets with
  | nil =>
    intro t
    refine ⟨[], [], rfl, ?_, fun _ => rfl⟩
    rw [List.map_nil, List.append_nil]
    rfl
  | cons p packets ih =>
    intro t
    by_cases hfull : t.events.length + t.clients.length ≥ t.config.maxQueuedEvents
    · refine ⟨[], p :: packets, rfl, ?_, fun hroom => ?_⟩
      · rw [enqueueAll, enqueueReceivedPacket, if_pos hfull, List.map_nil, List.append_nil]
        rfl
      · have h0 := hroom 0 (Nat.succ_pos _)
        omega
    · obtain ⟨queued, refused, rfl, e, hroom⟩ := ih (enqueueReceivedPacket client t p.1 p.2).2
      have htaken : enqueueReceivedPacket client t p.1 p.2 =
          (true, { t with events := t.events ++ [packetEvent client.id p] }) := if_neg hfull
      rw [htaken] at e hroom
      refine ⟨p :: queued, refused, rfl, ?_, fun hall => hroom fun k hk => ?_⟩
      · rw [enqueueAll, htaken]
        dsimp only
        rw [e, List.map_cons, List.append_assoc, List.singleton_append]
      · have hk' := hall (k + 1) (Nat.succ_lt_succ hk)
        simp only [List.length_append, List.length_singleton]
        omega

/-- A session that is kept has less than a packet in its buffer, so one more read fits. -/
theorem receiveClient_data (h : packetFormat.Incomplete client.recvBuffer) (chunk : Chunk) :
    t.receiveClient client (.data chunk) =
      t.processRecvBuffer { client with recvBuffer := client.recvBuffer ++ chunk.bytes } := by
  have hlt : client.recvBuffer.length < maxPacketSize := h.length_lt
  have hfits := chunk.fits
  have hmax := NetworkConfig.isValid_recv t.valid
  exact if_neg (by omega)

/-- `ReceiveClient` by the reference parse of what it has not processed yet. -/
theorem receiveClient_spec (h : packetFormat.Incomplete client.recvBuffer) (chunk : Chunk)
    {p : Parsed UInt8} (hp : packetFormat.parse (client.recvBuffer ++ chunk.bytes) = p) :
    ∃ queued refused, p.frames.map payload = queued ++ refused ∧
      t.receiveClient client (.data chunk) =
        some (if refused.isEmpty then
            (verdict p.ending).map fun rest => { client with recvBuffer := rest }
          else .error .queueFull,
          { t with events := t.events ++ queued.map (packetEvent client.id) }) ∧
      (t.HasRoom p.frames.length → refused = []) := by
  obtain ⟨queued, refused, hall, e, hroom⟩ := enqueueAll_events
    { client with recvBuffer := client.recvBuffer ++ chunk.bytes } (p.frames.map payload) t
  rw [List.length_map] at hroom
  refine ⟨queued, refused, hall, ?_, hroom⟩
  rw [receiveClient_data h, processRecvBuffer, processBuffer_eq, hp, e]
  cases refused with
  | nil => rfl
  | cons => rfl

/-! ## All reads of a session -/

/-- What became of a session: the events that were queued for it, and the bytes left in its buffer or
the fault it was closed for. -/
structure Reception where
  events : List NetworkEvent
  verdict : Except ReceiveFault Bytes
  deriving DecidableEq

/-- The reads of a session, each with the network as it is then. -/
abbrev Reads := List (TcpNetwork × Chunk)

def Reads.stream (reads : Reads) : Bytes := (reads.map fun r => r.2.bytes).flatten

def receiveAll (client : ClientSession) : Reads → Option Reception
  | [] => some ⟨[], .ok client.recvBuffer⟩
  | (t, chunk) :: reads =>
    match t.receiveClient client (.data chunk) with
    | none => none
    | some (.error fault, t') => some ⟨t'.events.drop t.events.length, .error fault⟩
    | some (.ok client, t') => (receiveAll client reads).map fun rest =>
        { rest with events := t'.events.drop t.events.length ++ rest.events }

/-- No packet finds the queue at its limit, in the reads of a session with `kept` in its buffer. -/
def NeverFull : Bytes → Reads → Prop
  | _, [] => True
  | kept, (t, chunk) :: reads =>
    t.HasRoom (packetFormat.parse (kept ++ chunk.bytes)).frames.length ∧
      ∀ rest, (packetFormat.parse (kept ++ chunk.bytes)).ending = .kept rest → NeverFull rest reads

/-- What should become of a session that is sent a stream. -/
def reference (s : SessionId) (stream : Bytes) : Reception where
  events := (packetFormat.parse stream).frames.map fun frame => packetEvent s (payload frame)
  verdict := SelectServer.verdict (packetFormat.parse stream).ending

theorem receiveAll_eq (reads : Reads) : ∀ client : ClientSession,
    packetFormat.Incomplete client.recvBuffer → NeverFull client.recvBuffer reads →
      receiveAll client reads = some (reference client.id (client.recvBuffer ++ reads.stream)) := by
  induction reads with
  | nil =>
    intro client h _
    show some (Reception.mk [] (.ok client.recvBuffer)) = _
    rw [Reads.stream, List.map_nil, List.flatten_nil, List.append_nil, reference,
      Format.parse_incomplete h]
    rfl
  | cons read reads ih =>
    intro client h hnever
    obtain ⟨t, chunk⟩ := read
    obtain ⟨hroom, hlater⟩ := hnever
    obtain ⟨queued, refused, hall, e, hrefused⟩ := receiveClient_spec (t := t) h chunk rfl
    obtain rfl := hrefused hroom
    have hstream : client.recvBuffer ++ Reads.stream ((t, chunk) :: reads) =
        (client.recvBuffer ++ chunk.bytes) ++ Reads.stream reads :=
      (List.append_assoc ..).symm
    have hparse : packetFormat.parse (client.recvBuffer ++ chunk.bytes ++ Reads.stream reads) =
        packetFormat.resume (packetFormat.parse (client.recvBuffer ++ chunk.bytes))
          (Reads.stream reads) := Format.parse_append _ _
    rw [receiveAll, e, hstream, reference, hparse]
    have hkept : ∀ rest, (packetFormat.parse (client.recvBuffer ++ chunk.bytes)).ending = .kept rest →
        packetFormat.Incomplete rest := fun rest hending => (Format.parse_kept hending).1
    generalize packetFormat.parse (client.recvBuffer ++ chunk.bytes) = p at hall hkept hlater ⊢
    have hqueued : queued.map (packetEvent client.id) =
        p.frames.map fun frame => packetEvent client.id (payload frame) := by
      rw [← List.append_nil queued, ← hall, List.map_map]
      rfl
    cases hending : p.ending with
    | broken =>
      -- the session is closed here, and the parse stops here
      have hstop : packetFormat.resume p (Reads.stream reads) = p := by
        rw [Format.resume, hending]
      rw [hstop, hending, ← hqueued]
      show some (Reception.mk ((t.events ++ queued.map (packetEvent client.id)).drop t.events.length)
        (.error .invalidPacketSize)) = _
      rw [List.drop_left]
      rfl
    | kept rest =>
      have hmore : packetFormat.resume p (Reads.stream reads) =
          ⟨p.frames ++ (packetFormat.parse (rest ++ Reads.stream reads)).frames,
            (packetFormat.parse (rest ++ Reads.stream reads)).ending⟩ := by
        rw [Format.resume, hending]
      rw [hmore, List.map_append, ← hqueued]
      show (receiveAll { client with recvBuffer := rest } reads).map (fun later =>
        { later with events :=
          (t.events ++ queued.map (packetEvent client.id)).drop t.events.length ++ later.events }) = _
      rw [List.drop_left, ih _ (hkept rest hending) (hlater rest hending)]
      rfl

/-- Room for 1024 packets is enough for any read. -/
theorem neverFull_of_room {reads : Reads} : (∀ read ∈ reads, read.1.HasRoom 1024) →
    ∀ kept, packetFormat.Incomplete kept → NeverFull kept reads := by
  induction reads with
  | nil =>
    intro _ _ _
    trivial
  | cons read reads ih =>
    intro hroom kept h
    obtain ⟨hread, hreads⟩ := List.forall_mem_cons.mp hroom
    refine ⟨fun k hk => hread k (Nat.lt_of_lt_of_le hk (burst_le h read.2)), fun rest hending => ?_⟩
    exact ih hreads rest (Format.parse_kept hending).1

/-- However a stream is cut into reads, the session that receives it ends up as the reference says,
and the loop over its buffer always ends. -/
theorem receive_parses (s : SessionId) :
    (∀ (t : TcpNetwork) (client : ClientSession), (t.processRecvBuffer client).isSome = true) ∧
      ∀ reads reads' : Reads, reads.stream = reads'.stream → NeverFull [] reads →
        NeverFull [] reads' → receiveAll { id := s } reads = receiveAll { id := s } reads' ∧
          receiveAll { id := s } reads = some (reference s reads.stream) := by
  constructor
  · intro t client
    rw [processRecvBuffer, processBuffer_eq]
    rfl
  · intro reads reads' hstream hnever hnever'
    have h : receiveAll { id := s } reads = some (reference s reads.stream) :=
      receiveAll_eq reads _ Format.incomplete_nil hnever
    have h' : receiveAll { id := s } reads' = some (reference s reads'.stream) :=
      receiveAll_eq reads' _ Format.incomplete_nil hnever'
    exact ⟨by rw [h, h', hstream], h⟩

/-- A network with the default configuration and no events. -/
def idle : TcpNetwork := { config := {}, valid := by decide }

/-- A packet, and the first byte of the next one; in two reads and in one. -/
theorem receive_parses_split :
    receiveAll { id := 1 } [(idle, ⟨[0, 6, 0], by decide, by decide⟩),
        (idle, ⟨[3, 104, 105, 0], by decide, by decide⟩)] =
      receiveAll { id := 1 } [(idle, ⟨[0, 6, 0, 3, 104, 105, 0], by decide, by decide⟩)] ∧
    receiveAll { id := 1 } [(idle, ⟨[0, 6, 0, 3, 104, 105, 0], by decide, by decide⟩)] =
      some ⟨[packetEvent 1 (3, [104, 105])], .ok [0]⟩ := by
  have hroom : idle.HasRoom 1024 := by
    intro k hk
    show 0 + k + 0 < 8192
    omega
  refine ⟨((receive_parses 1).2 _ _ rfl ?_ ?_).1, by decide +kernel⟩
  · exact neverFull_of_room (by simp [hroom]) [] Format.incomplete_nil
  · exact neverFull_of_room (by simp [hroom]) [] Format.incomplete_nil

end TcpNetwork
end SelectServer
