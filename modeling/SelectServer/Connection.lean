import SelectServer.Lib.History
import SelectServer.TcpNetwork
import SelectServer.TcpClient

/- A connection between a session of `TcpNetwork` and a `TcpClient`. Each direction
   is a send buffer, the bytes that TCP has taken and not yet delivered, and the
   buffer and the queue of the receiver. Sends, partial sends, reads and pops come
   in any order, and so does what the network does for its other sessions; only the
   client pops all its packets before it reads again.

   `packets_delivered`: what has been popped is a prefix of what has been accepted,
   and all of it when nothing is under way any more. -/
namespace SelectServer
open Wire (Bytes)
open Framing (Format Ending Parsed)
open Histories

/-- One direction, but for the buffers of the two ends. -/
structure Direction where
  /-- Sent and not yet read. -/
  wire : Bytes := []
  /-- The packets for which `SendPacket` has returned true. -/
  accepted : List Payload := []
  /-- The packets the receiver has popped. -/
  popped : List Payload := []
  /-- Why the receiver has given the connection up. -/
  fault : Option ReceiveFault := none

namespace Direction

def accept (d : Direction) (taken : Bool) (p : Payload) : Direction :=
  if taken then { d with accepted := d.accepted ++ [p] } else d

def send (d : Direction) (bytes : Bytes) : Direction := { d with wire := d.wire ++ bytes }

def read (d : Direction) (n : Nat) (fault : Option ReceiveFault) : Direction :=
  { d with wire := d.wire.drop n, fault := fault }

def pop (d : Direction) (p : Payload) : Direction := { d with popped := d.popped ++ [p] }

end Direction

structure Connection where
  network : TcpNetwork
  session : ClientSession
  client : TcpClient := {}
  /-- From the server to the client. -/
  down : Direction := {}
  /-- From the client to the server. -/
  up : Direction := {}

inductive ConnectionInput where
  | queuePacket (p : Payload)
  | sendClient (n : Nat)
  | receiveClient (n : Nat)
  | tryPopEvent
  | sendPacket (p : Payload)
  | flushSend (n : Nat)
  | receive (n : Nat)
  | tryPopPacket
  | elsewhere (clients : List ClientSession) (events : List NetworkEvent)

/-- A read of the first `n` bytes on the wire. -/
def chunk? (wire : Bytes) (n : Nat) : Option Chunk :=
  if h : 0 < n ∧ n ≤ wire.length ∧ n ≤ 4096 then
    some
      { bytes := wire.take n
        nonempty := by
          rw [← List.length_pos_iff, List.length_take_of_le h.2.1]
          exact h.1
        fits := by
          rw [List.length_take_of_le h.2.1]
          exact h.2.2 }
  else none

namespace Connection

/-! None of these can be done where the result is none. After a fault the server has closed its
session, and the client has disconnected. -/

/-- `TcpNetwork::SendPacket`, which finds no session that is closed. -/
def queuePacket (c : Connection) (p : Payload) : Connection :=
  if c.up.fault.isSome then c
  else
    let (taken, session) := c.network.queuePacket c.session p.1 p.2
    { c with session := session, down := c.down.accept taken p }

/-- `send` has taken `n` bytes of the server. -/
def sendClient (c : Connection) (n : Nat) : Option Connection :=
  if c.up.fault.isSome || n == 0 || n > c.session.sendBuffer.length then none
  else (TcpNetwork.sendClient c.session (.bytes n)).map fun session =>
    { c with session := session, down := c.down.send (c.session.sendBuffer.take n) }

/-- `recv` gives `n` bytes to the server. -/
def receiveClient (c : Connection) (n : Nat) : Option Connection :=
  if c.up.fault.isSome then none
  else do
    let chunk ← chunk? c.up.wire n
    let (result, network) ← c.network.receiveClient c.session (.data chunk)
    match result with
    | .ok session => some { c with network := network, session := session, up := c.up.read n none }
    | .error fault => some { c with network := network, up := c.up.read n (some fault) }

def tryPopEvent (c : Connection) : Option Connection := do
  let (event, network) ← c.network.tryPopEvent
  some { c with
    network := network
    up := if event.type = .packet ∧ event.session = c.session.id then
        c.up.pop (event.packetId, event.body)
      else c.up }

def sendPacket (c : Connection) (p : Payload) : Connection :=
  let (taken, client) := c.client.sendPacket p.1 p.2
  { c with client := client, up := c.up.accept taken p }

/-- `send` has taken `n` bytes of the client. -/
def flushSend (c : Connection) (n : Nat) : Option Connection :=
  if n == 0 || n > c.client.sendBuffer.length then none
  else (c.client.flushSend (.bytes n)).map fun client =>
    { c with client := client, up := c.up.send (c.client.sendBuffer.take n) }

/-- `recv` gives `n` bytes to the client, which has popped all its packets. -/
def receive (c : Connection) (n : Nat) : Option Connection :=
  if c.down.fault.isSome || !c.client.packets.isEmpty then none
  else do
    let chunk ← chunk? c.down.wire n
    let (fault, client) ← c.client.receive (.data chunk)
    some { c with
      client := if fault.isSome then client.disconnect else client
      down := c.down.read n fault }

def tryPopPacket (c : Connection) : Option Connection := do
  let (packet, client) ← c.client.tryPopPacket
  some { c with client := client, down := c.down.pop (packet.packetId, packet.body) }

/-- Other sessions come and go, and queue events. -/
def elsewhere (c : Connection) (clients : List ClientSession) (events : List NetworkEvent) :
    Option Connection :=
  if events.any (·.session = c.session.id) then none
  else some { c with
    network := { c.network with clients := clients, events := c.network.events ++ events } }

def step (c : Connection) : ConnectionInput → Option Connection
  | .queuePacket p => some (c.queuePacket p)
  | .sendClient n => c.sendClient n
  | .receiveClient n => c.receiveClient n
  | .tryPopEvent => c.tryPopEvent
  | .sendPacket p => some (c.sendPacket p)
  | .flushSend n => c.flushSend n
  | .receive n => c.receive n
  | .tryPopPacket => c.tryPopPacket
  | .elsewhere clients events => c.elsewhere clients events

end Connection

def ConnectionStep (c : Connection) (l : ConnectionInput) (c' : Connection) : Prop :=
  c.step l = some c'

/-! ## One direction -/

/-- What is accepted is what was read, what is on the wire and what is in the send buffer, in that
order. What was read parses to what was popped, what is `queued` and what is in the receiver's
buffer; a receiver that has given up has missed some packets at the end. -/
structure Direction.Sound (d : Direction) (sendBuffer recvBuffer : Bytes) (queued : List Payload)
    (consumed : Bytes) : Prop where
  bodies : ∀ p ∈ d.accepted, p.2.length ≤ maxPacketSize - headerSize
  bytes : consumed ++ (d.wire ++ sendBuffer) = (d.accepted.map packetBytes).flatten
  open_ : d.fault = none → (packetFormat.parse consumed).ending = .kept recvBuffer ∧
    (packetFormat.parse consumed).frames.map payload = d.popped ++ queued
  closed : ∀ fault, d.fault = some fault → fault = .queueFull ∧
    d.popped ++ queued <+: (packetFormat.parse consumed).frames.map payload

namespace Direction
variable {d : Direction} {sendBuffer recvBuffer consumed : Bytes} {queued : List Payload}

theorem Sound.empty : ({} : Direction).Sound [] [] [] [] where
  bodies p h := by cases h
  bytes := rfl
  open_ _ := by
    rw [Format.parse_incomplete Format.incomplete_nil]
    exact ⟨rfl, rfl⟩
  closed fault h := by cases h

theorem Sound.accept (h : d.Sound sendBuffer recvBuffer queued consumed) {p : Payload}
    (hp : p.2.length ≤ maxPacketSize - headerSize) :
    (d.accept true p).Sound (sendBuffer ++ packetBytes p) recvBuffer queued consumed where
  bodies := by
    intro p' hp'
    rcases List.mem_append.mp hp' with hp' | hp'
    · exact h.bodies p' hp'
    · obtain rfl := List.mem_singleton.mp hp'
      exact hp
  bytes := by
    show consumed ++ (d.wire ++ (sendBuffer ++ packetBytes p)) =
      ((d.accepted ++ [p]).map packetBytes).flatten
    rw [List.map_append, List.flatten_append, ← h.bytes]
    simp [List.append_assoc]
  open_ := h.open_
  closed := h.closed

theorem Sound.send (h : d.Sound sendBuffer recvBuffer queued consumed) (n : Nat) :
    (d.send (sendBuffer.take n)).Sound (sendBuffer.drop n) recvBuffer queued consumed where
  bodies := h.bodies
  bytes := by
    show consumed ++ ((d.wire ++ sendBuffer.take n) ++ sendBuffer.drop n) = _
    rw [List.append_assoc, List.take_append_drop]
    exact h.bytes
  open_ := h.open_
  closed := h.closed

/-- All the bytes read are those of the first packets that were accepted. -/
theorem Sound.parsed (h : d.Sound sendBuffer recvBuffer queued consumed) :
    ∃ rest later, (packetFormat.parse consumed).ending = .kept rest ∧
      d.accepted = (packetFormat.parse consumed).frames.map payload ++ later ∧
        (d.wire = [] → sendBuffer = [] → later = []) := by
  have hframes : ∀ frame ∈ d.accepted.map packetBytes, packetFormat.IsFrame frame := by
    intro frame hframe
    obtain ⟨p, hp, rfl⟩ := List.mem_map.mp hframe
    exact packetBytes_frame (h.bodies p hp)
  obtain ⟨rest, later, hparse, hall, hdone⟩ := Format.parse_prefix hframes h.bytes
  refine ⟨rest, later.map payload, by rw [hparse], ?_, fun hwire hbuffer => ?_⟩
  · have hback : d.accepted = (d.accepted.map packetBytes).map payload := by
      rw [List.map_map]
      conv_lhs => rw [← List.map_id d.accepted]
      exact List.map_congr_left fun p _ => (payload_packetBytes p).symm
    rw [hback, hall, List.map_append]
  · rw [hdone (by rw [hwire, hbuffer]; rfl)]
    rfl

/-- One more read: it does not find a wrong size, and it leaves the direction sound, whether the
receiver takes all its packets or gives up after some of them. -/
theorem Sound.read (h : d.Sound sendBuffer recvBuffer queued consumed) (hopen : d.fault = none)
    {n : Nat} {chunk : Chunk} (hchunk : chunk? d.wire n = some chunk) :
    packetFormat.Incomplete recvBuffer ∧ ∃ p rest,
      packetFormat.parse (recvBuffer ++ chunk.bytes) = p ∧ p.ending = .kept rest ∧
        (d.read n none).Sound sendBuffer rest (queued ++ p.frames.map payload)
          (consumed ++ chunk.bytes) ∧
          ∀ first refused, p.frames.map payload = first ++ refused →
            (d.read n (some .queueFull)).Sound sendBuffer recvBuffer (queued ++ first)
              (consumed ++ chunk.bytes) := by
  obtain ⟨hending, hframes⟩ := h.open_ hopen
  have hbytes : (consumed ++ chunk.bytes) ++ (d.wire.drop n ++ sendBuffer) =
      (d.accepted.map packetBytes).flatten := by
    have htake : chunk.bytes = d.wire.take n := by
      unfold chunk? at hchunk
      split at hchunk
      · exact (congrArg Chunk.bytes (Option.some.inj hchunk)).symm
      · cases hchunk
    rw [htake, List.append_assoc, ← List.append_assoc (d.wire.take n), List.take_append_drop]
    exact h.bytes
  have hmore : packetFormat.parse (consumed ++ chunk.bytes) =
      ⟨(packetFormat.parse consumed).frames ++ (packetFormat.parse (recvBuffer ++ chunk.bytes)).frames,
        (packetFormat.parse (recvBuffer ++ chunk.bytes)).ending⟩ := by
    rw [Format.parse_append, Format.resume, hending]
  generalize hp : packetFormat.parse (recvBuffer ++ chunk.bytes) = p at hmore
  have hpackets : (packetFormat.parse (consumed ++ chunk.bytes)).frames.map payload =
      d.popped ++ (queued ++ p.frames.map payload) := by
    rw [hmore, List.map_append, hframes, List.append_assoc]
  have hclosed : ∀ first refused, p.frames.map payload = first ++ refused →
      (d.read n (some .queueFull)).Sound sendBuffer recvBuffer (queued ++ first)
        (consumed ++ chunk.bytes) := by
    intro first refused hsplit
    refine ⟨h.bodies, hbytes, fun hnone => (by cases hnone), fun fault hfault => ?_⟩
    cases hfault
    refine ⟨rfl, refused, ?_⟩
    show d.popped ++ (queued ++ first) ++ refused = _
    rw [hpackets, hsplit]
    simp only [List.append_assoc]
  -- the reference parse of what has been read so far does not break
  obtain ⟨rest, -, hkept, -⟩ := (hclosed [] _ rfl).parsed
  rw [hmore] at hkept
  refine ⟨(Format.parse_kept hending).1, p, rest, rfl, hkept, ?_, hclosed⟩
  refine ⟨h.bodies, hbytes, fun _ => ⟨?_, hpackets⟩, fun fault hfault => by cases hfault⟩
  rw [hmore]
  exact hkept

theorem Sound.pop {p : Payload} (h : d.Sound sendBuffer recvBuffer (p :: queued) consumed) :
    (d.pop p).Sound sendBuffer recvBuffer queued consumed where
  bodies := h.bodies
  bytes := h.bytes
  open_ hopen := by
    obtain ⟨hending, hframes⟩ := h.open_ hopen
    exact ⟨hending, by rw [hframes]; simp [Direction.pop]⟩
  closed fault hfault := by
    obtain ⟨hfull, hfirst⟩ := h.closed fault hfault
    refine ⟨hfull, ?_⟩
    have hsame : (d.pop p).popped ++ queued = d.popped ++ p :: queued := by simp [Direction.pop]
    rw [hsame]
    exact hfirst

/-- What has been popped is a prefix of what has been accepted, and all of it when nothing is under
way. -/
theorem Sound.delivered (h : d.Sound sendBuffer recvBuffer queued consumed) :
    d.popped <+: d.accepted ∧ (d.fault = none ∨ d.fault = some .queueFull) ∧
      (d.fault = none → d.wire = [] → sendBuffer = [] → queued = [] → d.popped = d.accepted) := by
  obtain ⟨rest, later, -, hall, hdone⟩ := h.parsed
  cases hfault : d.fault with
  | none =>
    obtain ⟨-, hframes⟩ := h.open_ hfault
    rw [hframes] at hall
    refine ⟨⟨queued ++ later, by rw [hall, List.append_assoc]⟩, Or.inl rfl, ?_⟩
    intro _ hwire hbuffer hqueued
    rw [hall, hdone hwire hbuffer, hqueued, List.append_nil, List.append_nil]
  | some fault =>
    obtain ⟨rfl, missed, hmissed⟩ := h.closed fault hfault
    refine ⟨⟨queued ++ (missed ++ later), ?_⟩, Or.inr rfl, fun hnone => by cases hnone⟩
    rw [hall, ← hmissed]
    simp only [List.append_assoc]

end Direction

/-! ## Both directions -/

/-- The packets of `s` among the events. -/
def packetsOf (s : SessionId) (events : List NetworkEvent) : List Payload :=
  (events.filter fun e => e.type = .packet ∧ e.session = s).map fun e => (e.packetId, e.body)

theorem packetsOf_append (s : SessionId) (a b : List NetworkEvent) :
    packetsOf s (a ++ b) = packetsOf s a ++ packetsOf s b := by
  rw [packetsOf, List.filter_append, List.map_append]
  rfl

theorem packetsOf_cons (s : SessionId) (e : NetworkEvent) (events : List NetworkEvent) :
    packetsOf s (e :: events) =
      if e.type = .packet ∧ e.session = s then (e.packetId, e.body) :: packetsOf s events
      else packetsOf s events := by
  by_cases h : e.type = .packet ∧ e.session = s
  · rw [if_pos h]
    simp [packetsOf, h]
  · rw [if_neg h]
    simp [packetsOf, h]

theorem packetsOf_queued (s : SessionId) (ps : List Payload) :
    packetsOf s (ps.map (packetEvent s)) = ps := by
  induction ps with
  | nil => rfl
  | cons p ps ih =>
    rw [List.map_cons, packetsOf_cons, if_pos ⟨rfl, rfl⟩, ih]
    rfl

theorem packetsOf_other {s : SessionId} {events : List NetworkEvent}
    (h : ∀ e ∈ events, e.session ≠ s) : packetsOf s events = [] := by
  rw [packetsOf, List.filter_eq_nil_iff.mpr, List.map_nil]
  intro e he
  simp [h e he]

/-- What the client has queued. -/
def TcpClient.pending (c : TcpClient) : List Payload := c.packets.map fun q => (q.packetId, q.body)

/-- What holds of a connection between any two steps. -/
structure Connection.Sound (c : Connection) : Prop where
  down : ∃ consumed, c.down.Sound c.session.sendBuffer c.client.recvBuffer c.client.pending consumed
  up : ∃ consumed, c.up.Sound c.client.sendBuffer c.session.recvBuffer
    (packetsOf c.session.id c.network.events) consumed
  open_ : c.down.fault = none

namespace Connection
variable {c c' : Connection}

theorem Sound.queuePacket (h : c.Sound) (p : Payload) : (c.queuePacket p).Sound := by
  unfold Connection.queuePacket
  split
  · exact h
  obtain ⟨consumed, hdown⟩ := h.down
  rcases c.network.queuePacket_cases c.session p with e | ⟨hbody, e⟩
  · rw [e]
    exact h
  · rw [e]
    exact ⟨⟨consumed, hdown.accept hbody⟩, h.up, h.open_⟩

theorem Sound.sendClient (h : c.Sound) {n : Nat} (taken : c.sendClient n = some c') : c'.Sound := by
  unfold Connection.sendClient at taken
  split at taken
  · cases taken
  rename_i hn
  simp only [Bool.or_eq_true, not_or, beq_iff_eq, decide_eq_true_eq] at hn
  rw [TcpNetwork.sendClient_bytes (by omega) (by omega)] at taken
  cases taken
  obtain ⟨consumed, hdown⟩ := h.down
  exact ⟨⟨consumed, hdown.send n⟩, h.up, h.open_⟩

theorem Sound.receiveClient (h : c.Sound) {n : Nat} (taken : c.receiveClient n = some c') :
    c'.Sound := by
  unfold Connection.receiveClient at taken
  split at taken
  · cases taken
  rename_i hopen
  obtain ⟨chunk, hchunk, taken⟩ := Option.bind_eq_some_iff.mp taken
  obtain ⟨consumed, hup⟩ := h.up
  obtain ⟨hincomplete, p, rest, hp, hending, hread, hclosed⟩ :=
    hup.read (by simpa using hopen) hchunk
  obtain ⟨queued, refused, hall, e, -⟩ :=
    TcpNetwork.receiveClient_spec (t := c.network) hincomplete chunk hp
  have hqueued : packetsOf c.session.id
      (c.network.events ++ queued.map (packetEvent c.session.id)) =
        packetsOf c.session.id c.network.events ++ queued := by
    rw [packetsOf_append, packetsOf_queued]
  rw [e, hending] at taken
  -- the server takes all packets of this read, or its queue is full after some of them
  cases refused with
  | nil =>
    cases taken
    rw [hall, List.append_nil, ← hqueued] at hread
    exact ⟨h.down, ⟨consumed ++ chunk.bytes, hread⟩, h.open_⟩
  | cons first refused =>
    cases taken
    have hfull := hclosed queued _ hall
    rw [← hqueued] at hfull
    exact ⟨h.down, ⟨consumed ++ chunk.bytes, hfull⟩, h.open_⟩

theorem Sound.tryPopEvent (h : c.Sound) (taken : c.tryPopEvent = some c') : c'.Sound := by
  obtain ⟨⟨event, network⟩, hpop, taken⟩ := Option.bind_eq_some_iff.mp taken
  cases taken
  unfold TcpNetwork.tryPopEvent at hpop
  split at hpop
  · cases hpop
  rename_i events hevents
  cases hpop
  obtain ⟨consumed, hup⟩ := h.up
  rw [hevents, packetsOf_cons] at hup
  refine ⟨h.down, ⟨consumed, ?_⟩, h.open_⟩
  dsimp only
  by_cases hmine : event.type = .packet ∧ event.session = c.session.id
  · rw [if_pos hmine] at hup ⊢
    exact hup.pop
  · rw [if_neg hmine] at hup ⊢
    exact hup

theorem Sound.sendPacket (h : c.Sound) (p : Payload) : (c.sendPacket p).Sound := by
  obtain ⟨consumed, hup⟩ := h.up
  unfold Connection.sendPacket
  rcases c.client.sendPacket_cases p with e | ⟨hbody, e⟩
  · rw [e]
    exact h
  · rw [e]
    exact ⟨h.down, ⟨consumed, hup.accept hbody⟩, h.open_⟩

theorem Sound.flushSend (h : c.Sound) {n : Nat} (taken : c.flushSend n = some c') : c'.Sound := by
  unfold Connection.flushSend at taken
  split at taken
  · cases taken
  rename_i hn
  simp only [Bool.or_eq_true, not_or, beq_iff_eq, decide_eq_true_eq] at hn
  rw [TcpClient.flushSend_bytes (by omega) (by omega)] at taken
  cases taken
  obtain ⟨consumed, hup⟩ := h.up
  exact ⟨h.down, ⟨consumed, hup.send n⟩, h.open_⟩

theorem Sound.receive (h : c.Sound) {n : Nat} (taken : c.receive n = some c') : c'.Sound := by
  unfold Connection.receive at taken
  split at taken
  · cases taken
  rename_i hguard
  obtain ⟨-, hdrained⟩ : c.down.fault = none ∧ c.client.packets = [] := by simpa using hguard
  obtain ⟨chunk, hchunk, taken⟩ := Option.bind_eq_some_iff.mp taken
  obtain ⟨consumed, hdown⟩ := h.down
  obtain ⟨hincomplete, p, rest, hp, hending, hread, -⟩ := hdown.read h.open_ hchunk
  rw [TcpClient.receive_drained hincomplete hdrained chunk hp, hending] at taken
  cases taken
  have hpending : c.client.pending = [] := by
    rw [TcpClient.pending, hdrained]
    rfl
  rw [hpending, List.nil_append] at hread
  refine ⟨⟨consumed ++ chunk.bytes, ?_⟩, h.up, rfl⟩
  show Direction.Sound _ _ _
    ((p.frames.map fun f => TcpClient.packetOf (payload f)).map fun q => (q.packetId, q.body)) _
  rw [List.map_map]
  exact hread

theorem Sound.tryPopPacket (h : c.Sound) (taken : c.tryPopPacket = some c') : c'.Sound := by
  obtain ⟨⟨packet, client⟩, hpop, taken⟩ := Option.bind_eq_some_iff.mp taken
  cases taken
  unfold TcpClient.tryPopPacket at hpop
  split at hpop
  · cases hpop
  rename_i packet' packets hpackets
  cases hpop
  obtain ⟨consumed, hdown⟩ := h.down
  rw [TcpClient.pending, hpackets, List.map_cons] at hdown
  exact ⟨⟨consumed, hdown.pop⟩, h.up, h.open_⟩

theorem Sound.elsewhere (h : c.Sound) {clients : List ClientSession} {events : List NetworkEvent}
    (taken : c.elsewhere clients events = some c') : c'.Sound := by
  unfold Connection.elsewhere at taken
  split at taken
  · cases taken
  rename_i hother
  cases taken
  have hnone : packetsOf c.session.id events = [] := packetsOf_other fun e he hmine =>
    hother (List.any_eq_true.mpr ⟨e, he, decide_eq_true hmine⟩)
  obtain ⟨consumed, hup⟩ := h.up
  refine ⟨h.down, ⟨consumed, ?_⟩, h.open_⟩
  show Direction.Sound _ _ _ (packetsOf c.session.id (c.network.events ++ events)) _
  rw [packetsOf_append, hnone, List.append_nil]
  exact hup

theorem Sound.step (h : c.Sound) {l : ConnectionInput} (taken : ConnectionStep c l c') : c'.Sound := by
  cases l with
  | queuePacket p =>
    cases taken
    exact h.queuePacket p
  | sendClient n => exact h.sendClient taken
  | receiveClient n => exact h.receiveClient taken
  | tryPopEvent => exact h.tryPopEvent taken
  | sendPacket p =>
    cases taken
    exact h.sendPacket p
  | flushSend n => exact h.flushSend taken
  | receive n => exact h.receive taken
  | tryPopPacket => exact h.tryPopPacket taken
  | elsewhere clients events => exact h.elsewhere taken

/-- A connection as it is accepted. -/
def start (network : TcpNetwork) (s : SessionId) : Connection where
  network := network
  session := { id := s }

theorem sound_start {network : TcpNetwork} {s : SessionId} (h : packetsOf s network.events = []) :
    (start network s).Sound where
  down := ⟨[], .empty⟩
  up := by
    refine ⟨[], ?_⟩
    show Direction.Sound _ _ _ (packetsOf s network.events) _
    rw [h]
    exact .empty
  open_ := rfl

/-- A run of `inputs` that ends as `check` says. -/
theorem played (network : TcpNetwork) (s : SessionId) (inputs : List ConnectionInput)
    (check : Connection → Bool)
    (h : (play step (start network s) inputs).any (fun r => check r.2) = true) :
    ∃ history c, Run ConnectionStep (start network s) history c ∧ check c = true :=
  Run.played (fun _ _ _ taken => taken) h

end Connection

/-- In every run of a connection the packets popped at each end are a prefix of those accepted at the
other, and all of them when nothing is under way; the client never gives the connection up, and the
server does so only if its event queue is full. -/
theorem packets_delivered {network : TcpNetwork} {s : SessionId}
    {history : List (Entry Connection ConnectionInput)} {c : Connection}
    (hfresh : packetsOf s network.events = [])
    (hrun : Run ConnectionStep (Connection.start network s) history c) :
    (c.down.popped <+: c.down.accepted ∧ c.down.fault = none ∧
      (c.down.wire = [] → c.session.sendBuffer = [] → c.client.packets = [] →
        c.down.popped = c.down.accepted)) ∧
    (c.up.popped <+: c.up.accepted ∧ (c.up.fault = none ∨ c.up.fault = some .queueFull) ∧
      (c.up.fault = none → c.up.wire = [] → c.client.sendBuffer = [] →
        packetsOf c.session.id c.network.events = [] → c.up.popped = c.up.accepted)) := by
  have hc : c.Sound := hrun.invariant (Connection.sound_start hfresh) fun _ _ _ h taken => h.step taken
  obtain ⟨down, hdown⟩ := hc.down
  obtain ⟨up, hup⟩ := hc.up
  obtain ⟨hfirst, -, hall⟩ := hdown.delivered
  refine ⟨⟨hfirst, hc.open_, fun hwire hbuffer hpackets => ?_⟩, hup.delivered⟩
  exact hall hc.open_ hwire hbuffer (by rw [TcpClient.pending, hpackets]; rfl)

/-- A packet of the server in two pieces, and one of the client in one piece that is read in two. -/
def exchange : List ConnectionInput :=
  [.queuePacket (3, [104, 105]), .sendClient 3, .receive 3, .sendClient 3, .receive 3, .tryPopPacket,
    .sendPacket (5, [1]), .flushSend 5, .receiveClient 2, .receiveClient 3, .tryPopEvent]

theorem packets_delivered_exchange : ∃ history c,
    Run ConnectionStep (Connection.start TcpNetwork.idle 1) history c ∧
      c.down.accepted = [(3, [104, 105])] ∧ c.down.popped = c.down.accepted ∧
        c.up.accepted = [(5, [1])] ∧ c.up.popped = c.up.accepted := by
  obtain ⟨history, c, hrun, hcheck⟩ := Connection.played TcpNetwork.idle 1 exchange
    (fun c => decide ((c.down.accepted = [(3, [104, 105])] ∧ c.up.accepted = [(5, [1])]) ∧
      (c.down.wire = [] ∧ c.session.sendBuffer = [] ∧ c.client.packets = []) ∧
        c.up.fault = none ∧ c.up.wire = [] ∧ c.client.sendBuffer = [] ∧
          packetsOf c.session.id c.network.events = []))
    (by decide +kernel)
  obtain ⟨⟨hdown, hup⟩, ⟨hwire, hbuffer, hpackets⟩, hopen, hwire', hbuffer', hevents⟩ :=
    decide_eq_true_eq.mp hcheck
  obtain ⟨⟨-, -, halldown⟩, ⟨-, -, hallup⟩⟩ := packets_delivered rfl hrun
  exact ⟨history, c, hrun, hdown, halldown hwire hbuffer hpackets, hup,
    hallup hopen hwire' hbuffer' hevents⟩

end SelectServer
