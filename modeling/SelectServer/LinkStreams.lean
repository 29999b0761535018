import SelectServer.World

/- One connection of the system. Each direction keeps `Direction.Sound` while the
   programs take their turns; an end that is gone counts as one whose queue was
   full, for it takes nothing more. `Link.Sound` is the connection with what the
   server has of it as parameters: what it has accepted and not yet sent, what it has
   popped and what is queued. -/
namespace SelectServer
open Wire (Bytes)
open Framing (Format Ending Parsed)

/-! ## One direction -/

namespace Direction
variable {d : Direction} {sendBuffer recvBuffer consumed : Bytes} {queued taken rest : List Payload}

/-- What has been popped and what is queued came first. -/
theorem Sound.first (h : d.Sound sendBuffer recvBuffer queued consumed) :
    d.popped ++ queued <+: (packetFormat.parse consumed).frames.map payload := by
  cases hfault : d.fault with
  | none => exact ⟨[], by rw [List.append_nil, (h.open_ hfault).2]⟩
  | some fault => exact (h.closed fault hfault).2

/-- A receiver that is gone takes nothing more. -/
theorem Sound.abandon (h : d.Sound sendBuffer recvBuffer queued consumed) (htaken : taken <+: queued)
    (recvBuffer' : Bytes) :
    ({ d with fault := some .queueFull } : Direction).Sound sendBuffer recvBuffer' taken consumed where
  bodies := h.bodies
  bytes := h.bytes
  open_ hnone := by cases hnone
  closed fault hfault := by
    cases hfault
    refine ⟨rfl, List.IsPrefix.trans ?_ h.first⟩
    obtain ⟨later, rfl⟩ := htaken
    exact ⟨later, List.append_assoc ..⟩

/-- Several packets are popped. -/
theorem Sound.popAll (h : d.Sound sendBuffer recvBuffer (taken ++ rest) consumed) :
    ({ d with popped := d.popped ++ taken } : Direction).Sound sendBuffer recvBuffer rest
      consumed where
  bodies := h.bodies
  bytes := h.bytes
  open_ hopen := by
    obtain ⟨hending, hframes⟩ := h.open_ hopen
    exact ⟨hending, by rw [hframes, List.append_assoc]⟩
  closed fault hfault := by
    obtain ⟨hfull, hprefix⟩ := h.closed fault hfault
    refine ⟨hfull, ?_⟩
    rw [← List.append_assoc] at hprefix
    exact hprefix

/-- Several packets are accepted. -/
theorem Sound.acceptAll (packets : List Payload) : ∀ {d : Direction} {sendBuffer : Bytes},
    d.Sound sendBuffer recvBuffer queued consumed →
      (∀ p ∈ packets, p.2.length ≤ maxPacketSize - headerSize) →
        ({ d with accepted := d.accepted ++ packets } : Direction).Sound
          (sendBuffer ++ (packets.map packetBytes).flatten) recvBuffer queued consumed := by
  induction packets with
  | nil =>
    intro d sendBuffer h _
    rw [List.map_nil, List.flatten_nil, List.append_nil, List.append_nil]
    exact h
  | cons p packets ih =>
    intro d sendBuffer h hbodies
    obtain ⟨hp, hpackets⟩ := List.forall_mem_cons.mp hbodies
    have hall := ih (h.accept hp) hpackets
    rw [List.map_cons, List.flatten_cons, List.append_cons d.accepted, ← List.append_assoc]
    exact hall

/-- Nothing is under way of packets that were never accepted. -/
theorem Sound.unsent (h : d.Sound sendBuffer recvBuffer queued consumed) (hnone : d.accepted = []) :
    sendBuffer = [] := by
  have hbytes := h.bytes
  rw [hnone] at hbytes
  exact (List.append_eq_nil_iff.mp (List.append_eq_nil_iff.mp hbytes).2).2

end Direction

/-- A read of what is on the way. -/
theorem chunk?_given {wire : Bytes} {chunk : Chunk} (h : chunk.bytes <+: wire) :
    chunk? wire chunk.bytes.length = some chunk := by
  have htake : wire.take chunk.bytes.length = chunk.bytes := by
    obtain ⟨rest, rfl⟩ := h
    exact List.take_left
  unfold chunk?
  rw [dif_pos ⟨List.length_pos_iff.mpr chunk.nonempty, h.length_le, chunk.fits⟩]
  congr 1
  cases chunk
  congr 1

/-- A receiver that is given nothing. -/
theorem Direction.Sound.noRead {d : Direction} {sendBuffer recvBuffer consumed : Bytes}
    {queued : List Payload} (h : d.Sound sendBuffer recvBuffer queued consumed) (hopen : d.fault = none) :
    (d.read 0 none).Sound sendBuffer recvBuffer queued consumed := by
  have hsame : d.read 0 none = d := by
    cases d
    cases hopen
    rfl
  rw [hsame]
  exact h

/-! ## A `Run` of the client -/

/-- The faults that the system is to blame for. -/
def RunFault.isExternal : RunFault → Bool
  | .selectFailed => true
  | .send => true
  | .receive .peerFinished => true
  | .receive .recvFailed => true
  | _ => false

namespace TcpClient
variable {c : TcpClient} {d : Direction} {sendBuffer consumed : Bytes}

/-- With its queue empty, a client takes all that it is given, whatever the sizes. -/
theorem receive_spec (hpackets : c.packets = []) (hopen : d.fault = none)
    (h : d.Sound sendBuffer c.recvBuffer [] consumed) {received : Received}
    (hread : received.bytes <+: d.wire) :
    (∃ ps rest consumed', c.receive received =
        some (none, { c with recvBuffer := rest, packets := ps.map packetOf }) ∧
      (d.read received.bytes.length none).Sound sendBuffer rest ps consumed') ∨
    (∃ fault, c.receive received = some (some fault, c) ∧ received.bytes = [] ∧
      (RunFault.receive fault).isExternal = true) := by
  cases received with
  | finished => exact .inr ⟨_, rfl, rfl, rfl⟩
  | failed => exact .inr ⟨_, rfl, rfl, rfl⟩
  | wouldBlock =>
    refine .inl ⟨[], c.recvBuffer, consumed, ?_, h.noRead hopen⟩
    rw [List.map_nil, ← hpackets]
    rfl
  | data chunk =>
    obtain ⟨hincomplete, p, rest, hp, hending, hsound, -⟩ := h.read hopen (chunk?_given hread)
    refine .inl ⟨p.frames.map payload, rest, _, ?_, hsound⟩
    rw [receive_drained hincomplete hpackets chunk hp, hending, List.map_map]
    rfl

/-- What may be answered to `send` takes bytes of the send buffer. -/
theorem flushSend_spec {sent : Sent}
    (hsend : (c.sendBuffer.isEmpty || sent.fits c.sendBuffer) = true) :
    c.flushSend sent = none ∨ ∃ n, n ≤ c.sendBuffer.length ∧
      c.flushSend sent = some { c with sendBuffer := c.sendBuffer.drop n } := by
  have hnothing : ∀ {sent}, c.flushSend sent = some c → ∃ n, n ≤ c.sendBuffer.length ∧
      c.flushSend sent = some { c with sendBuffer := c.sendBuffer.drop n } :=
    fun e => ⟨0, Nat.zero_le _, e⟩
  rw [Bool.or_eq_true] at hsend
  by_cases hempty : c.sendBuffer.isEmpty = true
  · exact .inr (hnothing (if_pos hempty))
  · cases sent with
    | wouldBlock => exact .inr (hnothing (if_neg hempty))
    | failed => exact .inl (if_neg hempty)
    | noProgress => exact .inl (if_neg hempty)
    | bytes n =>
      obtain ⟨hpos, hn⟩ := of_decide_eq_true (hsend.resolve_left hempty)
      exact .inr ⟨n, hn, flushSend_bytes hpos hn⟩

/-- A `Run` after the part that receives. -/
theorem run_received {c1 : TcpClient} (hconnected : c.connected = true) {os : ClientSockets}
    {readable writable : Bool} (hselect : os.select = some (readable, writable))
    (hreceived : (if readable = true then c.receive os.recv else some (none, c)) = some (none, c1)) :
    ((!c.sendBuffer.isEmpty && writable) = true → c1.flushSend os.send = none →
      c.run os = some (some .send, c1)) ∧
    (∀ c2, (!c.sendBuffer.isEmpty && writable) = true → c1.flushSend os.send = some c2 →
      c.run os = some (none, c2)) ∧
    ((!c.sendBuffer.isEmpty && writable) ≠ true → c.run os = some (none, c1)) := by
  unfold run
  rw [hconnected, hselect]
  dsimp only
  rw [if_neg (by simp), hreceived]
  refine ⟨fun hpending e => ?_, fun c2 hpending e => ?_, fun hpending => ?_⟩
  · rw [Option.map_some]
    dsimp only
    rw [if_pos hpending, e]
  · rw [Option.map_some]
    dsimp only
    rw [if_pos hpending, e]
  · rw [Option.map_some]
    dsimp only
    rw [if_neg hpending]

/-- A `Run` of a client whose queue is empty: it takes what it is given and sends what is taken, or
there is a fault that comes from outside. -/
theorem run_spec (hconnected : c.connected = true) (hpackets : c.packets = []) (hopen : d.fault = none)
    (h : d.Sound sendBuffer c.recvBuffer [] consumed) {os : ClientSockets}
    (hread : bytesRead os <+: d.wire) (hsend : (c.sendBuffer.isEmpty || os.send.fits c.sendBuffer) = true) :
    ∃ fault c' ps rest consumed', c.run os = some (fault, c') ∧
      (d.read (bytesRead os).length none).Sound sendBuffer rest ps consumed' ∧
      ((fault = none ∧ ∃ n, c.bytesSent os = c.sendBuffer.take n ∧ c' = { c with
          recvBuffer := rest, packets := ps.map packetOf, sendBuffer := c.sendBuffer.drop n }) ∨
        (c.bytesSent os = [] ∧ ∃ f, fault = some f ∧ f.isExternal = true)) := by
  have hfault : ∀ {f : RunFault} {c' : TcpClient}, c.run os = some (some f, c') →
      c.bytesSent os = [] := by
    intro f c' e
    unfold bytesSent
    rw [e]
  have hgoes : ∀ {n : Nat} {c' : TcpClient}, n ≤ c.sendBuffer.length → c.run os = some (none, c') →
      c'.sendBuffer = c.sendBuffer.drop n → c.bytesSent os = c.sendBuffer.take n := by
    intro n c' hn e hdrop
    unfold bytesSent
    rw [e]
    dsimp only
    rw [hdrop, List.length_drop, Nat.sub_sub_self hn]
  cases hselect : os.select with
  | none =>
    have hrun : c.run os = some (some .selectFailed, c) := by
      unfold run
      rw [hconnected, hselect]
      rfl
    have hnothing : bytesRead os = [] := by
      unfold bytesRead
      rw [hselect]
    refine ⟨_, _, [], c.recvBuffer, consumed, hrun, ?_, .inr ⟨hfault hrun, _, rfl, rfl⟩⟩
    rw [hnothing]
    exact h.noRead hopen
  | some sets =>
    obtain ⟨readable, writable⟩ := sets
    -- what the part that receives leaves
    obtain ⟨ps, rest, consumed', hreceived, hsound⟩ | ⟨fault, hreceived, hnothing, hexternal⟩ :
        (∃ ps rest consumed',
          (if readable = true then c.receive os.recv else some (none, c)) =
            some (none, { c with recvBuffer := rest, packets := ps.map packetOf }) ∧
          (d.read (bytesRead os).length none).Sound sendBuffer rest ps consumed') ∨
        (∃ fault, (if readable = true then c.receive os.recv else some (none, c)) =
            some (some fault, c) ∧ bytesRead os = [] ∧
          (RunFault.receive fault).isExternal = true) := by
      unfold bytesRead at hread ⊢
      rw [hselect] at hread ⊢
      cases readable with
      | true => exact receive_spec hpackets hopen h hread
      | false =>
        refine .inl ⟨[], c.recvBuffer, consumed, ?_, h.noRead hopen⟩
        rw [List.map_nil, ← hpackets]
        rfl
    · generalize hc1 : ({ c with recvBuffer := rest, packets := ps.map packetOf } : TcpClient) = c1
        at hreceived
      have hbuffer : c1.sendBuffer = c.sendBuffer := by
        rw [← hc1]
      obtain ⟨hfails, hsends, hquiet⟩ := run_received hconnected hselect hreceived
      by_cases hpending : (!c.sendBuffer.isEmpty && writable) = true
      · rw [← hbuffer] at hsend
        rcases flushSend_spec hsend with e | ⟨n, hn, e⟩
        · have hrun := hfails hpending e
          exact ⟨_, _, ps, rest, consumed', hrun, hsound, .inr ⟨hfault hrun, _, rfl, rfl⟩⟩
        · have hrun := hsends _ hpending e
          rw [hbuffer] at hn hrun
          refine ⟨_, _, ps, rest, consumed', hrun, hsound, .inl ⟨rfl, n, hgoes hn hrun rfl, ?_⟩⟩
          rw [← hc1]
      · have hrun := hquiet hpending
        exact ⟨_, _, ps, rest, consumed', hrun, hsound,
          .inl ⟨rfl, 0, hgoes (Nat.zero_le _) hrun hbuffer, hc1.symm⟩⟩
    · have hrun : c.run os = some (some (.receive fault), c) := by
        unfold run
        rw [hconnected, hselect]
        dsimp only
        rw [if_neg (by simp), hreceived]
        rfl
      refine ⟨_, _, [], c.recvBuffer, consumed, hrun, ?_, .inr ⟨hfault hrun, _, rfl, hexternal⟩⟩
      rw [hnothing]
      exact h.noRead hopen

end TcpClient

/-! ## A connection -/

def ClientPacket.payload (packet : ClientPacket) : Payload := (packet.packetId, packet.body)

/-- The server's end of a connection. -/
structure ServerEnd where
  /-- The packets that `SendPacket` has taken. -/
  accepted : List Payload := []
  sendBuffer : Bytes := []
  recvBuffer : Bytes := []
  /-- The packets that are queued. -/
  queued : List Payload := []
  /-- The packets that have been popped. -/
  popped : List Payload := []
  /-- The session is closed. -/
  gone : Bool := false

namespace Link

/-- From the server to the client. -/
def downward (k : Link) (e : ServerEnd) : Direction where
  wire := k.down
  accepted := e.accepted
  popped := k.client.heard.map ClientPacket.payload
  fault := if k.client.exit.isSome then some .queueFull else none

/-- From the client to the server. -/
def upward (k : Link) (e : ServerEnd) : Direction where
  wire := k.up
  accepted := k.client.asked
  popped := e.popped
  fault := if e.gone then some .queueFull else none

structure Sound (k : Link) (e : ServerEnd) : Prop where
  down : ∃ consumed,
    (k.downward e).Sound e.sendBuffer k.client.tcp.recvBuffer [] consumed
  up : ∃ sendBuffer consumed, (k.upward e).Sound sendBuffer e.recvBuffer e.queued consumed ∧
    (k.client.exit = none → sendBuffer = k.client.tcp.sendBuffer)
  running : k.client.exit = none → k.client.tcp.connected = true ∧ k.client.tcp.packets = []
  external : ∀ fault, k.client.exit = some (.network fault) → fault.isExternal = true
  readable : ∀ p ∈ k.client.asked, (Request.decode p.1 p.2).isSome = true

theorem Sound.start : ({} : Link).Sound {} where
  down := ⟨[], .empty⟩
  up := ⟨[], [], .empty, fun _ => rfl⟩
  running _ := ⟨rfl, rfl⟩
  external _ h := by cases h
  readable _ h := by cases h

variable {k k' : Link} {e : ServerEnd}

/-! ### The client's steps -/

/-- The client leaves its loop, whatever it has not yet popped. -/
theorem Sound.left {why : Exit} {c : ClientApp} (h : k.Sound e) {consumed : Bytes}
    {d : Direction} {recvBuffer : Bytes} {queued : List Payload}
    (hd : d.Sound e.sendBuffer recvBuffer queued consumed) (haccepted : d.accepted = e.accepted)
    {up : Bytes} {sendBuffer consumed' : Bytes}
    (hup : ({ k with up := up }.upward e).Sound sendBuffer e.recvBuffer e.queued consumed')
    (hpopped : d.popped = c.heard.map ClientPacket.payload) (hasked : c.asked = k.client.asked)
    (hexit : c.exit = some why) (hwhy : ∀ fault, why = .network fault → fault.isExternal = true) :
    ({ client := c, up := up, down := d.wire } : Link).Sound e where
  down := by
    have hgone := hd.abandon List.nil_prefix c.tcp.recvBuffer
    have hsame : ({ d with fault := some .queueFull } : Direction) =
        ({ client := c, up := up, down := d.wire } : Link).downward e := by
      unfold downward
      rw [hexit, haccepted, hpopped]
      rfl
    exact ⟨consumed, hsame ▸ hgone⟩
  up := by
    have hsame : ({ client := c, up := up, down := d.wire } : Link).upward e =
        { k with up := up }.upward e := by
      unfold upward
      rw [hasked]
    refine ⟨sendBuffer, consumed', hsame ▸ hup, fun hnone => ?_⟩
    rw [hexit] at hnone
    cases hnone
  running hnone := by
    rw [hexit] at hnone
    cases hnone
  external fault hfault := hwhy fault (Option.some.inj (hexit.symm.trans hfault))
  readable := by
    rw [hasked]
    exact h.readable

theorem Sound.leave {why : Exit} (h : k.Sound e)
    (hwhy : ∀ fault, why = .network fault → fault.isExternal = true) :
    ({ k with client := k.client.leave why } : Link).Sound e := by
  obtain ⟨consumed, hdown⟩ := h.down
  obtain ⟨sendBuffer, consumed', hup, -⟩ := h.up
  exact h.left hdown rfl hup rfl rfl rfl hwhy

theorem Sound.command (h : k.Sound e) (text : Bytes) :
    ({ k with client := k.client.command text } : Link).Sound e := by
  have hcommand := k.client.command_spec text
  generalize k.client.command text = c at hcommand ⊢
  cases hcommand with
  | nothing => exact h
  | left => exact h.leave fun fault hfault => by cases hfault
  | @asked packetId body request hbody hrequest =>
    obtain ⟨sendBuffer, consumed, hup, hbuffer⟩ := h.up
    refine ⟨h.down, ⟨_, consumed, hup.accept hbody, fun hnone => ?_⟩, h.running, h.external, ?_⟩
    · rw [hbuffer hnone]
    · intro p hp
      rcases List.mem_append.mp hp with hp | hp
      · exact h.readable p hp
      · rw [List.mem_singleton.mp hp, hrequest]
        rfl

theorem Sound.turn (h : k.Sound e) (hexit : k.client.exit = none) {os : ClientSockets}
    (hallows : k.allows os = true) {c : ClientApp} (hturn : k.client.turn os = some c) :
    ({ client := c
       up := k.up ++ k.client.tcp.bytesSent os
       down := k.down.drop (TcpClient.bytesRead os).length } : Link).Sound e := by
  obtain ⟨consumed, hdown⟩ := h.down
  obtain ⟨sendBuffer, consumed', hup, hbuffer⟩ := h.up
  obtain rfl := hbuffer hexit
  obtain ⟨hconnected, hpackets⟩ := h.running hexit
  have hopen : (k.downward e).fault = none := by
    unfold downward
    rw [hexit]
    rfl
  unfold allows at hallows
  rw [Bool.and_eq_true, List.isPrefixOf_iff_prefix] at hallows
  obtain ⟨fault, tcp, ps, rest, consumed1, hrun, hread, hcases⟩ :=
    TcpClient.run_spec hconnected hpackets hopen hdown hallows.1 hallows.2
  unfold ClientApp.turn at hturn
  rw [hrun] at hturn
  obtain rfl := Option.some.inj hturn
  rcases hcases with ⟨rfl, n, hsent, rfl⟩ | ⟨hsent, f, rfl, hexternal⟩
  · dsimp only
    rw [hsent]
    have hupward := hup.send n
    have hrespond := ClientApp.respond_spec (ps.map TcpClient.packetOf) { k.client with
      tcp := { k.client.tcp with
        recvBuffer := rest
        packets := ps.map TcpClient.packetOf
        sendBuffer := k.client.tcp.sendBuffer.drop n } } rfl
    generalize ClientApp.respond _ _ = c at hrespond ⊢
    have hback : (ps.map TcpClient.packetOf).map ClientPacket.payload = ps := by
      rw [List.map_map]
      exact List.map_id ps
    cases hrespond with
    | all hwatch =>
      refine ⟨⟨consumed1, ?_⟩, ⟨_, _, hupward, fun _ => rfl⟩, fun _ => ⟨hconnected, rfl⟩, ?_, h.readable⟩
      · rw [← List.append_nil ps] at hread
        have hall := hread.popAll
        have hsame : ({ (k.downward e).read (TcpClient.bytesRead os).length none with
            popped := (k.downward e).popped ++ ps } : Direction) =
              ({ client := { k.client with
                    heard := k.client.heard ++ ps.map TcpClient.packetOf }
                 up := k.up
                 down := k.down.drop (TcpClient.bytesRead os).length } : Link).downward e := by
          unfold downward Direction.read
          dsimp only
          rw [List.map_append, hback, hexit]
          rfl
        exact hsame ▸ hall
      · intro fault hfault
        exact h.external fault hfault
    | @refused _ first hfirst hwatch hheard hasked hexit' htcp =>
      obtain ⟨later, hlater⟩ := hfirst
      have hsplit : ps = first.map ClientPacket.payload ++ later.map ClientPacket.payload := by
        rw [← List.map_append, hlater, hback]
      have hpopped := Direction.Sound.popAll (hsplit ▸ hread)
      refine Sound.left h hpopped rfl hupward ?_ hasked hexit' fun fault hfault => by cases hfault
      rw [hheard, List.map_append]
      rfl
  · rw [hsent, List.append_nil]
    refine Sound.left h hread rfl hup rfl rfl rfl fun fault hfault => ?_
    cases hfault
    exact hexternal

/-- A step of the client keeps the connection sound. -/
theorem Sound.step (h : k.Sound e) {l : ClientInput} (hstep : k.step l = some k') : k'.Sound e := by
  unfold Link.step ClientApp.step at hstep
  cases hexit : k.client.exit with
  | some why =>
    rw [hexit] at hstep
    cases l with
    | line text => cases hstep
    | inputFinished => cases hstep
    | run os =>
      dsimp only at hstep
      split at hstep
      · cases hstep
      · cases hstep
  | none =>
    rw [hexit] at hstep
    cases l with
    | line text =>
      cases text with
      | none =>
        cases hstep
        exact h
      | some text =>
        cases hstep
        exact h.command text
    | inputFinished =>
      cases hstep
      exact h.leave fun fault hfault => by cases hfault
    | run os =>
      dsimp only at hstep
      split at hstep
      · rename_i hallows
        obtain ⟨c, hturn, rfl⟩ := Option.map_eq_some_iff.mp hstep
        exact h.turn hexit hallows hturn
      · cases hstep

/-! ### The server's steps -/

theorem Sound.posted (h : k.Sound e) {packets : List Payload}
    (hbodies : ∀ p ∈ packets, p.2.length ≤ maxPacketSize - headerSize) :
    k.Sound { e with
      accepted := e.accepted ++ packets
      sendBuffer := e.sendBuffer ++ (packets.map packetBytes).flatten } := by
  obtain ⟨consumed, hdown⟩ := h.down
  exact ⟨⟨consumed, hdown.acceptAll packets hbodies⟩, h.up, h.running, h.external, h.readable⟩

theorem Sound.taken {first rest : List Payload} (h : k.Sound e) (hqueued : e.queued = first ++ rest) :
    k.Sound { e with queued := rest, popped := e.popped ++ first } := by
  obtain ⟨sendBuffer, consumed, hup, hbuffer⟩ := h.up
  rw [hqueued] at hup
  exact ⟨h.down, ⟨sendBuffer, consumed, hup.popAll, hbuffer⟩, h.running, h.external, h.readable⟩

end Link

namespace TcpNetwork
variable {t t1 t' : TcpNetwork} {client : ClientSession} {d : Direction}
variable {sendBuffer consumed : Bytes} {queued : List Payload}

/-- A read of a session from a sound direction: only the limit of the queue can be in its way. -/
theorem receiveClient_sound (t1 : TcpNetwork) (h : d.Sound sendBuffer client.recvBuffer queued consumed)
    (hopen : d.fault = none) {chunk : Chunk} (hread : chunk.bytes <+: d.wire) :
    ∃ result, ∃ new : List Payload, t1.receiveClient client (.data chunk) =
        some (result, { t1 with events := t1.events ++ new.map (packetEvent client.id) }) ∧
      ((∃ rest, result = .ok { client with recvBuffer := rest } ∧
          (d.read chunk.bytes.length none).Sound sendBuffer rest (queued ++ new)
            (consumed ++ chunk.bytes)) ∨
        (result = .error .queueFull ∧
          (d.read chunk.bytes.length (some .queueFull)).Sound sendBuffer client.recvBuffer
            (queued ++ new) (consumed ++ chunk.bytes))) := by
  obtain ⟨hincomplete, p, rest, hp, hending, hsound, hclosed⟩ := h.read hopen (chunk?_given hread)
  obtain ⟨new, refused, hall, e, -⟩ := receiveClient_spec (t := t1) hincomplete chunk hp
  refine ⟨_, new, e, ?_⟩
  rw [hending]
  cases refused with
  | nil =>
    rw [hall, List.append_nil] at hsound
    exact .inl ⟨rest, rfl, hsound⟩
  | cons => exact .inr ⟨rfl, hclosed new _ hall⟩

/-- What a session receives in a `Run`. -/
theorem receiveIfReady_sound (h : d.Sound sendBuffer client.recvBuffer queued consumed)
    (hopen : d.fault = none) {received : Option Received}
    (hread : (received.map Received.bytes).getD [] <+: d.wire)
    {result : Except ReceiveFault ClientSession} {new : List Payload}
    (hreceive : t1.receiveIfReady client received =
      some (result, { t1 with events := t1.events ++ new.map (packetEvent client.id) })) :
    ∃ rest consumed' fault,
      (d.read ((received.map Received.bytes).getD []).length fault).Sound sendBuffer rest
        (queued ++ new) consumed' ∧
      ((fault = none ∧ result = .ok { client with recvBuffer := rest }) ∨
        (fault = some .queueFull ∧ result.toOption = none)) := by
  -- the packets are told by the events that are queued
  have hnew : ∀ {result' : Except ReceiveFault ClientSession} {new' : List Payload},
      t1.receiveIfReady client received =
        some (result', { t1 with events := t1.events ++ new'.map (packetEvent client.id) }) →
      result' = result ∧ new' = new := by
    intro result' new' e
    obtain ⟨hresult, ht⟩ := Prod.mk.inj (Option.some.inj (e.symm.trans hreceive))
    have hevents := List.append_cancel_left (congrArg TcpNetwork.events ht)
    refine ⟨hresult, ?_⟩
    rw [← packetsOf_queued client.id new', hevents, packetsOf_queued]
  have hnothing : ∀ {result' : Except ReceiveFault ClientSession},
      t1.receiveIfReady client received = some (result', t1) → result' = result ∧ [] = new := by
    intro result' e
    refine hnew (e.trans ?_)
    rw [List.map_nil, List.append_nil]
  have hgone : ∀ recvBuffer, (d.read 0 (some .queueFull)).Sound sendBuffer recvBuffer
      (queued ++ []) consumed := by
    intro recvBuffer
    rw [List.append_nil]
    exact (h.noRead hopen).abandon (List.prefix_refl _) recvBuffer
  have hkept : (d.read 0 none).Sound sendBuffer client.recvBuffer (queued ++ []) consumed := by
    rw [List.append_nil]
    exact h.noRead hopen
  cases received with
  | none =>
    obtain ⟨rfl, rfl⟩ := hnothing rfl
    exact ⟨client.recvBuffer, consumed, none, hkept, .inl ⟨rfl, rfl⟩⟩
  | some received =>
    cases received with
    | wouldBlock =>
      obtain ⟨rfl, rfl⟩ := hnothing rfl
      exact ⟨client.recvBuffer, consumed, none, hkept, .inl ⟨rfl, rfl⟩⟩
    | finished =>
      obtain ⟨rfl, rfl⟩ := hnothing rfl
      exact ⟨[], consumed, some .queueFull, hgone [], .inr ⟨rfl, rfl⟩⟩
    | failed =>
      obtain ⟨rfl, rfl⟩ := hnothing rfl
      exact ⟨[], consumed, some .queueFull, hgone [], .inr ⟨rfl, rfl⟩⟩
    | data chunk =>
      obtain ⟨result', new', e, hcases⟩ := receiveClient_sound t1 h hopen hread
      obtain ⟨rfl, rfl⟩ := hnew e
      rcases hcases with ⟨rest, hok, hsound⟩ | ⟨herror, hsound⟩
      · exact ⟨rest, _, none, hsound, .inl ⟨rfl, hok⟩⟩
      · refine ⟨_, _, some .queueFull, hsound, .inr ⟨rfl, ?_⟩⟩
        rw [herror]
        rfl

theorem sendIfReady_spec (client : ClientSession) {sent : Option Sent}
    (hfits : sent.all (Sent.fits client.sendBuffer) = true) :
    sendIfReady client sent = none ∨ ∃ n, n ≤ client.sendBuffer.length ∧
      sendIfReady client sent = some { client with sendBuffer := client.sendBuffer.drop n } := by
  have hnothing : sendIfReady client sent = some client → ∃ n, n ≤ client.sendBuffer.length ∧
      sendIfReady client sent = some { client with sendBuffer := client.sendBuffer.drop n } :=
    fun e => ⟨0, Nat.zero_le _, e⟩
  cases sent with
  | none => exact .inr (hnothing rfl)
  | some sent =>
    by_cases hempty : client.sendBuffer.isEmpty = true
    · exact .inr (hnothing (if_pos hempty))
    · cases sent with
      | wouldBlock => exact .inr (hnothing (if_neg hempty))
      | failed => exact .inl (if_neg hempty)
      | noProgress => exact .inl (if_neg hempty)
      | bytes n =>
        obtain ⟨hpos, hn⟩ := of_decide_eq_true hfits
        exact .inr ⟨n, hn, sendClient_bytes hpos hn⟩

end TcpNetwork

namespace Link
open TcpNetwork
variable {k : Link} {e : ServerEnd} {t t' : TcpNetwork} {client : ClientSession}

/-- A session is served once. -/
theorem Sound.exchanged (h : k.Sound e) (hopen : e.gone = false)
    (hsession : t.session client.id = some client)
    (hbuffers : client.sendBuffer = e.sendBuffer ∧ client.recvBuffer = e.recvBuffer)
    {received : Option Received} {sent : Option Sent}
    (hread : (received.map Received.bytes).getD [] <+: k.up)
    (hfits : sent.all (Sent.fits client.sendBuffer) = true)
    (hexchanged : Exchanged t t' client received sent) :
    ∃ e' : ServerEnd, (k.polled ((received.map Received.bytes).getD [])
        (t.bytesSent t' client.id)).Sound e' ∧
      e'.accepted = e.accepted ∧ e'.popped = e.popped ∧
      (∃ queued, packetsOf client.id t'.events = packetsOf client.id t.events ++ queued ∧
        e'.queued = e.queued ++ queued) ∧
      ∀ client', t'.session client.id = some client' →
        e'.gone = false ∧ client'.sendBuffer = e'.sendBuffer ∧ client'.recvBuffer = e'.recvBuffer := by
  obtain ⟨t1, result, queued, hreceive, hpackets, hafter⟩ := hexchanged
  obtain ⟨consumed, hdown⟩ := h.down
  obtain ⟨sendBuffer, consumed', hup, hbuffer⟩ := h.up
  obtain ⟨hsend, hrecv⟩ := hbuffers
  have hfault : (k.upward e).fault = none := by
    unfold upward
    rw [hopen]
    rfl
  rw [← hrecv] at hup
  obtain ⟨rest, consumed1, fault, hsound, hcases⟩ := receiveIfReady_sound hup hfault hread hreceive
  -- the session is closed: nothing more is sent, and what was queued stays queued
  have hclosed : t'.session client.id = none → ∃ e' : ServerEnd,
      (k.polled ((received.map Received.bytes).getD []) (t.bytesSent t' client.id)).Sound e' ∧
        e'.accepted = e.accepted ∧ e'.popped = e.popped ∧
        (∃ queued, packetsOf client.id t'.events = packetsOf client.id t.events ++ queued ∧
          e'.queued = e.queued ++ queued) ∧
        ∀ client', t'.session client.id = some client' → e'.gone = false ∧
          client'.sendBuffer = e'.sendBuffer ∧ client'.recvBuffer = e'.recvBuffer := by
    intro hnone
    have hnothing : t.bytesSent t' client.id = [] := by
      unfold bytesSent
      rw [hsession, hnone]
    have hgone := hsound.abandon (List.prefix_refl _) []
    refine ⟨{ e with recvBuffer := [], queued := e.queued ++ queued, gone := true },
      ⟨⟨consumed, ?_⟩, ⟨sendBuffer, consumed1, hgone, hbuffer⟩, h.running, h.external, h.readable⟩,
      rfl, rfl, ⟨queued, hpackets, rfl⟩, fun client' hclient' => ?_⟩
    · rw [hnothing]
      unfold polled
      rw [List.append_nil]
      exact hdown
    · rw [hnone] at hclient'
      cases hclient'
  rcases hcases with ⟨rfl, rfl⟩ | ⟨rfl, hnone⟩
  · have hafter : t'.session client.id =
        sendIfReady { client with recvBuffer := rest } sent := hafter
    rcases sendIfReady_spec { client with recvBuffer := rest } hfits with hnone | ⟨n, hn, hdrop⟩
    · exact hclosed (hafter.trans hnone)
    · rw [hdrop] at hafter
      have hsent : t.bytesSent t' client.id = client.sendBuffer.take n := by
        unfold bytesSent
        rw [hsession, hafter]
        dsimp only
        rw [List.length_drop, Nat.sub_sub_self hn]
      rw [← hsend] at hdown
      have hdownward := hdown.send n
      refine ⟨{ e with
          sendBuffer := client.sendBuffer.drop n
          recvBuffer := rest
          queued := e.queued ++ queued },
        ⟨⟨consumed, ?_⟩, ⟨sendBuffer, consumed1, ?_, hbuffer⟩, h.running, h.external, h.readable⟩,
        rfl, rfl, ⟨queued, hpackets, rfl⟩, fun client' hclient' => ?_⟩
      · rw [hsent]
        exact hdownward
      · have hsame : (polled k ((received.map Received.bytes).getD [])
            (t.bytesSent t' client.id)).upward { e with
              sendBuffer := client.sendBuffer.drop n
              recvBuffer := rest
              queued := e.queued ++ queued } =
            (k.upward e).read ((received.map Received.bytes).getD []).length none := by
          unfold upward Direction.read polled
          dsimp only
          rw [hopen]
          rfl
        exact hsame ▸ hsound
      · rw [hafter] at hclient'
        obtain rfl := Option.some.inj hclient'
        exact ⟨hopen, rfl, rfl⟩
  · exact hclosed (by rw [hafter, hnone]; rfl)

end Link
end SelectServer
