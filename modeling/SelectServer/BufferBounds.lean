import SelectServer.TcpSessions
import SelectServer.Connection

/- How full the buffers of a connection get. What `ProcessRecvBuffer` leaves in a
   buffer is less than one packet (`processBuffer_kept`), so one more read always
   fits and the limit on the buffer is never what closes a session. The send buffer
   only grows in `QueuePacket`, which asks for the room first. And one read completes
   at most as many packets as the queue of a client that has emptied it can take
   (`queue_never_full`): the bytes left over belong to a single packet. -/
namespace SelectServer
open Wire (Bytes)
open Framing (Format Ending Parsed)
open Histories

/-! ## The loop over a buffer -/

section Loop
variable {σ : Type} {enqueue : σ → UInt16 → Bytes → Bool × σ} {buffer : Bytes} {queue : σ}

/-- The positions and queues with which the loop starts an iteration. -/
inductive LoopAt (enqueue : σ → UInt16 → Bytes → Bool × σ) (buffer : Bytes) (queue : σ) :
    Nat → σ → Prop
  | first : LoopAt enqueue buffer queue 0 queue
  | next {readPos totalSize : Nat} {before after : σ} (h : LoopAt enqueue buffer queue readPos before)
      (hheader : headerSize ≤ buffer.length - readPos)
      (hsize : totalSize? (buffer.drop readPos) = some totalSize)
      (hbody : totalSize ≤ buffer.length - readPos)
      (htaken : enqueue before (readUInt16At (buffer.drop readPos) 2)
        (((buffer.drop readPos).drop headerSize).take (totalSize - headerSize)) = (true, after)) :
      LoopAt enqueue buffer queue (readPos + totalSize) after

/-- The position never passes the end, so the size of what is left is no underflow. -/
theorem LoopAt.inside {readPos : Nat} {q : σ} (h : LoopAt enqueue buffer queue readPos q) :
    readPos ≤ buffer.length := by
  cases h with
  | first => exact Nat.zero_le _
  | next h hheader hsize hbody htaken =>
    -- a packet has a header, so there was something left to take it from
    simp only [headerSize] at hheader
    omega

theorem totalSize?_some {s : Bytes} {n : Nat} (h : totalSize? s = some n) :
    n = (readUInt16At s 0).toNat ∧ headerSize ≤ n ∧ n ≤ maxPacketSize := by
  unfold totalSize? at h
  dsimp only at h
  split at h
  · cases h
  · rename_i hvalid
    cases h
    exact ⟨rfl, by omega, by omega⟩

/-- These are the iterations of `ProcessRecvBuffer`. -/
theorem LoopAt.iteration {readPos : Nat} {q : σ} (h : LoopAt enqueue buffer queue readPos q) :
    ∃ iterations, processLoop enqueue buffer (buffer.length + 1) 0 queue =
      processLoop enqueue buffer (iterations + 1) readPos q := by
  induction h with
  | first => exact ⟨buffer.length, rfl⟩
  | @next readPos totalSize before after h hheader hsize hbody htaken ih =>
    obtain ⟨iterations, e⟩ := ih
    obtain ⟨htotal, hmin, hmax⟩ := totalSize?_some hsize
    have hstep : processLoop enqueue buffer (iterations + 1) readPos before =
        processLoop enqueue buffer iterations (readPos + totalSize) after := by
      simp only [processLoop]
      rw [if_neg (Nat.not_lt.mpr hheader), ← htotal, if_neg (by omega),
        if_neg (Nat.not_lt.mpr hbody), htaken]
    have hends := @processLoop_eq _ enqueue buffer (buffer.length + 1) 0 queue (Nat.zero_le _)
      (by omega)
    cases iterations with
    | zero =>
      -- the loop would not have ended
      rw [e, hstep] at hends
      cases hends
    | succ iterations => exact ⟨iterations, e.trans hstep⟩

/-- What stays in a buffer is less than one packet. -/
theorem processBuffer_kept {rest : Bytes} {after : σ}
    (h : processBuffer enqueue buffer queue = some (.ok rest, after)) :
    packetFormat.Incomplete rest := by
  rw [processBuffer_eq] at h
  cases henqueue : enqueueAll enqueue ((packetFormat.parse buffer).frames.map payload) queue with
  | mk taken queue' =>
    rw [henqueue] at h
    cases taken with
    | false => cases h
    | true =>
      cases hending : (packetFormat.parse buffer).ending with
      | broken =>
        rw [hending] at h
        cases h
      | kept kept =>
        rw [hending] at h
        cases h
        exact (Format.parse_kept hending).1

end Loop

/-- `static_cast<int>` of a size. -/
def intOfSize (n : Nat) : Int := (BitVec.ofNat 32 n).toInt

theorem intOfSize_exact {n : Nat} (h : n ≤ maxSendSize) : intOfSize n = n := by
  have hlt : n < 2147483648 := Nat.lt_succ_of_le h
  unfold intOfSize
  rw [BitVec.toInt_ofNat']
  apply Int.bmod_eq_of_le
  · omega
  · omega

/-! ## A session of the server -/

theorem NetworkConfig.isValid_send {config : NetworkConfig} (h : config.isValid = true) :
    config.maxSendBufferBytes ≤ maxSendSize := by
  simp only [isValid, Bool.not_eq_true', Bool.or_eq_false_iff, decide_eq_false_iff_not] at h
  omega

/-- What is kept of the two buffers of a session. -/
structure ClientSession.Kept (config : NetworkConfig) (client : ClientSession) : Prop where
  recv : packetFormat.Incomplete client.recvBuffer
  send : client.sendBuffer.length ≤ config.maxSendBufferBytes

namespace TcpNetwork
variable {t t' : TcpNetwork} {client client' : ClientSession}

theorem kept_new (config : NetworkConfig) (s : SessionId) : ClientSession.Kept config { id := s } where
  recv := Format.incomplete_nil
  send := Nat.zero_le _

theorem queuePacket_kept (h : client.Kept t.config) (packetId : UInt16) (body : Bytes) :
    (t.queuePacket client packetId body).2.Kept t.config := by
  unfold queuePacket
  by_cases hbody : body.length > maxPacketSize - headerSize
  · rw [if_pos hbody]
    exact h
  rw [if_neg hbody]
  dsimp only
  by_cases hfull : client.sendBuffer.length > t.config.maxSendBufferBytes ∨
      headerSize + body.length > t.config.maxSendBufferBytes - client.sendBuffer.length
  · rw [if_pos hfull]
    exact h
  · rw [if_neg hfull]
    refine ⟨h.recv, ?_⟩
    show (client.sendBuffer ++ packetBytes (packetId, body)).length ≤ t.config.maxSendBufferBytes
    rw [List.length_append, packetBytes_length]
    dsimp only
    omega

theorem sendClient_kept {config : NetworkConfig} {sent : Sent} (h : client.Kept config)
    (hsend : sendClient client sent = some client') : client'.Kept config := by
  unfold sendClient at hsend
  split at hsend
  · cases hsend
    exact h
  cases sent with
  | bytes n =>
    cases hsend
    refine ⟨h.recv, ?_⟩
    show (client.sendBuffer.drop n).length ≤ config.maxSendBufferBytes
    have hmax := h.send
    rw [List.length_drop]
    omega
  | wouldBlock =>
    cases hsend
    exact h
  | failed => cases hsend
  | noProgress => cases hsend

/-- A session that `ReceiveClient` keeps has less than one packet in its buffer, and what it has to
send is untouched. -/
theorem receiveClient_kept {received : Received} (h : client.Kept t.config)
    (hreceive : t.receiveClient client received = some (.ok client', t')) :
    client'.Kept t.config ∧ client'.sendBuffer = client.sendBuffer := by
  cases received with
  | finished => cases hreceive
  | failed => cases hreceive
  | wouldBlock =>
    cases hreceive
    exact ⟨h, rfl⟩
  | data chunk =>
    rw [receiveClient_data h.recv, processRecvBuffer] at hreceive
    obtain ⟨⟨result, after⟩, hprocess, e⟩ := Option.map_eq_some_iff.mp hreceive
    cases result with
    | error fault => cases e
    | ok rest =>
      cases e
      exact ⟨⟨processBuffer_kept hprocess, h.send⟩, rfl⟩

/-- Receiving leaves everything of the network but its events. -/
theorem receiveClient_network {received : Received} {result : Except ReceiveFault ClientSession}
    (h : client.Kept t.config) (hreceive : t.receiveClient client received = some (result, t')) :
    ∃ events, t' = { t with events := events } := by
  cases received with
  | finished =>
    cases hreceive
    exact ⟨t.events, rfl⟩
  | failed =>
    cases hreceive
    exact ⟨t.events, rfl⟩
  | wouldBlock =>
    cases hreceive
    exact ⟨t.events, rfl⟩
  | data chunk =>
    obtain ⟨queued, refused, -, hspec, -⟩ := receiveClient_spec (t := t) h.recv chunk rfl
    rw [hspec] at hreceive
    exact ⟨_, (congrArg Prod.snd (Option.some.inj hreceive)).symm⟩

/-- Whatever is received, it is not the limit on the buffer that closes the session. -/
theorem receiveClient_unlimited (h : client.Kept t.config) (received : Received) (t' : TcpNetwork) :
    t.receiveClient client received ≠ some (.error .bufferLimit, t') := by
  cases received with
  | finished => exact fun e => by cases e
  | failed => exact fun e => by cases e
  | wouldBlock => exact fun e => by cases e
  | data chunk =>
    intro e
    obtain ⟨queued, refused, -, hspec, -⟩ := receiveClient_spec (t := t) h.recv chunk rfl
    rw [hspec] at e
    have hresult := congrArg Prod.fst (Option.some.inj e)
    dsimp only at hresult
    split at hresult
    · cases hending : (packetFormat.parse (client.recvBuffer ++ chunk.bytes)).ending with
      | broken =>
        rw [hending] at hresult
        cases hresult
      | kept rest =>
        rw [hending] at hresult
        cases hresult
    · cases hresult

/-- What holds of the sessions of a network between any two steps. -/
def AllKept (t : TcpNetwork) : Prop := ∀ client ∈ t.clients, client.Kept t.config

theorem AllKept.set (h : t.AllKept) {index : Nat} (hclient : client.Kept t.config)
    (events : List NetworkEvent) :
    AllKept { t with clients := t.clients.set index client, events := events } := by
  intro other hother
  rcases List.mem_or_eq_of_mem_set hother with hold | rfl
  · exact h other hold
  · exact hclient

theorem AllKept.closeClient (h : t.AllKept) (index : Nat) : (t.closeClient index).AllKept := by
  unfold TcpNetwork.closeClient
  cases t.clients[index]? with
  | none => exact h
  | some client =>
    intro other hother
    exact h other (List.mem_of_mem_eraseIdx hother)

theorem AllKept.acceptClient (h : t.AllKept) (accepted : Accepted) :
    (t.acceptClient accepted).2.AllKept := by
  cases accepted with
  | wouldBlock => exact h
  | failed => exact h
  | connection nonBlocking now =>
    unfold TcpNetwork.acceptClient
    dsimp only
    split
    · exact h
    split
    · exact h
    split
    · exact h
    split
    · exact h
    · intro other hother
      rcases List.mem_append.mp hother with hold | hnew
      · exact h other hold
      · obtain rfl := List.mem_singleton.mp hnew
        exact kept_new _ _

theorem AllKept.sendPacket (h : t.AllKept) (s : SessionId) (packetId : UInt16) (body : Bytes) :
    (t.sendPacket s packetId body).2.AllKept := by
  unfold TcpNetwork.sendPacket
  cases t.clients.findIdx? (·.id = s) with
  | none => exact h
  | some index =>
    dsimp only
    cases hclient : t.clients[index]? with
    | none => exact h
    | some client =>
      exact h.set (queuePacket_kept (h client (List.mem_of_getElem? hclient)) packetId body) t.events

theorem AllKept.serveClient (h : t.AllKept) {index : Nat} {received : Option Received}
    {sent : Option Sent} (hserve : t.serveClient index received sent = some t') : t'.AllKept := by
  unfold TcpNetwork.serveClient at hserve
  cases hclient : t.clients[index]? with
  | none =>
    rw [hclient] at hserve
    cases hserve
  | some client =>
    have hkept := h client (List.mem_of_getElem? hclient)
    rw [hclient] at hserve
    dsimp only at hserve
    split at hserve
    · cases hserve
    · -- the session is closed for what it has received
      rename_i fault t1 hreceived
      cases hserve
      cases received with
      | none => cases hreceived
      | some received =>
        obtain ⟨events, rfl⟩ := receiveClient_network hkept hreceived
        exact AllKept.closeClient (t := { t with events := events }) h index
    · rename_i client1 t1 hreceived
      obtain ⟨hkept1, events, rfl⟩ : client1.Kept t.config ∧ ∃ events, t1 = { t with events := events } := by
        cases received with
        | none =>
          cases hreceived
          exact ⟨hkept, t.events, rfl⟩
        | some received =>
          exact ⟨(receiveClient_kept hkept hreceived).1, receiveClient_network hkept hreceived⟩
      split at hserve
      · cases hserve
        exact AllKept.closeClient (t := { t with events := events }) h index
      · rename_i client2 hsent
        cases hserve
        cases sent with
        | none =>
          cases hsent
          exact h.set hkept1 events
        | some sent => exact h.set (sendClient_kept hkept1 hsent) events

theorem AllKept.step (h : t.AllKept) {l : TcpInput} (taken : TcpStep t l t') : t'.AllKept := by
  cases l with
  | accept accepted =>
    cases taken
    exact h.acceptClient accepted
  | serve index received sent => exact h.serveClient taken
  | tryPopEvent =>
    obtain ⟨⟨event, network⟩, hpop, e⟩ := Option.map_eq_some_iff.mp taken
    cases e
    unfold TcpNetwork.tryPopEvent at hpop
    split at hpop
    · cases hpop
    · cases hpop
      exact h
  | sendPacket s packetId body =>
    cases taken
    exact h.sendPacket s packetId body
  | disconnect s =>
    cases taken
    unfold TcpNetwork.disconnect
    cases t.clients.findIdx? (·.id = s) with
    | none => exact h
    | some index => exact h.closeClient index

end TcpNetwork

/-- The buffers of a session are within their limits, whatever is received next. -/
structure ClientSession.Within (t : TcpNetwork) (client : ClientSession) : Prop where
  received : client.recvBuffer.length ≤ 4095
  fits : ∀ chunk : Chunk, client.recvBuffer.length ≤ t.config.maxRecvBufferBytes ∧
    chunk.bytes.length ≤ t.config.maxRecvBufferBytes - client.recvBuffer.length
  unlimited : ∀ (received : Received) (t' : TcpNetwork),
    t.receiveClient client received ≠ some (.error .bufferLimit, t')
  positions : ∀ (chunk : Chunk) (readPos : Nat) (t' : TcpNetwork),
    LoopAt (TcpNetwork.enqueueReceivedPacket client) (client.recvBuffer ++ chunk.bytes) t readPos t' →
      readPos ≤ (client.recvBuffer ++ chunk.bytes).length
  queued : client.sendBuffer.length ≤ t.config.maxSendBufferBytes
  cast : intOfSize client.sendBuffer.length = client.sendBuffer.length
  /-- `SendClient` comes after `ReceiveClient`. -/
  cast_received : ∀ (received : Received) (client' : ClientSession) (t' : TcpNetwork),
    t.receiveClient client received = some (.ok client', t') →
      intOfSize client'.sendBuffer.length = client'.sendBuffer.length

theorem ClientSession.Kept.within {t : TcpNetwork} {client : ClientSession}
    (h : client.Kept t.config) : client.Within t where
  received := Nat.le_of_lt_succ h.recv.length_lt
  fits chunk := by
    have hlt : client.recvBuffer.length < maxPacketSize := h.recv.length_lt
    have hfits := chunk.fits
    have hmax := NetworkConfig.isValid_recv t.valid
    omega
  unlimited := TcpNetwork.receiveClient_unlimited h
  positions _ _ _ hat := hat.inside
  queued := h.send
  cast := intOfSize_exact (h.send.trans (NetworkConfig.isValid_send t.valid))
  cast_received received client' t' hreceive := by
    rw [(TcpNetwork.receiveClient_kept h hreceive).2]
    exact intOfSize_exact (h.send.trans (NetworkConfig.isValid_send t.valid))

/-! ## The client -/

/-- What can happen to a connected client, in any order. -/
inductive TcpClientInput where
  | receive (received : Received)
  | flushSend (sent : Sent)
  | sendPacket (packetId : UInt16) (body : Bytes)
  | tryPopPacket

/-- What `recv` comes back with, in a read. -/
def TcpClientInput.received? : TcpClientInput → Option Received
  | .receive received => some received
  | _ => none

namespace TcpClient
variable {c c' : TcpClient}

/-- Where `Receive` or `FlushSend` returns false, `Run` does too and the client disconnects. -/
def step (c : TcpClient) : TcpClientInput → Option TcpClient
  | .receive received =>
    if !c.connected then none
    else (c.receive received).map fun (fault, client) =>
      if fault.isSome then client.disconnect else client
  | .flushSend sent =>
    if !c.connected then none else some ((c.flushSend sent).getD c.disconnect)
  | .sendPacket packetId body => some (c.sendPacket packetId body).2
  | .tryPopPacket => c.tryPopPacket.map Prod.snd

end TcpClient

def TcpClientStep (c : TcpClient) (l : TcpClientInput) (c' : TcpClient) : Prop := c.step l = some c'

namespace TcpClient
variable {c c' : TcpClient}

theorem receive_data (h : packetFormat.Incomplete c.recvBuffer) (chunk : Chunk) :
    c.receive (.data chunk) =
      processRecvBuffer { c with recvBuffer := c.recvBuffer ++ chunk.bytes } := by
  have hlt : c.recvBuffer.length < maxPacketSize := h.length_lt
  have hfits := chunk.fits
  apply if_neg
  simp only [maxRecvBuffer, maxPacketSize] at hlt ⊢
  omega

/-- `ProcessRecvBuffer` leaves less than one packet, or there is a fault in what has come. -/
theorem processRecvBuffer_kept (c : TcpClient) : ∃ fault client,
    c.processRecvBuffer = some (fault, client) ∧ fault ≠ some .bufferLimit ∧
      (fault = none → packetFormat.Incomplete client.recvBuffer) := by
  have hends := @processBuffer_eq _ pushPacket c.recvBuffer c.packets
  cases hprocess : processBuffer pushPacket c.recvBuffer c.packets with
  | none =>
    rw [hends] at hprocess
    cases hprocess
  | some result =>
    obtain ⟨result, packets⟩ := result
    unfold processRecvBuffer
    rw [hprocess]
    cases result with
    | ok rest =>
      exact ⟨none, _, rfl, fun e => (by cases e), fun _ => processBuffer_kept hprocess⟩
    | error fault =>
      refine ⟨some fault, _, rfl, ?_, fun e => (by cases e)⟩
      rintro e
      cases e
      -- the loop itself knows no such fault
      rw [hends] at hprocess
      split at hprocess
      · cases hprocess
      · cases hending : (packetFormat.parse c.recvBuffer).ending with
        | broken =>
          rw [hending] at hprocess
          cases hprocess
        | kept rest =>
          rw [hending] at hprocess
          cases hprocess

theorem receive_kept (h : packetFormat.Incomplete c.recvBuffer) (received : Received) :
    ∃ fault client, c.receive received = some (fault, client) ∧ fault ≠ some .bufferLimit ∧
      (fault = none → packetFormat.Incomplete client.recvBuffer) := by
  cases received with
  | finished => exact ⟨_, _, rfl, fun e => (by cases e), fun e => (by cases e)⟩
  | failed => exact ⟨_, _, rfl, fun e => (by cases e), fun e => (by cases e)⟩
  | wouldBlock => exact ⟨_, _, rfl, fun e => (by cases e), fun _ => h⟩
  | data chunk =>
    rw [receive_data h]
    exact processRecvBuffer_kept _

theorem step_kept (h : packetFormat.Incomplete c.recvBuffer) {l : TcpClientInput}
    (taken : TcpClientStep c l c') : packetFormat.Incomplete c'.recvBuffer := by
  unfold TcpClientStep step at taken
  cases l with
  | receive received =>
    dsimp only at taken
    split at taken
    · cases taken
    obtain ⟨fault, client, e, -, hkept⟩ := receive_kept h received
    rw [e] at taken
    cases fault with
    | none =>
      cases taken
      exact hkept rfl
    | some fault =>
      cases taken
      exact Format.incomplete_nil
  | flushSend sent =>
    dsimp only at taken
    split at taken
    · cases taken
    cases taken
    unfold TcpClient.flushSend
    split
    · exact h
    cases sent with
    | bytes n => exact h
    | wouldBlock => exact h
    | failed => exact Format.incomplete_nil
    | noProgress => exact Format.incomplete_nil
  | sendPacket packetId body =>
    cases taken
    rcases c.sendPacket_cases (packetId, body) with e | ⟨-, e⟩
    · rw [e]
      exact h
    · rw [e]
      exact h
  | tryPopPacket =>
    obtain ⟨⟨packet, client⟩, hpop, e⟩ := Option.map_eq_some_iff.mp taken
    cases e
    unfold TcpClient.tryPopPacket at hpop
    split at hpop
    · cases hpop
    · cases hpop
      exact h

/-- The receive buffer of a client is within its limit, whatever is received next. -/
structure Within (c : TcpClient) : Prop where
  received : c.recvBuffer.length ≤ 4095
  fits : ∀ chunk : Chunk, c.recvBuffer.length + chunk.bytes.length ≤ maxRecvBuffer
  unlimited : ∀ (received : Received) (c' : TcpClient),
    c.receive received ≠ some (some .bufferLimit, c')
  positions : ∀ (chunk : Chunk) (readPos : Nat) (packets : List ClientPacket),
    LoopAt pushPacket (c.recvBuffer ++ chunk.bytes) c.packets readPos packets →
      readPos ≤ (c.recvBuffer ++ chunk.bytes).length

theorem within_of_kept (h : packetFormat.Incomplete c.recvBuffer) : c.Within where
  received := Nat.le_of_lt_succ h.length_lt
  fits chunk := by
    have hlt : c.recvBuffer.length < maxPacketSize := h.length_lt
    have hfits := chunk.fits
    simp only [maxRecvBuffer, maxPacketSize] at hlt ⊢
    omega
  unlimited received c' := by
    obtain ⟨fault, client, e, hfault, -⟩ := receive_kept h received
    intro hlimit
    rw [e] at hlimit
    exact hfault (congrArg Prod.fst (Option.some.inj hlimit))
  positions _ _ _ hat := hat.inside

theorem run_kept {history : List (Entry TcpClient TcpClientInput)}
    (hrun : Run TcpClientStep {} history c) : packetFormat.Incomplete c.recvBuffer :=
  hrun.invariant (P := fun c => packetFormat.Incomplete c.recvBuffer) Format.incomplete_nil
    fun _ _ _ h taken => step_kept h taken

/-- A run of `inputs` that ends as `check` says. -/
theorem played (inputs : List TcpClientInput)
    (check : List (Entry TcpClient TcpClientInput) → TcpClient → Bool)
    (h : (play step {} inputs).any (fun r => check r.1 r.2) = true) :
    ∃ history c, Run TcpClientStep {} history c ∧ check history c = true :=
  Run.played (fun _ _ _ taken => taken) h

end TcpClient

open TcpNetwork (init)

/-- In every run after `Init` the buffers of every session are within their limits: less than a
packet is left to be read on with, so no read exceeds the limit, and the send buffer keeps to its own
limit, whose size fits an `int`. And so is the receive buffer of a client in each of its runs. -/
theorem buffers_bounded {config : NetworkConfig} {last : SessionId} {t0 t : TcpNetwork}
    {history : List (Entry TcpNetwork TcpInput)} {c : TcpClient}
    {clientHistory : List (Entry TcpClient TcpClientInput)} (hinit : init config last = some t0)
    (hrun : Run TcpStep t0 history t) (hclient : Run TcpClientStep {} clientHistory c) :
    (∀ client ∈ t.clients, client.Within t) ∧ c.Within := by
  have hstart : t0.AllKept := by
    unfold TcpNetwork.init at hinit
    split at hinit
    · cases hinit
      intro client hc
      cases hc
    · cases hinit
  have hall : t.AllKept := hrun.invariant hstart fun _ _ _ h taken => h.step taken
  exact ⟨fun client hc => (hall client hc).within, TcpClient.within_of_kept (TcpClient.run_kept hclient)⟩

/-- Two packets and a half arrive, the half is read on, and a packet is sent in two pieces. -/
def halves : List TcpInput :=
  [.accept (.connection true 0),
    .serve 0 (some (.data ⟨[0, 4, 0, 9, 0, 4, 0, 9, 0, 6, 0], by decide, by decide⟩)) none,
    .sendPacket 1 3 [104, 105], .serve 0 none (some (.bytes 4)),
    .serve 0 (some (.data ⟨[3, 104, 105, 0], by decide, by decide⟩)) none]

/-- The same on a client. -/
def clientHalves : List TcpClientInput :=
  [.receive (.data ⟨[0, 4, 0, 9, 0, 4, 0, 9, 0, 6, 0], by decide, by decide⟩), .tryPopPacket,
    .tryPopPacket, .sendPacket 3 [104, 105], .flushSend (.bytes 4),
    .receive (.data ⟨[3, 104, 105, 0], by decide, by decide⟩)]

theorem buffers_bounded_halves : ∃ history t clientHistory c,
    Run TcpStep TcpNetwork.idle history t ∧ Run TcpClientStep {} clientHistory c ∧
      t.clients = [{ id := 1, recvBuffer := [0], sendBuffer := [104, 105] }] ∧
        c.recvBuffer = [0] ∧ (∀ client ∈ t.clients, client.Within t) ∧ c.Within := by
  obtain ⟨history, t, hrun, hclients⟩ := TcpNetwork.played TcpNetwork.idle halves
    (fun _ t => decide (t.clients = [{ id := 1, recvBuffer := [0], sendBuffer := [104, 105] }]))
    (by decide +kernel)
  obtain ⟨clientHistory, c, hclient, hc⟩ := TcpClient.played clientHalves
    (fun _ c => decide (c.recvBuffer = [0])) (by decide +kernel)
  have hinit : init {} 0 = some TcpNetwork.idle := rfl
  obtain ⟨hall, hwithin⟩ := buffers_bounded hinit hrun hclient
  exact ⟨history, t, clientHistory, c, hrun, hclient, of_decide_eq_true hclients,
    of_decide_eq_true hc, hall, hwithin⟩

/-! ## The queue of a client -/

/-- A read by a client that has popped all its packets queues 1024 at most, and only a wrong size in
a header or the end of the connection is a fault. -/
structure TcpClient.Queues (c : TcpClient) (received : Received) : Prop where
  bound : ∀ fault client, c.receive received = some (fault, client) → client.packets.length ≤ 1024
  queueFull : ∀ client, c.receive received ≠ some (some .queueFull, client)
  sizes : ∀ chunk, received = .data chunk → ∀ fault client,
    c.receive received = some (some fault, client) →
      (packetFormat.parse (c.recvBuffer ++ chunk.bytes)).ending = .broken

theorem TcpClient.queues {c : TcpClient} (h : packetFormat.Incomplete c.recvBuffer)
    (hdrained : c.packets = []) (received : Received) : c.Queues received := by
  have hnone : ∀ result : Option ReceiveFault, c.receive received = some (result, c) →
      result ≠ some .queueFull → (∀ chunk, received ≠ .data chunk) → c.Queues received := by
    intro result e hresult hdata
    constructor
    · intro fault client e'
      rw [e] at e'
      cases e'
      rw [hdrained]
      exact Nat.zero_le _
    · intro client e'
      rw [e] at e'
      exact hresult (congrArg Prod.fst (Option.some.inj e'))
    · intro chunk hchunk
      exact absurd hchunk (hdata chunk)
  cases received with
  | finished => exact hnone _ rfl (fun e => by cases e) (fun _ e => by cases e)
  | failed => exact hnone _ rfl (fun e => by cases e) (fun _ e => by cases e)
  | wouldBlock => exact hnone _ rfl (fun e => by cases e) (fun _ e => by cases e)
  | data chunk =>
    have hburst := burst_le h chunk
    have e := receive_drained h hdrained chunk rfl
    generalize hp : packetFormat.parse (c.recvBuffer ++ chunk.bytes) = p at hburst e
    have hqueued : (p.frames.map fun f => packetOf (payload f)).length ≤ 1024 := by
      rw [List.length_map]
      exact hburst
    cases hending : p.ending with
    | kept rest =>
      rw [hending] at e
      dsimp only at e
      constructor
      · intro fault client e'
        rw [e] at e'
        cases e'
        exact hqueued
      · intro client e'
        rw [e] at e'
        cases e'
      · intro chunk' _ fault client e'
        rw [e] at e'
        cases e'
    | broken =>
      rw [hending] at e
      dsimp only at e
      constructor
      · intro fault client e'
        rw [e] at e'
        cases e'
        exact hqueued
      · intro client e'
        rw [e] at e'
        cases e'
      · intro chunk' hchunk fault client _
        cases hchunk
        rw [hp]
        exact hending

/-- The bound on a read is reached: the last byte of a packet of the maximal size, and 1023 packets
without a body. -/
theorem burst_tight : ∃ (rest : Bytes) (chunk : Chunk), packetFormat.Incomplete rest ∧
    (packetFormat.parse (rest ++ chunk.bytes)).frames.length = 1024 := by
  let whole : Bytes := packetBytes (0, List.replicate 4092 0)
  let small : Bytes := packetBytes (0, [])
  have hwhole : packetFormat.IsFrame whole :=
    packetBytes_frame (by rw [List.length_replicate]; decide)
  have hsmall : packetFormat.IsFrame small := packetBytes_frame (Nat.zero_le _)
  have hlength : whole.length = 4096 := by
    rw [packetBytes_length, List.length_replicate]
    rfl
  have hmany : (List.replicate 1023 small).flatten.length = 4092 := by
    rw [List.length_flatten, List.map_replicate, List.sum_replicate]
    rfl
  have hchunk : (whole.drop 4095 ++ (List.replicate 1023 small).flatten).length = 4093 := by
    rw [List.length_append, List.length_drop, hlength, hmany]
  have hsplit : whole.take 4095 ++ (whole.drop 4095 ++ (List.replicate 1023 small).flatten) =
      (whole :: List.replicate 1023 small).flatten := by
    rw [← List.append_assoc, List.take_append_drop, List.flatten_cons]
  refine ⟨whole.take 4095, ⟨whole.drop 4095 ++ (List.replicate 1023 small).flatten, ?_, ?_⟩, ?_, ?_⟩
  · rw [← List.length_pos_iff, hchunk]
    decide
  · rw [hchunk]
    decide
  · have hbegun : (whole.take 4095).length = 4095 := List.length_take_of_le (by omega)
    intro hheader
    have htotal := packetFormat.total_append (whole.take 4095) (whole.drop 4095) hheader
    rw [List.take_append_drop, hwhole, hlength] at htotal
    exact ⟨4096, htotal.symm, by omega⟩
  · dsimp only
    rw [hsplit, Format.parse_flatten]
    · rw [List.length_cons, List.length_replicate]
    · intro frame hframe
      rcases List.mem_cons.mp hframe with rfl | hframe
      · exact hwhole
      · obtain rfl := List.eq_of_mem_replicate hframe
        exact hsmall

/-- In every run of a client that pops all its packets between reads, no read finds the queue of
packets full. -/
theorem queue_never_full {history : List (Entry TcpClient TcpClientInput)} {c : TcpClient}
    (hrun : Run TcpClientStep {} history c)
    (hdrained : ∀ e ∈ history, e.label.received?.isSome = true → e.pre.packets = []) :
    ∀ e ∈ history, ∀ received, e.label.received? = some received → e.pre.Queues received := by
  intro e he received hread
  obtain ⟨before, after, -, hbefore, -⟩ := hrun.split he
  exact TcpClient.queues (TcpClient.run_kept hbefore) (hdrained e he (by rw [hread]; rfl)) received

theorem queue_never_full_halves : ∃ history c, Run TcpClientStep {} history c ∧
    history.length = 6 ∧ c.packets = [⟨3, [104, 105]⟩] ∧
      ∀ e ∈ history, ∀ received, e.label.received? = some received → e.pre.Queues received := by
  obtain ⟨history, c, hrun, hcheck⟩ := TcpClient.played clientHalves
    (fun history c => decide ((history.length = 6 ∧ c.packets = [⟨3, [104, 105]⟩]) ∧
      ∀ e ∈ history, e.label.received?.isSome = true → e.pre.packets = []))
    (by decide +kernel)
  obtain ⟨⟨hlength, hpackets⟩, hdrained⟩ := of_decide_eq_true hcheck
  exact ⟨history, c, hrun, hlength, hpackets, queue_never_full hrun hdrained⟩

end SelectServer
