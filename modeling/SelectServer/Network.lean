import SelectServer.Room

/- `INetwork` as the logic uses it, with the behaviour the test double
   `FakeNetwork` and `TcpNetwork` share: the connected sessions, the queue of
   events, and the packets `SendPacket` has taken, in order. Whether a connected
   session's packet is taken (its send buffer may be full) is the environment's
   choice, `Host.accepts`, which may depend on everything sent before. One limit is
   `TcpNetwork`'s alone: the body of a packet that arrives has at most 4092 bytes,
   since its parser refuses a longer packet. `FakeNetwork::Receive` takes any, and the
   echo of a longer one could not be read (`Network.receive`).

   Every send of the logic is one of two: to a connected session, or to one that
   is skipped or refused without effect; a refused session is disconnected. A
   list of sends in a row is `deliver`, and the lemmas here say what one leaves. -/
namespace SelectServer
open Wire (Bytes)

inductive NetworkEventType where
  | connected | packet | disconnected
  deriving DecidableEq, Repr

structure NetworkEvent where
  type : NetworkEventType := .packet
  session : SessionId := 0
  packetId : UInt16 := 0
  body : Bytes := []
  /-- Read for `Connected` events only. -/
  occurredAt : Time := 0
  deriving DecidableEq, Repr

structure SentPacket where
  session : SessionId
  packetId : UInt16
  body : Bytes
  deriving DecidableEq, Repr

/-- What the logic gets from outside. -/
structure Host where
  /-- `MultiByteToWideChar(CP_UTF8, MB_ERR_INVALID_CHARS, ..)`: 0 on bytes that are not UTF-8. -/
  multiByteToWideChar : Bytes → Nat
  /-- Whether `SendPacket` takes a packet for a connected session, after the packets before it. -/
  accepts : List SentPacket → SentPacket → Bool

/-- `SendPacket` to `s`, while it is connected, succeeds. -/
def Host.Serves (host : Host) (s : SessionId) : Prop :=
  ∀ sent packet, packet.session = s → host.accepts sent packet = true

structure Network where
  connected : Finset SessionId := ∅
  events : List NetworkEvent := []
  sent : List SentPacket := []
  lastSessionId : SessionId := 0

namespace Network

def isConnected (n : Network) (sessionId : SessionId) : Bool := decide (sessionId ∈ n.connected)

def tryPopEvent (n : Network) : Option (NetworkEvent × Network) :=
  match n.events with
  | [] => none
  | event :: events => some (event, { n with events := events })

def sendPacket (host : Host) (n : Network) (packet : SentPacket) : Bool × Network :=
  if !n.isConnected packet.session then (false, n)
  else if host.accepts n.sent packet then (true, { n with sent := n.sent ++ [packet] })
  else (false, n)

def disconnect (n : Network) (sessionId : SessionId) : Network :=
  if !n.isConnected sessionId then n
  else
    { n with
      connected := n.connected.erase sessionId
      events := n.events ++ [{ type := .disconnected, session := sessionId }] }

/-- A new connection, under an id no connection had before. -/
def accept (n : Network) (now : Time) : Network :=
  if n.lastSessionId = 0xffffffffffffffff then n
  else
    let sessionId := n.lastSessionId + 1
    { n with
      connected := insert sessionId n.connected
      events := n.events ++ [{ type := .connected, session := sessionId, occurredAt := now }]
      lastSessionId := sessionId }

/-- A complete packet arrives, no longer than the parser of `TcpNetwork` lets through. -/
def receive (n : Network) (sessionId : SessionId) (packetId : UInt16) (body : Bytes) : Network :=
  if !n.isConnected sessionId || body.length > maxPacketSize - headerSize then n
  else
    { n with events :=
        n.events ++ [{ type := .packet, session := sessionId, packetId := packetId, body := body }] }

/-! ## Sends in a row -/

/-- One send, after which a session that did not take its packet is disconnected. -/
def post (host : Host) (n : Network) (packet : SentPacket) : Network :=
  let (queued, n) := n.sendPacket host packet
  if queued then n else n.disconnect packet.session

def deliver (host : Host) (n : Network) (packets : List SentPacket) : Network :=
  packets.foldl (post host) n

end Network

/-- The packets for one session, in order. -/
def toSession (s : SessionId) (packets : List SentPacket) : List SentPacket :=
  packets.filter (·.session = s)

theorem toSession_append (s : SessionId) (a b : List SentPacket) :
    toSession s (a ++ b) = toSession s a ++ toSession s b :=
  List.filter_append ..

namespace Network
variable {host : Host} {n : Network} {packet : SentPacket} {s : SessionId}

/-- A send is skipped, taken, or refused to a connected session, which it disconnects. -/
inductive Posted (host : Host) (n : Network) (packet : SentPacket) : Network → Prop
  | skipped (h : packet.session ∉ n.connected) : Posted host n packet n
  | taken (h : packet.session ∈ n.connected) (ha : host.accepts n.sent packet = true) :
      Posted host n packet { n with sent := n.sent ++ [packet] }
  | refused (h : packet.session ∈ n.connected) (ha : host.accepts n.sent packet = false) :
      Posted host n packet (n.disconnect packet.session)

theorem post_cases (host : Host) (n : Network) (packet : SentPacket) :
    Posted host n packet (n.post host packet) := by
  unfold post sendPacket isConnected
  by_cases h : packet.session ∈ n.connected
  · simp only [h, decide_true, Bool.not_true, Bool.false_eq_true, if_false]
    cases ha : host.accepts n.sent packet with
    | true => exact .taken h ha
    | false => exact .refused h ha
  · have hd : n.disconnect packet.session = n := by simp [disconnect, isConnected, h]
    simp only [h, decide_false, Bool.not_false, if_true, Bool.false_eq_true, if_false, hd]
    exact .skipped h

@[simp] theorem disconnect_connected : (n.disconnect s).connected = n.connected.erase s := by
  unfold disconnect isConnected
  split
  · rename_i h
    exact (Finset.erase_eq_of_notMem (by simpa using h)).symm
  · rfl

@[simp] theorem disconnect_sent : (n.disconnect s).sent = n.sent := by
  unfold disconnect
  split <;> rfl

@[simp] theorem disconnect_last : (n.disconnect s).lastSessionId = n.lastSessionId := by
  unfold disconnect
  split <;> rfl

@[simp] theorem accept_sent (now : Time) : (n.accept now).sent = n.sent := by
  unfold accept
  split <;> rfl

@[simp] theorem receive_sent (packetId : UInt16) (body : Bytes) :
    (n.receive s packetId body).sent = n.sent := by
  unfold receive
  split <;> rfl

@[simp] theorem receive_connected (packetId : UInt16) (body : Bytes) :
    (n.receive s packetId body).connected = n.connected := by
  unfold receive
  split <;> rfl

theorem disconnect_events : (n.disconnect s).events = n.events ∨
    (s ∈ n.connected ∧
      (n.disconnect s).events = n.events ++ [{ type := .disconnected, session := s }]) := by
  unfold disconnect isConnected
  split
  · exact Or.inl rfl
  · rename_i h
    exact Or.inr ⟨by simpa using h, rfl⟩

/-! ## What a row of sends leaves -/

/-- `n'` is `n` after the sends `packets`, for some of which the session was gone or was
disconnected: who is still connected has all of its packets. -/
structure Emits (n : Network) (packets : List SentPacket) (n' : Network) : Prop where
  connected : n'.connected ⊆ n.connected
  last : n'.lastSessionId = n.lastSessionId
  complete : ∀ s ∈ n'.connected, toSession s n'.sent = toSession s n.sent ++ toSession s packets
  sent : ∃ new, n'.sent = n.sent ++ new ∧ ∀ p ∈ new, p ∈ packets ∧ p.session ∈ n.connected
  events : ∃ new, n'.events = n.events ++ new ∧
    ∀ e ∈ new, e.type = .disconnected ∧ e.session ∈ n.connected ∧ e.session ∉ n'.connected
  announced : ∀ s ∈ n.connected, s ∉ n'.connected →
    ∃ e ∈ n'.events, e.type = .disconnected ∧ e.session = s

theorem Emits.refl (n : Network) : Emits n [] n where
  connected := Finset.Subset.refl _
  last := rfl
  complete s _ := (List.append_nil _).symm
  sent := ⟨[], (List.append_nil _).symm, by simp⟩
  events := ⟨[], (List.append_nil _).symm, by simp⟩
  announced s h h' := absurd h h'

theorem Emits.trans {n n1 n2 : Network} {a b : List SentPacket} (h1 : Emits n a n1)
    (h2 : Emits n1 b n2) : Emits n (a ++ b) n2 where
  connected := Finset.Subset.trans h2.connected h1.connected
  last := h2.last.trans h1.last
  complete s hs := by
    rw [h2.complete s hs, h1.complete s (h2.connected hs), toSession_append, List.append_assoc]
  sent := by
    obtain ⟨new1, e1, hn1⟩ := h1.sent
    obtain ⟨new2, e2, hn2⟩ := h2.sent
    refine ⟨new1 ++ new2, by rw [e2, e1, List.append_assoc], fun p hp => ?_⟩
    rcases List.mem_append.mp hp with hp | hp
    · exact ⟨List.mem_append_left _ (hn1 p hp).1, (hn1 p hp).2⟩
    · exact ⟨List.mem_append_right _ (hn2 p hp).1, h1.connected (hn2 p hp).2⟩
  events := by
    obtain ⟨new1, e1, hn1⟩ := h1.events
    obtain ⟨new2, e2, hn2⟩ := h2.events
    refine ⟨new1 ++ new2, by rw [e2, e1, List.append_assoc], fun e he => ?_⟩
    rcases List.mem_append.mp he with he | he
    · obtain ⟨ht, hc, hd⟩ := hn1 e he
      exact ⟨ht, hc, fun h => hd (h2.connected h)⟩
    · obtain ⟨ht, hc, hd⟩ := hn2 e he
      exact ⟨ht, h1.connected hc, hd⟩
  announced s hs hs' := by
    obtain ⟨new2, e2, -⟩ := h2.events
    by_cases h : s ∈ n1.connected
    · exact h2.announced s h hs'
    · obtain ⟨e, he, ht⟩ := h1.announced s hs h
      exact ⟨e, by rw [e2]; exact List.mem_append_left _ he, ht⟩

theorem emits_disconnect (n : Network) (s : SessionId) : Emits n [] (n.disconnect s) where
  connected := by
    rw [disconnect_connected]
    exact Finset.erase_subset _ _
  last := disconnect_last
  complete s' _ := by
    rw [disconnect_sent]
    exact (List.append_nil _).symm
  sent := ⟨[], by rw [disconnect_sent, List.append_nil], by simp⟩
  events := by
    rcases disconnect_events (n := n) (s := s) with h | ⟨hs, h⟩
    · exact ⟨[], by rw [h, List.append_nil], by simp⟩
    · exact ⟨_, h, by simp [hs]⟩
  announced s' hs hs' := by
    rw [disconnect_connected, Finset.mem_erase] at hs'
    obtain rfl : s' = s := by
      by_contra hne
      exact hs' ⟨hne, hs⟩
    rcases disconnect_events (n := n) (s := s') with h | ⟨-, h⟩
    · unfold disconnect isConnected at h
      simp [hs] at h
    · exact ⟨_, by rw [h]; exact List.mem_append_right _ (List.mem_singleton_self _), rfl, rfl⟩

theorem emits_post (host : Host) (n : Network) (packet : SentPacket) :
    Emits n [packet] (n.post host packet) := by
  have hskip : ∀ s, s ≠ packet.session → toSession s [packet] = [] := by
    intro s hs
    simp [toSession, Ne.symm hs]
  have hcases := post_cases host n packet
  generalize n.post host packet = n' at hcases ⊢
  cases hcases with
  | skipped h =>
    exact
      { Emits.refl n with
        complete := fun s hs => by
          rw [hskip s (fun e => h (e ▸ hs)), List.append_nil]
        sent := ⟨[], (List.append_nil _).symm, by simp⟩ }
  | taken h _ =>
    exact
      { Emits.refl n with
        complete := fun s _ => toSession_append s _ _
        sent := ⟨[packet], rfl, by simp [h]⟩ }
  | refused h _ =>
    have hd := emits_disconnect n packet.session
    exact
      { hd with
        complete := fun s hs => by
          rw [disconnect_connected, Finset.mem_erase] at hs
          rw [disconnect_sent, hskip s hs.1, List.append_nil]
        sent := ⟨[], by rw [disconnect_sent, List.append_nil], by simp⟩ }

theorem deliver_append (host : Host) (n : Network) (a b : List SentPacket) :
    n.deliver host (a ++ b) = (n.deliver host a).deliver host b :=
  List.foldl_append ..

theorem emits_deliver (host : Host) (packets : List SentPacket) :
    ∀ n : Network, Emits n packets (n.deliver host packets) := by
  induction packets with
  | nil => exact fun n => Emits.refl n
  | cons packet packets ih =>
    intro n
    exact (emits_post host n packet).trans (ih (n.post host packet))

/-! ## A session whose packets are always taken -/

theorem served_post (hs : host.Serves s) (h : s ∈ n.connected) (packet : SentPacket) :
    s ∈ (n.post host packet).connected := by
  have hcases := post_cases host n packet
  generalize n.post host packet = n' at hcases ⊢
  cases hcases with
  | skipped => exact h
  | taken => exact h
  | refused _ ha =>
    rw [disconnect_connected, Finset.mem_erase]
    refine ⟨?_, h⟩
    rintro rfl
    rw [hs _ _ rfl] at ha
    cases ha

theorem served_deliver (hs : host.Serves s) (packets : List SentPacket) :
    ∀ {n : Network}, s ∈ n.connected → s ∈ (n.deliver host packets).connected := by
  induction packets with
  | nil => exact fun h => h
  | cons packet packets ih => exact fun h => ih (served_post hs h packet)

end Network
end SelectServer
