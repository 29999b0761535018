import SelectServer.Server

/- The events of one session over a run of the server: those the loop of `Update`
   has taken and those still queued are together one stream, which is `Connected`,
   then packets, then one `Disconnected` once the session is no longer connected.
   No session id comes twice. -/
namespace SelectServer
open Wire (Bytes)
open Histories

namespace NetworkEvent

/-- The first event of a session. -/
def opened (s : SessionId) (now : Time) : NetworkEvent :=
  { type := .connected, session := s, occurredAt := now }

/-- The last event of a session. -/
def closed (s : SessionId) : NetworkEvent := { type := .disconnected, session := s }

end NetworkEvent

/-- The events of one session, in order. -/
def ofSession (s : SessionId) (events : List NetworkEvent) : List NetworkEvent :=
  events.filter (·.session = s)

theorem ofSession_append (s : SessionId) (a b : List NetworkEvent) :
    ofSession s (a ++ b) = ofSession s a ++ ofSession s b :=
  List.filter_append ..

theorem ofSession_self (event : NetworkEvent) : ofSession event.session [event] = [event] := by
  simp [ofSession]

theorem ofSession_other {s : SessionId} {event : NetworkEvent} (h : event.session ≠ s) :
    ofSession s [event] = [] := by
  simp [ofSession, h]

theorem mem_ofSession {s : SessionId} {events : List NetworkEvent} {event : NetworkEvent} :
    event ∈ ofSession s events ↔ event ∈ events ∧ event.session = s := by
  simp [ofSession]

/-! ## Sessions that are disconnected -/

namespace Network
variable {n n1 n' : Network}

/-- `n'` is `n` after some sessions were disconnected, each of which got its last event queued. -/
structure Quits (n n' : Network) : Prop where
  connected : n'.connected ⊆ n.connected
  last : n'.lastSessionId = n.lastSessionId
  queue : ∀ s, ofSession s n'.events = ofSession s n.events ++
    if s ∈ n.connected ∧ s ∉ n'.connected then [NetworkEvent.closed s] else []

theorem Quits.refl (n : Network) : Quits n n where
  connected := Finset.Subset.refl _
  last := rfl
  queue s := by simp

theorem Quits.trans (h : Quits n n1) (h' : Quits n1 n') : Quits n n' where
  connected := Finset.Subset.trans h'.connected h.connected
  last := h'.last.trans h.last
  queue s := by
    rw [h'.queue s, h.queue s, List.append_assoc]
    congr 1
    by_cases hs : s ∈ n1.connected
    · have hn : s ∈ n.connected := h.connected hs
      simp [hs, hn]
    · have hn' : s ∉ n'.connected := fun hs' => hs (h'.connected hs')
      simp [hs, hn']

theorem quits_disconnect (n : Network) (s : SessionId) : Quits n (n.disconnect s) where
  connected := by
    rw [disconnect_connected]
    exact Finset.erase_subset _ _
  last := disconnect_last
  queue s' := by
    by_cases hs : s ∈ n.connected
    · have hqueue : (n.disconnect s).events = n.events ++ [NetworkEvent.closed s] := by
        simp [disconnect, isConnected, hs, NetworkEvent.closed]
      rw [hqueue, ofSession_append, disconnect_connected]
      congr 1
      by_cases hsame : s' = s
      · subst hsame
        simp [hs, ofSession, NetworkEvent.closed]
      · have hkept : ¬ (s' ∈ n.connected ∧ s' ∉ n.connected.erase s) := by
          rintro ⟨hin, hout⟩
          exact hout (Finset.mem_erase.mpr ⟨hsame, hin⟩)
        rw [if_neg hkept]
        exact ofSession_other fun e => hsame e.symm
    · have hsame : n.disconnect s = n := by simp [disconnect, isConnected, hs]
      rw [hsame]
      exact (Quits.refl n).queue s'

theorem quits_post (host : Host) (n : Network) (packet : SentPacket) :
    Quits n (n.post host packet) := by
  have hcases := post_cases host n packet
  generalize n.post host packet = n' at hcases ⊢
  cases hcases with
  | skipped => exact Quits.refl n
  | taken => exact ⟨Finset.Subset.refl _, rfl, (Quits.refl n).queue⟩
  | refused => exact quits_disconnect n _

theorem quits_deliver (host : Host) (packets : List SentPacket) :
    ∀ n : Network, Quits n (n.deliver host packets) := by
  induction packets with
  | nil => exact fun n => Quits.refl n
  | cons packet packets ih =>
    intro n
    exact (quits_post host n packet).trans (ih (n.post host packet))

/-! ## The stream of a session -/

/-- The whole stream of the events of `s`, those already taken included. -/
inductive Streams (n : Network) (s : SessionId) : List NetworkEvent → Prop
  | unborn (hc : s ∉ n.connected) (hnew : s = 0 ∨ n.lastSessionId < s) : Streams n s []
  | opened {now : Time} {packets : List NetworkEvent} (hc : s ∈ n.connected)
      (hold : s ≠ 0 ∧ s ≤ n.lastSessionId) (hpackets : ∀ event ∈ packets, event.type = .packet) :
      Streams n s (NetworkEvent.opened s now :: packets)
  | closed {now : Time} {packets : List NetworkEvent} (hc : s ∉ n.connected)
      (hold : s ≠ 0 ∧ s ≤ n.lastSessionId) (hpackets : ∀ event ∈ packets, event.type = .packet) :
      Streams n s (NetworkEvent.opened s now :: packets ++ [NetworkEvent.closed s])

section Order
variable {s : SessionId} {seen rest stream : List NetworkEvent} {event : NetworkEvent}

/-- What the queue holds does not matter. -/
theorem Streams.requeued (h : Streams n s stream) (events : List NetworkEvent) :
    Streams { n with events := events } s stream := by
  cases h with
  | unborn hc hnew => exact .unborn hc hnew
  | opened hc hold hpackets => exact .opened hc hold hpackets
  | closed hc hold hpackets => exact .closed hc hold hpackets

/-- Only a session that was once accepted has events. -/
theorem Streams.old (h : Streams n s stream) (he : event ∈ stream) :
    s ≠ 0 ∧ s ≤ n.lastSessionId := by
  cases h with
  | unborn => cases he
  | opened _ hold => exact hold
  | closed _ hold => exact hold

theorem Streams.first (h : Streams n s (seen ++ event :: rest)) (htype : event.type = .connected) :
    seen = [] := by
  cases seen with
  | nil => rfl
  | cons a seen =>
    have hin : event ∈ seen ++ event :: rest := List.mem_append_right _ List.mem_cons_self
    rw [List.cons_append] at h
    generalize seen ++ event :: rest = tail at h hin
    cases h with
    | opened _ _ hpackets =>
      rw [hpackets event hin] at htype
      cases htype
    | closed _ _ hpackets =>
      rcases List.mem_append.mp hin with hin | hin
      · rw [hpackets event hin] at htype
        cases htype
      · rw [List.mem_singleton.mp hin] at htype
        cases htype

/-- A packet comes after `Connected` and before `Disconnected`. -/
theorem Streams.inside (h : Streams n s (seen ++ event :: rest)) (htype : event.type = .packet) :
    (∃ e ∈ seen, e.type = .connected) ∧ ∀ e ∈ seen, e.type ≠ .disconnected := by
  cases seen with
  | nil =>
    rw [List.nil_append] at h
    cases h <;> cases htype
  | cons a seen =>
    rw [List.cons_append] at h
    generalize htail : seen ++ event :: rest = tail at h
    have hpacket : ∀ {now : Time} {e : NetworkEvent}, (∀ e ∈ seen, e.type = .packet) →
        e ∈ NetworkEvent.opened s now :: seen → e.type ≠ .disconnected := by
      intro now e hpackets he hleft
      rcases List.mem_cons.mp he with rfl | he
      · cases hleft
      · rw [hpackets e he] at hleft
        cases hleft
    cases h with
    | opened _ _ hpackets =>
      refine ⟨⟨_, List.mem_cons_self, rfl⟩, fun e he => hpacket (fun e he => hpackets e ?_) he⟩
      rw [← htail]
      exact List.mem_append_left _ he
    | @closed now packets _ _ hpackets =>
      -- the last event of the stream is not among those before `event`
      have hprefix : seen ++ (event :: rest).dropLast = packets := by
        rw [← List.dropLast_append_cons, htail]
        exact List.dropLast_concat
      refine ⟨⟨_, List.mem_cons_self, rfl⟩, fun e he => hpacket (fun e he => hpackets e ?_) he⟩
      rw [← hprefix]
      exact List.mem_append_left _ he

/-- A session whose `Disconnected` event was queued is not connected. -/
theorem Streams.over (h : Streams n s stream) (he : event ∈ stream)
    (htype : event.type = .disconnected) : s ∉ n.connected := by
  cases h with
  | unborn hc => exact hc
  | closed hc => exact hc
  | opened _ _ hpackets =>
    rcases List.mem_cons.mp he with rfl | he
    · cases htype
    · rw [hpackets event he] at htype
      cases htype

/-- A session that was accepted is connected, or its `Disconnected` event was queued. -/
theorem Streams.open_or_over (h : Streams n s stream) (he : event ∈ stream) :
    s ∈ n.connected ∨ NetworkEvent.closed s ∈ stream := by
  cases h with
  | unborn => cases he
  | opened hc => exact Or.inl hc
  | closed => exact Or.inr (List.mem_append_right _ (List.mem_singleton_self _))

end Order

/-- What one step does to the network: the event that was taken from the queue, if any. -/
inductive Moves (n : Network) : Option NetworkEvent → Network → Prop
  | accepted (now : Time) : Moves n none (n.accept now)
  | received (s : SessionId) (packetId : UInt16) (body : Bytes) :
      Moves n none (n.receive s packetId body)
  | quit {n' : Network} (h : Quits n n') : Moves n none n'
  | popped {event : NetworkEvent} {rest : List NetworkEvent} {n' : Network}
      (hpop : n.events = event :: rest) (h : Quits { n with events := rest } n') :
      Moves n (some event) n'

variable {s : SessionId} {seen stream : List NetworkEvent}

theorem Streams.quits (h : Streams n s stream) (hq : Quits n n') :
    Streams n' s (stream ++
      if s ∈ n.connected ∧ s ∉ n'.connected then [NetworkEvent.closed s] else []) := by
  cases h with
  | unborn hc hnew =>
    rw [if_neg fun h => hc h.1, List.append_nil]
    exact .unborn (fun h => hc (hq.connected h)) (hq.last ▸ hnew)
  | opened hc hold hpackets =>
    by_cases hc' : s ∈ n'.connected
    · rw [if_neg fun h => h.2 hc', List.append_nil]
      exact .opened hc' (hq.last ▸ hold) hpackets
    · rw [if_pos ⟨hc, hc'⟩]
      exact .closed hc' (hq.last ▸ hold) hpackets
  | closed hc hold hpackets =>
    rw [if_neg fun h => hc h.1, List.append_nil]
    exact .closed (fun h => hc (hq.connected h)) (hq.last ▸ hold) hpackets

theorem Streams.accept (h : Streams n s (seen ++ ofSession s n.events)) (now : Time) :
    Streams (n.accept now) s (seen ++ ofSession s (n.accept now).events) := by
  unfold Network.accept
  split
  · exact h
  rename_i hlast
  generalize hid : n.lastSessionId + 1 = new
  have hnew : new ≠ 0 ∧ n.lastSessionId < new := by grind
  have hevents : ofSession s (n.events ++ [NetworkEvent.opened new now]) =
      ofSession s n.events ++ ofSession s [NetworkEvent.opened new now] := ofSession_append ..
  show Streams { n with connected := insert new n.connected, events := _, lastSessionId := new } s
    (seen ++ ofSession s (n.events ++ [NetworkEvent.opened new now]))
  rw [hevents, ← List.append_assoc]
  by_cases hs : s = new
  · -- nothing was ever queued for a new id
    subst hs
    generalize hstream : seen ++ ofSession s n.events = stream at h
    cases h with
    | unborn =>
      have hself : ofSession s [NetworkEvent.opened s now] = [NetworkEvent.opened s now] :=
        ofSession_self _
      rw [hself]
      exact .opened (Finset.mem_insert_self _ _) ⟨hnew.1, UInt64.le_refl _⟩ (by simp)
    | opened _ hold => exact absurd hnew.2 (UInt64.not_lt.mpr hold.2)
    | closed _ hold => exact absurd hnew.2 (UInt64.not_lt.mpr hold.2)
  · have hother : ofSession s [NetworkEvent.opened new now] = [] :=
      ofSession_other fun e => hs e.symm
    have hmem : s ∈ insert new n.connected ↔ s ∈ n.connected := by
      simp [Finset.mem_insert, hs]
    rw [hother, List.append_nil]
    generalize seen ++ ofSession s n.events = stream at h
    cases h with
    | unborn hc hsnew => exact .unborn (fun h => hc (hmem.mp h)) (by grind)
    | opened hc hold hpackets => exact .opened (hmem.mpr hc) (by grind) hpackets
    | closed hc hold hpackets => exact .closed (fun h => hc (hmem.mp h)) (by grind) hpackets

theorem Streams.receive (h : Streams n s (seen ++ ofSession s n.events)) (s' : SessionId)
    (packetId : UInt16) (body : Bytes) :
    Streams (n.receive s' packetId body) s
      (seen ++ ofSession s (n.receive s' packetId body).events) := by
  unfold Network.receive
  split
  · exact h
  rename_i hconnected
  generalize hevent : ({ type := .packet, session := s', packetId := packetId, body := body } :
    NetworkEvent) = event
  have htype : event.type = .packet := by rw [← hevent]
  have hsession : event.session = s' := by rw [← hevent]
  show Streams { n with events := n.events ++ [event] } s (seen ++ ofSession s (n.events ++ [event]))
  rw [ofSession_append, ← List.append_assoc]
  by_cases hs : s' = s
  · have hc : s ∈ n.connected := by
      simp only [isConnected, hs, Bool.or_eq_true, Bool.not_eq_true', decide_eq_false_iff_not,
        not_or, not_not] at hconnected
      exact hconnected.1
    have hself : ofSession s [event] = [event] := by rw [← hs, ← hsession, ofSession_self]
    rw [hself]
    generalize seen ++ ofSession s n.events = stream at h
    cases h with
    | unborn hnot => exact absurd hc hnot
    | closed hnot => exact absurd hc hnot
    | opened _ hold hpackets =>
      refine .opened hc hold fun e he => ?_
      rcases List.mem_append.mp he with he | he
      · exact hpackets e he
      · exact List.mem_singleton.mp he ▸ htype
  · rw [ofSession_other (hsession ▸ hs), List.append_nil]
    exact h.requeued _

theorem Streams.moved {taken : Option NetworkEvent} (h : Streams n s (seen ++ ofSession s n.events))
    (hmove : Moves n taken n') :
    Streams n' s (seen ++ ofSession s taken.toList ++ ofSession s n'.events) := by
  cases hmove with
  | accepted now =>
    rw [Option.toList_none, ofSession, List.filter_nil, List.append_nil]
    exact h.accept now
  | received s' packetId body =>
    rw [Option.toList_none, ofSession, List.filter_nil, List.append_nil]
    exact h.receive s' packetId body
  | quit hq =>
    rw [Option.toList_none, ofSession, List.filter_nil, List.append_nil, hq.queue s,
      ← List.append_assoc]
    exact h.quits hq
  | @popped event rest n' hpop hq =>
    have hsplit : ofSession s n.events = ofSession s [event] ++ ofSession s rest := by
      rw [hpop, ← ofSession_append]
      rfl
    rw [hsplit, ← List.append_assoc] at h
    rw [Option.toList_some, hq.queue s, ← List.append_assoc]
    exact (h.requeued rest).quits hq

end Network

/-! ## The streams over a run -/

namespace PacketProcessor
variable {host : Host} {p p' : PacketProcessor}

theorem Responds.quits {event : NetworkEvent} (h : Responds host p event p') :
    Network.Quits p.network p'.network := by
  cases h with
  | dropped _ _ hnetwork => exact hnetwork ▸ Network.quits_disconnect _ _
  | handled _ _ _ hnetwork => exact hnetwork ▸ Network.quits_deliver host _ _
  | chatted _ _ _ hnetwork => exact hnetwork ▸ Network.quits_deliver host _ _

/-- What the loop of `Update` does with an event that it has taken. -/
inductive Takes (host : Host) (p : PacketProcessor) (event : NetworkEvent)
    (loginNow gameNow : Time) : PacketProcessor → Prop
  /-- The session is gone, so nothing is done for it. -/
  | skipped (htype : event.type ≠ .disconnected) (hout : event.session ∉ p.network.connected) :
      Takes host p event loginNow gameNow p
  | opened (htype : event.type = .connected) (hin : event.session ∈ p.network.connected) :
      Takes host p event loginNow gameNow
        { p with loginDeadlines :=
            p.loginDeadlines.insert event.session (event.occurredAt + p.loginTimeout.val) }
  | closed {p' : PacketProcessor} (htype : event.type = .disconnected)
      (h : handleDisconnected host p event.session gameNow = .ok p') :
      Takes host p event loginNow gameNow p'
  | late (htype : event.type = .packet) (hin : event.session ∈ p.network.connected)
      (hlate : p.isLoginExpired event.session loginNow = true) :
      Takes host p event loginNow gameNow
        ({ p with loginDeadlines := p.loginDeadlines.erase event.session }.disconnect event.session)
  | served {p' : PacketProcessor} (htype : event.type = .packet)
      (hin : event.session ∈ p.network.connected)
      (hlive : p.isLoginExpired event.session loginNow = false)
      (h : processPacket host p event gameNow = .ok p') : Takes host p event loginNow gameNow p'

theorem handleEvent_takes {event : NetworkEvent} {loginNow gameNow : Time}
    (h : p.handleEvent host event loginNow gameNow = .ok p') :
    Takes host p event loginNow gameNow p' := by
  unfold handleEvent at h
  cases htype : event.type with
  | connected =>
    simp only [htype, Except.ok.injEq] at h
    subst h
    unfold handleConnected
    split
    · rename_i hout
      exact .skipped (by rw [htype]; decide) (by simpa [Network.isConnected] using hout)
    · rename_i hin
      exact .opened htype (by simpa [Network.isConnected] using hin)
  | disconnected =>
    simp only [htype] at h
    exact .closed htype h
  | packet =>
    simp only [htype] at h
    split at h
    · rename_i hout
      cases h
      exact .skipped (by rw [htype]; decide) (by simpa [Network.isConnected] using hout)
    rename_i hin
    replace hin : event.session ∈ p.network.connected := by simpa [Network.isConnected] using hin
    split at h
    · rename_i hlate
      cases h
      exact .late htype hin hlate
    · rename_i hlive
      exact .served htype hin (by simpa using hlive) h

theorem handleEvent_quits (hok : p.rooms.Ok) {event : NetworkEvent} {loginNow gameNow : Time}
    (h : p.handleEvent host event loginNow gameNow = .ok p') :
    Network.Quits p.network p'.network := by
  cases handleEvent_takes h with
  | skipped => exact Network.Quits.refl _
  | opened => exact Network.Quits.refl _
  | closed _ hclosed =>
    obtain ⟨p1, packets, e, -, hnetwork, -⟩ :=
      handleDisconnected_deed host (fun _ => True) p hok event.session gameNow
    obtain rfl := Except.ok.inj (e.symm.trans hclosed)
    exact hnetwork ▸ Network.quits_deliver host packets _
  | late => exact Network.quits_disconnect _ _
  | served _ _ _ hserved =>
    obtain ⟨p1, e, hresponds⟩ : ∃ p1, processPacket host p event gameNow = .ok p1 ∧
        Responds host p event p1 := processPacket_responds hok gameNow
    obtain rfl := Except.ok.inj (e.symm.trans hserved)
    exact Responds.quits hresponds

theorem checkLoginTimeouts_quits (p : PacketProcessor) (traversal : Traversal SessionId)
    (now : Time) : Network.Quits p.network (p.checkLoginTimeouts traversal now).network := by
  unfold checkLoginTimeouts
  generalize traversal.order p.loginDeadlines.keys = sessions
  induction sessions generalizing p with
  | nil => exact Network.Quits.refl _
  | cons s sessions ih =>
    refine Network.Quits.trans ?_ (ih (checkLoginTimeout now p s))
    unfold checkLoginTimeout
    split
    · exact Network.Quits.refl _
    split
    · exact Network.Quits.refl _
    · exact Network.quits_disconnect _ _

theorem sweepRooms_quits (hok : p.rooms.Ok) {traversal : Traversal RoomId} {now : Time}
    (h : p.sweepRooms host traversal now = .ok p') : Network.Quits p.network p'.network := by
  obtain ⟨p1, packets, e, -, hnetwork, -⟩ :=
    sweepRooms_deed host (fun _ => True) p hok traversal now
  rw [e] at h
  cases h
  exact hnetwork ▸ Network.quits_deliver host packets _

theorem endUpdate_quits (hok : p.rooms.Ok) {first second : Traversal SessionId × Time}
    {traversal : Traversal RoomId} {now : Time}
    (h : p.endUpdate host first second traversal now = .ok p') :
    Network.Quits p.network p'.network := by
  have hrooms := (checkLoginTimeouts_twice p first second).1
  have hsweep := sweepRooms_quits (hrooms ▸ hok) h
  exact ((checkLoginTimeouts_quits p _ _).trans (checkLoginTimeouts_quits _ _ _)).trans hsweep

end PacketProcessor

/-- The event that a step takes from the queue. -/
def Server.taken (c : Server) : Input → Option NetworkEvent
  | .event _ _ => c.network.tryPopEvent.map Prod.fst
  | _ => none

/-- The events that the loop of `Update` has taken in a run, in order. -/
def consumed (history : List (Entry Server Input)) : List NetworkEvent :=
  history.flatMap fun e => (e.pre.taken e.label).toList

theorem consumed_snoc (history : List (Entry Server Input)) (e : Entry Server Input) :
    consumed (history ++ [e]) = consumed history ++ (e.pre.taken e.label).toList := by
  simp [consumed]

/-- An event that is handled is the first of the queue. -/
theorem Server.step_event {host : Host} {c c' : Server} {loginNow gameNow : Time}
    (h : c.step host (.event loginNow gameNow) = some (.ok c')) :
    ∃ event rest p', c.network.events = event :: rest ∧
      ({ c.processor with network := { c.network with events := rest } } :
        PacketProcessor).handleEvent host event loginNow gameNow = .ok p' ∧ c' = ⟨p', true⟩ := by
  simp only [Server.step] at h
  split at h
  · cases h
  unfold Network.tryPopEvent at h
  cases hevents : c.network.events with
  | nil =>
    rw [hevents] at h
    cases h
  | cons event rest =>
    simp only [hevents, Option.some.injEq] at h
    unfold Except.map at h
    split at h
    · cases h
    rename_i p' hp'
    cases h
    exact ⟨event, rest, p', rfl, hp', rfl⟩

theorem Server.step_begin {host : Host} {c c' : Server} {traversal : Traversal RoomId} {now : Time}
    (h : c.step host (.beginUpdate traversal now) = some (.ok c')) :
    ∃ p', c.processor.sweepRooms host traversal now = .ok p' ∧ c' = ⟨p', true⟩ := by
  simp only [Server.step] at h
  split at h
  · cases h
  rw [Option.some.injEq, PacketProcessor.beginUpdate] at h
  unfold Except.map at h
  split at h
  · cases h
  rename_i p' hp'
  cases h
  exact ⟨p', hp', rfl⟩

theorem Server.step_end {host : Host} {c c' : Server} {first second : Traversal SessionId × Time}
    {traversal : Traversal RoomId} {now : Time}
    (h : c.step host (.endUpdate first second traversal now) = some (.ok c')) :
    ∃ p', c.processor.endUpdate host first second traversal now = .ok p' ∧ c' = ⟨p', false⟩ := by
  simp only [Server.step] at h
  split at h
  · cases h
  rw [Option.some.injEq] at h
  unfold Except.map at h
  split at h
  · cases h
  rename_i p' hp'
  cases h
  exact ⟨p', hp', rfl⟩

theorem ServerStep.moves {host : Host} {c c' : Server} {l : Input} (hc : c.Sound)
    (h : ServerStep host c l c') : Network.Moves c.network (c.taken l) c'.network := by
  cases l with
  | accept now =>
    cases h
    exact .accepted now
  | receive s packetId body =>
    cases h
    exact .received s packetId body
  | close s =>
    cases h
    exact .quit (Network.quits_disconnect _ s)
  | beginUpdate traversal now =>
    obtain ⟨p', hp', rfl⟩ := Server.step_begin h
    exact .quit (PacketProcessor.sweepRooms_quits hc.rooms hp')
  | event loginNow gameNow =>
    obtain ⟨event, rest, p', hevents, hp', rfl⟩ := Server.step_event h
    have htaken : c.taken (.event loginNow gameNow) = some event := by
      simp [Server.taken, Network.tryPopEvent, hevents]
    rw [htaken]
    refine .popped hevents ?_
    exact PacketProcessor.handleEvent_quits (p := { c.processor with network := _ }) hc.rooms hp'
  | endUpdate first second traversal now =>
    obtain ⟨p', hp', rfl⟩ := Server.step_end h
    exact .quit (PacketProcessor.endUpdate_quits hc.rooms hp')

/-- The events of every session come in order, and none after the last. -/
theorem ServerRun.streams {host : Host} {timeout : Time} {p : PacketProcessor}
    (hp : PacketProcessor.make {} timeout = .ok p) {history : List (Entry Server Input)}
    {c : Server} (h : ServerRun host p history c) (s : SessionId) :
    Network.Streams c.network s
      (ofSession s (consumed history) ++ ofSession s c.network.events) := by
  induction h with
  | start =>
    have hnetwork : p.network = {} := (PacketProcessor.make_eq hp).2
    show Network.Streams p.network s (ofSession s [] ++ ofSession s p.network.events)
    rw [hnetwork]
    refine .unborn (by simp) ?_
    show s = 0 ∨ 0 < s
    grind
  | @snoc history c c' l before taken ih =>
    rw [consumed_snoc, ofSession_append]
    exact ih.moved (taken.moves (ServerRun.sound hp before))

end SelectServer
