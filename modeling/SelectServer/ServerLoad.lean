import SelectServer.Lib.Attendance
import SelectServer.ServerApp
import SelectServer.SessionCleanup
import SelectServer.TurnTimeouts
import SelectServer.UpdateTermination

/- What the server has to keep at most. The logic learns late who comes and goes: it
   may hold users whose sessions the network has closed, while new sessions have
   their places already. It follows the log of events, though, and that log never has
   more sessions open than the network (`ServerRun.fits`); so there are never more
   users and pending logins than `MaxClients`, and never as many rooms as would reach
   `MaxRooms`. -/
namespace SelectServer
open Wire (Bytes)
open Histories Attendance Programs

/-! ## The log of the sessions -/

def NetworkEvent.move (event : NetworkEvent) : Option (Move SessionId) :=
  match event.type with
  | .connected => some (.comes event.session)
  | .packet => none
  | .disconnected => some (.goes event.session)

def moves (events : List NetworkEvent) : List (Move SessionId) := events.filterMap NetworkEvent.move

theorem moves_append (a b : List NetworkEvent) : moves (a ++ b) = moves a ++ moves b :=
  List.filterMap_append

/-- Packets are not told. -/
theorem moves_packets {packets : List NetworkEvent} (h : ∀ event ∈ packets, event.type = .packet) :
    moves packets = [] := by
  unfold moves
  rw [List.filterMap_eq_nil_iff]
  intro event he
  unfold NetworkEvent.move
  rw [h event he]

theorem moves_session (s : SessionId) (events : List NetworkEvent) :
    (moves events).filter (·.who = s) = moves (ofSession s events) := by
  unfold moves ofSession
  rw [List.filter_filterMap, List.filterMap_filter]
  apply List.filterMap_congr
  intro event _
  unfold NetworkEvent.move
  cases event.type with
  | packet => simp
  | connected =>
    by_cases hs : event.session = s
    · simp [hs, Move.who]
    · simp [hs, Move.who]
  | disconnected =>
    by_cases hs : event.session = s
    · simp [hs, Move.who]
    · simp [hs, Move.who]

namespace Network
variable {n : Network} {s : SessionId} {log : List NetworkEvent}

/-- Who is present after all events is connected. -/
theorem Streams.present (h : Streams n s (ofSession s log)) (hs : s ∈ present (moves log)) :
    s ∈ n.connected := by
  have hstays := stays_own.mpr (mem_present.mp hs)
  rw [moves_session] at hstays
  generalize ofSession s log = stream at h hstays
  cases h with
  | unborn =>
    have hnone : s ∈ Attendance.present ([] : List (Move SessionId)) := mem_present.mpr hstays
    cases hnone
  | opened hc => exact hc
  | @closed now packets _ _ hpackets =>
    have hmoves : moves (NetworkEvent.opened s now :: packets ++ [NetworkEvent.closed s]) =
        [.comes s, .goes s] := by
      have hsplit : NetworkEvent.opened s now :: packets ++ [NetworkEvent.closed s] =
          [NetworkEvent.opened s now] ++ (packets ++ [NetworkEvent.closed s]) := rfl
      rw [hsplit, moves_append, moves_append, moves_packets hpackets]
      rfl
    rw [hmoves, ← mem_present] at hstays
    exact absurd (Finset.mem_erase.mp hstays).1 (not_not.mpr rfl)

end Network

/-! ## The log fits -/

/-- All the events of a run, those still queued included. -/
def logOf (history : List (Entry Server Input)) (c : Server) : List NetworkEvent :=
  consumed history ++ c.network.events

/-- No connection is accepted beyond `limit`. -/
def AdmitsAtMost (limit : Nat) (history : List (Entry Server Input)) : Prop :=
  ∀ e ∈ history, ∀ now, e.label = .accept now → e.post.network.connected.card ≤ limit

section Run
variable {host : Host} {timeout : Time} {p : PacketProcessor} {limit : Nat}
variable {history : List (Entry Server Input)} {c c' : Server} {l : Input}

theorem ServerRun.present_connected (hp : PacketProcessor.make {} timeout = .ok p)
    (hrun : ServerRun host p history c) :
    present (moves (logOf history c)) ⊆ c.network.connected := by
  intro s hs
  have hstream : Network.Streams c.network s (ofSession s (logOf history c)) := by
    unfold logOf
    rw [ofSession_append]
    exact ServerRun.streams hp hrun s
  exact hstream.present hs

/-- A step that accepts nobody queues packets and ends. -/
theorem ServerStep.queues (hc : c.Sound) (h : ServerStep host c l c')
    (hl : ∀ now, l ≠ .accept now) :
    ∃ more, (c.taken l).toList ++ c'.network.events = c.network.events ++ more ∧
      ∀ event ∈ more, event.type ≠ .connected := by
  have hsame : ∀ {n : Network}, n.events = c.network.events →
      ∃ more, n.events = c.network.events ++ more ∧ ∀ event ∈ more, event.type ≠ .connected :=
    fun e => ⟨[], by rw [e, List.append_nil], by simp⟩
  have hcloses : ∀ {n n' : Network}, Network.Closes n n' →
      ∃ more, n'.events = n.events ++ more ∧ ∀ event ∈ more, event.type ≠ .connected := by
    intro n n' h
    obtain ⟨gone, e, -⟩ := h.gone
    refine ⟨_, e, fun event he => ?_⟩
    obtain ⟨s, -, rfl⟩ := List.mem_map.mp he
    simp [NetworkEvent.closed]
  cases l with
  | accept now => exact absurd rfl (hl now)
  | receive s packetId body =>
    cases h
    show ∃ more, (c.network.receive s packetId body).events = _ ∧ _
    unfold Network.receive
    split
    · exact hsame rfl
    · exact ⟨_, rfl, by simp⟩
  | close s =>
    cases h
    show ∃ more, (c.network.disconnect s).events = _ ∧ _
    unfold Network.disconnect
    split
    · exact hsame rfl
    · exact ⟨_, rfl, by simp⟩
  | beginUpdate traversal now =>
    obtain ⟨p', hp', rfl⟩ := Server.step_begin h
    exact hcloses (PacketProcessor.sweepRooms_closes hc.rooms hp')
  | event loginNow gameNow =>
    obtain ⟨event, rest, p', hevents, hp', rfl⟩ := Server.step_event h
    have htaken : c.taken (.event loginNow gameNow) = some event := by
      simp [Server.taken, Network.tryPopEvent, hevents]
    obtain ⟨more, e, hmore⟩ := hcloses (PacketProcessor.handleEvent_closes (by exact hc.rooms) hp')
    refine ⟨more, ?_, hmore⟩
    rw [htaken, hevents]
    show event :: p'.network.events = event :: rest ++ more
    rw [e]
    rfl
  | endUpdate first second traversal now =>
    obtain ⟨p', hp', rfl⟩ := Server.step_end h
    obtain ⟨hrooms, hemits⟩ := c.processor.checkLoginTimeouts_twice first second
    obtain ⟨more, e, hmore⟩ := hemits.events
    obtain ⟨later, e', hlater⟩ :=
      hcloses (PacketProcessor.sweepRooms_closes (hrooms ▸ hc.rooms) hp')
    refine ⟨more ++ later, ?_, fun event he => ?_⟩
    · show p'.network.events = _
      rw [e', e, List.append_assoc]
    · cases List.mem_append.mp he with
      | inl he =>
        rw [(hmore event he).1]
        simp
      | inr he => exact hlater event he

/-- What is not a connection can only be an end. -/
theorem moves_goings {more : List NetworkEvent} (h : ∀ event ∈ more, event.type ≠ .connected) :
    ∀ move ∈ moves more, ∃ s, move = .goes s := by
  intro move hmove
  obtain ⟨event, he, hmove⟩ := List.mem_filterMap.mp hmove
  unfold NetworkEvent.move at hmove
  split at hmove
  · rename_i htype
    exact absurd htype (h event he)
  · cases hmove
  · exact ⟨event.session, (Option.some.inj hmove).symm⟩

/-- If the network keeps to a limit, the log has never had more sessions open. -/
theorem ServerRun.fits (hp : PacketProcessor.make {} timeout = .ok p)
    (hrun : ServerRun host p history c) (hadmits : AdmitsAtMost limit history) :
    Fits limit (moves (logOf history c)) := by
  induction hrun with
  | start =>
    have hnetwork : p.network = {} := (PacketProcessor.make_eq hp).2
    show Fits limit (moves ([] ++ p.network.events))
    rw [hnetwork]
    exact fits_nil limit
  | @snoc before c c' l hbefore htaken ih =>
    have hfits := ih fun e he => hadmits e (List.mem_append_left _ he)
    have hlog : logOf (before ++ [⟨c, l, c'⟩]) c' =
        consumed before ++ ((c.taken l).toList ++ c'.network.events) := by
      unfold logOf
      rw [consumed_snoc, List.append_assoc]
    by_cases hl : ∃ now, l = .accept now
    · -- the connection that is new is among those of the network
      obtain ⟨now, rfl⟩ := hl
      have hcard := hadmits ⟨c, .accept now, c'⟩
        (List.mem_append_right _ (List.mem_singleton_self _)) now rfl
      have hpresent := Finset.card_le_card
        (ServerRun.present_connected hp (hbefore.snoc htaken))
      rw [hlog] at hpresent ⊢
      cases htaken
      show Fits limit (moves (consumed before ++ (c.network.accept now).events))
      have hpresent : (present (moves (consumed before ++ (c.network.accept now).events))).card ≤
          limit := hpresent.trans hcard
      have hevents : (c.network.accept now).events = c.network.events ∨
          ∃ s, (c.network.accept now).events = c.network.events ++ [NetworkEvent.opened s now] := by
        unfold Network.accept
        split
        · exact .inl rfl
        · exact .inr ⟨_, rfl⟩
      cases hevents with
      | inl e =>
        rw [e]
        exact hfits
      | inr hopened =>
        obtain ⟨s, e⟩ := hopened
        rw [e, ← List.append_assoc, moves_append] at hpresent ⊢
        exact hfits.snoc hpresent
    · obtain ⟨more, e, hmore⟩ :=
        htaken.queues (ServerRun.sound hp hbefore) fun now hnow => hl ⟨now, hnow⟩
      rw [hlog, e, ← List.append_assoc, moves_append]
      exact hfits.goings (moves_goings hmore)

/-! ## What the logic keeps -/

/-- Whom the logic knows has come and not gone, as far as it has heard. -/
theorem ServerRun.known_present (hp : PacketProcessor.make {} timeout = .ok p)
    (hrun : ServerRun host p history c) {s : SessionId} (hknown : c.processor.Knows s) :
    s ∈ present (moves (consumed history)) := by
  have hstanding := ServerRun.standing hp hrun s
  obtain ⟨event, he, htype⟩ := hstanding.met hknown
  obtain ⟨he, hs⟩ := mem_ofSession.mp he
  refine present_of_comes (List.mem_filterMap.mpr ⟨event, he, ?_⟩) fun hgoes => ?_
  · unfold NetworkEvent.move
    rw [htype, hs]
  · obtain ⟨last, hlast, hmove⟩ := List.mem_filterMap.mp hgoes
    unfold NetworkEvent.move at hmove
    split at hmove
    · cases hmove
    · cases hmove
    · rename_i hleft
      have hself : last.session = s := Move.goes.inj (Option.some.inj hmove)
      exact hstanding.left ⟨last, mem_ofSession.mpr ⟨hlast, hself⟩, hleft⟩ hknown

theorem Map.card_keys {K V : Type} [Ord K] [Std.TransOrd K] [Std.LawfulEqOrd K] [DecidableEq K]
    (m : Map K V) : m.keys.toFinset.card = m.size := by
  rw [List.toFinset_card_of_nodup Std.ExtTreeMap.nodup_keys, Std.ExtTreeMap.length_keys]

theorem Map.mem_keys_toFinset {K V : Type} [Ord K] [Std.TransOrd K] [Std.LawfulEqOrd K]
    [DecidableEq K] {m : Map K V} {k : K} : k ∈ m.keys.toFinset ↔ (m[k]?).isSome = true := by
  rw [List.mem_toFinset, Std.ExtTreeMap.mem_keys]
  simp

/-- Users and pending logins keep to the limit of the network. -/
theorem ServerRun.few_known (hp : PacketProcessor.make {} timeout = .ok p)
    (hrun : ServerRun host p history c) (hadmits : AdmitsAtMost limit history) :
    c.rooms.users.users.size + c.processor.loginDeadlines.size ≤ limit := by
  generalize husers : c.rooms.users.users = users
  generalize hpending : c.processor.loginDeadlines = pending
  have hdisjoint : Disjoint users.keys.toFinset pending.keys.toFinset := by
    rw [Finset.disjoint_right]
    intro s hs huser
    rw [Map.mem_keys_toFinset] at hs huser
    have honce := (ServerRun.standing hp hrun s).once (by rw [hpending]; exact hs)
    have honce : (c.rooms.users.users[s]?).isSome = false := honce
    rw [husers, huser] at honce
    cases honce
  have hsubset : users.keys.toFinset ∪ pending.keys.toFinset ⊆
      present (moves (consumed history)) := by
    intro s hs
    refine ServerRun.known_present hp hrun ?_
    cases Finset.mem_union.mp hs with
    | inl hs => exact .inr (by rw [Map.mem_keys_toFinset, ← husers] at hs; exact hs)
    | inr hs => exact .inl (by rw [Map.mem_keys_toFinset, ← hpending] at hs; exact hs)
  have hfirst : moves (consumed history) <+: moves (logOf history c) := by
    rw [logOf, moves_append]
    exact List.prefix_append _ _
  calc users.size + pending.size
      = users.keys.toFinset.card + pending.keys.toFinset.card := by
        rw [Map.card_keys, Map.card_keys]
    _ = (users.keys.toFinset ∪ pending.keys.toFinset).card :=
        (Finset.card_union_of_disjoint hdisjoint).symm
    _ ≤ (present (moves (consumed history))).card := Finset.card_le_card hsubset
    _ ≤ limit := ServerRun.fits hp hrun hadmits _ hfirst

end Run

namespace RoomManager
variable {m m' : RoomManager}

/-- Every room has a host, who is in no other room. -/
theorem WellFormed.rooms_le (h : m.WellFormed) : m.rooms.size ≤ m.users.users.size := by
  rw [← Map.card_keys, ← Map.card_keys]
  have hhost : ∀ r ∈ m.rooms.keys.toFinset, ∃ u room, m.rooms[r]? = some room ∧
      m.users.users[room.hostSession]? = some u ∧ u.roomId = r := by
    intro r hr
    rw [Map.mem_keys_toFinset] at hr
    obtain ⟨room, hroom⟩ := Option.isSome_iff_exists.mp hr
    obtain ⟨u, hu, -, hid⟩ := h.member hroom _ (h.room hroom).seats.host_mem
    exact ⟨u, room, hroom, hu, hid⟩
  refine Finset.card_le_card_of_injOn
    (fun r => ((m.rooms[r]?).map Room.hostSession).getD 0) (fun r hr => ?_) ?_
  · obtain ⟨u, room, hroom, hu, -⟩ := hhost r hr
    show ((m.rooms[r]?).map Room.hostSession).getD 0 ∈ m.users.users.keys.toFinset
    rw [Map.mem_keys_toFinset, hroom]
    exact Option.isSome_iff_exists.mpr ⟨u, hu⟩
  · intro r hr r' hr' e
    obtain ⟨u, room, hroom, hu, hid⟩ := hhost r hr
    obtain ⟨u', room', hroom', hu', hid'⟩ := hhost r' hr'
    have e : room.hostSession = room'.hostSession := by
      dsimp only at e
      rw [hroom, hroom'] at e
      exact e
    rw [e] at hu
    obtain rfl := Option.some.inj (hu.symm.trans hu')
    exact hid.symm.trans hid'

/-- With fewer rooms than `MaxRooms` no room is refused for their number. -/
theorem createRoom_unlimited (h : m.rooms.size < m.config.val.maxRooms) (wideChars : Bytes → Nat)
    (s : SessionId) (title : Bytes) (r : RoomId) :
    createRoom wideChars m s title ≠ .ok (.roomLimitReached, r, m') := by
  intro e
  unfold createRoom at e
  split at e
  · cases e
  split at e
  · cases e
  split at e
  · cases e
  split at e
  · cases e
  split at e
  · omega
  split at e
  · cases e
  dsimp only at e
  cases hmake : Room.make (m.lastRoomId + 1) title m.config.val.capacity s m.config.val.turnTime with
  | error fault =>
    rw [hmake] at e
    cases e
  | ok room =>
    rw [hmake] at e
    simp only [bind, Except.bind] at e
    split at e
    · cases e
    · cases e

end RoomManager

theorem Handled.config {host : Host} {m m' : RoomManager} {event : NetworkEvent} {rid : UInt16}
    {packets : List SentPacket} (h : Handled host m event rid packets m') (hwf : m.WellFormed) :
    m'.config = m.config := by
  cases h with
  | idle => rfl
  | answered _ he => exact he.config hwf
  | created _ he => exact he.config hwf
  | entered _ he => exact he.config hwf
  | readied _ _ _ _ he => exact he.config hwf
  | started _ _ _ _ he => exact he.config hwf
  | moved _ he => exact he.config hwf
  | left _ he =>
    have hsame := he.config hwf
    exact hsame
  | stayed => rfl

theorem Deed.config {host : Host} {asked : NetworkEvent → Prop} {m m' : RoomManager}
    {packets : List SentPacket} (h : Deed host asked m packets m') (hwf : m.WellFormed) :
    m'.config = m.config := by
  cases h with
  | quiet => rfl
  | handled _ h => exact h.config hwf
  | forgotten => rfl
  | gone he =>
    have hsame := he.config hwf
    exact hsame
  | swept he =>
    have hsame := he.config hwf
    exact hsame

theorem ServerRun.config {host : Host} {timeout : Time} {p : PacketProcessor}
    {history : List (Entry Server Input)} {c : Server}
    (hp : PacketProcessor.make {} timeout = .ok p) (hrun : ServerRun host p history c) :
    c.rooms.config.val = {} := by
  induction hrun with
  | start =>
    obtain ⟨_, rfl⟩ := PacketProcessor.make_ok hp
    rfl
  | snoc hbefore htaken ih =>
    have hsound := ServerRun.sound hp hbefore
    obtain ⟨packets, hdeed, -⟩ := htaken.deed hsound
    rw [hdeed.config hsound.rooms.wellFormed]
    exact ih

/-! ## The network of the program -/

theorem AdmitsAtMost.append {limit : Nat} {a b : List (Entry Server Input)}
    (ha : AdmitsAtMost limit a) (hb : AdmitsAtMost limit b) : AdmitsAtMost limit (a ++ b) := by
  intro e he
  cases List.mem_append.mp he with
  | inl he => exact ha e he
  | inr he => exact hb e he

theorem Server.brings_append (a b : List Input) : ∀ c : Server,
    c.brings (a ++ b) =
      c.brings a ++ (c.withNetwork (a.foldl Network.bring c.network)).brings b := by
  induction a with
  | nil => exact fun _ => rfl
  | cons l a ih =>
    intro c
    show _ :: (c.withNetwork _).brings (a ++ b) = _
    rw [ih]
    rfl

namespace TcpNetwork
variable {t t1 t' : TcpNetwork} {new new' : List NetworkEvent} {os : Sockets} {reads writes : FdSet}

/-- `Tells`, and what is told has kept to `MaxClients` all the time. -/
structure Welcomes (t : TcpNetwork) (new : List NetworkEvent) (t' : TcpNetwork) : Prop where
  tells : Tells t new t'
  config : t'.config = t.config
  admits : ∀ (c : Server) (sent : List SentPacket), c.network = t.seen sent →
    AdmitsAtMost t.config.maxClients (c.brings (new.map Input.ofEvent))

theorem Welcomes.trans (h : Welcomes t new t1) (h' : Welcomes t1 new' t') :
    Welcomes t (new ++ new') t' where
  tells := h.tells.trans h'.tells
  config := h'.config.trans h.config
  admits c sent hc := by
    rw [List.map_append, Server.brings_append]
    refine (h.admits c sent hc).append ?_
    rw [← h.config]
    refine h'.admits _ sent ?_
    show (new.map Input.ofEvent).foldl Network.bring c.network = _
    rw [hc, h.tells.seen]

/-- Where nobody is accepted there is nothing to keep to. -/
theorem Tells.welcomes (h : Tells t new t') (hconfig : t'.config = t.config)
    (hnew : ∀ event ∈ new, event.type ≠ .connected) : Welcomes t new t' where
  tells := h
  config := hconfig
  admits c sent hc := by
    intro e he now hlabel
    have hin := List.mem_map_of_mem (f := fun e : Entry Server Input => e.label) he
    rw [Server.brings_labels, hlabel] at hin
    obtain ⟨event, hevent, hof⟩ := List.mem_map.mp hin
    unfold Input.ofEvent at hof
    split at hof
    · rename_i htype
      exact absurd htype (hnew event hevent)
    · cases hof
    · cases hof

theorem Welcomes.refl (t : TcpNetwork) : Welcomes t [] t :=
  (Tells.refl t).welcomes rfl (by simp)

theorem seen_few (ht : t.Sound) (sent : List SentPacket) :
    (t.seen sent).connected.card ≤ t.config.maxClients := by
  calc t.ids.toFinset.card
      ≤ t.ids.length := List.toFinset_card_le _
    _ = t.clients.length := List.length_map ..
    _ ≤ t.config.maxClients := ht.few

theorem Tells.welcomes_one {event : NetworkEvent} (h : Tells t [event] t') (ht' : t'.Sound)
    (hconfig : t'.config = t.config) : Welcomes t [event] t' where
  tells := h
  config := hconfig
  admits c sent hc := by
    intro e he now hlabel
    obtain rfl := List.mem_singleton.mp he
    have hseen : c.network.bring (Input.ofEvent event) = t'.seen sent := by
      rw [h.seen, hc]
      rfl
    show (c.network.bring (Input.ofEvent event)).connected.card ≤ _
    rw [hseen, ← hconfig]
    exact seen_few ht' sent

theorem closeClient_config (t : TcpNetwork) (index : Nat) :
    (t.closeClient index).config = t.config := by
  unfold closeClient
  split
  · rfl
  · rfl

theorem serveSession_welcomes (ht : t.Sound) {s : SessionId}
    (h : serveSession os reads writes t s = some t') : ∃ new, Welcomes t new t' := by
  unfold serveSession at h
  rcases t.find_cases s with ⟨hnone, -⟩ | ⟨index, client, hfind, hclient, rfl, hin⟩
  · rw [hnone] at h
    cases h
    exact ⟨[], .refl t⟩
  rw [hfind] at h
  dsimp only at h
  obtain ⟨result, queued, hserve, hserved, hbodies, -⟩ := @serve_queues t index client
    (received os reads client.id) (sent os writes client.id) ht.room
  rw [serveClient_eq hclient, hserve] at h
  obtain rfl := Option.some.inj h
  have hpackets := (tells_packets hin queued hbodies).welcomes rfl fun event he => by
    obtain ⟨p, -, rfl⟩ := List.mem_map.mp he
    simp [packetEvent]
  cases hserved with
  | @kept client' hid =>
    have hsame := tells_same
      (t := { t with events := t.events ++ queued.map (packetEvent client.id) }) (set_ids hclient hid)
    exact ⟨_, hpackets.trans (hsame.welcomes rfl (by simp))⟩
  | dropped =>
    have hclosed := tells_closed
      (t := { t with events := t.events ++ queued.map (packetEvent client.id) }) ht.nodup hclient
    exact ⟨_, hpackets.trans (hclosed.welcomes (closeClient_config _ index)
      (by simp [NetworkEvent.closed]))⟩

theorem serveAll_welcomes (sessions : List SessionId) : ∀ {t : TcpNetwork}, t.Sound →
    sessions.foldlM (serveSession os reads writes) t = some t' → ∃ new, Welcomes t new t' := by
  induction sessions with
  | nil =>
    intro t _ h
    cases h
    exact ⟨[], .refl _⟩
  | cons s sessions ih =>
    intro t ht h
    rw [List.foldlM_cons] at h
    obtain ⟨t1, hserve, h⟩ := Option.bind_eq_some_iff.mp h
    obtain ⟨new, hfirst⟩ := serveSession_welcomes ht hserve
    obtain ⟨new', hlater⟩ := ih (serveSession_tells ht hserve).1 h
    exact ⟨new ++ new', hfirst.trans hlater⟩

theorem acceptClient_welcomes (ht : t.Sound) (accepted : Accepted) :
    ∃ new, Welcomes t new (t.acceptClient accepted).2 := by
  obtain ⟨queued, hact⟩ := t.acceptClient_act accepted
  have hsound := hact.sound ht
  cases accepted with
  | wouldBlock => exact ⟨[], .refl t⟩
  | failed => exact ⟨[], .refl t⟩
  | connection nonBlocking now =>
    unfold acceptClient at hsound ⊢
    dsimp only at hsound ⊢
    split
    · exact ⟨[], .refl t⟩
    split
    · exact ⟨[], .refl t⟩
    split
    · exact ⟨[], .refl t⟩
    rename_i hlast
    split
    · exact ⟨[], .refl t⟩
    · rename_i hfew hroom hblock
      rw [if_neg hfew, if_neg hroom, if_neg hlast, if_neg hblock] at hsound
      exact ⟨_, (tells_accepted hlast now).welcomes_one hsound rfl⟩

theorem acceptLoop_welcomes (attempts : Nat) : ∀ (attempt : Nat) {t : TcpNetwork}, t.Sound →
    ∃ new, Welcomes t new (acceptLoop os attempts attempt t) := by
  induction attempts with
  | zero =>
    intro _ t _
    exact ⟨[], .refl t⟩
  | succ attempts ih =>
    intro attempt t ht
    obtain ⟨new, hfirst⟩ := acceptClient_welcomes ht (os.accept attempt)
    obtain ⟨new', hlater⟩ := ih (attempt + 1) (acceptClient_tells ht (os.accept attempt)).1
    have hmore := hfirst.trans hlater
    rw [acceptLoop]
    generalize t.acceptClient (os.accept attempt) = accepted at hfirst hmore
    obtain ⟨code, t1⟩ := accepted
    cases code with
    | none => exact ⟨_, hmore⟩
    | acceptMaxSessionCount => exact ⟨_, hmore⟩
    | acceptEventQueueFull => exact ⟨_, hmore⟩
    | acceptApiWsaewouldblock => exact ⟨_, hfirst⟩
    | aacceptApiError => exact ⟨_, hfirst⟩
    | sessionIdExhausted => exact ⟨_, hfirst⟩
    | serverSocketFionbioFail => exact ⟨_, hfirst⟩

theorem run_welcomes (ht : t.Sound) {go : Bool} (h : t.run os = some (go, t')) :
    ∃ new, Welcomes t new t' := by
  cases hselect : os.select with
  | none =>
    rw [run, hselect] at h
    cases h
    exact ⟨[], .refl t⟩
  | some sets =>
    obtain ⟨readable, writable⟩ := sets
    obtain ⟨t1, hfold, hsound, e⟩ := run_polled ht hselect
    obtain ⟨new, hserved⟩ := serveAll_welcomes _ ht hfold
    rw [e] at h
    cases h
    split
    · obtain ⟨new', haccepted⟩ := @acceptLoop_welcomes os t1.config.maxAcceptsPerRun 0 t1 hsound
      exact ⟨new ++ new', hserved.trans haccepted⟩
    · exact ⟨new, hserved⟩

end TcpNetwork
namespace ServerApp
open TcpNetwork
variable {m : Bytes → Nat} {app0 app app' : ServerApp} {config : ServerConfig} {listening : Bool}

theorem device_config (call : NetworkCall) (s : TcpNetwork × List SentPacket) :
    (device call s).2.1.config = s.1.config := by
  obtain ⟨t, sent⟩ := s
  cases call with
  | tryPopEvent =>
    unfold device tryPopEvent
    dsimp only
    cases t.events with
    | nil => rfl
    | cons => rfl
  | isConnected => rfl
  | disconnect s =>
    obtain ⟨queued, hact⟩ := t.disconnect_act s
    exact hact.config
  | sendOrDisconnect packet =>
    have hsend := (t.sendPacket_act packet.session packet.packetId packet.body).config
    obtain ⟨queued, hact⟩ := (t.sendPacket packet.session packet.packetId packet.body).2.disconnect_act
      packet.session
    cases hqueued : (t.sendPacket packet.session packet.packetId packet.body).1 with
    | true =>
      rw [device_taken sent hqueued]
      exact hsend
    | false =>
      rw [device_refused sent hqueued]
      exact hact.config.trans hsend

theorem perform_config {program : Program INetwork (Except LogicError Logic)} {phase : AppPhase}
    (h : app.perform program phase = .ok app') : app'.network.config = app.network.config := by
  obtain ⟨hran, -⟩ := perform_ran h
  have hkept := Program.run_invariant (P := fun s => s.1.config = app.network.config)
    (fun call s hs => (device_config call s).trans hs) program (s := (app.network, app.sent)) rfl
  rw [hran] at hkept
  exact hkept

/-- A step of the program accepts nobody beyond `MaxClients`. -/
theorem step_admits (hs : app.network.Sound) {l : AppInput} (htaken : AppStep m app l app') :
    app'.network.config = app.network.config ∧
      AdmitsAtMost app.network.config.maxClients (retold ⟨app, l, app'⟩) := by
  have hother : ∀ {input : Input} {e : Entry ServerApp AppInput}, (∀ now, input ≠ .accept now) →
      AdmitsAtMost app.network.config.maxClients [⟨e.pre.seen, input, e.post.seen⟩] := by
    intro input e hinput entry he now hlabel
    obtain rfl := List.mem_singleton.mp he
    exact absurd hlabel (hinput now)
  unfold AppStep step at htaken
  cases l with
  | poll key os =>
    dsimp only at htaken
    have hturn : ∀ {network : TcpNetwork} {new : List NetworkEvent} {phase : AppPhase},
        Welcomes app.network new network →
          network.config = app.network.config ∧ AdmitsAtMost app.network.config.maxClients
            (retold ⟨app, .poll key os, { app with network := network, phase := phase }⟩) := by
      intro network new phase h
      refine ⟨h.config, ?_⟩
      show AdmitsAtMost _
        (app.seen.brings ((network.events.drop app.network.events.length).map Input.ofEvent))
      rw [h.tells.events, List.drop_left]
      exact h.admits app.seen app.sent rfl
    split at htaken
    · cases htaken
    split at htaken
    · obtain rfl := Except.ok.inj (Option.some.inj htaken)
      exact hturn (Welcomes.refl app.network)
    · obtain ⟨⟨go, network⟩, hrun, e⟩ := Option.map_eq_some_iff.mp htaken
      obtain rfl := Except.ok.inj e
      obtain ⟨new, hnew⟩ := run_welcomes hs hrun
      exact hturn hnew
  | beginUpdate traversal now =>
    dsimp only at htaken
    split at htaken
    · cases htaken
    exact ⟨perform_config (Option.some.inj htaken), hother (e := ⟨app, _, app'⟩) (by simp)⟩
  | event loginNow gameNow =>
    dsimp only at htaken
    split at htaken
    · cases htaken
    split at htaken
    · cases htaken
    rename_i event network hevent
    have hpopped : network.config = app.network.config := by
      unfold tryPopEvent at hevent
      split at hevent
      · cases hevent
      · cases hevent
        rfl
    exact ⟨(perform_config (Option.some.inj htaken)).trans hpopped,
      hother (e := ⟨app, _, app'⟩) (by simp)⟩
  | endUpdate first second traversal now =>
    dsimp only at htaken
    split at htaken
    · cases htaken
    exact ⟨perform_config (Option.some.inj htaken), hother (e := ⟨app, _, app'⟩) (by simp)⟩

theorem run_admits (hinit : init config listening = .ok (some app0))
    {history : List (Entry ServerApp AppInput)} (hrun : AppRun m app0 history app) :
    app.network.config = config.network ∧
      AdmitsAtMost config.network.maxClients (history.flatMap retold) := by
  induction hrun with
  | start =>
    refine ⟨?_, by simp [AdmitsAtMost]⟩
    unfold init at hinit
    split at hinit
    · cases hinit
    split at hinit
    · cases hinit
    rename_i network hnetwork
    split at hinit
    · cases hinit
    cases hmake : PacketProcessor.make {} config.loginTimeout with
    | error e =>
      rw [hmake] at hinit
      cases hinit
    | ok p =>
      rw [hmake] at hinit
      obtain rfl := Option.some.inj (Except.ok.inj hinit)
      exact (tcp_run hnetwork .start).2.1
  | snoc hbefore htaken ih =>
    obtain ⟨hconfig, hadmits⟩ := ih
    obtain ⟨hs, -⟩ := step_retold hinit hbefore htaken
    obtain ⟨hsame, hstep⟩ := step_admits hs htaken
    rw [List.flatMap_append, List.flatMap_singleton]
    rw [hconfig] at hsame hstep
    exact ⟨hsame, hadmits.append hstep⟩

end ServerApp

open ServerApp TcpNetwork

/-- In every run of the program, however far its logic is behind the network: there are never more
users and pending logins together than `MaxClients`, never more rooms than users, and `CreateRoom`
refuses nobody for the number of rooms, since `MaxRooms` cannot be reached. -/
theorem load_bounded {config : ServerConfig} {listening : Bool} {app0 app : ServerApp}
    {m : Bytes → Nat} {history : List (Entry ServerApp AppInput)}
    (hinit : ServerApp.init config listening = .ok (some app0)) (hrun : AppRun m app0 history app) :
    app.logic.rooms.users.users.size + app.logic.loginDeadlines.size ≤ config.network.maxClients ∧
    app.logic.rooms.rooms.size ≤ app.logic.rooms.users.users.size ∧
    ∀ (wideChars : Bytes → Nat) (s : SessionId) (title : Bytes) (r : RoomId) (rooms : RoomManager),
      RoomManager.createRoom wideChars app.logic.rooms s title ≠ .ok (.roomLimitReached, r, rooms) := by
  obtain ⟨p, hp, -⟩ := init_seen hinit
  obtain ⟨-, hseen⟩ := run_shows hinit hp hrun
  have hserver := hseen _ (Foretold.now (app.network, app.sent))
  obtain ⟨hconfig, hadmits⟩ := run_admits hinit hrun
  have hknown : app.logic.rooms.users.users.size + app.logic.loginDeadlines.size ≤
      config.network.maxClients := ServerRun.few_known hp hserver hadmits
  have hrooms : app.logic.rooms.rooms.size ≤ app.logic.rooms.users.users.size :=
    (ServerRun.sound hp hserver).rooms.wellFormed.rooms_le
  refine ⟨hknown, hrooms, fun wideChars s title r rooms => ?_⟩
  refine RoomManager.createRoom_unlimited ?_ wideChars s title r
  have hlimit : app.logic.rooms.config.val = {} := ServerRun.config hp hserver
  have hclients := NetworkConfig.isValid_clients (hconfig ▸ app.network.valid)
  rw [hlimit]
  show _ < 100
  unfold fdSetSize at hclients
  omega

/-- The one place goes from a session that has logged in to a new one. -/
def takenOver : List AppInput :=
  let quiet : Sockets := ⟨some (fun _ => true, fun _ => false), fun _ => .wouldBlock,
    fun _ => .wouldBlock, fun _ => .wouldBlock⟩
  loginTurns ++ [.poll none { quiet with
    recv := fun _ => .finished
    accept := fun n => if n = 0 then .connection true 0 else .wouldBlock }]

/-- The logic still has the user, and the network the new session. -/
def overlap (app : ServerApp) : Bool :=
  decide (app.logic.rooms.users.users.size = 1 ∧ app.network.ids = [2])

theorem load_bounded_overlap : ∃ app0 history app,
    ServerApp.init { network := { maxClients := 1 } } true = .ok (some app0) ∧
      AppRun (fun b => b.length) app0 history app ∧ app.network.ids = [2] ∧
        app.logic.rooms.users.users.size = 1 ∧
          app.logic.rooms.users.users.size + app.logic.loginDeadlines.size ≤ 1 := by
  have hinit : ∃ app0, ServerApp.init { network := { maxClients := 1 } } true = .ok (some app0) ∧
      (play (ServerApp.next fun b => b.length) app0 takenOver).any (fun r => overlap r.2) = true :=
    ⟨_, rfl, by decide +kernel⟩
  obtain ⟨app0, hinit, hplayed⟩ := hinit
  obtain ⟨history, app, hrun, hcheck⟩ := ServerApp.played (fun b => b.length) app0 takenOver
    (fun _ app => overlap app) hplayed
  obtain ⟨husers, hids⟩ := of_decide_eq_true hcheck
  exact ⟨app0, history, app, hinit, hrun, hids, husers, (load_bounded hinit hrun).1⟩

end SelectServer
