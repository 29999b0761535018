import SelectServer.Lib.Loops
import SelectServer.SessionStreams

/- `Update` as one call. Its event loop and the loop of `FlushFinishedGames` have
   no bound of their own, and the event loop feeds itself: a handler that
   disconnects sessions queues an event for each. A session is disconnected once
   and has one event (`Network.Closes`), so a round takes more from
   `Network.pending` than it adds (`drainRound_pending`). -/
namespace SelectServer
open Wire (Bytes)
open Histories Loops

/-! ## Sessions that were disconnected, each with one event -/

namespace Network
variable {n n1 n' : Network}

/-- `n'` is `n` after some sessions were disconnected: the queue has grown by one
    `Disconnected` event for each. -/
structure Closes (n n' : Network) : Prop where
  connected : n'.connected ⊆ n.connected
  gone : ∃ gone : List SessionId, n'.events = n.events ++ gone.map NetworkEvent.closed ∧
    gone.Nodup ∧ ∀ s, s ∈ gone ↔ s ∈ n.connected ∧ s ∉ n'.connected

/-- What the loop of `Update` has before it. -/
def pending (n : Network) : Nat := 2 * n.connected.card + n.events.length

theorem Quits.closes (h : Quits n n') (happend : ∃ new, n'.events = n.events ++ new) :
    Closes n n' := by
  obtain ⟨new, e⟩ := happend
  have hqueue : ∀ s, ofSession s new =
      if s ∈ n.connected ∧ s ∉ n'.connected then [NetworkEvent.closed s] else [] := by
    intro s
    have hs := h.queue s
    rw [e, ofSession_append] at hs
    exact List.append_cancel_left hs
  have hclosed : ∀ event ∈ new, NetworkEvent.closed event.session = event := by
    intro event hin
    have hin' : event ∈ ofSession event.session new := mem_ofSession.mpr ⟨hin, rfl⟩
    rw [hqueue] at hin'
    split at hin'
    · exact (List.mem_singleton.mp hin').symm
    · cases hin'
  refine ⟨h.connected, new.map (·.session), ?_, ?_, fun s => ?_⟩
  · rw [e, List.map_map]
    congr 1
    exact (List.map_id new).symm.trans
      (List.map_congr_left fun event hin => (hclosed event hin).symm)
  · rw [List.nodup_iff_count_le_one]
    intro s
    have hcount : (new.map (·.session)).count s = (ofSession s new).length := by
      rw [List.count, List.countP_map, List.countP_eq_length_filter]
      rfl
    rw [hcount, hqueue]
    split
    · exact Nat.le_refl 1
    · exact Nat.zero_le 1
  · constructor
    · intro hs
      obtain ⟨event, hin, hsession⟩ := List.mem_map.mp hs
      have hin' : event ∈ ofSession s new := mem_ofSession.mpr ⟨hin, hsession⟩
      rw [hqueue] at hin'
      by_contra hkept
      rw [if_neg hkept] at hin'
      cases hin'
    · intro hs
      have hin : NetworkEvent.closed s ∈ ofSession s new := by
        rw [hqueue, if_pos hs]
        exact List.mem_singleton_self _
      exact List.mem_map.mpr ⟨_, (mem_ofSession.mp hin).1, rfl⟩

theorem Closes.trans (h : Closes n n1) (h' : Closes n1 n') : Closes n n' := by
  obtain ⟨hsub, gone, e, hnodup, hgone⟩ := h
  obtain ⟨hsub', gone', e', hnodup', hgone'⟩ := h'
  refine ⟨Finset.Subset.trans hsub' hsub, gone ++ gone', ?_, ?_, fun s => ?_⟩
  · rw [e', e, List.map_append, List.append_assoc]
  · rw [List.nodup_append]
    refine ⟨hnodup, hnodup', fun s hs t ht hst => ?_⟩
    subst hst
    exact ((hgone s).mp hs).2 ((hgone' s).mp ht).1
  · rw [List.mem_append, hgone, hgone']
    constructor
    · intro hs
      cases hs with
      | inl hs => exact ⟨hs.1, fun hkept => hs.2 (hsub' hkept)⟩
      | inr hs => exact ⟨hsub hs.1, hs.2⟩
    · intro hs
      by_cases hmid : s ∈ n1.connected
      · exact .inr ⟨hmid, hs.2⟩
      · exact .inl ⟨hs.1, hmid⟩

/-- Events in front of the queue stay there. -/
theorem Closes.behind (h : Closes n n') (front : List NetworkEvent) :
    Closes { n with events := front ++ n.events } { n' with events := front ++ n'.events } := by
  obtain ⟨hsub, gone, e, hnodup, hgone⟩ := h
  refine ⟨hsub, gone, ?_, hnodup, hgone⟩
  show front ++ n'.events = front ++ n.events ++ gone.map NetworkEvent.closed
  rw [e, List.append_assoc]

/-- Each session that goes is one event that comes. -/
theorem Closes.balance (h : Closes n n') :
    n'.connected.card + n'.events.length = n.connected.card + n.events.length := by
  obtain ⟨hsub, gone, e, hnodup, hgone⟩ := h
  have hset : gone.toFinset = n.connected \ n'.connected := by
    ext s
    rw [List.mem_toFinset, hgone, Finset.mem_sdiff]
  have hlen : gone.length = (n.connected \ n'.connected).card := by
    rw [← hset, List.toFinset_card_of_nodup hnodup]
  have hcard := Finset.card_sdiff_add_card_eq_card hsub
  rw [e, List.length_append, List.length_map, hlen]
  omega

theorem Closes.pending_le (h : Closes n n') : n'.pending ≤ n.pending := by
  have hbalance := h.balance
  have hcard := Finset.card_le_card h.connected
  unfold pending
  omega

end Network

namespace PacketProcessor
variable {host : Host} {p p' : PacketProcessor}

theorem handleEvent_closes (hok : p.rooms.Ok) {event : NetworkEvent} {loginNow gameNow : Time}
    (h : p.handleEvent host event loginNow gameNow = .ok p') :
    Network.Closes p.network p'.network := by
  obtain ⟨p1, packets, e, -, hemits⟩ := handleEvent_deed host p hok event loginNow gameNow
  obtain rfl := Except.ok.inj (e.symm.trans h)
  obtain ⟨new, hnew, -⟩ := hemits.events
  exact (handleEvent_quits hok h).closes ⟨new, hnew⟩

theorem sweepRooms_closes (hok : p.rooms.Ok) {traversal : Traversal RoomId} {now : Time}
    (h : p.sweepRooms host traversal now = .ok p') : Network.Closes p.network p'.network := by
  obtain ⟨p1, packets, e, -, hnetwork, -⟩ :=
    sweepRooms_deed host (fun _ => True) p hok traversal now
  obtain rfl := Except.ok.inj (e.symm.trans h)
  obtain ⟨new, hnew, -⟩ := (Network.emits_deliver host packets p.network).events
  exact (sweepRooms_quits hok h).closes ⟨new, by rw [hnetwork]; exact hnew⟩

/-! ## `FlushFinishedGames` -/

/-- One round of the loop of `FlushFinishedGames`. -/
def flushRound (host : Host) (p : PacketProcessor) : Round PacketProcessor PacketProcessor :=
  match p.rooms.tryPopFinishedGame with
  | (none, _) => .halt p
  | (some finished, rooms) => .next (announce host { p with rooms := rooms } finished)

theorem foldl_disconnect_rooms (targets : List SessionId) (p : PacketProcessor) :
    (targets.foldl disconnect p).rooms = p.rooms := by
  induction targets generalizing p with
  | nil => rfl
  | cons target targets ih => exact ih (p.disconnect target)

/-- Nothing that a round calls queues a finished game. -/
theorem announce_rooms (p : PacketProcessor) (finished : FinishedGame) :
    (announce host p finished).rooms = p.rooms := by
  unfold announce
  cases (gameEnd finished).encode with
  | none => exact foldl_disconnect_rooms finished.targets p
  | some body =>
    dsimp only
    rw [notifyRoomState_eq, broadcast_eq]
    rfl

theorem flushLoop_loop (queue : List FinishedGame) (p : PacketProcessor)
    (hqueue : p.rooms.finishedGames = queue) :
    (∀ rounds, queue.length < rounds →
      loop (flushRound host) rounds p = some (flushLoop host queue.length p)) ∧
      (flushLoop host queue.length p).rooms.finishedGames = [] := by
  induction queue generalizing p with
  | nil =>
    have hround : flushRound host p = .halt p := by
      unfold flushRound RoomManager.tryPopFinishedGame
      rw [hqueue]
    refine ⟨fun rounds hrounds => ?_, hqueue⟩
    obtain ⟨more, rfl⟩ : ∃ more, rounds = more + 1 := ⟨rounds - 1, by omega⟩
    exact loop_halt hround more
  | cons finished rest ih =>
    have hpop : p.rooms.tryPopFinishedGame =
        (some finished, { p.rooms with finishedGames := rest }) := by
      unfold RoomManager.tryPopFinishedGame
      rw [hqueue]
    generalize hnext : announce host { p with rooms := { p.rooms with finishedGames := rest } }
      finished = next
    have hround : flushRound host p = .next next := by
      unfold flushRound
      rw [hpop, ← hnext]
    have hflush : flushLoop host (finished :: rest).length p = flushLoop host rest.length next := by
      rw [List.length_cons, flushLoop, hpop, ← hnext]
    have hrest : next.rooms.finishedGames = rest := by
      rw [← hnext, announce_rooms]
    obtain ⟨hloop, hempty⟩ := ih next hrest
    rw [hflush]
    refine ⟨fun rounds hrounds => ?_, hempty⟩
    obtain ⟨more, rfl⟩ : ∃ more, rounds = more + 1 := ⟨rounds - 1, by omega⟩
    rw [loop_next hround]
    exact hloop more (by rw [List.length_cons] at hrounds; omega)

/-! ## The event loop -/

/-- A call of `Update` between two rounds of its event loop. -/
structure Draining where
  processor : PacketProcessor
  rounds : Nat := 0
  /-- The events that were popped, in order. -/
  consumed : List NetworkEvent := []

/-- One round of the event loop; `clock` has the two readings of each round. -/
def drainRound (host : Host) (clock : Nat → Time × Time) (d : Draining) :
    Round Draining (Except LogicError Draining) :=
  match d.processor.network.tryPopEvent with
  | none => .halt (.ok d)
  | some (event, network) =>
    match handleEvent host { d.processor with network := network } event (clock d.rounds).1
        (clock d.rounds).2 with
    | .error e => .halt (.error e)
    | .ok p => .next ⟨p, d.rounds + 1, d.consumed ++ [event]⟩

/-- What a call of `Update` reads from the clock, and the orders it finds its maps in. -/
structure Readings where
  opening : Traversal RoomId × Time
  events : Nat → Time × Time
  first : Traversal SessionId × Time
  second : Traversal SessionId × Time
  closing : Traversal RoomId × Time

/-- `Update` with so many rounds for its event loop; none if it is still in the loop then. -/
def update (host : Host) (p : PacketProcessor) (readings : Readings) (rounds : Nat) :
    Option (Except LogicError PacketProcessor) :=
  match p.beginUpdate host readings.opening.1 readings.opening.2 with
  | .error e => some (.error e)
  | .ok p =>
    match loop (drainRound host readings.events) rounds { processor := p } with
    | none => none
    | some (.error e) => some (.error e)
    | some (.ok d) =>
      some (d.processor.endUpdate host readings.first readings.second readings.closing.1
        readings.closing.2)

/-- What holds of the processor whenever the loop looks for an event. -/
structure Running (p : PacketProcessor) : Prop where
  rooms : p.rooms.Ok
  connected : ∀ s ∈ p.network.connected, s ≠ 0

theorem Running.requeued (h : Running p) (events : List NetworkEvent) :
    Running { p with network := { p.network with events := events } } :=
  ⟨h.rooms, h.connected⟩

theorem Running.handleEvent (h : Running p) (event : NetworkEvent) (loginNow gameNow : Time) :
    ∃ p', p.handleEvent host event loginNow gameNow = .ok p' ∧ Running p' ∧
      Network.Closes p.network p'.network := by
  obtain ⟨p', packets, e, hdeed, hemits⟩ :=
    handleEvent_deed host p h.rooms event loginNow gameNow
  refine ⟨p', e, ⟨hdeed.ok h.rooms ?_, fun s hs => h.connected s (hemits.connected hs)⟩,
    handleEvent_closes h.rooms e⟩
  intro asked hasked
  exact h.connected _ hasked.2.connected

theorem Running.sweepRooms (h : Running p) (traversal : Traversal RoomId) (now : Time) :
    ∃ p', p.sweepRooms host traversal now = .ok p' ∧ Running p' ∧
      Network.Closes p.network p'.network := by
  obtain ⟨p', packets, e, hdeed, hnetwork, -⟩ :=
    sweepRooms_deed host (fun _ => False) p h.rooms traversal now
  have hcloses := sweepRooms_closes h.rooms e
  refine ⟨p', e, ⟨hdeed.ok h.rooms ?_, fun s hs => h.connected s (hcloses.connected hs)⟩, hcloses⟩
  intro asked hasked
  exact hasked.elim

/-- The two outcomes of a round: the queue is empty, or its first event was handled. -/
inductive Drained (host : Host) (clock : Nat → Time × Time) (d : Draining) :
    Round Draining (Except LogicError Draining) → Prop
  | empty (h : d.processor.network.events = []) : Drained host clock d (.halt (.ok d))
  | handled {event : NetworkEvent} {rest : List NetworkEvent} {p : PacketProcessor}
      (hqueue : d.processor.network.events = event :: rest) (hrunning : Running p)
      (hcloses : Network.Closes { d.processor.network with events := rest } p.network) :
      Drained host clock d (.next ⟨p, d.rounds + 1, d.consumed ++ [event]⟩)

theorem drainRound_cases {d : Draining} (h : Running d.processor)
    (clock : Nat → Time × Time) : Drained host clock d (drainRound host clock d) := by
  unfold drainRound Network.tryPopEvent
  cases hqueue : d.processor.network.events with
  | nil => exact .empty hqueue
  | cons event rest =>
    obtain ⟨p, e, hrunning, hcloses⟩ :=
      @Running.handleEvent host _ (h.requeued rest) event (clock d.rounds).1 (clock d.rounds).2
    dsimp only
    rw [e]
    exact .handled hqueue hrunning hcloses

/-- A round takes an event, and for each session it disconnects it gives back one for two. -/
theorem drainRound_pending {d d' : Draining} (h : Running d.processor)
    {clock : Nat → Time × Time} (hround : drainRound host clock d = .next d') :
    d'.processor.network.pending < d.processor.network.pending := by
  have hcases := @drainRound_cases host d h clock
  rw [hround] at hcases
  cases hcases with
  | handled hqueue _ hcloses =>
    have hle := hcloses.pending_le
    unfold Network.pending at hle ⊢
    rw [hqueue, List.length_cons]
    dsimp only at hle ⊢
    omega

/-- What holds between the rounds of a loop that began when `start` was the network: the events
    popped and those still queued are the ones of `start`, and one for each session gone since. -/
structure Kept (start : Network) (d : Draining) : Prop where
  running : Running d.processor
  closes : Network.Closes start
    { d.processor.network with events := d.consumed ++ d.processor.network.events }

theorem Kept.round {start : Network} {d d' : Draining} (h : Kept start d)
    {clock : Nat → Time × Time} (hround : drainRound host clock d = .next d') : Kept start d' := by
  have hcases := @drainRound_cases host d h.running clock
  rw [hround] at hcases
  cases hcases with
  | @handled event rest p hqueue hrunning hcloses =>
    have hpopped : d.consumed ++ d.processor.network.events = d.consumed ++ [event] ++ rest := by
      rw [hqueue, List.append_assoc, List.singleton_append]
    have hbefore := h.closes
    rw [hpopped] at hbefore
    exact ⟨hrunning, hbefore.trans (hcloses.behind (d.consumed ++ [event]))⟩

theorem kept_of_visits (h : Running p) {clock : Nat → Time × Time} {d : Draining}
    (hd : Visits (drainRound host clock) { processor := p } d) : Kept p.network d := by
  have hself : Network.Closes p.network p.network :=
    (Network.Quits.refl _).closes ⟨[], (List.append_nil _).symm⟩
  exact hd.invariant ⟨h, hself⟩ fun _ _ ha hround => ha.round hround

/-- The event loop is over after as many rounds as `pending` allows, with the queue empty. -/
theorem drain_ends (h : Running p) (clock : Nat → Time × Time) :
    ∃ last, (∀ rounds, p.network.pending < rounds →
        loop (drainRound host clock) rounds { processor := p } = some (.ok last)) ∧
      Kept p.network last ∧ last.processor.network.events = [] := by
  obtain ⟨last, r, hlast, hr, hall⟩ := @loop_ends _ _ (drainRound host clock)
    (fun d => d.processor.network.pending) { processor := p }
    fun a b ha hround => drainRound_pending (kept_of_visits h ha).running hround
  have hkept := kept_of_visits h hlast
  have hcases := @drainRound_cases host last hkept.running clock
  rw [hr] at hcases
  cases hcases with
  | empty hempty => exact ⟨last, hall, hkept, hempty⟩

/-- The processor with another queue before it. -/
def withQueue (p : PacketProcessor) (queue : List NetworkEvent) : PacketProcessor :=
  { p with network := { p.network with events := queue } }

/-- `Update` from every reachable state and on every queue: it returns, after no more rounds of
    its event loop than twice the connected sessions and the queued events; each round lowers
    that number; each event, queued before or by a handler, is popped once; and
    `FlushFinishedGames` returns after a round for each record, since none calls for another. -/
theorem update_terminates (host : Host) {timeout : Time} {p : PacketProcessor}
    (hp : PacketProcessor.make {} timeout = .ok p) {history : List (Entry Server Input)}
    {c : Server} (hrun : ServerRun host p history c) (queue : List NetworkEvent)
    (readings : Readings) :
    (∃ p1 last p2,
      (c.processor.withQueue queue).beginUpdate host readings.opening.1 readings.opening.2 =
        .ok p1 ∧
      (∀ rounds, 2 * c.network.connected.card + queue.length < rounds →
        loop (drainRound host readings.events) rounds { processor := p1 } = some (.ok last) ∧
          (c.processor.withQueue queue).update host readings rounds = some (.ok p2)) ∧
      (∀ d d', Visits (drainRound host readings.events) { processor := p1 } d →
        drainRound host readings.events d = .next d' →
          2 * d'.processor.network.connected.card + d'.processor.network.events.length <
            2 * d.processor.network.connected.card + d.processor.network.events.length) ∧
      last.processor.network.events = [] ∧
      ∃ gone : List SessionId, last.consumed = queue ++ gone.map NetworkEvent.closed ∧
        gone.Nodup ∧
          ∀ s, s ∈ gone ↔ s ∈ c.network.connected ∧ s ∉ last.processor.network.connected) ∧
    ∀ q : PacketProcessor,
      (∀ rounds, q.rooms.finishedGames.length < rounds →
        loop (flushRound host) rounds q = some (q.flushFinishedGames host)) ∧
      (q.flushFinishedGames host).rooms.finishedGames = [] ∧
      ∀ finished, (announce host q finished).rooms = q.rooms := by
  have hc := ServerRun.sound hp hrun
  have hstart : Running (c.processor.withQueue queue) :=
    ⟨hc.rooms, fun s hs => (hc.connected s hs).1⟩
  refine ⟨?_, fun q => ?_⟩
  · obtain ⟨p1, hbegin, hp1, hopened⟩ :=
      @Running.sweepRooms host _ hstart readings.opening.1 readings.opening.2
    obtain ⟨last, hloop, hkept, hempty⟩ := @drain_ends host _ hp1 readings.events
    obtain ⟨p2, -, hend, -⟩ := endUpdate_deed host (fun _ => True) last.processor
      hkept.running.rooms readings.first readings.second readings.closing.1 readings.closing.2
    have hless : p1.network.pending ≤ 2 * c.network.connected.card + queue.length :=
      hopened.pending_le
    refine ⟨p1, last, p2, hbegin, fun rounds hrounds => ?_, fun d d' hd hround => ?_, hempty, ?_⟩
    · have hlast := hloop rounds (by omega)
      refine ⟨hlast, ?_⟩
      unfold update
      rw [beginUpdate, hbegin]
      dsimp only
      rw [hlast]
      dsimp only
      rw [hend]
    · exact drainRound_pending (kept_of_visits hp1 hd).running hround
    · obtain ⟨-, gone, hgone, hnodup, hwho⟩ := hopened.trans hkept.closes
      refine ⟨gone, ?_, hnodup, hwho⟩
      have hall : last.consumed ++ last.processor.network.events =
          queue ++ gone.map NetworkEvent.closed := hgone
      rwa [hempty, List.append_nil] at hall
  · obtain ⟨hloop, hempty⟩ := @flushLoop_loop host q.rooms.finishedGames q rfl
    exact ⟨hloop, hempty, announce_rooms q⟩

/-- A host for which every send fails. -/
def deaf : Host := ⟨fun _ => 0, fun _ _ => false⟩

def Readings.zero : Readings :=
  ⟨(.ascending, 0), fun _ => (0, 0), (.ascending, 0), (.ascending, 0), (.ascending, 0)⟩

/-- Two sessions with a request each, whose answers disconnect them. -/
theorem deaf_update : ∃ history c p2, ServerRun deaf fresh history c ∧
    c.network.connected = {1, 2} ∧
      (c.processor.withQueue [{ session := 1, packetId := echoReq },
        { session := 2, packetId := echoReq }]).update deaf .zero 7 = some (.ok p2) := by
  obtain ⟨history, c, hrun, hcheck⟩ := ServerRun.played deaf fresh [.accept 0, .accept 0]
    (fun _ c => decide (c.network.connected = {1, 2})) (by decide +kernel)
  have hconnected : c.network.connected = {1, 2} := of_decide_eq_true hcheck
  obtain ⟨⟨p1, last, p2, -, hall, -⟩, -⟩ := update_terminates deaf make_fresh hrun
    [{ session := 1, packetId := echoReq }, { session := 2, packetId := echoReq }] .zero
  refine ⟨history, c, p2, hrun, hconnected, (hall 7 ?_).2⟩
  rw [hconnected]
  decide

/-! ## `Update` as a run -/

/-- One round, as the server's step for an event. -/
theorem drainRound_step {d d' : Draining} {clock : Nat → Time × Time}
    (h : drainRound host clock d = .next d') :
    ServerStep host ⟨d.processor, true⟩ (.event (clock d.rounds).1 (clock d.rounds).2)
      ⟨d'.processor, true⟩ := by
  unfold drainRound at h
  cases hpop : d.processor.network.tryPopEvent with
  | none =>
    rw [hpop] at h
    cases h
  | some popped =>
    obtain ⟨event, network⟩ := popped
    rw [hpop] at h
    dsimp only at h
    cases he : handleEvent host { d.processor with network := network } event (clock d.rounds).1
        (clock d.rounds).2 with
    | error e =>
      rw [he] at h
      cases h
    | ok p =>
      rw [he] at h
      cases h
      show (if !true then none
        else match d.processor.network.tryPopEvent with
          | none => none
          | some (event, network) => some _) = _
      rw [hpop]
      exact congrArg (fun r => some (Except.map (fun p => (⟨p, true⟩ : Server)) r)) he

theorem drainRound_halt {d last : Draining} {clock : Nat → Time × Time}
    (h : drainRound host clock d = .halt (.ok last)) :
    last = d ∧ d.processor.network.tryPopEvent = none := by
  unfold drainRound at h
  cases hpop : d.processor.network.tryPopEvent with
  | none =>
    rw [hpop] at h
    cases h
    exact ⟨rfl, rfl⟩
  | some popped =>
    obtain ⟨event, network⟩ := popped
    rw [hpop] at h
    dsimp only at h
    split at h
    · cases h
    · cases h

end PacketProcessor

/-- An input that is a part of `Update`. -/
def Input.ofUpdate : Input → Bool
  | .beginUpdate .. => true
  | .event .. => true
  | .endUpdate .. => true
  | _ => false

/-- `history` goes on to `c` by steps of `Update` alone. -/
def Updates (host : Host) (p : PacketProcessor) (history : List (Entry Server Input))
    (c : Server) : Prop :=
  ∃ steps, ServerRun host p (history ++ steps) c ∧ ∀ e ∈ steps, e.label.ofUpdate = true

theorem Updates.step {host : Host} {p : PacketProcessor} {history : List (Entry Server Input)}
    {c c' : Server} {l : Input} (h : Updates host p history c) (hstep : ServerStep host c l c')
    (hl : l.ofUpdate = true) : Updates host p history c' := by
  obtain ⟨steps, hsteps, hall⟩ := h
  refine ⟨steps ++ [⟨c, l, c'⟩], ?_, ?_⟩
  · rw [← List.append_assoc]
    exact hsteps.snoc hstep
  · intro e he
    rcases List.mem_append.mp he with he | he
    · exact hall e he
    · rw [List.mem_singleton.mp he]
      exact hl

/-- A call of `Update` that returns is a run of the server's steps for it, one after another
    with nothing from the network between them. -/
theorem PacketProcessor.update_run {host : Host} {p p2 : PacketProcessor}
    {history : List (Entry Server Input)} {c : Server} (hrun : ServerRun host p history c)
    (hidle : c.updating = false) {readings : Readings} {rounds : Nat}
    (h : c.processor.update host readings rounds = some (.ok p2)) :
    Updates host p history ⟨p2, false⟩ := by
  have hbefore : Updates host p history c :=
    ⟨[], by rwa [List.append_nil], fun e he => by cases he⟩
  unfold update at h
  cases hbegin : c.processor.beginUpdate host readings.opening.1 readings.opening.2 with
  | error e =>
    rw [hbegin] at h
    cases h
  | ok p1 =>
    rw [hbegin] at h
    dsimp only at h
    have hopen : ServerStep host c (.beginUpdate readings.opening.1 readings.opening.2)
        ⟨p1, true⟩ := by
      show (if c.updating then none else some _) = _
      rw [hidle, hbegin]
      rfl
    have hdrain : ∀ d, Visits (drainRound host readings.events) { processor := p1 } d →
        Updates host p history ⟨d.processor, true⟩ := by
      intro d hd
      exact @Visits.invariant _ _ _ (fun d => Updates host p history ⟨d.processor, true⟩) _ _
        (hbefore.step hopen rfl) (fun _ _ ha hround => ha.step (drainRound_step hround) rfl) hd
    cases hloop : loop (drainRound host readings.events) rounds { processor := p1 } with
    | none =>
      rw [hloop] at h
      cases h
    | some r =>
      rw [hloop] at h
      cases r with
      | error e => cases h
      | ok last =>
        have hend := Option.some.inj h
        obtain ⟨d, hd, hhalt⟩ := loop_result hloop
        obtain ⟨rfl, hempty⟩ := drainRound_halt hhalt
        have hclose : ServerStep host ⟨last.processor, true⟩
            (.endUpdate readings.first readings.second readings.closing.1 readings.closing.2)
            ⟨p2, false⟩ := by
          show (if !true || last.processor.network.tryPopEvent.isSome then none else some _) = _
          rw [hempty, hend]
          rfl
        exact (hdrain last hd).step hclose rfl

end SelectServer
