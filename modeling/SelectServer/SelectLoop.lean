import SelectServer.Lib.Loops
import SelectServer.NetworkRefinement

/- `TcpNetwork::Run`: one `select` over all sockets, a loop over the sessions by
   index that closes sessions as it goes, and a loop that accepts. An index is not
   advanced where a session was closed, so the loop serves each session that was
   there at its start once, in order, as a plain loop over their ids would
   (`serveLoop_sessions`); the sets have room for all of them (`mem_readSet`). -/
namespace SelectServer
open Wire (Bytes)
open Framing (Format Parsed)
open Histories Loops

inductive Socket where
  | listen
  | client (id : SessionId)
  deriving DecidableEq, Repr

abbrev FdSet := List Socket

/-- `FD_SET`, which leaves a set alone that is full. -/
def FdSet.set (set : FdSet) (socket : Socket) : FdSet :=
  if socket ∈ set then set
  else if set.length < fdSetSize then set ++ [socket]
  else set

/-- What the operating system answers in one `Run`. -/
structure Sockets where
  /-- The sockets that `select` leaves in its sets; none for `SOCKET_ERROR`. -/
  select : Option ((Socket → Bool) × (Socket → Bool))
  recv : SessionId → Received
  send : SessionId → Sent
  /-- By the number of the attempt. -/
  accept : Nat → Accepted

namespace TcpNetwork

def receiveIfReady (t : TcpNetwork) (client : ClientSession) :
    Option Received → Option (Except ReceiveFault ClientSession × TcpNetwork)
  | none => some (.ok client, t)
  | some received => t.receiveClient client received

def sendIfReady (client : ClientSession) : Option Sent → Option ClientSession
  | none => some client
  | some sent => sendClient client sent

/-- What the loop of `Run` does with a session, and whether its connection is kept. -/
def serve (t : TcpNetwork) (index : Nat) (client : ClientSession) (received : Option Received)
    (sent : Option Sent) : Option (Bool × TcpNetwork) :=
  match t.receiveIfReady client received with
  | none => none
  | some (.error _, t) => some (false, t)
  | some (.ok client, t) =>
    match sendIfReady client sent with
    | none => some (false, t)
    | some client => some (true, { t with clients := t.clients.set index client })

variable (os : Sockets) (reads writes : FdSet)

def received (s : SessionId) : Option Received :=
  if .client s ∈ reads then some (os.recv s) else none

def sent (s : SessionId) : Option Sent :=
  if .client s ∈ writes then some (os.send s) else none

/-- One round of the loop over `m_clients`. -/
def serveRound : Nat × TcpNetwork → Round (Nat × TcpNetwork) (Option TcpNetwork)
  | (index, t) =>
    match t.clients[index]? with
    | none => .halt (some t)
    | some client =>
      match t.serve index client (received os reads client.id) (sent os writes client.id) with
      | none => .halt none
      -- the next session has moved to this index
      | some (false, t) => .next (index, t.closeClient index)
      | some (true, t) => .next (index + 1, t)

def serveLoop (t : TcpNetwork) : Option TcpNetwork :=
  (loop (serveRound os reads writes) (t.clients.length + 1) (0, t)).join

def acceptLoop : Nat → Nat → TcpNetwork → TcpNetwork
  | 0, _, t => t
  | attempts + 1, attempt, t =>
    match t.acceptClient (os.accept attempt) with
    | (.none, t) => acceptLoop attempts (attempt + 1) t
    | (.acceptApiWsaewouldblock, t) => t
    | (.acceptMaxSessionCount, t) => acceptLoop attempts (attempt + 1) t
    | (.acceptEventQueueFull, t) => acceptLoop attempts (attempt + 1) t
    | (_, t) => t

/-- The sockets that are watched: all of them for reading, -/
def readSet (t : TcpNetwork) : FdSet :=
  t.clients.foldl (fun set client => set.set (.client client.id)) (FdSet.set [] .listen)

/-- and those with something to send for writing. -/
def writeSet (t : TcpNetwork) : FdSet :=
  t.clients.foldl (fun set client =>
    if client.sendBuffer.isEmpty then set else set.set (.client client.id)) []

def run (t : TcpNetwork) : Option (Bool × TcpNetwork) :=
  match os.select with
  | none => some (false, t)
  | some (readable, writable) =>
    let readSet := t.readSet.filter readable
    let writeSet := t.writeSet.filter writable
    if readSet.length + writeSet.length = 0 then some (true, t)
    else
      match serveLoop os readSet writeSet t with
      | none => none
      | some t =>
        if .listen ∈ readSet then some (true, acceptLoop os t.config.maxAcceptsPerRun 0 t)
        else some (true, t)

/-- A session is looked up by its id and served. -/
def serveSession (t : TcpNetwork) (s : SessionId) : Option TcpNetwork :=
  match t.clients.findIdx? (·.id = s) with
  | none => some t
  | some index => t.serveClient index (received os reads s) (sent os writes s)

/-! ## One session -/

theorem parsed_bodies (s : Bytes) {p : Payload}
    (hp : p ∈ (packetFormat.parse s).frames.map payload) :
    p.2.length ≤ maxPacketSize - headerSize := by
  have hparses := packetFormat.parses s
  generalize packetFormat.parse s = parsed at hparses hp
  induction hparses with
  | incomplete => cases hp
  | refused => cases hp
  | frame hframe _ ih =>
    rw [Parsed.cons, List.map_cons, List.mem_cons] at hp
    rcases hp with rfl | hp
    · have hmax := (packetFormat.total_bounds _ _ hframe).2
      show (List.drop headerSize _).length ≤ _
      rw [List.length_drop]
      exact Nat.sub_le_sub_right hmax _
    · exact ih hp

variable {t t' : TcpNetwork} {client : ClientSession} {index : Nat}

/-- What a read of a session queues, whatever the session had in its buffer. -/
theorem receiveClient_queues (client : ClientSession) (received : Received)
    (hroom : t.events.length + t.clients.length ≤ t.config.maxQueuedEvents) :
    ∃ result, ∃ queued : List Payload, t.receiveClient client received =
        some (result, { t with events := t.events ++ queued.map (packetEvent client.id) }) ∧
      (∀ client', result = .ok client' →
        client'.id = client.id ∧ client'.sendBuffer = client.sendBuffer) ∧
      (∀ p ∈ queued, p.2.length ≤ maxPacketSize - headerSize) ∧
      t.events.length + queued.length + t.clients.length ≤ t.config.maxQueuedEvents := by
  have hnothing : ∀ result : Except ReceiveFault ClientSession,
      t.receiveClient client received = some (result, t) →
        (∀ client', result = .ok client' →
          client'.id = client.id ∧ client'.sendBuffer = client.sendBuffer) →
          ∃ result, ∃ queued : List Payload, t.receiveClient client received =
              some (result, { t with events := t.events ++ queued.map (packetEvent client.id) }) ∧
            (∀ client', result = .ok client' →
              client'.id = client.id ∧ client'.sendBuffer = client.sendBuffer) ∧
            (∀ p ∈ queued, p.2.length ≤ maxPacketSize - headerSize) ∧
            t.events.length + queued.length + t.clients.length ≤ t.config.maxQueuedEvents := by
    intro result e hid
    refine ⟨result, [], ?_, hid, by simp, hroom⟩
    rw [e, List.map_nil, List.append_nil]
  cases received with
  | finished => exact hnothing _ rfl (by simp)
  | failed => exact hnothing _ rfl (by simp)
  | wouldBlock =>
    refine hnothing _ rfl fun client' e => ?_
    cases e
    exact ⟨rfl, rfl⟩
  | data chunk =>
    by_cases hlimit : client.recvBuffer.length > t.config.maxRecvBufferBytes ∨
        chunk.bytes.length > t.config.maxRecvBufferBytes - client.recvBuffer.length
    · exact hnothing (.error .bufferLimit) (if_pos hlimit) (by simp)
    generalize hread : { client with recvBuffer := client.recvBuffer ++ chunk.bytes } = reading
    have hsame : reading.id = client.id ∧ reading.sendBuffer = client.sendBuffer := by
      rw [← hread]
      exact ⟨rfl, rfl⟩
    obtain ⟨queued, refused, hall, e, -⟩ := enqueueAll_events reading
      ((packetFormat.parse reading.recvBuffer).frames.map payload) t
    have hbound := enqueueAll_bound reading
      ((packetFormat.parse reading.recvBuffer).frames.map payload) t hroom
    rw [e] at hbound
    refine ⟨if refused.isEmpty then
        (verdict (packetFormat.parse reading.recvBuffer).ending).map fun rest =>
          { reading with recvBuffer := rest }
      else .error .queueFull, queued, ?_, ?_, ?_, ?_⟩
    · refine (if_neg hlimit).trans ?_
      rw [hread, processRecvBuffer, processBuffer_eq, e, ← hsame.1]
      cases refused with
      | nil => rfl
      | cons => rfl
    · intro client' hresult
      split at hresult
      · cases hending : (packetFormat.parse reading.recvBuffer).ending with
        | broken =>
          rw [hending] at hresult
          cases hresult
        | kept rest =>
          rw [hending] at hresult
          cases hresult
          exact hsame
      · cases hresult
    · intro p hp
      exact parsed_bodies reading.recvBuffer (by rw [hall]; exact List.mem_append_left _ hp)
    · rw [List.length_append, List.length_map] at hbound
      exact hbound

/-- A session is served: packets of it are queued, and it is kept or to be closed. -/
inductive Served (t : TcpNetwork) (index : Nat) (client : ClientSession) :
    List Payload → Bool × TcpNetwork → Prop
  | kept {queued : List Payload} {client' : ClientSession} (hid : client'.id = client.id) :
      Served t index client queued (true, { t with
        clients := t.clients.set index client'
        events := t.events ++ queued.map (packetEvent client.id) })
  | dropped {queued : List Payload} :
      Served t index client queued (false, { t with
        events := t.events ++ queued.map (packetEvent client.id) })

theorem serve_queues (client : ClientSession) (received : Option Received) (sent : Option Sent)
    (hroom : t.events.length + t.clients.length ≤ t.config.maxQueuedEvents) :
    ∃ result queued, t.serve index client received sent = some result ∧
      Served t index client queued result ∧
      (∀ p ∈ queued, p.2.length ≤ maxPacketSize - headerSize) ∧
      t.events.length + queued.length + t.clients.length ≤ t.config.maxQueuedEvents := by
  have hsame : { t with events := t.events ++ ([] : List Payload).map (packetEvent client.id) } = t := by
    rw [List.map_nil, List.append_nil]
  obtain ⟨result, queued, e, hid, hbodies, hbound⟩ : ∃ result, ∃ queued : List Payload,
      t.receiveIfReady client received =
          some (result, { t with events := t.events ++ queued.map (packetEvent client.id) }) ∧
        (∀ client', result = .ok client' → client'.id = client.id) ∧
        (∀ p ∈ queued, p.2.length ≤ maxPacketSize - headerSize) ∧
        t.events.length + queued.length + t.clients.length ≤ t.config.maxQueuedEvents := by
    cases received with
    | none =>
      refine ⟨.ok client, [], by rw [hsame]; rfl, fun client' e => ?_, by simp, hroom⟩
      cases e
      rfl
    | some received =>
      obtain ⟨result, queued, e, hid, hbodies, hbound⟩ := receiveClient_queues client received hroom
      exact ⟨result, queued, e, fun client' h => (hid client' h).1, hbodies, hbound⟩
  unfold serve
  rw [e]
  cases result with
  | error fault => exact ⟨_, queued, rfl, .dropped, hbodies, hbound⟩
  | ok client1 =>
    have hid1 := hid client1 rfl
    dsimp only
    cases hsend : sendIfReady client1 sent with
    | none => exact ⟨_, queued, rfl, .dropped, hbodies, hbound⟩
    | some client2 =>
      refine ⟨_, queued, rfl, .kept (Eq.trans ?_ hid1), hbodies, hbound⟩
      cases sent with
      | none =>
        cases hsend
        rfl
      | some sent => exact sendClient_id hsend

/-- `serveClient` is `serve` with the session closed that is not kept. -/
theorem serveClient_eq (hclient : t.clients[index]? = some client) (received : Option Received)
    (sent : Option Sent) :
    t.serveClient index received sent = (t.serve index client received sent).map fun served =>
      if served.1 then served.2 else served.2.closeClient index := by
  unfold serveClient serve
  rw [hclient]
  cases received with
  | none =>
    cases sent with
    | none => rfl
    | some sent =>
      dsimp only [receiveIfReady, sendIfReady]
      cases sendClient client sent with
      | none => rfl
      | some client1 => rfl
  | some received =>
    dsimp only [receiveIfReady]
    cases t.receiveClient client received with
    | none => rfl
    | some after =>
      obtain ⟨result, t1⟩ := after
      cases result with
      | error fault => rfl
      | ok client1 =>
        cases sent with
        | none => rfl
        | some sent =>
          dsimp only [sendIfReady]
          cases sendClient client1 sent with
          | none => rfl
          | some client2 => rfl

/-! ## The loop -/

variable {os : Sockets} {reads writes : FdSet}

/-- The session at an index is the one that its id finds. -/
theorem find_at (hnodup : t.ids.Nodup) (hclient : t.clients[index]? = some client) :
    t.clients.findIdx? (·.id = client.id) = some index := by
  obtain ⟨hlt, hat⟩ := List.getElem?_eq_some_iff.mp hclient
  rw [List.findIdx?_eq_some_iff_getElem]
  refine ⟨hlt, by rw [hat, decide_eq_true rfl], fun j hj => ?_⟩
  intro hsame
  have hsame : t.clients[j].id = client.id := of_decide_eq_true hsame
  have hlength : t.ids.length = t.clients.length := List.length_map _
  have hids : t.ids.get ⟨j, by omega⟩ = t.ids.get ⟨index, by omega⟩ := by
    rw [List.get_eq_getElem, List.get_eq_getElem]
    unfold ids
    rw [List.getElem_map, List.getElem_map, hsame, hat]
  have := (hnodup.getElem_inj_iff).mp hids
  omega

/-- Serving a session keeps the others where they are, or moves the later ones up by one. -/
theorem serve_ids (ht : t.Sound) (hclient : t.clients[index]? = some client)
    {queued : List Payload} {result : Bool × TcpNetwork}
    (hserved : Served t index client queued result)
    (hbound : t.events.length + queued.length + t.clients.length ≤ t.config.maxQueuedEvents) :
    (if result.1 then result.2 else result.2.closeClient index).Sound ∧
      ((result.1 = true ∧ result.2.ids = t.ids) ∨
        (result.1 = false ∧ (result.2.closeClient index).ids = t.ids.eraseIdx index)) := by
  have hpackets : ∀ e ∈ queued.map (packetEvent client.id), e.type = .packet ∧ e.session ∈ t.ids := by
    intro e he
    obtain ⟨p, -, rfl⟩ := List.mem_map.mp he
    exact ⟨rfl, List.mem_map_of_mem (List.mem_of_getElem? hclient)⟩
  have hlimit : queued.map (packetEvent client.id) = [] ∨
      t.events.length + (queued.map (packetEvent client.id)).length + t.clients.length ≤
        t.config.maxQueuedEvents := by
    refine .inr ?_
    rw [List.length_map]
    exact hbound
  cases hserved with
  | @kept client' hid =>
    have hids := set_ids hclient hid
    exact ⟨(SessionAct.kept hids hpackets hlimit).sound ht, .inl ⟨rfl, hids⟩⟩
  | dropped =>
    have hqueued : SessionAct t (queued.map (packetEvent client.id))
        { t with events := t.events ++ queued.map (packetEvent client.id) } :=
      .kept rfl hpackets hlimit
    have hsound := hqueued.sound ht
    have hclosed := closeClient_act
      (t := { t with events := t.events ++ queued.map (packetEvent client.id) }) hclient
    refine ⟨hclosed.sound hsound, .inr ⟨rfl, ?_⟩⟩
    dsimp only
    rw [closeClient, hclient]
    exact (List.eraseIdx_map ..).symm

theorem serveRound_end (hend : t.clients[index]? = none) :
    serveRound os reads writes (index, t) = .halt (some t) := by
  rw [serveRound, hend]

theorem serveRound_next (hclient : t.clients[index]? = some client) {result : Bool × TcpNetwork}
    (hserve : t.serve index client (received os reads client.id) (sent os writes client.id) =
      some result) :
    serveRound os reads writes (index, t) = .next
      (if result.1 then index + 1 else index,
        if result.1 then result.2 else result.2.closeClient index) := by
  rw [serveRound, hclient]
  dsimp only
  rw [hserve]
  obtain ⟨keep, t1⟩ := result
  cases keep with
  | false => rfl
  | true => rfl

/-- From an index on, the loop serves the sessions from there on that were there when it came. -/
theorem serveRounds_sessions (n : Nat) : ∀ (index : Nat) (t : TcpNetwork), t.Sound →
    t.clients.length - index ≤ n →
      ∃ t', (t.ids.drop index).foldlM (serveSession os reads writes) t = some t' ∧ t'.Sound ∧
        ∀ rounds, n < rounds →
          loop (serveRound os reads writes) rounds (index, t) = some (some t') := by
  have hhalt : ∀ (index : Nat) (t : TcpNetwork), t.Sound → t.clients[index]? = none →
      ∃ t', (t.ids.drop index).foldlM (serveSession os reads writes) t = some t' ∧ t'.Sound ∧
        ∀ rounds, 0 < rounds →
          loop (serveRound os reads writes) rounds (index, t) = some (some t') := by
    intro index t ht hend
    have hdrop : t.ids.drop index = [] := by
      rw [List.drop_eq_nil_iff, ids, List.length_map]
      exact List.getElem?_eq_none_iff.mp hend
    refine ⟨t, by rw [hdrop]; rfl, ht, fun rounds hrounds => ?_⟩
    obtain ⟨more, rfl⟩ : ∃ more, rounds = more + 1 := ⟨rounds - 1, by omega⟩
    exact loop_halt (serveRound_end hend) more
  induction n with
  | zero =>
    intro index t ht hn
    exact hhalt index t ht (List.getElem?_eq_none_iff.mpr (by omega))
  | succ n ih =>
    intro index t ht hn
    cases hclient : t.clients[index]? with
    | none =>
      obtain ⟨t', hfold, hsound, hloop⟩ := hhalt index t ht hclient
      exact ⟨t', hfold, hsound, fun rounds hrounds => hloop rounds (by omega)⟩
    | some client =>
      obtain ⟨result, queued, hserve, hserved, -, hbound⟩ := @serve_queues t index client
        (received os reads client.id) (sent os writes client.id) ht.room
      obtain ⟨hsound, hids⟩ := serve_ids ht hclient hserved hbound
      have hround := serveRound_next hclient hserve
      have hsession : serveSession os reads writes t client.id =
          some (if result.1 then result.2 else result.2.closeClient index) := by
        unfold serveSession
        rw [find_at ht.nodup hclient]
        dsimp only
        rw [serveClient_eq hclient, hserve]
        rfl
      generalize hnext : (if result.1 then result.2 else result.2.closeClient index) = t1
        at hsound hround hsession
      generalize hindex : (if result.1 then index + 1 else index) = index1 at hround
      obtain ⟨hlt, hat⟩ := List.getElem?_eq_some_iff.mp hclient
      have hlength : t.ids.length = t.clients.length := List.length_map ..
      -- what comes after this session is the same before and after it is served
      have hlater : t1.ids.drop index1 = t.ids.drop (index + 1) ∧
          t1.ids.length - index1 ≤ n := by
        rcases hids with ⟨hkeep, hids⟩ | ⟨hkeep, hids⟩
        · rw [hkeep] at hnext hindex
          simp only [if_true] at hnext hindex
          subst hnext hindex
          rw [hids, hlength]
          exact ⟨rfl, by omega⟩
        · rw [hkeep] at hnext hindex
          simp only [Bool.false_eq_true, if_false] at hnext hindex
          subst hnext hindex
          rw [hids, List.length_eraseIdx_of_lt (by omega), hlength]
          refine ⟨?_, by omega⟩
          rw [List.eraseIdx_eq_take_drop_succ, List.drop_append_of_le_length
            (by rw [List.length_take]; omega), List.drop_take, Nat.sub_self, List.take_zero,
            List.nil_append]
      have hlength1 : t1.ids.length = t1.clients.length := List.length_map ..
      obtain ⟨t', hfold, hsound', hloop⟩ := ih index1 t1 hsound (by omega)
      refine ⟨t', ?_, hsound', fun rounds hrounds => ?_⟩
      · have hhead : t.ids.drop index = client.id :: t.ids.drop (index + 1) := by
          rw [List.drop_eq_getElem_cons (by omega)]
          congr 1
          unfold ids
          rw [List.getElem_map, hat]
        rw [hhead, List.foldlM_cons, hsession]
        show (t.ids.drop (index + 1)).foldlM (serveSession os reads writes) t1 = some t'
        rw [← hlater.1]
        exact hfold
      · obtain ⟨more, rfl⟩ : ∃ more, rounds = more + 1 := ⟨rounds - 1, by omega⟩
        rw [loop_next hround]
        exact hloop more (by omega)

/-- The loop over `m_clients` by index serves each session that was there at its start, once and in
order. -/
theorem serveLoop_sessions (ht : t.Sound) :
    ∃ t', serveLoop os reads writes t = some t' ∧
      t.ids.foldlM (serveSession os reads writes) t = some t' ∧ t'.Sound := by
  obtain ⟨t', hfold, hsound, hloop⟩ :=
    serveRounds_sessions t.clients.length 0 t ht (Nat.le_refl _)
  refine ⟨t', ?_, hfold, hsound⟩
  unfold serveLoop
  rw [hloop (t.clients.length + 1) (Nat.lt_succ_self _)]
  rfl

end TcpNetwork

/-! ## The sets -/

theorem FdSet.set_grows {set : FdSet} {socket other : Socket} (h : other ∈ set) :
    other ∈ FdSet.set set socket := by
  unfold FdSet.set
  split
  · exact h
  split
  · exact List.mem_append_left _ h
  · exact h

theorem FdSet.set_length (set : FdSet) (socket : Socket) :
    (FdSet.set set socket).length ≤ set.length + 1 := by
  unfold FdSet.set
  split
  · omega
  split
  · rw [List.length_append, List.length_singleton]
  · omega

theorem FdSet.mem_set {set : FdSet} {socket : Socket} (h : set.length < fdSetSize) :
    socket ∈ FdSet.set set socket := by
  unfold FdSet.set
  by_cases hin : socket ∈ set
  · rw [if_pos hin]
    exact hin
  · rw [if_neg hin, if_pos h]
    exact List.mem_append_right _ (List.mem_singleton_self _)

theorem FdSet.mem_set_iff {set : FdSet} {socket other : Socket} (h : other ∈ FdSet.set set socket) :
    other ∈ set ∨ other = socket := by
  unfold FdSet.set at h
  split at h
  · exact .inl h
  split at h
  · rcases List.mem_append.mp h with h | h
    · exact .inl h
    · exact .inr (List.mem_singleton.mp h)
  · exact .inl h

/-- Sockets that are put in a set with room for all of them are in it. -/
theorem foldl_set (wanted : ClientSession → Bool) (clients : List ClientSession) (set : FdSet)
    (hroom : set.length + clients.length ≤ fdSetSize) :
    (∀ socket ∈ set, socket ∈ clients.foldl (fun set client =>
      if wanted client then FdSet.set set (.client client.id) else set) set) ∧
    (∀ client ∈ clients, wanted client = true → .client client.id ∈ clients.foldl
      (fun set client => if wanted client then FdSet.set set (.client client.id) else set) set) ∧
    ∀ socket ∈ clients.foldl (fun set client =>
      if wanted client then FdSet.set set (.client client.id) else set) set,
      socket ∈ set ∨ ∃ client ∈ clients, wanted client = true ∧ socket = .client client.id := by
  induction clients generalizing set with
  | nil => exact ⟨fun _ h => h, by simp, fun _ h => .inl h⟩
  | cons client clients ih =>
    rw [List.length_cons] at hroom
    generalize hnext : (if wanted client then FdSet.set set (.client client.id) else set) = next
    have hlength : next.length ≤ set.length + 1 := by
      rw [← hnext]
      split
      · exact FdSet.set_length ..
      · omega
    have hgrows : ∀ socket ∈ set, socket ∈ next := by
      intro socket hsocket
      rw [← hnext]
      split
      · exact FdSet.set_grows hsocket
      · exact hsocket
    obtain ⟨hkeep, hput, honly⟩ := ih next (by omega)
    rw [List.foldl_cons, hnext]
    refine ⟨fun socket h => hkeep socket (hgrows socket h), ?_, fun socket h => ?_⟩
    · intro other hother hwanted
      rcases List.mem_cons.mp hother with rfl | hother
      · apply hkeep
        rw [← hnext, if_pos hwanted]
        exact FdSet.mem_set (by omega)
      · exact hput other hother hwanted
    · rcases honly socket h with h | ⟨other, hother, hwanted, e⟩
      · rw [← hnext] at h
        split at h
        · rename_i hwanted
          rcases FdSet.mem_set_iff h with h | h
          · exact .inl h
          · exact .inr ⟨client, List.mem_cons_self .., hwanted, h⟩
        · exact .inl h
      · exact .inr ⟨other, List.mem_cons_of_mem _ hother, hwanted, e⟩

theorem NetworkConfig.isValid_clients {config : NetworkConfig}
    (h : config.isValid = true) : config.maxClients < fdSetSize := by
  simp only [NetworkConfig.isValid, Bool.not_eq_true', Bool.or_eq_false_iff,
    decide_eq_false_iff_not] at h
  have hmax := h.1.1.1.1.1.1.1.2
  simp only [fdSetSize] at hmax ⊢
  omega

namespace TcpNetwork
variable {t : TcpNetwork}

/-- All sockets are watched: the sets have room for them. -/
theorem watched (ht : t.Sound) :
    .listen ∈ t.readSet ∧ (∀ client ∈ t.clients, .client client.id ∈ t.readSet) ∧
      ∀ client ∈ t.clients, (.client client.id ∈ t.writeSet ↔ client.sendBuffer ≠ []) := by
  have hfew : 1 + t.clients.length ≤ fdSetSize := by
    have := ht.few
    have := NetworkConfig.isValid_clients t.valid
    omega
  have hread : t.readSet = t.clients.foldl (fun set client =>
      if (fun _ => true) client then FdSet.set set (.client client.id) else set)
        (FdSet.set [] .listen) := rfl
  have hwrite : t.writeSet = t.clients.foldl (fun set client =>
      if !client.sendBuffer.isEmpty then FdSet.set set (.client client.id) else set) [] := by
    unfold writeSet
    congr 1
    funext set client
    cases client.sendBuffer.isEmpty with
    | true => rfl
    | false => rfl
  obtain ⟨hkeep, hput, -⟩ := foldl_set (fun _ => true) t.clients (FdSet.set [] .listen) hfew
  obtain ⟨-, hput', honly⟩ := foldl_set (fun client => !client.sendBuffer.isEmpty) t.clients []
    (by rw [List.length_nil]; omega)
  rw [← hread] at hkeep hput
  rw [← hwrite] at hput' honly
  refine ⟨hkeep _ (List.mem_singleton_self _), fun client h => hput client h rfl, ?_⟩
  intro client hclient
  constructor
  · intro h
    rcases honly _ h with h | ⟨other, hother, hwanted, e⟩
    · cases h
    · -- sessions are told apart by their ids
      have hid : client.id = other.id := Socket.client.inj e
      have hsame : client = other := List.inj_on_of_nodup_map ht.nodup hclient hother hid
      rw [hsame]
      intro hempty
      rw [hempty] at hwanted
      cases hwanted
  · intro h
    apply hput' client hclient
    rw [Bool.not_eq_true', List.isEmpty_eq_false_iff]
    exact h

/-! ## `Run` -/

variable {os : Sockets} {reads writes : FdSet}

/-- A session whose socket is not ready is left as it is. -/
theorem serveSession_idle {s : SessionId} (hread : .client s ∉ reads)
    (hwrite : .client s ∉ writes) : serveSession os reads writes t s = some t := by
  unfold serveSession received sent
  rcases t.find_cases s with ⟨hnone, -⟩ | ⟨index, client, hfind, hclient, rfl, -⟩
  · rw [hnone]
  · rw [hfind, if_neg hread, if_neg hwrite]
    dsimp only
    rw [serveClient_eq hclient]
    have hset : t.clients.set index client = t.clients := by
      obtain ⟨hlt, hat⟩ := List.getElem?_eq_some_iff.mp hclient
      rw [← hat]
      exact List.set_getElem_self hlt
    show some { t with clients := t.clients.set index client } = some t
    rw [hset]

theorem serveAll_idle (sessions : List SessionId) :
    sessions.foldlM (serveSession os [] []) t = some t := by
  induction sessions with
  | nil => rfl
  | cons s sessions ih =>
    rw [List.foldlM_cons, serveSession_idle (by simp) (by simp)]
    exact ih

theorem acceptLoop_sound (attempts : Nat) : ∀ (attempt : Nat) (t : TcpNetwork), t.Sound →
    (acceptLoop os attempts attempt t).Sound := by
  induction attempts with
  | zero => exact fun _ _ ht => ht
  | succ attempts ih =>
    intro attempt t ht
    obtain ⟨queued, hact⟩ := t.acceptClient_act (os.accept attempt)
    have hsound := hact.sound ht
    rw [acceptLoop]
    generalize t.acceptClient (os.accept attempt) = accepted at hsound
    obtain ⟨code, t1⟩ := accepted
    cases code with
    | none => exact ih _ _ hsound
    | acceptMaxSessionCount => exact ih _ _ hsound
    | acceptEventQueueFull => exact ih _ _ hsound
    | acceptApiWsaewouldblock => exact hsound
    | aacceptApiError => exact hsound
    | sessionIdExhausted => exact hsound
    | serverSocketFionbioFail => exact hsound

/-- `Run` where `select` has not failed. -/
theorem run_polled (ht : t.Sound) {readable writable : Socket → Bool}
    (hselect : os.select = some (readable, writable)) :
    ∃ t1, t.ids.foldlM (serveSession os (t.readSet.filter readable) (t.writeSet.filter writable)) t =
        some t1 ∧ t1.Sound ∧
      t.run os = some (true, if readable .listen then
        acceptLoop os t1.config.maxAcceptsPerRun 0 t1 else t1) := by
  unfold run
  rw [hselect]
  dsimp only
  have hlisten : .listen ∈ t.readSet.filter readable ↔ readable .listen = true := by
    rw [List.mem_filter]
    exact ⟨fun h => h.2, fun h => ⟨(watched ht).1, h⟩⟩
  by_cases hquiet : (t.readSet.filter readable).length + (t.writeSet.filter writable).length = 0
  · -- the timeout of `select`: no socket is ready
    have hreads : t.readSet.filter readable = [] := List.eq_nil_of_length_eq_zero (by omega)
    have hwrites : t.writeSet.filter writable = [] := List.eq_nil_of_length_eq_zero (by omega)
    have hnot : readable .listen = false := by
      rw [hreads] at hlisten
      rw [Bool.eq_false_iff]
      intro h
      cases hlisten.mpr h
    rw [if_pos hquiet, hreads, hwrites, hnot]
    exact ⟨t, serveAll_idle _, ht, rfl⟩
  · rw [if_neg hquiet]
    obtain ⟨t1, hloop, hfold, hsound⟩ := @serveLoop_sessions t os (t.readSet.filter readable)
      (t.writeSet.filter writable) ht
    refine ⟨t1, hfold, hsound, ?_⟩
    rw [hloop]
    dsimp only
    by_cases h : readable .listen = true
    · rw [if_pos (hlisten.mpr h), if_pos h]
    · rw [if_neg fun hin => h (hlisten.mp hin), if_neg h]

theorem run_sound (ht : t.Sound) {go : Bool} {t' : TcpNetwork} (h : t.run os = some (go, t')) :
    t'.Sound := by
  cases hselect : os.select with
  | none =>
    rw [run, hselect] at h
    cases h
    exact ht
  | some sets =>
    obtain ⟨readable, writable⟩ := sets
    obtain ⟨t1, -, hsound, e⟩ := run_polled ht hselect
    rw [e] at h
    cases h
    split
    · exact acceptLoop_sound _ _ _ hsound
    · exact hsound

/-! ## `Run` as steps of the network -/

variable {t0 t' : TcpNetwork} {history : List (Entry TcpNetwork TcpInput)}

theorem serveAll_steps (sessions : List SessionId) : ∀ {t : TcpNetwork}
    {history : List (Entry TcpNetwork TcpInput)}, Run TcpStep t0 history t →
      sessions.foldlM (serveSession os reads writes) t = some t' →
        ∃ history', Run TcpStep t0 history' t' := by
  induction sessions with
  | nil =>
    intro t history hrun h
    cases h
    exact ⟨history, hrun⟩
  | cons s sessions ih =>
    intro t history hrun h
    rw [List.foldlM_cons] at h
    obtain ⟨t1, hserve, h⟩ := Option.bind_eq_some_iff.mp h
    unfold serveSession at hserve
    split at hserve
    · cases hserve
      exact ih hrun h
    · rename_i index hfind
      have htaken : TcpStep t (.serve index (received os reads s) (sent os writes s)) t1 := hserve
      exact ih (hrun.snoc htaken) h

theorem acceptLoop_steps (attempts : Nat) : ∀ (attempt : Nat) {t : TcpNetwork}
    {history : List (Entry TcpNetwork TcpInput)}, Run TcpStep t0 history t →
      ∃ history', Run TcpStep t0 history' (acceptLoop os attempts attempt t) := by
  induction attempts with
  | zero => exact fun _ _ history hrun => ⟨history, hrun⟩
  | succ attempts ih =>
    intro attempt t history hrun
    have hnext : Run TcpStep t0 (history ++ [⟨t, .accept (os.accept attempt),
        (t.acceptClient (os.accept attempt)).2⟩]) (t.acceptClient (os.accept attempt)).2 :=
      hrun.snoc rfl
    rw [acceptLoop]
    generalize t.acceptClient (os.accept attempt) = accepted at hnext
    obtain ⟨code, t1⟩ := accepted
    cases code with
    | none => exact ih _ hnext
    | acceptMaxSessionCount => exact ih _ hnext
    | acceptEventQueueFull => exact ih _ hnext
    | acceptApiWsaewouldblock => exact ⟨_, hnext⟩
    | aacceptApiError => exact ⟨_, hnext⟩
    | sessionIdExhausted => exact ⟨_, hnext⟩
    | serverSocketFionbioFail => exact ⟨_, hnext⟩

theorem run_steps (ht : t.Sound) (hrun : Run TcpStep t0 history t) {go : Bool}
    (h : t.run os = some (go, t')) : ∃ history', Run TcpStep t0 history' t' := by
  cases hselect : os.select with
  | none =>
    rw [run, hselect] at h
    cases h
    exact ⟨history, hrun⟩
  | some sets =>
    obtain ⟨readable, writable⟩ := sets
    obtain ⟨t1, hfold, -, e⟩ := run_polled ht hselect
    obtain ⟨history1, hrun1⟩ := serveAll_steps _ hrun hfold
    rw [e] at h
    cases h
    split
    · exact acceptLoop_steps _ _ hrun1
    · exact ⟨history1, hrun1⟩

end TcpNetwork

open TcpNetwork

/-- Whatever has happened to a network, `Run` watches every socket, and every session with something
to send for writing too; it serves each session that is there when it begins once, in the order of
`m_clients`, however many of them it closes on the way, and accepts after that. -/
theorem run_serves_once {config : NetworkConfig} {last : SessionId} {t0 t : TcpNetwork}
    {history : List (Entry TcpNetwork TcpInput)} (hinit : init config last = some t0)
    (hrun : Run TcpStep t0 history t) (os : Sockets) :
    (.listen ∈ t.readSet ∧ (∀ client ∈ t.clients, .client client.id ∈ t.readSet) ∧
      ∀ client ∈ t.clients, (.client client.id ∈ t.writeSet ↔ client.sendBuffer ≠ [])) ∧
    (os.select = none → t.run os = some (false, t)) ∧
    ∀ readable writable, os.select = some (readable, writable) →
      ∃ served t', t.ids.foldlM (serveSession os (t.readSet.filter readable)
          (t.writeSet.filter writable)) t = some served ∧
        t.run os = some (true, t') ∧
        t' = (if readable .listen then acceptLoop os config.maxAcceptsPerRun 0 served else served) ∧
        ∃ history', Run TcpStep t0 history' t' := by
  obtain ⟨ht, hconfig, -⟩ := tcp_run hinit hrun
  refine ⟨watched ht, fun hselect => ?_, fun readable writable hselect => ?_⟩
  · rw [run, hselect]
  · obtain ⟨served, hfold, -, e⟩ := run_polled ht hselect
    obtain ⟨history1, hrun1⟩ := serveAll_steps _ hrun hfold
    obtain ⟨-, hconfig1, -⟩ := tcp_run hinit hrun1
    rw [hconfig1] at e
    exact ⟨served, _, hfold, e, rfl, run_steps ht hrun e⟩

/-- All sockets are ready: the first session has closed, and one more connection waits. -/
def busySockets : Sockets where
  select := some (fun _ => true, fun _ => true)
  recv s := if s = 1 then .finished else .wouldBlock
  send _ := .wouldBlock
  accept attempt := if attempt = 0 then .connection true 5 else .wouldBlock

theorem run_serves_once_busy : ∃ history t, Run TcpStep TcpNetwork.idle history t ∧
    t.ids = [1, 2] ∧ ∃ served t', t'.ids = [2, 3] ∧ t.run busySockets = some (true, t') ∧
      t' = acceptLoop busySockets 16 0 served := by
  obtain ⟨history, t, hrun, hcheck⟩ := TcpNetwork.played TcpNetwork.idle
    [.accept (.connection true 0), .accept (.connection true 0)]
    (fun _ t => decide (t.ids = [1, 2]) &&
      (t.run busySockets).any fun r : Bool × TcpNetwork => decide (r.2.ids = [2, 3])) (by decide +kernel)
  rw [Bool.and_eq_true, decide_eq_true_eq, Option.any_eq_true] at hcheck
  obtain ⟨hids, ⟨go, t1⟩, e1, hids1⟩ := hcheck
  have hinit : init {} 0 = some TcpNetwork.idle := rfl
  obtain ⟨-, -, hpolled⟩ := run_serves_once hinit hrun busySockets
  obtain ⟨served, t', -, e, haccepted, -⟩ := hpolled _ _ rfl
  obtain rfl : t' = t1 := congrArg Prod.snd (Option.some.inj (e.symm.trans e1))
  exact ⟨history, t, hrun, hids, served, t', of_decide_eq_true hids1, e, haccepted⟩

end SelectServer
