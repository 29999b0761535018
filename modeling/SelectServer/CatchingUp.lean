import SelectServer.WorldViews

/- What is under way arrives. Whenever the server is at the top of its loop, one turn
   of its network sends all that it has for its sessions (`run_flushes`), and turns of
   the clients read it, some bytes in each (`step_reads`), so the system can always
   go on until every screen shows what the server has: `players_catch_up`. None of
   this needs a line to be typed or the logic to be called. -/
namespace SelectServer
open Wire (Bytes)
open Histories

/-! ## The server sends -/

namespace TcpNetwork
variable {t t1 : TcpNetwork} {s : SessionId} {client : ClientSession}

/-- A session that is given nothing, and all of whose send buffer is taken. -/
theorem Exchanged.flushed (h : Exchanged t t1 client none
      (if client.sendBuffer = [] then none else some (.bytes client.sendBuffer.length))) :
    t1.session client.id = some { client with sendBuffer := [] } := by
  obtain ⟨t2, result, queued, hreceive, -, hsession⟩ := h
  have hresult : result = .ok client := (congrArg Prod.fst (Option.some.inj hreceive)).symm
  rw [hresult] at hsession
  rw [hsession]
  show sendIfReady client _ = _
  by_cases hempty : client.sendBuffer = []
  · rw [if_pos hempty, ← hempty]
    rfl
  · rw [if_neg hempty]
    show sendClient client (.bytes client.sendBuffer.length) = _
    rw [sendClient_bytes (List.length_pos_iff.mpr hempty) (Nat.le_refl _), List.drop_length]

/-- A `Run` in which nothing is ready but the sockets for writing, and `send` takes all it is given. -/
theorem run_flushes (ht : t.Sound) {os : Sockets}
    (hselect : os.select = some (fun _ => false, fun _ => true))
    (hsend : ∀ client ∈ t.clients, os.send client.id = .bytes client.sendBuffer.length) :
    ∃ t1, t.run os = some (true, t1) ∧
      ∀ s, t1.session s = (t.session s).map fun client => { client with sendBuffer := [] } := by
  obtain ⟨t1, hfold, -, e⟩ := run_polled ht hselect
  refine ⟨t1, e, fun s => ?_⟩
  obtain ⟨hother, hself⟩ := serveAll_session s t.ids ht ht.nodup hfold
  cases hsession : t.session s with
  | none =>
    rw [(hother (session_none.mp hsession)).session, hsession]
    rfl
  | some client =>
    obtain ⟨hin, hid⟩ := session_some hsession
    have hexchanged := hself client hsession (session_mem hsession)
    have hreceived : received os (t.readSet.filter fun _ => false) s = none :=
      if_neg (by simp)
    have hsent : sent os (t.writeSet.filter fun _ => true) s =
        if client.sendBuffer = [] then none else some (.bytes client.sendBuffer.length) := by
      have hwatched := (watched ht).2.2 client hin
      unfold sent
      rw [List.filter_true, ← hid, hsend client hin]
      by_cases hempty : client.sendBuffer = []
      · rw [if_pos hempty, if_neg fun h => hwatched.mp h hempty]
      · rw [if_neg hempty, if_pos (hwatched.mpr hempty)]
    rw [hreceived, hsent] at hexchanged
    rw [← hid]
    exact hexchanged.flushed

end TcpNetwork

/-! ## A client reads -/

namespace Link
variable {k k' : Link} {e : ServerEnd}

/-- The sockets of a turn that reads a chunk and sends nothing. -/
def reading (chunk : Chunk) : ClientSockets :=
  { select := some (true, false), recv := .data chunk, send := .wouldBlock }

theorem bytesRead_reading (chunk : Chunk) :
    TcpClient.bytesRead (reading chunk) = chunk.bytes := rfl

theorem first_chunk {bytes : Bytes} (h : bytes ≠ []) : ∃ chunk : Chunk, chunk.bytes <+: bytes := by
  have hlength := List.length_pos_iff.mpr h
  refine ⟨⟨bytes.take 1, ?_, ?_⟩, List.take_prefix ..⟩
  · rw [← List.length_pos_iff, List.length_take]
    omega
  · rw [List.length_take]
    omega

theorem allows_reading {chunk : Chunk} (h : chunk.bytes <+: k.down) :
    k.allows (reading chunk) = true := by
  unfold allows
  rw [Bool.and_eq_true, List.isPrefixOf_iff_prefix, bytesRead_reading, Bool.or_eq_true]
  exact ⟨h, .inr rfl⟩

/-- Such a turn of a client that runs hands `ProcessResponse` the packets that are complete then. -/
theorem Sound.turn_reading (h : k.Sound e) (hexit : k.client.exit = none) {chunk : Chunk}
    (hchunk : chunk.bytes <+: k.down) : k.client.tcp.bytesSent (reading chunk) = [] ∧
      ∃ tcp : TcpClient, k.client.step (.run (reading chunk)) =
        some (ClientApp.respond tcp.packets { k.client with tcp := tcp }) := by
  obtain ⟨consumed, hsound⟩ := h.down
  obtain ⟨hconnected, hpackets⟩ := h.running hexit
  have hopen : (k.downward e).fault = none := by
    unfold downward
    rw [hexit]
    rfl
  have hreceived := TcpClient.receive_spec hpackets hopen hsound
    (show (Received.data chunk).bytes <+: k.down from hchunk)
  rcases hreceived with ⟨ps, rest, _, hreceive, -⟩ | ⟨_, -, hnothing, -⟩
  · obtain ⟨-, -, hquiet⟩ := TcpClient.run_received hconnected
      (show (reading chunk).select = some (true, false) from rfl) (by rw [if_pos rfl]; exact hreceive)
    have hrun := hquiet (by simp)
    have hsent : k.client.tcp.bytesSent (reading chunk) = [] := by
      unfold TcpClient.bytesSent
      rw [hrun]
      dsimp only
      rw [Nat.sub_self, List.take_zero]
    refine ⟨hsent, { k.client.tcp with recvBuffer := rest, packets := ps.map TcpClient.packetOf }, ?_⟩
    unfold ClientApp.step
    rw [if_neg (by rw [hexit]; simp)]
    show k.client.turn (reading chunk) = _
    unfold ClientApp.turn
    rw [hrun]
    rfl
  -- bytes that come are not the end of the connection
  · exact absurd hnothing chunk.nonempty

/-- A client that runs takes the first bytes on the way to it, and goes on, unless `ProcessResponse`
refuses what they say. -/
theorem Sound.reads (h : k.Sound e) (hexit : k.client.exit = none) (hdown : k.down ≠ []) :
    ∃ os k', k.step (.run os) = some k' ∧ k'.down.length < k.down.length ∧
      (k'.client.exit = none ∨ k'.client.exit = some .response) ∧ k'.up = k.up ∧
        k'.client.asked = k.client.asked := by
  obtain ⟨chunk, hchunk⟩ := first_chunk hdown
  obtain ⟨hsent, tcp, hstep⟩ := h.turn_reading hexit hchunk
  have hrespond := ClientApp.respond_spec tcp.packets { k.client with tcp := tcp } rfl
  generalize ClientApp.respond tcp.packets { k.client with tcp := tcp } = c at hstep hrespond
  refine ⟨reading chunk, ⟨c, k.up ++ k.client.tcp.bytesSent (reading chunk),
    k.down.drop (TcpClient.bytesRead (reading chunk)).length⟩, ?_, ?_, ?_, ?_, ?_⟩
  · unfold Link.step
    dsimp only
    rw [if_pos (allows_reading hchunk), hstep, Option.map_some]
  · have hlength := hchunk.length_le
    have hpos := List.length_pos_iff.mpr chunk.nonempty
    dsimp only
    rw [bytesRead_reading, List.length_drop]
    omega
  · cases hrespond with
    | all => exact .inl hexit
    | refused _ _ _ _ hleft => exact .inr hleft
  · dsimp only
    rw [hsent, List.append_nil]
  · cases hrespond with
    | all => rfl
    | refused _ _ _ hasked => exact hasked

end Link

/-! ## The whole system -/

open TcpNetwork

namespace World
variable {m : Bytes → Nat} {w w1 w' : World} {app0 : ServerApp} {config : ServerConfig}
  {listening : Bool} {history later : List (Entry World WorldInput)} {s : SessionId}

/-- A step that only carries bytes: nobody types anything, and the logic is not called. -/
def Carrying (l : WorldInput) : Prop :=
  (∃ os, l = .server (.poll none os)) ∨ ∃ s os, l = .client s (.run os)

/-- No step that only carries bytes handles a request. -/
theorem carried_inTime {l : WorldInput} (hl : Carrying l)
    (h : ReadyInTime (logicHistory history)) :
    ReadyInTime (logicHistory (history ++ [⟨w, l, w'⟩])) := by
  intro e he r hq
  unfold logicHistory at he
  rw [List.filterMap_append, List.flatMap_append] at he
  rcases List.mem_append.mp he with he | he
  · exact h e he r hq
  · rcases hl with ⟨os, rfl⟩ | ⟨s, os, rfl⟩
    · have hlabel : e.label ∈ ServerApp.told ⟨w.server, .poll none os, w'.server⟩ := by
        rw [← ServerApp.retold_labels]
        refine List.mem_map_of_mem ?_
        simpa [serverEntry] using he
      obtain ⟨event, -, hevent⟩ := List.mem_map.mp hlabel
      rintro ⟨_, _, _, _, ⟨_, _, _, hasks, -⟩, -⟩
      rw [hasks] at hevent
      unfold Input.ofEvent at hevent
      split at hevent <;> cases hevent
    · simp [serverEntry] at he

/-- Clients have read what is on the way to them: some of it, or all, and nothing else has happened. -/
structure Reading (w w' : World) : Prop where
  server : w'.server = w.server
  exits : ∀ s, (w'.links s).client.exit = (w.links s).client.exit
  asked : ∀ s, (w'.links s).client.asked = (w.links s).client.asked
  up : ∀ s, (w'.links s).up = (w.links s).up
  down : ∀ s, (w.links s).down = [] → (w'.links s).down = []

theorem Reading.refl (w : World) : Reading w w :=
  ⟨rfl, fun _ => rfl, fun _ => rfl, fun _ => rfl, fun _ h => h⟩

theorem Reading.trans (h : Reading w w1) (h' : Reading w1 w') : Reading w w' where
  server := h'.server.trans h.server
  exits s := (h'.exits s).trans (h.exits s)
  asked s := (h'.asked s).trans (h.asked s)
  up s := (h'.up s).trans (h.up s)
  down s hs := h'.down s (h.down s hs)

/-- Only the client of one connection has done anything. -/
theorem Reading.one {k : Link} (hexit : k.client.exit = (w.links s).client.exit)
    (hasked : k.client.asked = (w.links s).client.asked) (hup : k.up = (w.links s).up)
    (hdown : (w.links s).down = [] → k.down = []) :
    Reading w { w with links := Function.update w.links s k } := by
  have hlink : ∀ s', Function.update w.links s k s' = if s' = s then k else w.links s' :=
    fun s' => Function.update_apply ..
  refine ⟨rfl, fun s' => ?_, fun s' => ?_, fun s' => ?_, fun s' hs' => ?_⟩
  all_goals
    dsimp only
    rw [hlink]
    by_cases hs : s' = s
  · rw [if_pos hs, hs, hexit]
  · rw [if_neg hs]
  · rw [if_pos hs, hs, hasked]
  · rw [if_neg hs]
  · rw [if_pos hs, hs, hup]
  · rw [if_neg hs]
  · rw [if_pos hs]
    exact hdown (hs ▸ hs')
  · rw [if_neg hs]
    exact hs'

/-- One client takes some of the bytes that are on the way to it. -/
theorem step_reads (hinit : ServerApp.init config listening = .ok (some app0))
    (hrun : WorldRun m app0 history w) (hready : ReadyInTime (logicHistory history))
    (hexit : (w.links s).client.exit = none) (hdown : (w.links s).down ≠ []) :
    ∃ os w', WorldStep m w (.client s (.run os)) w' ∧ Reading w w' ∧
      (w'.links s).down.length < (w.links s).down.length := by
  obtain ⟨e, hsound, -⟩ := run_carries hinit hrun s
  obtain ⟨os, k', hstep, hless, hleft, hup, hasked⟩ := hsound.reads hexit hdown
  have htaken : WorldStep m w (.client s (.run os))
      { w with links := Function.update w.links s k' } := by
    unfold WorldStep World.step
    dsimp only
    rw [hstep, Option.map_some]
  -- no client leaves over what it reads when `ROOM_READY_REQ` comes in time
  have hstays := run_not_refused hinit (hrun.snoc htaken) (carried_inTime (.inr ⟨s, os, rfl⟩) hready) s
  dsimp only at hstays
  rw [Function.update_self] at hstays
  have hexit' : k'.client.exit = none := hleft.resolve_right hstays
  refine ⟨os, _, htaken, .one (hexit'.trans hexit.symm) hasked hup fun h => absurd h hdown, ?_⟩
  dsimp only
  rw [Function.update_self]
  exact hless

/-- One client takes all the bytes that are on the way to it. -/
theorem run_reads (hinit : ServerApp.init config listening = .ok (some app0)) (n : Nat) :
    ∀ {w : World} {history : List (Entry World WorldInput)}, WorldRun m app0 history w →
      ReadyInTime (logicHistory history) → (w.links s).client.exit = none →
        (w.links s).down.length ≤ n → ∃ later w', WorldRun m app0 (history ++ later) w' ∧
          ReadyInTime (logicHistory (history ++ later)) ∧ (∀ e ∈ later, Carrying e.label) ∧
            Reading w w' ∧ (w'.links s).down = [] := by
  induction n with
  | zero =>
    intro w history hrun hready _ hn
    refine ⟨[], w, ?_, ?_, by simp, .refl w, List.eq_nil_of_length_eq_zero (by omega)⟩
    · rw [List.append_nil]
      exact hrun
    · rw [List.append_nil]
      exact hready
  | succ n ih =>
    intro w history hrun hready hexit hn
    by_cases hdown : (w.links s).down = []
    · exact ih hrun hready hexit (by rw [hdown]; exact Nat.zero_le n)
    · obtain ⟨os, w1, htaken, hreading, hless⟩ := step_reads hinit hrun hready hexit hdown
      have hcarrying : Carrying (.client s (.run os)) := .inr ⟨s, os, rfl⟩
      obtain ⟨later, w', hrun', hready', hlater, hreading', hnone⟩ := ih (hrun.snoc htaken)
        (carried_inTime hcarrying hready) ((hreading.exits s).trans hexit) (by omega)
      rw [List.append_assoc] at hrun' hready'
      refine ⟨_, w', hrun', hready', fun e he => ?_, hreading.trans hreading', hnone⟩
      rcases List.mem_append.mp he with he | he
      · rw [List.mem_singleton.mp he]
        exact hcarrying
      · exact hlater e he

/-- One client after the other takes all the bytes that are on the way to it. -/
theorem run_readAll (hinit : ServerApp.init config listening = .ok (some app0))
    (sessions : List SessionId) :
    ∀ {w : World} {history : List (Entry World WorldInput)}, WorldRun m app0 history w →
      ReadyInTime (logicHistory history) → ∃ later w', WorldRun m app0 (history ++ later) w' ∧
        (∀ e ∈ later, Carrying e.label) ∧ Reading w w' ∧
          ∀ s ∈ sessions, (w.links s).client.exit = none → (w'.links s).down = [] := by
  induction sessions with
  | nil =>
    intro w history hrun _
    refine ⟨[], w, ?_, by simp, .refl w, by simp⟩
    rw [List.append_nil]
    exact hrun
  | cons s sessions ih =>
    intro w history hrun hready
    by_cases hexit : (w.links s).client.exit = none
    -- what the others have read stays read
    · obtain ⟨first, w1, hrun1, hready1, hfirst, hreading, hnone⟩ :=
        run_reads hinit _ hrun hready hexit (Nat.le_refl _)
      obtain ⟨later, w', hrun', hlater, hreading', hall⟩ := ih hrun1 hready1
      rw [List.append_assoc] at hrun'
      refine ⟨_, w', hrun', fun e he => ?_, hreading.trans hreading', fun s' hs' hexit' => ?_⟩
      · rcases List.mem_append.mp he with he | he
        · exact hfirst e he
        · exact hlater e he
      · rcases List.mem_cons.mp hs' with rfl | hs'
        · exact hreading'.down s' hnone
        · exact hall s' hs' ((hreading.exits s').trans hexit')
    · obtain ⟨later, w', hrun', hlater, hreading, hall⟩ := ih hrun hready
      refine ⟨later, w', hrun', hlater, hreading, fun s' hs' hexit' => ?_⟩
      rcases List.mem_cons.mp hs' with rfl | hs'
      · exact absurd hexit' hexit
      · exact hall s' hs' hexit'

/-! ### The turn of the server -/

/-- The sockets of a turn in which nothing comes to the server, and all that it has is sent. -/
def flushing (w : World) : Sockets where
  select := some (fun _ => false, fun _ => true)
  recv _ := .wouldBlock
  send s := .bytes (((w.server.network.session s).map (·.sendBuffer.length)).getD 0)
  accept _ := .wouldBlock

/-- The session of a client is the one that its id finds. -/
theorem session_of_mem {t : TcpNetwork} (ht : t.Sound) {client : ClientSession}
    (h : client ∈ t.clients) : t.session client.id = some client := by
  obtain ⟨index, hindex⟩ := List.mem_iff_getElem?.mp h
  exact session_at ht.nodup hindex

theorem flushing_send (hs : w.server.network.Sound) {client : ClientSession}
    (h : client ∈ w.server.network.clients) :
    w.flushing.send client.id = .bytes client.sendBuffer.length := by
  unfold flushing
  dsimp only
  rw [session_of_mem hs h]
  rfl

theorem flushing_allowed (hs : w.server.network.Sound) : w.allows w.flushing = true := by
  unfold allows
  rw [List.all_eq_true]
  intro client hin
  have hread : w.server.network.bytesRead w.flushing client.id = [] := by
    have hnot : w.server.network.receivedBy w.flushing client.id = none := if_neg (by simp)
    unfold bytesRead
    rw [session_of_mem hs hin, hnot]
  rw [Bool.and_eq_true, hread]
  refine ⟨rfl, ?_⟩
  show ((sent w.flushing (w.server.network.writeSet.filter fun _ => true) client.id).all
    (Sent.fits client.sendBuffer)) = true
  have hwatched := (watched hs).2.2 client hin
  unfold sent
  rw [List.filter_true, flushing_send hs hin]
  split
  · rename_i hwrite
    have hpos := List.length_pos_iff.mpr (hwatched.mp hwrite)
    show decide (0 < client.sendBuffer.length ∧ client.sendBuffer.length ≤ client.sendBuffer.length) =
      true
    exact decide_eq_true ⟨hpos, Nat.le_refl _⟩
  · rfl

/-- The server has sent all that it had. -/
theorem step_flushes (hs : w.server.network.Sound) (hphase : w.server.phase = .polling) :
    ∃ w1, WorldStep m w (.server (.poll none w.flushing)) w1 ∧
      w1.server.logic = w.server.logic ∧ (∀ s, (w1.links s).client = (w.links s).client) ∧
        ∀ s, w1.server.network.session s =
          (w.server.network.session s).map fun client => { client with sendBuffer := [] } := by
  obtain ⟨t1, hrun, hsessions⟩ := run_flushes hs
    (show w.flushing.select = some (fun _ => false, fun _ => true) from rfl)
    fun client hin => flushing_send hs hin
  have hnext : w.server.next m (.poll none w.flushing) =
      some { w.server with network := t1, phase := .updating false } := by
    unfold ServerApp.next ServerApp.step
    dsimp only
    rw [if_neg (by simp [hphase]), if_neg (by simp), hrun]
    rfl
  have htaken : WorldStep m w (.server (.poll none w.flushing)) { w with
      server := { w.server with network := t1, phase := .updating false }
      links := fun s => (w.links s).polled (w.server.network.bytesRead w.flushing s)
        (w.server.network.bytesSent t1 s) } := by
    unfold WorldStep World.step
    dsimp only
    rw [if_neg (by simp), if_pos (flushing_allowed hs), hnext, Option.map_some]
  exact ⟨_, htaken, rfl, fun _ => rfl, hsessions⟩

end World

open World

/-- Whatever has happened, and at whatever point the connections are, if the server is at the top of
its loop the system can go on, with nothing typed and no call of the logic, until nothing is under way
to any client that runs and is connected: nobody is lost on the way, and every player is shown the
game of the room as the server has it. -/
theorem players_catch_up {config : ServerConfig} {listening : Bool} {app0 : ServerApp}
    {m : Bytes → Nat} {history : List (Entry World WorldInput)} {w : World}
    (hinit : ServerApp.init config listening = .ok (some app0)) (hrun : WorldRun m app0 history w)
    (hphase : w.server.phase = .polling) (hready : ReadyInTime (logicHistory history)) :
    ∃ later w', WorldRun m app0 (history ++ later) w' ∧ (∀ e ∈ later, Carrying e.label) ∧
      w'.server.logic = w.server.logic ∧
      (∀ s, s ∈ w'.server.network.ids ↔ s ∈ w.server.network.ids) ∧
      (∀ s, (w'.links s).client.exit = (w.links s).client.exit) ∧
      ∀ s ∈ w.server.network.ids, (w.links s).client.exit = none → w'.Quiet s ∧
        ∀ r room, w.server.logic.rooms.On r room → s ∈ room.members →
          Mirrors (w'.links s).client.game room := by
  obtain ⟨p, hp, -⟩ := ServerApp.init_seen hinit
  obtain ⟨hs, -⟩ := ServerApp.run_shows hinit hp (run_server hrun)
  obtain ⟨w1, htaken, hlogic, hclients, hsessions⟩ := step_flushes (m := m) hs hphase
  have hcarrying : Carrying (.server (.poll none w.flushing)) := .inl ⟨_, rfl⟩
  obtain ⟨later, w', hrun', hlater, hreading, hall⟩ := run_readAll hinit w.server.network.ids
    (hrun.snoc htaken) (carried_inTime hcarrying hready)
  rw [List.append_assoc] at hrun'
  have hids : ∀ s, s ∈ w'.server.network.ids ↔ s ∈ w.server.network.ids := by
    intro s
    rw [hreading.server, ← not_iff_not, ← session_none, ← session_none, hsessions,
      Option.map_eq_none_iff]
  have hexits : ∀ s, (w'.links s).client.exit = (w.links s).client.exit := by
    intro s
    rw [hreading.exits, hclients]
  refine ⟨_, w', hrun', fun e he => ?_, ?_, hids, hexits, fun s hin hexit => ?_⟩
  · rcases List.mem_append.mp he with he | he
    · rw [List.mem_singleton.mp he]
      exact hcarrying
    · exact hlater e he
  · rw [hreading.server, hlogic]
  · have hquiet : w'.Quiet s := by
      refine ⟨(hexits s).trans hexit, (hids s).mpr hin, ?_, fun client hclient => ?_⟩
      · exact hall s hin (by rw [hclients, hexit])
      · rw [hreading.server, hsessions] at hclient
        obtain ⟨client0, -, rfl⟩ := Option.map_eq_some_iff.mp hclient
        rfl
    refine ⟨hquiet, fun r room hon hmem => ?_⟩
    rw [← hlogic, ← hreading.server] at hon
    exact (hquiet.upToDate hinit hrun').mirrors r room hon hmem

/-- The first stone is on the board, and the other player has not been shown it. -/
def World.stoneUnseen (history : List (Entry World WorldInput)) (w : World) : Bool :=
  (logicHistory history).all undisturbing &&
    decide (w.server.phase = .polling ∧ (w.links 2).client.exit = none ∧ 2 ∈ w.server.network.ids ∧
      (w.links 2).client.game.cells.cell 7 7 = .empty) &&
    (w.server.logic.rooms.rooms[(1 : RoomId)]?).any fun room =>
      decide (room.phase = .playing ∧ 2 ∈ room.members ∧ room.game.board.cell 7 7 = .black)

theorem players_catch_up_stone : ∃ app0 history w later w',
    ServerApp.init {} true = .ok (some app0) ∧ WorldRun (fun b => b.length) app0 history w ∧
      (w.links 2).client.game.cells.cell 7 7 = .empty ∧
        WorldRun (fun b => b.length) app0 (history ++ later) w' ∧
          (∀ e ∈ later, Carrying e.label) ∧ (w'.links 2).client.game.cells.cell 7 7 = .black := by
  obtain ⟨app0, history, w, hinit, hrun, hcheck⟩ :=
    scripted firstStone.dropLast.dropLast stoneUnseen ⟨_, rfl, by decide +kernel⟩
  simp only [stoneUnseen, Bool.and_eq_true, Option.any_eq_true, decide_eq_true_eq,
    List.all_eq_true] at hcheck
  obtain ⟨⟨hall, hphase, hexit, hin, hempty⟩, room, hroom, hplaying, hmem, hcell⟩ := hcheck
  have hready : ReadyInTime (logicHistory history) := by
    rintro e he r hq ⟨event, ready, u, room, hasked, -⟩
    exact undisturbing_asked (hall e he) hq event hasked
  obtain ⟨later, w', hrun', hlater, -, -, -, hshown⟩ := players_catch_up hinit hrun hphase hready
  have hcells := ((hshown 2 hin hexit).2 1 room ⟨hroom, hplaying⟩ hmem).cells
  exact ⟨app0, history, w, later, w', hinit, hrun, hempty, hrun', hlater, by rw [hcells, hcell]⟩

end SelectServer
