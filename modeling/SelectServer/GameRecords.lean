import SelectServer.Lib.Ledger
import SelectServer.RoomRuns

/- The results of games. A call starts a game, adds a stone to one, ends some, or
   leaves the games that are on as they are (`Turnover`). With the ledger of
   numbered games this gives `games_partitioned`: over any run every game is on in
   one room, or its result was recorded once. -/
namespace SelectServer
open Wire (Bytes)
open Histories Ledgers

/-- The time a call is given. -/
def Call.time : Call → Option Time
  | .leaveRoom _ _ now => some now
  | .startGame _ now => some now
  | .placeStone _ _ _ _ _ _ now => some now
  | .resign _ _ _ now => some now
  | .updateTimeouts _ now => some now
  | _ => none

namespace RoomManager
variable {m m1 m' : RoomManager}

/-- A room whose game is on. -/
def On (m : RoomManager) (r : RoomId) (room : Room) : Prop :=
  m.rooms[r]? = some room ∧ room.phase = .playing

/-- A step that leaves every game that is on as it is. -/
structure Quiet (m m' : RoomManager) : Prop where
  on : ∀ r room, m'.On r room ↔ m.On r room
  last : m'.lastGameId = m.lastGameId

theorem Quiet.refl (m : RoomManager) : Quiet m m := ⟨fun _ _ => Iff.rfl, rfl⟩

/-- Storing a room that waits, over none or over one that waits. -/
theorem on_store_waiting {r : RoomId} {room' : Room} (hwait : room'.phase = .waiting)
    (hold : ∀ room, m.rooms[r]? = some room → room.phase = .waiting) (r' : RoomId) (room : Room) :
    (m.store r room').On r' room ↔ m.On r' room := by
  simp only [On, RoomManager.store]
  grind

/-- Erasing a room that waits. -/
theorem on_erase_waiting {r : RoomId}
    (hold : ∀ room, m.rooms[r]? = some room → room.phase = .waiting) (r' : RoomId) (room : Room) :
    ({ m with rooms := m.rooms.erase r } : RoomManager).On r' room ↔ m.On r' room := by
  simp only [On]
  grind

theorem on_unique {r : RoomId} {room room' : Room} (h : m.On r room) (h' : m.On r room') :
    room = room' :=
  Option.some.inj (h.1.symm.trans h'.1)

theorem WellFormed.on_id (h : m.WellFormed) {r : RoomId} {room : Room} (hon : m.On r room) :
    room.id = r :=
  (h.stored hon.1).1

theorem on_settle {room : Room} (reason : GameEndReason) (r : RoomId) (room' : Room) :
    (m.settle room reason).On r room' ↔ m.On r room' ∧ r ≠ room.id := by
  have hwait : room.finishGame.phase = .waiting := rfl
  simp only [On, settle, RoomManager.store]
  grind

/-- The last step of `LeaveRoom` finds the room waiting, so it ends no game. -/
theorem quiet_depart {s : SessionId} {u : User} {room : Room} (hseat : m.Seated s u room)
    (hwait : room.phase = .waiting) : Quiet m (m.depart s u room) := by
  have hold : ∀ old, m.rooms[room.id]? = some old → old.phase = .waiting := by
    intro old hr
    rw [hseat.here] at hr
    exact Option.some.inj hr ▸ hwait
  unfold depart
  dsimp only
  split
  · exact ⟨on_erase_waiting (m := m.updateUser s u.returnToLobby) hold, rfl⟩
  · have hwait' : (room.removeMember s).2.phase = .waiting := by
      simp [Room.removeMember, hseat.contains]
    exact ⟨on_store_waiting (m := m.updateUser s u.returnToLobby) hwait' hold, rfl⟩

end RoomManager

/-! ## Why a game ends -/

/-- What in a call ends the game of `room`, the game it ends as, and the reason recorded. -/
inductive Cause (m : RoomManager) (l : Call) (a : Answer) (room : Room) :
    OmokGame → GameEndReason → Prop
  | stone {s : SessionId} {u : User} {x y : Int} {out : AcceptedMove} {now : Time}
      (hl : l = .placeStone s room.id room.gameId x y out now)
      (ha : a = .placed .success (RoomManager.acceptedMove room (room.getPlayerStone s) x y
        (room.game.tryPlaceStone (room.getPlayerStone s) x y).2))
      (hseat : m.Seated s u room) (hlive : ¬ room.isTurnExpired now = true)
      (hacc : room.game.Accepts (room.getPlayerStone s) x y)
      (hend : (room.game.tryPlaceStone (room.getPlayerStone s) x y).2.status ≠ .playing) :
      Cause m l a room (room.game.tryPlaceStone (room.getPlayerStone s) x y).2
        (room.game.tryPlaceStone (room.getPlayerStone s) x y).2.endReason
  | resigned {s : SessionId} {u : User} {now : Time} (hl : l = .resign s room.id room.gameId now)
      (ha : a = .resigned .success) (hseat : m.Seated s u room)
      (hlive : ¬ room.isTurnExpired now = true) :
      Cause m l a room (room.game.forfeit (room.getPlayerStone s)).2 .resigned
  | left {s : SessionId} {u : User} {reason : GameEndReason} {now : Time}
      (hl : l = .leaveRoom s reason now) (ha : a = .room .success)
      (hreason : reason = .leftRoom ∨ reason = .disconnected) (hseat : m.Seated s u room)
      (hlive : ¬ room.isTurnExpired now = true) :
      Cause m l a room (room.game.forfeit (room.getPlayerStone s)).2 reason
  | timeout {now : Time} (hl : l.time = some now) (he : room.isTurnExpired now = true)
      (ha : ∀ move, a ≠ .placed .success move) :
      Cause m l a room (room.game.forfeit room.game.nextTurn).2 .turnTimeout

/-- A sequence of games of `m` that end one after the other, with their records. -/
inductive Ends (m : RoomManager) (l : Call) (a : Answer) : RoomManager → List FinishedGame → Prop
  | nil : Ends m l a m []
  | snoc {m1 : RoomManager} {records : List FinishedGame} {room : Room} {g : OmokGame}
      {reason : GameEndReason} (h : Ends m l a m1 records) (hon : m1.On room.id room)
      (hcause : Cause m l a room g reason) :
      Ends m l a (m1.settle { room with game := g } reason)
        (records ++ [({ room with game := g } : Room).record reason])

/-- What a call does to the games that are on, and the results it records. -/
inductive Turnover (m : RoomManager) (l : Call) (a : Answer) :
    RoomManager → List FinishedGame → Prop
  | started {s guest : SessionId} {u : User} {room : Room} {now : Time}
      (hl : l = .startGame s now) (ha : a = .room .success) (hseat : m.Seated s u room)
      (hwait : room.phase = .waiting) (hhost : room.hostSession = s)
      (hpair : room.members = [s, guest]) (hne : guest ≠ s) (hlast : m.lastGameId ≠ 0xffffffff) :
      Turnover m l a (m.started room now) []
  | moved {s : SessionId} {u : User} {room : Room} {x y : Int} {out : AcceptedMove} {now : Time}
      (hl : l = .placeStone s room.id room.gameId x y out now)
      (ha : a = .placed .success (RoomManager.acceptedMove room (room.getPlayerStone s) x y
        (room.game.tryPlaceStone (room.getPlayerStone s) x y).2))
      (hseat : m.Seated s u room) (hphase : room.phase = .playing)
      (hacc : room.game.Accepts (room.getPlayerStone s) x y)
      (hgo : (room.game.tryPlaceStone (room.getPlayerStone s) x y).2.status = .playing) :
      Turnover m l a (m.store room.id
        (room.moved (room.game.tryPlaceStone (room.getPlayerStone s) x y).2 now)) []
  | ended {m1 m' : RoomManager} {records : List FinishedGame} (hends : Ends m l a m1 records)
      (hquiet : RoomManager.Quiet m1 m')
      (hmove : records = [] → ∀ move, a ≠ .placed .success move) :
      Turnover m l a m' records

namespace Ends
variable {m m1 : RoomManager} {l : Call} {a : Answer} {records : List FinishedGame}

theorem grows (h : Ends m l a m1 records) :
    m1.finishedGames = m.finishedGames ++ records ∧ m1.lastGameId = m.lastGameId := by
  induction h with
  | nil => simp
  | snoc _ _ _ ih => simp [RoomManager.settle, RoomManager.store, ih]

theorem on_before (h : Ends m l a m1 records) {r : RoomId} {room : Room} (hon : m1.On r room) :
    m.On r room := by
  induction h with
  | nil => exact hon
  | snoc _ _ _ ih => exact ih ((RoomManager.on_settle _ _ _).mp hon).1

theorem causes (h : Ends m l a m1 records) {f : FinishedGame} (hf : f ∈ records) :
    ∃ room g reason, m.On room.id room ∧ Cause m l a room g reason ∧
      f = ({ room with game := g } : Room).record reason := by
  induction h with
  | nil => cases hf
  | snoc hprev hon hcause ih =>
    rcases List.mem_append.mp hf with hf | hf
    · exact ih hf
    · exact ⟨_, _, _, hprev.on_before hon, hcause, List.mem_singleton.mp hf⟩

/-- One more room is looked at, and its game ends if its turn has run out. -/
theorem expire (h : Ends m l a m1 records) (hwf : m1.WellFormed) {now : Time}
    (hl : l.time = some now) (ha : ∀ move, a ≠ .placed .success move) (key : RoomId) :
    ∃ records', Ends m l a (RoomManager.expire now m1 key) records' := by
  unfold RoomManager.expire
  split
  · exact ⟨records, h⟩
  rename_i room hr
  split
  · rename_i he
    obtain ⟨hid, -⟩ := hwf.stored hr
    exact ⟨_, h.snoc ⟨hid ▸ hr, (RoomManager.isTurnExpired_iff.mp he).1⟩ (.timeout hl he ha)⟩
  · exact ⟨records, h⟩

theorem sweep {now : Time} (hl : l.time = some now) (ha : ∀ move, a ≠ .placed .success move)
    (keys : List RoomId) : ∀ {m1 : RoomManager} {records : List FinishedGame}, m1.WellFormed →
      Ends m l a m1 records →
        ∃ records', Ends m l a (keys.foldl (RoomManager.expire now) m1) records' := by
  induction keys with
  | nil => exact fun _ h => ⟨_, h⟩
  | cons key keys ih =>
    intro m1 records hwf h
    obtain ⟨records', h'⟩ := h.expire hwf hl ha key
    exact ih (hwf.expire now key) h'

end Ends

/-- The records that a call appended to the queue. -/
def recordedBy (m : RoomManager) (l : Call) (m' : RoomManager) : List FinishedGame :=
  match l with
  | .tryPopFinishedGame => []
  | _ => m'.finishedGames.drop m.finishedGames.length

theorem recordedBy_eq {m m' : RoomManager} {l : Call} {records : List FinishedGame}
    (hl : l ≠ .tryPopFinishedGame) (hgrow : m'.finishedGames = m.finishedGames ++ records) :
    recordedBy m l m' = records := by
  unfold recordedBy
  split
  · exact absurd rfl hl
  · rw [hgrow, List.drop_left]

/-- The record that a call took from the queue. -/
def Answer.popped? : Answer → List FinishedGame
  | .popped (some finished) => [finished]
  | _ => []

/-- Nothing is lost between the records queued and the records taken. -/
def QueueStep (m : RoomManager) (l : Call) (a : Answer) (m' : RoomManager) : Prop :=
  m.finishedGames ++ recordedBy m l m' = a.popped? ++ m'.finishedGames

theorem Turnover.of_ends {m m1 m' : RoomManager} {l : Call} {a : Answer}
    {records : List FinishedGame} (hends : Ends m l a m1 records) (hquiet : RoomManager.Quiet m1 m')
    (hqueue : m'.finishedGames = m1.finishedGames) (hl : l ≠ .tryPopFinishedGame)
    (hpop : a.popped? = []) (hmove : records = [] → ∀ move, a ≠ .placed .success move) :
    Turnover m l a m' (recordedBy m l m') ∧ QueueStep m l a m' := by
  have hgrow : m'.finishedGames = m.finishedGames ++ records := hqueue.trans hends.grows.1
  rw [QueueStep, recordedBy_eq hl hgrow, hpop, hgrow]
  exact ⟨.ended hends hquiet hmove, rfl⟩

/-- A call that queues and takes nothing. -/
theorem Turnover.of_silent {m m' : RoomManager} {l : Call} {a : Answer} (h : Turnover m l a m' [])
    (hqueue : m'.finishedGames = m.finishedGames) (hl : l ≠ .tryPopFinishedGame)
    (hpop : a.popped? = []) :
    Turnover m l a m' (recordedBy m l m') ∧ QueueStep m l a m' := by
  have hgrow : m'.finishedGames = m.finishedGames ++ [] := by rw [hqueue, List.append_nil]
  rw [QueueStep, recordedBy_eq hl hgrow, hpop, hqueue, List.append_nil]
  exact ⟨h, rfl⟩

theorem Answer.not_move {a : Answer} (h : a.accepted = false) (move : AcceptedMove) :
    a ≠ .placed .success move := by
  rintro rfl
  cases h

theorem Turnover.of_quiet {m m' : RoomManager} {l : Call} {a : Answer}
    (hquiet : RoomManager.Quiet m m') (hqueue : m'.finishedGames = m.finishedGames)
    (hl : l ≠ .tryPopFinishedGame) (hpop : a.popped? = [])
    (hmove : ∀ move, a ≠ .placed .success move) :
    Turnover m l a m' (recordedBy m l m') ∧ QueueStep m l a m' :=
  Turnover.of_silent (.ended .nil hquiet fun _ => hmove) hqueue hl hpop

theorem RoomManager.quiet_rooms {m m' : RoomManager} (hrooms : m'.rooms = m.rooms)
    (hlast : m'.lastGameId = m.lastGameId) : Quiet m m' :=
  ⟨fun _ _ => by unfold On; rw [hrooms], hlast⟩

theorem Turnover.of_refused (m : RoomManager) (l : Call) {a : Answer} (ha : a.accepted = false) :
    Turnover m l a m (recordedBy m l m) ∧ QueueStep m l a m := by
  have hrec : recordedBy m l m = [] := by
    unfold recordedBy
    split
    · rfl
    · rw [List.drop_length]
  have hpop : a.popped? = [] := by
    cases a with
    | popped finished =>
      cases finished with
      | none => rfl
      | some f => cases ha
    | _ => rfl
  rw [QueueStep, hrec, hpop, List.append_nil, List.nil_append]
  exact ⟨.ended .nil (RoomManager.Quiet.refl m) fun _ => Answer.not_move ha, rfl⟩

theorem RoomManager.Closed.ends {m m1 : RoomManager} {s : SessionId} {u : User}
    {room room1 : Room} {reason : GameEndReason} {now : Time}
    (hc : m.Closed s room reason now m1 room1) (hseat : m.Seated s u room)
    (hreason : reason = .leftRoom ∨ reason = .disconnected) :
    ∃ records, Ends m (.leaveRoom s reason now) (.room .success) m1 records := by
  cases hc with
  | idle => exact ⟨_, .nil⟩
  | expired he =>
    have hphase := (RoomManager.isTurnExpired_iff.mp he).1
    exact ⟨_, Ends.nil.snoc ⟨hseat.here, hphase⟩ (.timeout rfl he (by simp))⟩
  | forfeited hphase he =>
    exact ⟨_, Ends.nil.snoc ⟨hseat.here, hphase⟩ (.left rfl rfl hreason hseat he)⟩

theorem RoomManager.depart_queue (m : RoomManager) (s : SessionId) (u : User) (room : Room) :
    (m.depart s u room).finishedGames = m.finishedGames := by
  unfold depart
  dsimp only
  split <;> rfl

theorem RoomManager.waits {m : RoomManager} {room : Room} (hr : m.rooms[room.id]? = some room)
    (hwait : room.phase = .waiting) (old : Room) (hold : m.rooms[room.id]? = some old) :
    old.phase = .waiting := by
  rw [hr] at hold
  exact Option.some.inj hold ▸ hwait

/-- Everything a call can do to the games, with the records it queues. -/
theorem Effect.turnover {wideChars : Bytes → Nat} {m m' : RoomManager} {l : Call} {a : Answer}
    (he : Effect wideChars m l a m') (h : m.WellFormed) :
    Turnover m l a m' (recordedBy m l m') ∧ QueueStep m l a m' := by
  cases he with
  | refused ha => exact Turnover.of_refused m l ha
  | loggedIn =>
    exact Turnover.of_quiet (RoomManager.quiet_rooms rfl rfl) rfl (by simp) rfl (by simp)
  | removed =>
    exact Turnover.of_quiet (RoomManager.quiet_rooms rfl rfl) rfl (by simp) rfl (by simp)
  | @created s u title hidle htitle hspace hlast =>
    -- no game can be on under an id that is not in use
    have hnone : m.rooms[(m.newRoom s title).id]? = none := h.next_id_free hlast
    have hon : ∀ r room, (m.store _ (m.newRoom s title)).On r room ↔ m.On r room :=
      RoomManager.on_store_waiting rfl fun room hr => by rw [hnone] at hr; cases hr
    exact Turnover.of_quiet ⟨hon, rfl⟩ rfl (by simp) rfl (by simp)
  | @entered s u room hidle hroom hwait _ _ =>
    exact Turnover.of_quiet ⟨RoomManager.on_store_waiting hwait (RoomManager.waits hroom hwait), rfl⟩
      rfl (by simp) rfl (by simp)
  | @readied s u room ready hseat hwait _ =>
    exact Turnover.of_quiet
      ⟨RoomManager.on_store_waiting hwait (RoomManager.waits hseat.here hwait), rfl⟩ rfl
      (by simp) rfl (by simp)
  | @started s guest u room now hseat hwait hhost hpair hne _ hlast =>
    exact Turnover.of_silent (.started rfl rfl hseat hwait hhost hpair hne hlast) rfl (by simp) rfl
  | @moved s u room x y out now hseat hnum hlive hphase hacc =>
    -- the stone leaves the game on, or ends it and records the result
    by_cases hgo : (room.game.tryPlaceStone (room.getPlayerStone s) x y).2.status = .playing
    · have hmoved : m.moved room (room.game.tryPlaceStone (room.getPlayerStone s) x y).2 now =
          m.store room.id (room.moved (room.game.tryPlaceStone (room.getPlayerStone s) x y).2 now) :=
        if_pos hgo
      rw [hmoved]
      exact Turnover.of_silent (.moved rfl rfl hseat hphase hacc hgo) rfl (by simp) rfl
    · have hmoved : m.moved room (room.game.tryPlaceStone (room.getPlayerStone s) x y).2 now =
          m.settle { room with game := (room.game.tryPlaceStone (room.getPlayerStone s) x y).2 }
            (room.game.tryPlaceStone (room.getPlayerStone s) x y).2.endReason := by
        rw [RoomManager.moved, if_neg hgo, Room.moved, if_neg hgo]
      rw [hmoved]
      exact Turnover.of_ends
        (Ends.nil.snoc ⟨hseat.here, hphase⟩ (.stone rfl rfl hseat hlive hacc hgo))
        (RoomManager.Quiet.refl _) rfl (by simp) rfl (by simp)
  | @expired l a s u room now hactor ha hseat he =>
    have hphase := (RoomManager.isTurnExpired_iff.mp he).1
    have hl : l.time = some now ∧ l ≠ .tryPopFinishedGame := by
      cases l <;> simp_all [Call.actor, Call.time]
    have hpop : a.popped? = [] := by
      cases a with
      | popped finished => cases finished <;> simp_all [Answer.accepted, Answer.popped?]
      | _ => rfl
    exact Turnover.of_ends
      (Ends.nil.snoc ⟨hseat.here, hphase⟩ (.timeout hl.1 he (Answer.not_move ha)))
      (RoomManager.Quiet.refl _) rfl hl.2 hpop (by simp)
  | resigned hseat hnum hlive hphase =>
    exact Turnover.of_ends (Ends.nil.snoc ⟨hseat.here, hphase⟩ (.resigned rfl rfl hseat hlive))
      (RoomManager.Quiet.refl _) rfl (by simp) rfl (by simp)
  | left hseat hreason hclosed =>
    -- the game, if one is on, ends before the member goes
    obtain ⟨records, hends⟩ := hclosed.ends hseat hreason
    obtain ⟨-, hseat1, -, -, hwait1⟩ := h.closed hseat hclosed
    exact Turnover.of_ends hends (RoomManager.quiet_depart hseat1 hwait1)
      (RoomManager.depart_queue _ _ _ _) (by simp) rfl (by simp)
  | swept =>
    obtain ⟨records, hends⟩ :=
      Ends.sweep (l := .updateTimeouts _ _) (a := .none) rfl (by simp) _ h .nil
    exact Turnover.of_ends hends (RoomManager.Quiet.refl _) rfl (by simp) rfl (by simp)
  | @popped finished rest hq =>
    refine ⟨.ended .nil (RoomManager.quiet_rooms rfl rfl) (by simp), ?_⟩
    simp [QueueStep, recordedBy, Answer.popped?, hq]

/-! ## Every game is on or recorded once -/

namespace RoomManager

/-- The game `g` is on in the room `r`. -/
def Live (m : RoomManager) (r : RoomId) (g : GameId) : Prop := ∃ room, m.On r room ∧ room.gameId = g

/-- The ids handed out so far. -/
def Issued (m : RoomManager) (g : GameId) : Prop := 1 ≤ g ∧ g ≤ m.lastGameId

/-- The games on, and the results recorded so far, as a ledger. -/
abbrev Books (m : RoomManager) (records : List FinishedGame) : Prop :=
  Ledger FinishedGame.game m.Issued m.Live records

theorem Quiet.books {m m' : RoomManager} {records : List FinishedGame} (h : Quiet m m')
    (hb : m.Books records) : m'.Books records := by
  have hissued : m'.Issued = m.Issued := by
    funext g
    rw [Issued, Issued, h.last]
  have hlive : ∀ r g, m'.Live r g ↔ m.Live r g := by
    intro r g
    exact exists_congr fun room => and_congr_left' (h.on r room)
  rw [Books, hissued]
  exact hb.congr hlive

theorem settle_books {m : RoomManager} {records : List FinishedGame} {room : Room} {g : OmokGame}
    (reason : GameEndReason) (hb : m.Books records) (hon : m.On room.id room) :
    (m.settle { room with game := g } reason).Books
      (records ++ [({ room with game := g } : Room).record reason]) := by
  have hopen : m.Live room.id (({ room with game := g } : Room).record reason).game :=
    ⟨room, hon, rfl⟩
  refine hb.closed hopen fun r i => ?_
  constructor
  · rintro ⟨room', hon', e⟩
    obtain ⟨hon', hne⟩ := (on_settle _ _ _).mp hon'
    exact ⟨⟨room', hon', e⟩, hne⟩
  · rintro ⟨⟨room', hon', e⟩, hne⟩
    exact ⟨room', (on_settle _ _ _).mpr ⟨hon', hne⟩, e⟩

theorem on_started {m : RoomManager} {room : Room} {now : Time} (hr : m.rooms[room.id]? = some room)
    (hwait : room.phase = .waiting) (r : RoomId) (room' : Room) :
    (m.started room now).On r room' ↔
      m.On r room' ∨ (r = room.id ∧ room' = room.startGame (m.lastGameId + 1) now) := by
  have hplay : (room.startGame (m.lastGameId + 1) now).phase = .playing := rfl
  simp only [On, started, RoomManager.store]
  grind

theorem started_on {m : RoomManager} {room : Room} {now : Time} (hr : m.rooms[room.id]? = some room)
    (hwait : room.phase = .waiting) :
    (m.started room now).On room.id (room.startGame (m.lastGameId + 1) now) :=
  (on_started hr hwait _ _).mpr (Or.inr ⟨rfl, rfl⟩)

theorem started_books {m : RoomManager} {records : List FinishedGame} {room : Room} (now : Time)
    (hb : m.Books records) (hr : m.rooms[room.id]? = some room) (hwait : room.phase = .waiting)
    (hlast : m.lastGameId ≠ 0xffffffff) : (m.started room now).Books records := by
  refine hb.opened room.id (m.lastGameId + 1) ?_ ?_ ?_ ?_
  · rintro g ⟨room', ⟨hr', hplay⟩, -⟩
    rw [hr] at hr'
    rw [← Option.some.inj hr', hwait] at hplay
    cases hplay
  · rintro ⟨-, hle⟩
    grind
  · intro g
    show 1 ≤ g ∧ g ≤ m.lastGameId + 1 ↔ (1 ≤ g ∧ g ≤ m.lastGameId) ∨ g = m.lastGameId + 1
    grind
  · intro r g
    constructor
    · rintro ⟨room', hon, rfl⟩
      rcases (on_started hr hwait r room').mp hon with hon | ⟨rfl, rfl⟩
      · exact Or.inl ⟨room', hon, rfl⟩
      · exact Or.inr ⟨rfl, rfl⟩
    · rintro (⟨room', hon, rfl⟩ | ⟨rfl, rfl⟩)
      · exact ⟨room', (on_started hr hwait r room').mpr (Or.inl hon), rfl⟩
      · exact ⟨_, (on_started hr hwait _ _).mpr (Or.inr ⟨rfl, rfl⟩), rfl⟩

theorem on_moved {m : RoomManager} {room room1 : Room}
    (hphase : room1.phase = .playing) (r : RoomId) (room' : Room) :
    (m.store room.id room1).On r room' ↔
      (m.On r room' ∧ r ≠ room.id) ∨ (r = room.id ∧ room' = room1) := by
  simp only [On, RoomManager.store]
  grind

theorem moved_books {m : RoomManager} {records : List FinishedGame} {room room1 : Room}
    (hb : m.Books records) (hon : m.On room.id room) (hphase : room1.phase = .playing)
    (hgame : room1.gameId = room.gameId) : (m.store room.id room1).Books records := by
  refine hb.congr fun r g => ?_
  constructor
  · rintro ⟨room', hon', rfl⟩
    rcases (on_moved hphase r room').mp hon' with ⟨hon', -⟩ | ⟨rfl, rfl⟩
    · exact ⟨room', hon', rfl⟩
    · exact ⟨room, hon, hgame.symm⟩
  · rintro ⟨room', hon', rfl⟩
    by_cases e : r = room.id
    · subst e
      rw [on_unique hon' hon]
      exact ⟨room1, (on_moved hphase _ _).mpr (Or.inr ⟨rfl, rfl⟩), hgame⟩
    · exact ⟨room', (on_moved hphase _ _).mpr (Or.inl ⟨hon', e⟩), rfl⟩

end RoomManager

theorem Ends.books {m m1 : RoomManager} {l : Call} {a : Answer}
    {records new : List FinishedGame} (h : Ends m l a m1 new) (hb : m.Books records) :
    m1.Books (records ++ new) := by
  induction h with
  | nil => rwa [List.append_nil]
  | snoc _ hon _ ih =>
    rw [← List.append_assoc]
    exact RoomManager.settle_books _ ih hon

/-- One call keeps the ledger, with the records it queues. -/
theorem Turnover.books {m m' : RoomManager} {l : Call} {a : Answer}
    {records new : List FinishedGame} (h : Turnover m l a m' new) (hb : m.Books records) :
    m'.Books (records ++ new) := by
  cases h with
  | started _ _ hseat hwait _ _ _ hlast =>
    rw [List.append_nil]
    exact RoomManager.started_books _ hb hseat.here hwait hlast
  | moved _ _ hseat hphase _ _ =>
    obtain ⟨-, -, hgame, hphase'⟩ := Room.moved_fields _ _ _
    rw [List.append_nil]
    exact RoomManager.moved_books hb ⟨hseat.here, hphase⟩ (hphase'.trans hphase) hgame
  | ended hends hquiet => exact hquiet.books (hends.books hb)

/-- All results ever recorded in a run, in order. -/
def recorded (history : List (Entry Managed (Call × Answer))) : List FinishedGame :=
  history.flatMap fun e => recordedBy e.pre.manager e.label.1 e.post.manager

/-- All results handed out by `TryPopFinishedGame` in a run, in order. -/
def popped (history : List (Entry Managed (Call × Answer))) : List FinishedGame :=
  history.flatMap fun e => e.label.2.popped?

theorem recorded_snoc (history : List (Entry Managed (Call × Answer)))
    (e : Entry Managed (Call × Answer)) :
    recorded (history ++ [e]) =
      recorded history ++ recordedBy e.pre.manager e.label.1 e.post.manager := by
  simp [recorded]

theorem popped_snoc (history : List (Entry Managed (Call × Answer)))
    (e : Entry Managed (Call × Answer)) :
    popped (history ++ [e]) = popped history ++ e.label.2.popped? := by
  simp [popped]

/-- A manager starts with no rooms, no games and no results. -/
theorem RoomManager.make_books {config : RoomConfig} {m : RoomManager}
    (hmake : RoomManager.make {} config = .ok m) : m.Books [] ∧ m.finishedGames = [] := by
  have hempty : m.rooms = ∅ ∧ m.lastGameId = 0 ∧ m.finishedGames = [] := by
    unfold RoomManager.make at hmake
    split at hmake <;> cases hmake
    exact ⟨rfl, rfl, rfl⟩
  refine ⟨Ledger.empty ?_ ?_, hempty.2.2⟩
  · rintro g ⟨h1, h2⟩
    simp only [hempty] at h2
    grind
  · rintro r g ⟨room, ⟨hr, -⟩, -⟩
    simp [hempty] at hr

theorem run_books {wideChars : Bytes → Nat} {config : RoomConfig} {m : RoomManager}
    {history : List (Entry Managed (Call × Answer))} {c : Managed}
    (hmake : RoomManager.make {} config = .ok m) (hrun : CallRun wideChars m history c) :
    c.manager.Books (recorded history) ∧
      recorded history = popped history ++ c.manager.finishedGames := by
  induction hrun with
  | start =>
    obtain ⟨hb, hqueue⟩ := RoomManager.make_books hmake
    exact ⟨hb, by simp [recorded, popped, hqueue]⟩
  | snoc before taken ih =>
    obtain ⟨hb, hqueue⟩ := ih
    have hwf := (run_wellFormed hmake before).manager
    obtain ⟨hturn, hstep⟩ := (hwf.call_effect taken.returned).turnover hwf
    rw [recorded_snoc, popped_snoc]
    refine ⟨hturn.books hb, ?_⟩
    rw [hqueue, List.append_assoc, hstep, List.append_assoc]

/-- After every run, each game id handed out is the id of the game on in exactly one room and has
no result recorded, or it is on in no room and its result was recorded exactly once. No other id
occurs, and what was recorded is what was handed out followed by what is still queued. -/
theorem games_partitioned {wideChars : Bytes → Nat} {config : RoomConfig} {m : RoomManager}
    {history : List (Entry Managed (Call × Answer))} {c : Managed}
    (hmake : RoomManager.make {} config = .ok m) (hrun : CallRun wideChars m history c) :
    (∀ g, c.manager.Issued g →
      ((∃! r, c.manager.Live r g) ∧ (recorded history).countP (fun f => f.game = g) = 0) ∨
        ((¬ ∃ r, c.manager.Live r g) ∧ (recorded history).countP (fun f => f.game = g) = 1)) ∧
      (∀ r g, c.manager.Live r g → c.manager.Issued g) ∧
      (∀ f ∈ recorded history, c.manager.Issued f.game) ∧
      recorded history = popped history ++ c.manager.finishedGames := by
  obtain ⟨hb, hqueue⟩ := run_books hmake hrun
  exact ⟨fun g hg => hb.partition hg, hb.open_issued, hb.recorded_issued, hqueue⟩

/-- The game that was resigned is on in no room, and its result was recorded once. -/
theorem games_partitioned_resigned : ∃ history c,
    CallRun (fun _ => 1) RoomManager.fresh history c ∧ c.manager.Issued 1 ∧
      (recorded history).map FinishedGame.game = [1] ∧ (¬ ∃ r, c.manager.Live r 1) ∧
        recorded history = popped history ++ c.manager.finishedGames := by
  obtain ⟨history, c, hrun, hcheck⟩ := CallRun.played (fun _ => 1) RoomManager.fresh resignedCalls
    (fun history c => decide ((recorded history).map FinishedGame.game = [1] ∧
      c.manager.lastGameId = 1)) (by decide +kernel)
  obtain ⟨hgames, hlast⟩ := decide_eq_true_eq.mp hcheck
  obtain ⟨hpartition, -, -, hqueue⟩ := games_partitioned RoomManager.make_fresh hrun
  have hissued : c.manager.Issued 1 := ⟨by decide, by rw [hlast]; decide⟩
  have hcount : (recorded history).countP (fun f => f.game = 1) = 1 := by
    have hmapped := congrArg (List.countP fun g => decide (g = 1)) hgames
    rw [List.countP_map] at hmapped
    exact hmapped
  refine ⟨history, c, hrun, hissued, hgames, ?_, hqueue⟩
  rcases hpartition 1 hissued with ⟨-, hnone⟩ | ⟨hover, -⟩
  · rw [hcount] at hnone
    cases hnone
  · exact hover

end SelectServer
