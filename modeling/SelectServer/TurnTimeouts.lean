import SelectServer.GameResults

/- Turns that run out. `UpdateTimeouts` at a time ends the game of every room
   whose turn has run out by then and touches nothing else, in whatever order it
   meets the rooms (`Swept`). Over a run, the deadline of a game that is on is the
   turn time after its start or its last accepted stone (`deadlines_kept`). -/
namespace SelectServer
open Wire (Bytes)
open Histories

/-! ## One sweep -/

/-- A room after a sweep at `now` has looked at it. -/
def Room.timedOut (now : Time) (room : Room) : Room :=
  if room.isTurnExpired now then (room.conceded room.game.nextTurn).finishGame else room

/-- The record that a sweep at `now` queues for a room. -/
def Room.timeoutRecords (now : Time) (room : Room) : List FinishedGame :=
  if room.isTurnExpired now then [(room.conceded room.game.nextTurn).record .turnTimeout] else []

namespace Room
variable {room : Room} {now : Time}

theorem timedOut_live (h : ¬ room.isTurnExpired now = true) : room.timedOut now = room := if_neg h

theorem timedOut_expired (h : room.isTurnExpired now = true) :
    room.timedOut now = (room.conceded room.game.nextTurn).finishGame := if_pos h

theorem timedOut_waiting (h : room.isTurnExpired now = true) :
    (room.timedOut now).phase = .waiting := by
  rw [timedOut_expired h]
  rfl

theorem timedOut_id : (room.timedOut now).id = room.id := by
  unfold timedOut
  split <;> rfl

theorem timedOut_gameId : (room.timedOut now).gameId = room.gameId := by
  unfold timedOut
  split <;> rfl

theorem timedOut_members : (room.timedOut now).members = room.members := by
  unfold timedOut
  split <;> rfl

theorem waiting_live (h : room.phase = .waiting) : ¬ room.isTurnExpired now = true := by
  simp [RoomManager.isTurnExpired_iff, h]

/-- A room is never timed out twice. -/
theorem timedOut_not_expired : ¬ (room.timedOut now).isTurnExpired now = true := by
  by_cases h : room.isTurnExpired now = true
  · rw [timedOut_expired h]
    exact waiting_live rfl
  · rwa [timedOut_live h]

theorem timeoutRecords_live (h : ¬ room.isTurnExpired now = true) :
    room.timeoutRecords now = [] := if_neg h

theorem timeoutRecords_expired (h : room.isTurnExpired now = true) :
    room.timeoutRecords now = [(room.conceded room.game.nextTurn).record .turnTimeout] := if_pos h

end Room

namespace RoomManager
variable {m m' m1 : RoomManager} {now : Time}

/-- The record that a sweep queues for the room under `key`. -/
def timeoutsAt (now : Time) (m : RoomManager) (key : RoomId) : List FinishedGame :=
  (m.rooms[key]?).elim [] (Room.timeoutRecords now)

/-- The records that a sweep queues, in the order of the keys. -/
def timeouts (now : Time) (m : RoomManager) : List FinishedGame :=
  m.rooms.keys.flatMap (timeoutsAt now m)

/-- `m'` is what a sweep of `m` at `now` leaves, but for the order of the records it queues. -/
structure Swept (now : Time) (m m' : RoomManager) : Prop where
  users : m'.users = m.users
  config : m'.config = m.config
  rooms : ∀ key : RoomId, m'.rooms[key]? = (m.rooms[key]?).map (Room.timedOut now)
  lastRoom : m'.lastRoomId = m.lastRoomId
  lastGame : m'.lastGameId = m.lastGameId
  records : m'.finishedGames.Perm (m.finishedGames ++ timeouts now m)

/-- One turn of the loop. -/
theorem expire_spec (h : m.WellFormed) (now : Time) (key : RoomId) :
    (expire now m key).users = m.users ∧ (expire now m key).config = m.config ∧
      (∀ r : RoomId, (expire now m key).rooms[r]? =
        if r = key then (m.rooms[r]?).map (Room.timedOut now) else m.rooms[r]?) ∧
      (expire now m key).lastRoomId = m.lastRoomId ∧
      (expire now m key).lastGameId = m.lastGameId ∧
      (expire now m key).finishedGames = m.finishedGames ++ timeoutsAt now m key := by
  unfold expire timeoutsAt
  cases hr : m.rooms[key]? with
  | none =>
    refine ⟨rfl, rfl, fun r => ?_, rfl, rfl, (List.append_nil _).symm⟩
    dsimp only
    split
    · rename_i e
      rw [e, hr]
      rfl
    · rfl
  | some room =>
    obtain ⟨hid, -⟩ := h.stored hr
    by_cases he : room.isTurnExpired now = true
    · simp only [if_pos he, Option.elim_some, Room.timeoutRecords_expired he]
      refine ⟨rfl, rfl, fun r => ?_, rfl, rfl, rfl⟩
      show (m.rooms.insert room.id (room.conceded room.game.nextTurn).finishGame)[r]? = _
      rw [hid]
      by_cases e : r = key
      · rw [if_pos e, e, hr, Option.map_some, Room.timedOut_expired he]
        simp
      · rw [if_neg e]
        grind
    · dsimp only [Option.elim_some]
      rw [if_neg he, Room.timeoutRecords_live he]
      refine ⟨rfl, rfl, fun r => ?_, rfl, rfl, (List.append_nil _).symm⟩
      split
      · rename_i e
        rw [e, hr, Option.map_some, Room.timedOut_live he]
      · rfl

/-- The loop over distinct keys. -/
theorem foldl_expire_spec (now : Time) (keys : List RoomId) :
    ∀ {m : RoomManager}, m.WellFormed → keys.Nodup →
    (keys.foldl (expire now) m).users = m.users ∧ (keys.foldl (expire now) m).config = m.config ∧
      (∀ r : RoomId, (keys.foldl (expire now) m).rooms[r]? =
        if r ∈ keys then (m.rooms[r]?).map (Room.timedOut now) else m.rooms[r]?) ∧
      (keys.foldl (expire now) m).lastRoomId = m.lastRoomId ∧
      (keys.foldl (expire now) m).lastGameId = m.lastGameId ∧
      (keys.foldl (expire now) m).finishedGames =
        m.finishedGames ++ keys.flatMap (timeoutsAt now m) := by
  induction keys with
  | nil =>
    intro m _ _
    exact ⟨rfl, rfl, fun r => rfl, rfl, rfl, (List.append_nil _).symm⟩
  | cons key keys ih =>
    intro m h hnodup
    obtain ⟨hnot, hnodup⟩ := List.nodup_cons.mp hnodup
    obtain ⟨eu, ec, er, el, eg, ef⟩ := expire_spec h now key
    obtain ⟨iu, ic, ir, il, ig, if'⟩ := ih (h.expire now key) hnodup
    rw [List.foldl_cons]
    refine ⟨iu.trans eu, ic.trans ec, fun r => ?_, il.trans el, ig.trans eg, ?_⟩
    · rw [ir, er]
      by_cases e : r = key
      · subst e
        simp [hnot]
      · simp [e]
    · have hsame : ∀ r ∈ keys, timeoutsAt now (expire now m key) r = timeoutsAt now m r := by
        intro r hr
        have hne : r ≠ key := fun e => hnot (e ▸ hr)
        rw [timeoutsAt, er, if_neg hne]
        rfl
      rw [if', ef, List.append_assoc, List.flatMap_cons, List.flatMap_congr hsame]

/-- The loop meets every room once, so its order shows only in the queue. -/
theorem updateTimeouts_swept (h : m.WellFormed) (traversal : Traversal RoomId) (now : Time) :
    ∃ m', m.updateTimeouts traversal now = .ok m' ∧ Swept now m m' := by
  have hperm := traversal.perm m.rooms.keys
  have hnodup : (traversal.order m.rooms.keys).Nodup :=
    hperm.symm.nodup Std.ExtTreeMap.nodup_keys
  obtain ⟨eu, ec, er, el, eg, ef⟩ := foldl_expire_spec now _ h hnodup
  refine ⟨_, updateTimeouts_spec h traversal now, eu, ec, fun r => ?_, el, eg, ?_⟩
  · rw [er]
    split
    · rfl
    · rename_i hnot
      have hnone : m.rooms[r]? = none := by
        rw [hperm.mem_iff, Std.ExtTreeMap.mem_keys] at hnot
        exact Std.ExtTreeMap.getElem?_eq_none hnot
      rw [hnone]
      rfl
  · rw [ef]
    exact (hperm.flatMap_right _).append_left _

/-- A room that has not run out is as it was. -/
theorem Swept.room_live (h : Swept now m m') {r : RoomId} {room : Room}
    (hr : m.rooms[r]? = some room) (hlive : ¬ room.isTurnExpired now = true) :
    m'.rooms[r]? = some room := by
  rw [h.rooms, hr, Option.map_some, Room.timedOut_live hlive]

end RoomManager

/-! ## Deadlines over a run -/

/-- The time at which a call starts the clock of a turn of the game `g`. -/
def armedAt (g : GameId) (e : Entry Managed (Call × Answer)) : Option Time :=
  match e.label with
  | (.startGame _ now, .room .success) => if e.post.manager.lastGameId = g then some now else none
  | (.placeStone _ _ _ _ _ _ now, .placed .success move) => if move.game = g then some now else none
  | _ => none

/-- What a call may do to the deadlines of the rooms whose game is on. -/
structure DeadlinesKept (e : Entry Managed (Call × Answer)) : Prop where
  still : ∀ r room room', e.pre.manager.On r room → e.post.manager.On r room' →
    armedAt room.gameId e = none → room'.turnDeadline = room.turnDeadline
  placed : ∀ s r g x y out now move,
    e.label = (.placeStone s r g x y out now, .placed .success move) →
      ∃ room, e.pre.manager.On r room ∧ now < room.turnDeadline
  resigned : ∀ s r g now, e.label = (.resign s r g now, .resigned .success) →
    ∃ room, e.pre.manager.On r room ∧ now < room.turnDeadline
  swept : ∀ traversal now, e.label.1 = .updateTimeouts traversal now →
    (∀ r room, e.post.manager.On r room → now < room.turnDeadline) ∧
      ∀ (r : RoomId) room, e.pre.manager.rooms[r]? = some room →
        (room.phase = .playing → now < room.turnDeadline) → e.post.manager.rooms[r]? = some room

theorem armedAt_none {g : GameId} {e : Entry Managed (Call × Answer)}
    (hstart : ∀ s now, e.label.1 = .startGame s now → e.label.2 = .room .success →
      e.post.manager.lastGameId ≠ g)
    (hmove : ∀ move, e.label.2 = .placed .success move → move.game ≠ g) : armedAt g e = none := by
  unfold armedAt
  split
  · rename_i s now hl
    rw [if_neg (hstart s now (by rw [hl]) (by rw [hl]))]
  · rename_i s r g' x y out now move hl
    rw [if_neg (hmove move (by rw [hl]))]
  · rfl

/-- `StartGame` succeeds only with a new id. -/
theorem Effect.start_id {wideChars : Bytes → Nat} {m m' : RoomManager} {s : SessionId} {now : Time}
    (h : Effect wideChars m (.startGame s now) (.room .success) m') :
    m'.lastGameId = m.lastGameId + 1 ∧ m.lastGameId ≠ 0xffffffff := by
  cases h with
  | refused ha => cases ha
  | started _ _ _ _ _ _ hlast => exact ⟨rfl, hlast⟩
  | expired hactor => cases hactor

theorem Effect.config {wideChars : Bytes → Nat} {m m' : RoomManager} {l : Call} {a : Answer}
    (h : Effect wideChars m l a m') (hwf : m.WellFormed) : m'.config = m.config := by
  cases h with
  | moved =>
    unfold RoomManager.moved
    split <;> rfl
  | left hseat hreason hclosed =>
    unfold RoomManager.depart
    cases hclosed <;> dsimp only <;> split <;> rfl
  | swept =>
    rename_i traversal now
    obtain ⟨m', e, hswept⟩ := RoomManager.updateTimeouts_swept hwf traversal now
    rw [RoomManager.updateTimeouts_spec hwf] at e
    cases e
    exact hswept.config
  | _ => rfl

/-- A room whose game is on after a call was so before and its clock runs on, or the call has just
started the clock. -/
theorem armed_step {wideChars : Bytes → Nat} {c c' : Managed} {la : Call × Answer}
    {records : List FinishedGame} (hstep : CallStep wideChars c la c') (hwf : c.manager.WellFormed)
    (hb : c.manager.Books records) {r : RoomId} {room : Room} (hon : c'.manager.On r room) :
    (c.manager.On r room ∧ armedAt room.gameId ⟨c, la, c'⟩ = none) ∨
      (∃ now, armedAt room.gameId ⟨c, la, c'⟩ = some now ∧
        room.turnDeadline = now + c.manager.config.val.turnTime ∧
          ∀ old, c.manager.On r old → old.gameId = room.gameId) := by
  have heffect := hwf.call_effect hstep.returned
  obtain ⟨hturn, -⟩ := heffect.turnover hwf
  have hb' := hturn.books hb
  have hstarted : ∀ s now, la.1 = .startGame s now → la.2 = .room .success →
      c'.manager.lastGameId = c.manager.lastGameId + 1 ∧ c.manager.lastGameId ≠ 0xffffffff := by
    intro s now hl ha
    rw [hl, ha] at heffect
    exact heffect.start_id
  have hlabel : la = (la.1, la.2) := rfl
  generalize recordedBy c.manager la.1 c'.manager = new at hturn hb'
  generalize hm' : c'.manager = m' at hturn hb' hon hstarted
  cases hturn with
  | @started s guest u room0 now hl ha hseat hwait hhost hpair hne hlast =>
    rcases (RoomManager.on_started hseat.here hwait r room).mp hon with hold | ⟨rfl, rfl⟩
    · -- a game that was on has an older number
      refine Or.inl ⟨hold, armedAt_none ?_ (by simp [ha])⟩
      intro s' now' _ _ e
      have hissued := (hwf.room hold.1).issued
      rw [← e, hm'] at hissued
      have hnew : (c.manager.started room0 now).lastGameId = c.manager.lastGameId + 1 := rfl
      rw [hnew] at hissued
      grind
    · refine Or.inr ⟨now, ?_, ?_, ?_⟩
      · rw [hl, ha] at hlabel
        simp only [armedAt, hlabel, hm']
        exact if_pos rfl
      · show now + room0.turnTime = _
        rw [(hwf.room hseat.here).turnTime]
      · intro old hold
        have hsame := hseat.here.symm.trans hold.1
        cases hsame
        have hplaying := hold.2
        rw [hwait] at hplaying
        cases hplaying
  | @moved s u room0 x y out now hl ha hseat hphase hacc hgo =>
    obtain ⟨-, -, hnum, hsame⟩ :=
      Room.moved_fields room0 (room0.game.tryPlaceStone (room0.getPlayerStone s) x y).2 now
    rcases (RoomManager.on_moved (hsame.trans hphase) r room).mp hon with ⟨hold, hne⟩ | ⟨rfl, rfl⟩
    · refine Or.inl ⟨hold, armedAt_none (by simp [hl]) fun move hmove e => hne ?_⟩
      rw [ha] at hmove
      cases hmove
      exact hb.once r room0.id _ ⟨room, hold, rfl⟩ ⟨room0, ⟨hseat.here, hphase⟩, e⟩
    · refine Or.inr ⟨now, ?_, ?_, ?_⟩
      · rw [hl, ha] at hlabel
        simp only [armedAt, hlabel, RoomManager.acceptedMove, hnum, if_true]
      · rw [Room.moved, if_pos hgo, ← (hwf.room hseat.here).turnTime]
      · intro old hold
        rw [RoomManager.on_unique hold ⟨hseat.here, hphase⟩, hnum]
  | ended hends hquiet hmove =>
    refine Or.inl ⟨hends.on_before ((hquiet.on r room).mp hon), armedAt_none ?_ ?_⟩
    · intro s now hl ha
      obtain ⟨hnew, hlast⟩ := hstarted s now hl ha
      rw [hquiet.last, hends.grows.2] at hnew
      grind
    · exact fun move ha => hends.move_over hmove hb' hon ha

theorem RoomManager.WellFormed.on_live {m : RoomManager} (h : m.WellFormed) {r : RoomId}
    {room : Room} {now : Time} (hon : m.On r room) (hlive : ¬ room.isTurnExpired now = true) :
    now < room.turnDeadline := by
  obtain ⟨guest, hin⟩ := (h.room hon.1).playing hon.2
  exact not_expired hon.2 hin.status hlive

theorem deadlinesKept_step {wideChars : Bytes → Nat} {c c' : Managed} {la : Call × Answer}
    {records : List FinishedGame} (hstep : CallStep wideChars c la c') (hwf : c.manager.WellFormed)
    (hwf' : c'.manager.WellFormed) (hb : c.manager.Books records) :
    DeadlinesKept ⟨c, la, c'⟩ where
  still r room room' hon hon' hnone := by
    rcases armed_step hstep hwf hb hon' with ⟨hold, -⟩ | ⟨now, harmed, -, hsame⟩
    · rw [RoomManager.on_unique hon hold]
    · rw [← hsame room hon, hnone] at harmed
      cases harmed
  placed s r g x y out now move hl := by
    have heffect := hwf.call_effect hstep.returned
    dsimp only at hl
    rw [hl] at heffect
    generalize c'.manager = m' at heffect
    cases heffect with
    | refused ha => cases ha
    | expired _ ha => cases ha
    | moved hseat _ hlive hphase =>
      exact ⟨_, ⟨hseat.here, hphase⟩, hwf.on_live ⟨hseat.here, hphase⟩ hlive⟩
  resigned s r g now hl := by
    have heffect := hwf.call_effect hstep.returned
    dsimp only at hl
    rw [hl] at heffect
    generalize c'.manager = m' at heffect
    cases heffect with
    | refused ha => cases ha
    | expired _ ha => cases ha
    | resigned hseat _ hlive hphase =>
      exact ⟨_, ⟨hseat.here, hphase⟩, hwf.on_live ⟨hseat.here, hphase⟩ hlive⟩
  swept traversal now hl := by
    have hreturned := hstep.returned
    dsimp only at hl
    obtain ⟨m', e, hswept⟩ := RoomManager.updateTimeouts_swept hwf traversal now
    rw [hl, RoomManager.call, e] at hreturned
    obtain rfl : m' = c'.manager := congrArg Prod.snd (Except.ok.inj hreturned)
    constructor
    · intro r room hon
      refine hwf'.on_live hon ?_
      have hroom := hon.1
      rw [hswept.rooms] at hroom
      obtain ⟨old, -, rfl⟩ := Option.map_eq_some_iff.mp hroom
      exact Room.timedOut_not_expired
    · intro r room hr hlater
      refine hswept.room_live hr fun he => ?_
      obtain ⟨hphase, -, hle⟩ := RoomManager.isTurnExpired_iff.mp he
      exact not_lt.mpr hle (hlater hphase)

/-- While a game is on, its deadline is the turn time after its start or its last accepted stone, and
nothing else moves it; a stone or a resignation is accepted before the deadline only; and a sweep
leaves no game on whose deadline has come, and every other room as it was. -/
theorem deadlines_kept {wideChars : Bytes → Nat} {config : RoomConfig} {m : RoomManager}
    {history : List (Entry Managed (Call × Answer))} {c : Managed}
    (hmake : RoomManager.make {} config = .ok m) (hrun : CallRun wideChars m history c) :
    (∀ r room, c.manager.On r room →
      ∃ now, (history.filterMap (armedAt room.gameId)).getLast? = some now ∧
        room.turnDeadline = now + config.turnTime) ∧
      ∀ e ∈ history, DeadlinesKept e := by
  suffices h : c.manager.config.val = config ∧ (∀ r room, c.manager.On r room →
      ∃ now, (history.filterMap (armedAt room.gameId)).getLast? = some now ∧
        room.turnDeadline = now + config.turnTime) ∧
      ∀ e ∈ history, DeadlinesKept e from h.2
  induction hrun with
  | start =>
    unfold RoomManager.make at hmake
    split at hmake <;> cases hmake
    refine ⟨rfl, ?_, by simp⟩
    rintro r room ⟨hr, -⟩
    simp at hr
  | snoc before taken ih =>
    rename_i history c0 c1 la
    obtain ⟨hconfig, hdeadlines, hall⟩ := ih
    have hwf := (run_wellFormed hmake before).manager
    have hwf' := (run_wellFormed hmake (before.snoc taken)).manager
    have hb := (run_books hmake before).1
    have hsame := (hwf.call_effect taken.returned).config hwf
    refine ⟨by rw [hsame, hconfig], fun r room hon => ?_, fun e he => ?_⟩
    · rw [List.filterMap_append]
      rcases armed_step taken hwf hb hon with ⟨hold, hnone⟩ | ⟨now, harmed, hdeadline, -⟩
      · obtain ⟨now, hlast, hdeadline⟩ := hdeadlines r room hold
        refine ⟨now, ?_, hdeadline⟩
        simpa [hnone] using hlast
      · rw [hconfig] at hdeadline
        refine ⟨now, ?_, hdeadline⟩
        simp [harmed]
    · rcases List.mem_append.mp he with he | he
      · exact hall e he
      · obtain rfl := List.mem_singleton.mp he
        exact deadlinesKept_step taken hwf hwf' hb

/-- Two players start a game at 0, and a stone is placed at 1. -/
def stoneCalls : List Call :=
  [.login 1 [97], .login 2 [98], .createRoom 1 [97], .enterRoom 2 1, .setReady 2 true,
    .startGame 1 0, .placeStone 1 1 1 7 7 {} 1, .placeStone 1 1 1 7 8 {} 2]

theorem deadlines_kept_stone : ∃ history c room,
    CallRun (fun _ => 1) RoomManager.fresh history c ∧ c.manager.On 1 room ∧
      room.turnDeadline = 1 + seconds 300 := by
  obtain ⟨history, c, hrun, hcheck⟩ := CallRun.played (fun _ => 1) RoomManager.fresh stoneCalls
    (fun history c => (c.manager.rooms[(1 : RoomId)]?).any fun room : Room =>
      decide (room.phase = .playing ∧
        (history.filterMap (armedAt room.gameId)).getLast? = some 1)) (by decide +kernel)
  obtain ⟨room, hr, hroom⟩ := (Option.any_eq_true _ _).mp hcheck
  obtain ⟨hphase, hlast⟩ := decide_eq_true_eq.mp hroom
  obtain ⟨now, hnow, hdeadline⟩ :=
    (deadlines_kept RoomManager.make_fresh hrun).1 1 room ⟨hr, hphase⟩
  rw [hlast] at hnow
  cases hnow
  exact ⟨_, c, room, hrun, ⟨hr, hphase⟩, hdeadline⟩

end SelectServer
