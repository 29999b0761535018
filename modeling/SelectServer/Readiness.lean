import SelectServer.RoomFrames

/- Where the readiness that starts a game comes from. The ready set of a room is
   emptied by whoever enters or leaves, by the start of a game and by every way in
   which one ends, a turn that has run out included (`Effect.ready_room`). So the
   readiness of a guest goes back to a `SetReady` of the guest since which nothing
   of that kind has happened in the room. -/
namespace SelectServer
open Wire (Bytes)
open Histories

namespace RoomManager

/-- No game is on in the room, and it has these members. -/
def Waits (m : RoomManager) (r : RoomId) (members : List SessionId) : Prop :=
  ∃ room, m.rooms[r]? = some room ∧ room.phase = .waiting ∧ room.members = members

/-- `g` is ready in the room, which has these members. -/
def ReadyIn (m : RoomManager) (r : RoomId) (members : List SessionId) (g : SessionId) : Prop :=
  ∃ room, m.rooms[r]? = some room ∧ room.members = members ∧ g ∈ room.readyMembers

variable {m m' : RoomManager} {r : RoomId} {members : List SessionId} {g : SessionId} {room : Room}

/-- Nobody is ready in a room whose game is on. -/
theorem WellFormed.ready_waits (h : m.WellFormed) (hr : m.rooms[r]? = some room)
    (hg : g ∈ room.readyMembers) : room.phase = .waiting := by
  cases hphase : room.phase with
  | waiting => rfl
  | playing =>
    obtain ⟨guest, hin⟩ := (h.room hr).playing hphase
    rw [hin.unready] at hg
    exact absurd hg (Finset.notMem_empty g)

theorem WellFormed.waits (h : m.WellFormed) (hready : m.ReadyIn r members g) :
    m.Waits r members := by
  obtain ⟨room, hr, hmembers, hg⟩ := hready
  exact ⟨room, hr, h.ready_waits hr hg, hmembers⟩

/-- The room that is stored under its key, or another. -/
theorem store_at (m : RoomManager) (key r : RoomId) (room : Room) :
    (m.store key room).rooms[r]? = if r = key then some room else m.rooms[r]? := by
  by_cases hr : r = key
  · subst hr
    simp [RoomManager.store]
  · rw [store_other m room hr, if_neg hr]

theorem finishGame_unready (room : Room) : room.finishGame.readyMembers = ∅ := rfl

theorem removeMember_unready {s : SessionId} (h : s ∈ room.members) :
    (room.removeMember s).2.readyMembers = ∅ := by
  simp [Room.removeMember, Room.contains, h]

theorem moved_ready (room : Room) (game : OmokGame) (now : Time) :
    (room.moved game now).readyMembers = room.readyMembers := by
  unfold Room.moved
  split <;> rfl

end RoomManager

open RoomManager

section Step
variable {wideChars : Bytes → Nat} {m m' : RoomManager} {l : Call} {a : Answer} {r : RoomId}
  {g : SessionId} {room' : Room}

/-- A sweep leaves a room in which somebody is ready as it is. -/
theorem RoomManager.WellFormed.swept_ready (hwf : m.WellFormed) {traversal : Traversal RoomId}
    {now : Time}
    (hr : ((traversal.order m.rooms.keys).foldl (RoomManager.expire now) m).rooms[r]? = some room')
    (hg : g ∈ room'.readyMembers) : m.rooms[r]? = some room' := by
  obtain ⟨m1, e, hswept⟩ := updateTimeouts_swept hwf traversal now
  rw [updateTimeouts_spec hwf] at e
  cases e
  rw [hswept.rooms] at hr
  obtain ⟨room, hroom, e⟩ := Option.map_eq_some_iff.mp hr
  by_cases hexpired : room.isTurnExpired now = true
  · rw [Room.timedOut_expired hexpired] at e
    rw [← e] at hg
    exact absurd hg (Finset.notMem_empty g)
  · rw [Room.timedOut_live hexpired] at e
    rw [hroom, e]

/-- A room in which somebody is ready after a call was like that before, unless the call is a
`SetReady` in the room. -/
theorem Effect.ready_room (he : Effect wideChars m l a m') (hwf : m.WellFormed)
    (hr : m'.rooms[r]? = some room') (hg : g ∈ room'.readyMembers) :
    m.rooms[r]? = some room' ∨ ∃ s u room ready, l = .setReady s ready ∧ a = .room .success ∧
      m.Seated s u room ∧ room.id = r ∧ room' = room.setReady s ready := by
  -- a room that is stored with nobody ready is another one
  have hstored : ∀ {m0 : RoomManager} {key : RoomId} {room : Room}, room.readyMembers = ∅ →
      (m0.store key room).rooms[r]? = some room' → m0.rooms[r]? = some room' := by
    intro m0 key room hnone h
    rw [store_at] at h
    split at h
    · obtain rfl := Option.some.inj h
      rw [hnone] at hg
      exact absurd hg (Finset.notMem_empty g)
    · exact h
  cases he with
  | refused => exact Or.inl hr
  | loggedIn => exact Or.inl hr
  | removed => exact Or.inl hr
  | popped => exact Or.inl hr
  | created hidle =>
    left
    exact hstored (by rfl) hr
  | entered hidle hroom =>
    left
    exact hstored (by rfl) hr
  | @readied s u room ready hseat hwait hguest =>
    rw [store_at] at hr
    split at hr
    · rename_i hkey
      exact Or.inr ⟨s, u, room, ready, rfl, rfl, hseat, hkey.symm, (Option.some.inj hr).symm⟩
    · exact Or.inl hr
  | started hseat =>
    left
    exact hstored (by rfl) hr
  | @moved s u room x y out now hseat hnum hlive hphase hacc =>
    left
    obtain ⟨guest, hin⟩ := (hwf.room hseat.here).playing hphase
    unfold RoomManager.moved at hr
    split at hr
    · exact hstored ((moved_ready room _ now).trans hin.unready) hr
    · exact hstored (finishGame_unready _) hr
  | expired =>
    left
    exact hstored (finishGame_unready _) hr
  | resigned =>
    left
    exact hstored (finishGame_unready _) hr
  | @left s u room room1 m1 reason now hseat hreason hclosed =>
    left
    obtain ⟨hwf1, hseat1, -⟩ := hwf.closed hseat hclosed
    have hleft : m1.rooms[r]? = some room' := by
      unfold RoomManager.depart at hr
      dsimp only at hr
      split at hr
      · have hr' : (m1.rooms.erase room1.id)[r]? = some room' := hr
        grind
      · exact @hstored (m1.updateUser s u.returnToLobby) _ _ (removeMember_unready hseat1.mem) hr
    -- and the game that was closed before left the room with nobody ready
    cases hclosed with
    | idle => exact hleft
    | expired => exact hstored (finishGame_unready _) hleft
    | forfeited => exact hstored (finishGame_unready _) hleft
  | swept =>
    left
    exact hwf.swept_ready hr hg

/-- Whoever has taken its readiness back is not ready, -/
theorem Effect.unreadied (he : Effect wideChars m (.setReady g false) (.room .success) m')
    (ht : m.Holds g r) (hr : m'.rooms[r]? = some room') : g ∉ room'.readyMembers := by
  cases he with
  | refused ha => cases ha
  | expired hactor => cases hactor
  | @readied s u room ready hseat hwait hguest =>
    obtain rfl := hseat.held ht
    rw [store_at, if_pos rfl] at hr
    obtain rfl := Option.some.inj hr
    simp [Room.setReady]

/-- nobody is in a room that somebody has entered, -/
theorem Effect.entered_unready {t : SessionId}
    (he : Effect wideChars m (.enterRoom t r) (.room .success) m')
    (hr : m'.rooms[r]? = some room') : g ∉ room'.readyMembers := by
  cases he with
  | refused ha => cases ha
  | expired hactor => cases hactor
  | @entered s u room hidle hroom hwait hnew hfree =>
    have e : (m.store room.id _).rooms[room.id]? = some room' := hr
    rw [store_at, if_pos rfl] at e
    obtain rfl := Option.some.inj e
    exact Finset.notMem_empty g

/-- in one in which a game has started, -/
theorem Effect.started_unready {t : SessionId} {now : Time}
    (he : Effect wideChars m (.startGame t now) (.room .success) m') (ht : m.Holds t r)
    (hr : m'.rooms[r]? = some room') : g ∉ room'.readyMembers := by
  cases he with
  | refused ha => cases ha
  | expired hactor => cases hactor
  | @started s guest u room now hseat hwait hhost hpair hne hready hlast =>
    obtain rfl := hseat.held ht
    have e : (m.store room.id _).rooms[room.id]? = some room' := hr
    rw [store_at, if_pos rfl] at e
    obtain rfl := Option.some.inj e
    exact Finset.notMem_empty g

/-- or in one that somebody has left. -/
theorem Effect.left_unready {t : SessionId} {reason : GameEndReason} {now : Time}
    (he : Effect wideChars m (.leaveRoom t reason now) (.room .success) m') (hwf : m.WellFormed)
    (ht : m.Holds t r) (hr : m'.rooms[r]? = some room') : g ∉ room'.readyMembers := by
  cases he with
  | refused ha => cases ha
  | expired hactor => cases hactor
  | @left s u room room1 m1 reason now hseat hreason hclosed =>
    obtain rfl := hseat.held ht
    obtain ⟨-, hseat1, hid, -⟩ := hwf.closed hseat hclosed
    rw [← hid, depart_at] at hr
    split at hr
    · cases hr
    · obtain rfl := Option.some.inj hr
      rw [removeMember_unready hseat1.mem]
      exact Finset.notMem_empty g

/-- A game starts in a room of two whose guest is ready. -/
theorem Effect.started_ready {host : SessionId} {now : Time}
    (he : Effect wideChars m (.startGame host now) (.room .success) m') :
    ∃ (room : Room) (guest : SessionId), m.rooms[room.id]? = some room ∧ room.hostSession = host ∧
      room.members = [host, guest] ∧ guest ≠ host ∧ guest ∈ room.readyMembers := by
  cases he with
  | refused ha => cases ha
  | expired hactor => cases hactor
  | started hseat hwait hhost hpair hne hready hlast =>
    exact ⟨_, _, hseat.here, hhost, hpair, hne, hready⟩

end Step

/-! ## Since the guest was ready -/

/-- The guest gets ready in the room. -/
structure GetsReady (r : RoomId) (members : List SessionId) (g : SessionId)
    (e : Entry Managed (Call × Answer)) : Prop where
  call : e.label = (.setReady g true, .room .success)
  inside : e.pre.manager.Holds g r
  waits : e.pre.manager.Waits r members

/-- The guest has not taken it back, nobody has entered or left the room, and no game has been
started or finished in it: no game is on before or after the call. -/
structure ReadinessKept (r : RoomId) (members : List SessionId) (g : SessionId)
    (e : Entry Managed (Call × Answer)) : Prop where
  unready : e.label ≠ (.setReady g false, .room .success)
  entered : ∀ t, e.label ≠ (.enterRoom t r, .room .success)
  left : ∀ t reason now, e.label = (.leaveRoom t reason now, .room .success) →
    ¬ e.pre.manager.Holds t r
  started : ∀ t now, e.label = (.startGame t now, .room .success) → ¬ e.pre.manager.Holds t r
  before : e.pre.manager.Waits r members
  after : e.post.manager.Waits r members

theorem CallStep.ready {wideChars : Bytes → Nat} {c c' : Managed} {l : Call × Answer}
    {r : RoomId} {members : List SessionId} {g : SessionId} (taken : CallStep wideChars c l c')
    (hc : c.WellFormed) (h : c'.manager.ReadyIn r members g) :
    GetsReady r members g ⟨c, l, c'⟩ ∨
      (c.manager.ReadyIn r members g ∧ ReadinessKept r members g ⟨c, l, c'⟩) := by
  have hwf := hc.manager
  have hwaits' := (taken.wellFormed hc).manager.waits h
  have he := hwf.call_effect taken.returned
  obtain ⟨room', hr', hmembers, hg⟩ := h
  -- the room is the same as before, or `SetReady` was called in it
  have hcases : (c.manager.ReadyIn r members g ∧ l ≠ (.setReady g false, .room .success)) ∨
      GetsReady r members g ⟨c, l, c'⟩ := by
    rcases he.ready_room hwf hr' hg with hsame | ⟨s, u, room, ready, hl, ha, hseat, rfl, rfl⟩
    · refine Or.inl ⟨⟨room', hsame, hmembers, hg⟩, ?_⟩
      intro hl
      rw [hl] at he
      -- the guest is in the room where it is ready
      obtain ⟨u, hu, hstate, hroom⟩ := hwf.member hsame g ((hwf.room hsame).ready g hg).1
      exact he.unreadied ⟨u, hu, hstate, hroom⟩ hr' hg
    · have hwait : room.phase = .waiting := by
        obtain ⟨room2, hr2, hwait, -⟩ := hwaits'
        rw [hr'] at hr2
        obtain rfl := Option.some.inj hr2
        exact hwait
      by_cases hs : s = g
      · subst hs
        cases ready with
        | false => simp [Room.setReady] at hg
        | true =>
          refine Or.inr ⟨?_, hseat.holds, room, hseat.here, hwait, hmembers⟩
          show l = _
          rw [← hl, ← ha]
      · have hold : g ∈ room.readyMembers := by
          have hne : g ≠ s := fun e => hs e.symm
          cases ready with
          | false => exact Finset.mem_of_mem_erase hg
          | true => exact Finset.mem_of_mem_insert_of_ne hg hne
        refine Or.inl ⟨⟨room, hseat.here, hmembers, hold⟩, ?_⟩
        intro e
        rw [e] at hl
        cases hl
        exact hs rfl
  rcases hcases with ⟨hready, hunready⟩ | hstart
  · refine Or.inr ⟨hready, hunready, ?_, ?_, ?_, hwf.waits hready, hwaits'⟩
    · intro t hl
      have he' : Effect wideChars c.manager (.enterRoom t r) (.room .success) c'.manager := by
        have hl' : l = (.enterRoom t r, .room .success) := hl
        rw [hl'] at he
        exact he
      exact he'.entered_unready hr' hg
    · intro t reason now hl ht
      have he' : Effect wideChars c.manager (.leaveRoom t reason now) (.room .success)
          c'.manager := by
        have hl' : l = (.leaveRoom t reason now, .room .success) := hl
        rw [hl'] at he
        exact he
      exact he'.left_unready hwf ht hr' hg
    · intro t now hl ht
      have he' : Effect wideChars c.manager (.startGame t now) (.room .success) c'.manager := by
        have hl' : l = (.startGame t now, .room .success) := hl
        rw [hl'] at he
        exact he
      exact he'.started_unready ht hr' hg
  · exact Or.inl hstart

/-- In every run, a guest that is ready has been so since a `SetReady` in its room. -/
theorem run_ready {wideChars : Bytes → Nat} {config : RoomConfig} {m : RoomManager}
    {history : List (Entry Managed (Call × Answer))} {c : Managed} {r : RoomId}
    {members : List SessionId} {g : SessionId} (hmake : RoomManager.make {} config = .ok m)
    (hrun : CallRun wideChars m history c) (h : c.manager.ReadyIn r members g) :
    Since (GetsReady r members g) (ReadinessKept r members g) history := by
  have h0 : ¬ m.ReadyIn r members g := by
    rintro ⟨room, hr, -⟩
    unfold RoomManager.make at hmake
    split at hmake
    · cases hmake
      simp at hr
    · cases hmake
  refine Run.since (P := fun c => c.manager.ReadyIn r members g) h0 ?_ hrun h
  intro before c l c' hbefore taken hready
  exact taken.ready (run_wellFormed hmake hbefore) hready

/-- In every run, a game that is started has its guest ready since a `SetReady` of the guest in the
same room, since when the guest has not taken it back, nobody has entered or left, and no game has
been started or finished there. -/
theorem readiness_fresh {wideChars : Bytes → Nat} {config : RoomConfig} {m : RoomManager}
    {history : List (Entry Managed (Call × Answer))} {c : Managed}
    (hmake : RoomManager.make {} config = .ok m) (hrun : CallRun wideChars m history c)
    {e : Entry Managed (Call × Answer)} (he : e ∈ history) {host : SessionId} {now : Time}
    (hstart : e.label = (.startGame host now, .room .success)) :
    ∃ (room : Room) (guest : SessionId) (before after : List (Entry Managed (Call × Answer))),
      e.pre.manager.rooms[room.id]? = some room ∧ room.hostSession = host ∧
        room.members = [host, guest] ∧ guest ≠ host ∧ history = before ++ e :: after ∧
          Since (GetsReady room.id [host, guest] guest) (ReadinessKept room.id [host, guest] guest)
            before := by
  obtain ⟨before, after, hsplit, hbefore, taken⟩ := hrun.split he
  have hwf := (run_wellFormed hmake hbefore).manager
  have heffect := hwf.call_effect taken.returned
  rw [hstart] at heffect
  obtain ⟨room, guest, hroom, hhost, hpair, hne, hready⟩ := heffect.started_ready
  exact ⟨room, guest, before, after, hroom, hhost, hpair, hne, hsplit,
    run_ready hmake hbefore ⟨room, hroom, hpair, hready⟩⟩

/-- The first readiness is gone after a game, and so the rematch needs another. -/
def readyAgainCalls : List Call :=
  startedCalls ++ [.resign 2 1 1 1, .startGame 1 2, .setReady 2 true]

theorem readiness_fresh_rematch : ∃ history c e,
    CallRun (fun _ => 1) RoomManager.fresh history c ∧ e ∈ history ∧
      e.label = (.startGame 1 3, .room .success) ∧ ∃ (room : Room) (guest : SessionId)
        (before after : List (Entry Managed (Call × Answer))),
        e.pre.manager.rooms[room.id]? = some room ∧ room.hostSession = 1 ∧
          room.members = [1, guest] ∧ guest ≠ 1 ∧ history = before ++ e :: after ∧
            Since (GetsReady room.id [1, guest] guest) (ReadinessKept room.id [1, guest] guest)
              before := by
  obtain ⟨history, c, hrun, hcheck⟩ := CallRun.played (fun _ => 1) RoomManager.fresh readyAgainCalls
    (fun _ c => decide (((c.manager.call (fun _ => 1) (.startGame 1 3)).map Prod.fst).toOption =
      some (.room .success))) (by decide +kernel)
  obtain ⟨m', hcall⟩ := call_returned (decide_eq_true_eq.mp hcheck)
  have hlast : CallRun (fun _ => 1) RoomManager.fresh _ { manager := m' } :=
    hrun.snoc (l := (.startGame 1 3, .room .success)) ⟨hcall, rfl, rfl⟩
  have hmem := List.mem_append_right history (List.mem_singleton_self
    (⟨c, (.startGame 1 3, .room .success), { manager := m' }⟩ : Entry Managed (Call × Answer)))
  exact ⟨_, _, _, hlast, hmem, rfl, readiness_fresh RoomManager.make_fresh hlast hmem rfl⟩

end SelectServer
