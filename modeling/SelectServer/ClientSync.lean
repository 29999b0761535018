import SelectServer.ClientMirror
import SelectServer.QueuedResults

/- The client accepts what it is sent. `ProcessResponse` refuses a result if the
   view has already left the game it is for, and that happens when the state of the
   waiting room is announced first. The handlers flush the queue before they announce
   a room, except the one of `ROOM_READY_REQ`: while no room takes a `ROOM_READY_REQ`
   with a result of its game still queued, every packet is accepted. -/
namespace SelectServer
open Wire (Bytes)
open Histories Traces

/-- The view still waits for every queued result of the game it shows. -/
def Awaits (s : SessionId) (m : RoomManager) (v : ClientGameView) : Prop :=
  ∀ f ∈ m.finishedGames, s ∈ f.targets → v.roomId = f.room → v.game = f.game →
    v.roomPlaying = true ∧ v.moveCount.toNat = f.moveCount

/-- The result that the view waits for is accepted. -/
theorem ClientGameView.onGameEnd_awaited {v : ClientGameView} {f : FinishedGame}
    (h : v.roomId = f.room → v.game = f.game →
      v.roomPlaying = true ∧ v.moveCount.toNat = f.moveCount) :
    ∃ v', v.onGameEnd (PacketProcessor.gameEnd f) = some v' ∧ v'.game = v.game ∧
      (v' = v ∨ v.game = f.game) := by
  by_cases hother : (PacketProcessor.gameEnd f).roomId ≠ v.roomId ∨
      (PacketProcessor.gameEnd f).game ≠ v.game
  · exact ⟨v, if_pos hother, rfl, Or.inl rfl⟩
  have hsame : f.room = v.roomId ∧ f.game = v.game := by
    simpa [PacketProcessor.gameEnd] using hother
  obtain ⟨hplaying, hcount⟩ := h hsame.1.symm hsame.2.symm
  have hmoves : UInt32.ofNat f.moveCount = v.moveCount := by rw [← hcount, UInt32.ofNat_toNat]
  have hshown : ¬ (!v.roomPlaying ∨ (PacketProcessor.gameEnd f).moveCount ≠ v.moveCount) := by
    simp [hplaying, PacketProcessor.gameEnd, hmoves]
  refine ⟨{ v with
    state := (PacketProcessor.gameEnd f).state, nextTurn := .empty, roomPlaying := false }, ?_, rfl, Or.inr hsame.2.symm⟩
  unfold onGameEnd
  rw [if_neg hother, if_neg hshown]

/-- The results queued after a stone: the ones before, and the one of this game if it is over. -/
theorem RoomManager.queued_after_stone {m : RoomManager} {room : Room} {g : OmokGame} {now : Time}
    {f : FinishedGame} (hf : f ∈ (m.moved room g now).finishedGames) :
    f ∈ m.finishedGames ∨
      (f.room = room.id ∧ f.game = room.gameId ∧ f.targets = room.members ∧
        f.moveCount = g.moveCount) := by
  obtain ⟨hgame, hid, hnum, -⟩ := Room.moved_fields room g now
  unfold RoomManager.moved at hf
  split at hf
  · exact Or.inl hf
  · rcases List.mem_append.mp hf with hf | hf
    · exact Or.inl hf
    · obtain rfl := List.mem_singleton.mp hf
      refine Or.inr ⟨hid, hnum, Room.moved_members room g now, ?_⟩
      show (room.moved g now).game.moveCount = _
      rw [hgame]

section Acts
variable {s : SessionId} {m m' : RoomManager} {notices : List Notice} {v : ClientGameView}

/-- An act is accepted by a view that is up to date and waits for its results. -/
theorem Act.accepted (hok : m.Ok) (h : Act (Undisturbed True s) s m notices m')
    (hv : UpToDate s m v) (hw : Awaits s m v) :
    ∃ v', hear v notices = some v' ∧ Awaits s m' v' := by
  cases h with
  | quiet _ hqueue =>
    refine ⟨v, rfl, ?_⟩
    unfold Awaits
    rw [hqueue]
    exact hw
  | @conceded room g reason hon hcount =>
    refine ⟨v, rfl, fun f hf hs hr hg => ?_⟩
    rcases List.mem_append.mp hf with hf | hf
    · exact hw f hf hs hr hg
    · obtain rfl := List.mem_singleton.mp hf
      have hmirror := hv.mirrors _ _ hon hs
      exact ⟨hmirror.roomPlaying, hmirror.moveCount.trans hcount.symm⟩
  | @started room now _ hr hwait hlast _ _ hheard =>
    cases hheard with
    | away => exact ⟨v, rfl, hw⟩
    | @member room' n hr' hs hid hgame hphase =>
      have hroom : (m.started room now).rooms[room.id]? =
          some (room.startGame (m.lastGameId + 1) now) := by
        simp [RoomManager.started, RoomManager.store]
      obtain rfl := Option.some.inj (hroom.symm.trans hr')
      have hgame' : n.game = m.lastGameId + 1 := hgame
      have hnew : v.game ≠ n.game := by
        have := hv.game
        grind
      refine ⟨_, (hear_single _ _).trans (ClientGameView.onRoomState_new hphase hnew), ?_⟩
      intro f hf _ _ hg
      have hle := (hok.past hf).2
      have hsame : n.game = f.game := hg
      grind
  | @moved room stone x y now hon hacc =>
    have hsound := (hok.wellFormed.room hon.1).sound
    by_cases hs : s ∈ room.members
    · have hmirror := hv.mirrors _ _ hon hs
      rw [if_pos hs]
      refine ⟨_, (hear_single _ _).trans (hmirror.onGameMove hsound hacc), ?_⟩
      intro f hf _ _ hg
      rcases RoomManager.queued_after_stone hf with hf | ⟨-, -, -, hcount⟩
      · exact absurd (hg.symm.trans hmirror.game) (hok.over hf hon)
      · refine ⟨hmirror.roomPlaying, ?_⟩
        rw [hcount]
        exact UInt32.toNat_ofNat_of_lt' (by
          have := (hsound.tryPlaceStone stone x y).moveCount_le
          simp only [UInt32.size]
          omega)
    · rw [if_neg hs]
      refine ⟨v, rfl, fun f hf hs' hr hg => ?_⟩
      rcases RoomManager.queued_after_stone hf with hf | ⟨-, -, htargets, -⟩
      · exact hw f hf hs' hr hg
      · exact absurd (htargets ▸ hs') hs
  | @state r _ hD hheard =>
    cases hheard with
    | away => exact ⟨v, rfl, hw⟩
    | @member room n hr hs hid hgame hphase =>
      -- the queue holds no result for `s`
      have hnone : ∀ v', Awaits s m v' := fun v' f hf hs' =>
        absurd hs' (hD room hr (Or.inl trivial) hs f hf)
      cases hp : room.phase with
      | waiting =>
        obtain ⟨v', e, -⟩ := v.onRoomState_waiting (hphase.trans hp)
        exact ⟨v', (hear_single _ _).trans e, hnone v'⟩
      | playing =>
        have hroom := (hok.wellFormed.stored hr).1
        have e := (hv.mirrors _ _ ⟨hr, hp⟩ hs).onRoomState (hid.trans hroom.symm) hgame
          (hphase.trans hp)
        exact ⟨v, (hear_single _ _).trans e, hw⟩
  | @announced f rest hq =>
    have hmem : ∀ f' ∈ rest, f' ∈ m.finishedGames := fun f' hf' =>
      hq ▸ List.mem_cons_of_mem _ hf'
    by_cases hs : s ∈ f.targets
    · rw [if_pos hs]
      obtain ⟨v', e, hgame, hcases⟩ := ClientGameView.onGameEnd_awaited
        (hw f (hq ▸ List.mem_cons_self) hs)
      refine ⟨v', (hear_single _ _).trans e, fun f' hf' hs' hr' hg' => ?_⟩
      rcases hcases with rfl | hsame
      · exact hw f' (hmem f' hf') hs' hr' hg'
      · -- no other result is of the same game
        exact absurd (hg'.symm.trans (hgame.trans hsame)) (hok.once hq hf')
    · rw [if_neg hs]
      exact ⟨v, rfl, fun f' hf' => hw f' (hmem f' hf')⟩
  | left hq =>
    refine ⟨v.reset, hear_single _ _, fun f hf => ?_⟩
    rw [hq] at hf
    cases hf

theorem Acts.accepted (h : Acts (Undisturbed True s) s m notices m') (hv : UpToDate s m v)
    (hw : Awaits s m v) :
    ∃ v', hear v notices = some v' ∧ UpToDate s m' v' ∧ Awaits s m' v' := by
  refine Trace.follows (R := fun m v => UpToDate s m v ∧ Awaits s m v) ?_ h ⟨hv, hw⟩
  rintro m a m' v ⟨hok, hact⟩ ⟨hv, hw⟩
  obtain ⟨v', e, hw'⟩ := hact.accepted hok hv hw
  exact ⟨v', e, hact.keeps_view hok hv e, hw'⟩

end Acts
/-! ## Runs -/

/-- The steps of a run that take no `ROOM_READY_REQ` in a room with a result still queued. -/
def ReadyInTime (history : List (Entry Server Input)) : Prop :=
  ∀ e ∈ history, ∀ r, e.pre.rooms.Queued r → ¬ e.pre.rooms.Readies (e.pre.Asked e.label) r

theorem ReadyInTime.before {history : List (Entry Server Input)} {e : Entry Server Input}
    (h : ReadyInTime (history ++ [e])) : ReadyInTime history :=
  fun e' he' => h e' (List.mem_append_left _ he')

/-- The run invariant: the results are shelved, and every connected session follows. -/
theorem ServerRun.followed {host : Host} {timeout : Time} {p : PacketProcessor}
    (hmake : PacketProcessor.make {} timeout = .ok p) {history : List (Entry Server Input)}
    {c : Server} (hrun : ServerRun host p history c) (hready : ReadyInTime history) :
    c.rooms.Shelved True ∧ ∀ s ∈ c.network.connected, ∃ v,
      hear {} (hears s c.network.sent) = some v ∧ UpToDate s c.rooms v ∧ Awaits s c.rooms v := by
  induction hrun with
  | start =>
    refine ⟨.empty (RoomManager.make_books (PacketProcessor.make_eq hmake).1).2, fun s hs => ?_⟩
    exact absurd hs (PacketProcessor.make_unconnected hmake s)
  | @snoc before c c' l hbefore taken ih =>
    obtain ⟨hshelved, hfollowed⟩ := ih hready.before
    have hc := ServerRun.sound hmake hbefore
    have hc' := ServerStep.sound hc taken
    obtain ⟨packets, hdeed, hsession⟩ := ServerStep.session hc taken
    have htimely : ∀ r, c.rooms.Queued r → ¬ c.rooms.Readies (c.Asked l) r :=
      hready ⟨c, l, c'⟩ (List.mem_append_right _ (List.mem_singleton_self _))
    have hstarts : ∀ r, c.rooms.Queued r → ¬ c.rooms.Starts (c.Asked l) r :=
      fun r => hshelved.not_starts trivial
    refine ⟨hdeed.shelved hc.rooms.wellFormed hshelved (fun _ => htimely) hstarts, fun s hs => ?_⟩
    rcases hsession s hs with ⟨hs, hmore⟩ | ⟨-, hnone, hgone⟩
    · obtain ⟨v, hv, hup, hawaits⟩ := hfollowed s hs
      have hacts := hdeed.acts hc.rooms hc.asked_id
        (hshelved.permits hc.rooms (fun _ => htimely) hstarts s) s
      obtain ⟨v', e, hup', hawaits'⟩ := hacts.accepted hup hawaits
      refine ⟨v', ?_, hup', hawaits'⟩
      rw [hmore, hear_append, hv]
      exact e
    · refine ⟨{}, by rw [hnone]; rfl, ⟨UInt32.zero_le, ?_⟩, ?_⟩
      · exact fun r room hon hmem => absurd hmem (hgone r room hon.1)
      · -- results are numbered from 1, and the new view shows no game
        intro f hf _ _ hg
        have h1 := (hc'.rooms.past hf).1
        have h0 : (0 : UInt32) = f.game := hg
        rw [← h0] at h1
        exact absurd h1 (by decide)

/-- In every run that takes no `ROOM_READY_REQ` in a room with a result still queued, a client that
stays connected accepts every packet it is sent. -/
theorem processResponse_accepts {host : Host} {timeout : Time} {p : PacketProcessor}
    {history : List (Entry Server Input)} {c : Server} {s : SessionId}
    (hmake : PacketProcessor.make {} timeout = .ok p) (hrun : ServerRun host p history c)
    (hready : ReadyInTime history) (hs : s ∈ c.network.connected) :
    (watch {} ((toSession s c.network.sent).map SentPacket.packet)).isSome = true := by
  obtain ⟨v, hv, -⟩ := (hrun.followed hmake hready).2 s hs
  rw [watch_eq]
  exact Option.isSome_iff_exists.mpr ⟨v, hv⟩

/-- A step with nothing queued, or that handles no event. -/
def undisturbing (e : Entry Server Input) : Bool :=
  e.pre.rooms.finishedGames.isEmpty ||
    match e.label with
    | .event .. => false
    | _ => true

/-- Such a step handles no request with a result queued. -/
theorem undisturbing_asked {e : Entry Server Input} (h : undisturbing e = true) {r : RoomId}
    (hq : e.pre.rooms.Queued r) (event : NetworkEvent) : ¬ e.pre.Asked e.label event := by
  obtain ⟨f, hf, -⟩ := hq
  have hsome : e.pre.rooms.finishedGames.isEmpty = false := by
    cases hfg : e.pre.rooms.finishedGames with
    | nil => simp [hfg] at hf
    | cons => rfl
  rw [undisturbing, hsome, Bool.false_or] at h
  rintro ⟨loginNow, gameNow, network, hl, -⟩
  rw [hl] at h
  cases h

/-- The host has resigned and is told of the end of the game, and accepts all that it was sent. -/
theorem processResponse_accepts_resigned : ∃ history c v,
    ServerRun Host.ascii PacketProcessor.fresh history c ∧ ReadyInTime history ∧
      1 ∈ c.network.connected ∧
        (∃ packet ∈ toSession 1 c.network.sent, packet.packetId = gameEndNtf) ∧
          watch {} ((toSession 1 c.network.sent).map SentPacket.packet) = some v := by
  obtain ⟨history, c, hrun, hcheck⟩ := ServerRun.played Host.ascii PacketProcessor.fresh
    (resignedInputs ++ [.finish])
    (fun history c => history.all undisturbing && decide (1 ∈ c.network.connected) &&
      (toSession 1 c.network.sent).any fun packet => decide (packet.packetId = gameEndNtf))
    (by decide +kernel)
  simp only [Bool.and_eq_true, List.all_eq_true, List.any_eq_true, decide_eq_true_eq] at hcheck
  obtain ⟨⟨hall, hin⟩, hended⟩ := hcheck
  have hready : ReadyInTime history := by
    rintro e he r hq ⟨event, ready, u, room, hasked, -⟩
    exact undisturbing_asked (hall e he) hq event hasked
  obtain ⟨v, hv⟩ := Option.isSome_iff_exists.mp
    (processResponse_accepts PacketProcessor.make_fresh hrun hready hin)
  exact ⟨history, c, v, hrun, hready, hin, hended, hv⟩

/-- The host resigns and the guest gets ready in the same `Update`: the host, connected all along,
does not accept the result. -/
theorem processResponse_refuses_result : ∃ history c,
    ServerRun Host.ascii PacketProcessor.fresh history c ∧ 1 ∈ c.network.connected ∧
      watch {} ((toSession 1 c.network.sent).map SentPacket.packet) = none := by
  obtain ⟨history, c, hrun, hcheck⟩ := ServerRun.played Host.ascii PacketProcessor.fresh
    (resignedInputs ++ readyInputs ++ [.finish])
    (fun _ c => decide (1 ∈ c.network.connected ∧
      watch {} ((toSession 1 c.network.sent).map SentPacket.packet) = none))
    (by decide +kernel)
  exact ⟨history, c, hrun, decide_eq_true_eq.mp hcheck⟩

end SelectServer
