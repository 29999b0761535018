import SelectServer.LoginDeadlines

/- Sessions that are gone leave nothing behind. Every reference to a session that
   the logic keeps leads back to its user record or to its login deadline: the
   nickname index (`Indexed`), the seats of a room, and the targets of a queued
   result (`TargetsKnown`). A record or a deadline outlives the connection only
   while its `Disconnected` event is queued, and that event takes both. -/
namespace SelectServer
open Wire (Bytes)
open Histories

/-! ## The nickname index -/

namespace UserManager
variable {m m' : UserManager}

/-- Every nickname in use belongs to a user of that name. -/
def Indexed (m : UserManager) : Prop :=
  ∀ (nickname : Bytes) (s : SessionId), m.sessionByNickname[nickname]? = some s →
    ∃ u, m.users[s]? = some u ∧ u.nickname = nickname

theorem Indexed.sameNames (h : m.Indexed) (hs : SameNames m m') : m'.Indexed := by
  intro nickname s e
  rw [hs.index] at e
  obtain ⟨u, hu, hname⟩ := h nickname s e
  have hkept : (m'.users[s]?).map User.nickname = some nickname := by
    rw [hs.names s, hu, Option.map_some, hname]
  exact Option.map_eq_some_iff.mp hkept

theorem Indexed.add (h : m.Indexed) {a : SessionId} {name : Bytes} (hnew : m.users[a]? = none) :
    (m.add a name).Indexed := by
  intro nickname s e
  simp only [UserManager.add] at e ⊢
  by_cases hold : m.sessionByNickname[nickname]? = some s
  · obtain ⟨u, hu, hname⟩ := h nickname s hold
    have hne : s ≠ a := by
      rintro rfl
      rw [hnew] at hu
      cases hu
    exact ⟨u, by grind, hname⟩
  · -- the entry is the new one
    have hentry : nickname = name ∧ s = a := by grind
    obtain ⟨rfl, rfl⟩ := hentry
    exact ⟨{ session := s, nickname := nickname }, by grind, rfl⟩

theorem Indexed.remove (h : m.Indexed) (a : SessionId) : (m.remove a).Indexed := by
  unfold UserManager.remove UserManager.find
  cases hu : m.users[a]? with
  | none => exact h
  | some user =>
    intro nickname s e
    dsimp only at e ⊢
    have hne : nickname ≠ user.nickname := by
      rintro rfl
      simp at e
    have hold : m.sessionByNickname[nickname]? = some s := by grind
    obtain ⟨u, hu', hname⟩ := h nickname s hold
    have hother : a ≠ s := by
      rintro rfl
      rw [hu] at hu'
      obtain rfl := Option.some.inj hu'
      exact hne hname.symm
    exact ⟨u, by grind, hname⟩

end UserManager

theorem Desk.Serves.indexed {s : SessionId} {d d' : Desk} (h : Desk.Serves s d d')
    (hi : d.users.Indexed) : d'.users.Indexed := by
  cases h with
  | kept hsame => exact hi.sameNames hsame
  | loggedIn hnew => exact hi.add hnew

theorem handleEvent_indexed {host : Host} {p p' : PacketProcessor} {event : NetworkEvent}
    {loginNow gameNow : Time} (hok : p.rooms.Ok) (hi : p.rooms.users.Indexed)
    (h : p.handleEvent host event loginNow gameNow = .ok p') : p'.rooms.users.Indexed := by
  cases PacketProcessor.handleEvent_takes h with
  | skipped => exact hi
  | opened => exact hi
  | late => exact hi
  | served _ _ _ hserved => exact (PacketProcessor.processPacket_desk hok hserved).indexed hi
  | closed _ hclosed =>
    obtain ⟨users, hsame, hdesk⟩ := PacketProcessor.handleDisconnected_desk hok hclosed
    have husers : p'.rooms.users = users.remove event.session := congrArg Desk.users hdesk
    rw [husers]
    exact (hi.sameNames hsame).remove _

theorem sweepRooms_indexed {host : Host} {p p' : PacketProcessor} {traversal : Traversal RoomId}
    {now : Time} (hok : p.rooms.Ok) (hi : p.rooms.users.Indexed)
    (h : p.sweepRooms host traversal now = .ok p') : p'.rooms.users.Indexed := by
  obtain ⟨users, hsame, hdesk⟩ := PacketProcessor.sweepRooms_desk hok h
  have husers : p'.rooms.users = users := congrArg Desk.users hdesk
  rw [husers]
  exact hi.sameNames hsame

theorem ServerStep.indexed {host : Host} {c c' : Server} {l : Input} (hc : c.Sound)
    (hi : c.rooms.users.Indexed) (h : ServerStep host c l c') : c'.rooms.users.Indexed := by
  cases l with
  | accept now => cases h; exact hi
  | receive s packetId body => cases h; exact hi
  | close s => cases h; exact hi
  | beginUpdate traversal now =>
    obtain ⟨p', hp', rfl⟩ := Server.step_begin h
    exact sweepRooms_indexed hc.rooms hi hp'
  | event loginNow gameNow =>
    obtain ⟨event, rest, p', hevents, hp', rfl⟩ := Server.step_event h
    exact handleEvent_indexed (by exact hc.rooms) (by exact hi) hp'
  | endUpdate first second traversal now =>
    obtain ⟨p', hp', rfl⟩ := Server.step_end h
    have hrooms := (c.processor.checkLoginTimeouts_twice first second).1
    exact sweepRooms_indexed (hrooms ▸ hc.rooms) (hrooms ▸ hi) hp'

/-! ## The targets of queued results -/

namespace RoomManager

/-- A queued result will be sent to sessions that are logged in. -/
def TargetsKnown (m : RoomManager) : Prop :=
  ∀ finished ∈ m.finishedGames, ∀ s ∈ finished.targets, (m.users.users[s]?).isSome = true

end RoomManager

theorem Effect.users_kept {wideChars : Bytes → Nat} {m m' : RoomManager} {l : Call} {a : Answer}
    (he : Effect wideChars m l a m') (hremove : ∀ s, l ≠ .remove s) {s : SessionId}
    (hs : (m.users.users[s]?).isSome = true) : (m'.users.users[s]?).isSome = true := by
  -- a login adds a record; every other call writes through records that exist
  by_cases hlogin : ∃ s' nickname, l = .login s' nickname
  · obtain ⟨s', nickname, rfl⟩ := hlogin
    cases he with
    | refused => exact hs
    | loggedIn =>
      simp only [UserManager.add]
      grind
    | expired hactor => cases hactor
  · have hsame := he.sameNames (fun s' nickname e => hlogin ⟨s', nickname, e⟩) hremove
    rw [hsame.isSome s]
    exact hs

theorem Effect.targetsKnown {wideChars : Bytes → Nat} {m m' : RoomManager} {l : Call} {a : Answer}
    (he : Effect wideChars m l a m') (h : m.WellFormed) (hk : m.TargetsKnown)
    (hpop : l ≠ .tryPopFinishedGame) (hremove : ∀ s, l ≠ .remove s) : m'.TargetsKnown := by
  obtain ⟨hturn, hqueue⟩ := he.turnover h
  rw [QueueStep, he.popped?_nil hpop, List.nil_append] at hqueue
  generalize recordedBy m l m' = records at hturn hqueue
  intro finished hfinished s hs
  refine he.users_kept hremove ?_
  rw [← hqueue] at hfinished
  rcases List.mem_append.mp hfinished with hold | hnew
  · exact hk finished hold s hs
  · -- a new record has the members of its room as targets
    cases hturn with
    | ended hends =>
      obtain ⟨room, g, reason, hon, -, rfl⟩ := hends.causes hnew
      obtain ⟨u, hu, -⟩ := h.member hon.1 s hs
      rw [hu]
      rfl
    | started => cases hnew
    | moved => cases hnew

theorem Handled.targetsKnown {host : Host} {m m' : RoomManager} {event : NetworkEvent}
    {rid : UInt16} {packets : List SentPacket} (h : Handled host m event rid packets m')
    (hwf : m.WellFormed) (hk : m.TargetsKnown) : m'.TargetsKnown := by
  cases h with
  | idle => exact hk
  | @answered body l a m' hplain he hl hcaller =>
    refine he.targetsKnown hwf hk ?_ ?_
    · rintro rfl
      exact hl
    · rintro s rfl
      exact hl.elim
  | created _ he => exact he.targetsKnown hwf hk (by simp) (by simp)
  | entered _ he => exact he.targetsKnown hwf hk (by simp) (by simp)
  | readied _ _ _ _ he => exact he.targetsKnown hwf hk (by simp) (by simp)
  | started _ _ _ _ he => exact he.targetsKnown hwf hk (by simp) (by simp)
  | moved _ he => exact he.targetsKnown hwf hk (by simp) (by simp)
  | left => simp [RoomManager.TargetsKnown]
  | stayed => simp [RoomManager.TargetsKnown]

/-- Whoever is removed is removed with the queue of results flushed. -/
theorem Deed.targetsKnown {host : Host} {asked : NetworkEvent → Prop} {m m' : RoomManager}
    {packets : List SentPacket} (h : Deed host asked m packets m') (hwf : m.WellFormed)
    (hk : m.TargetsKnown) : m'.TargetsKnown := by
  cases h with
  | quiet => exact hk
  | handled _ h => exact h.targetsKnown hwf hk
  | forgotten => simp [RoomManager.TargetsKnown]
  | gone => simp [RoomManager.TargetsKnown]
  | swept => simp [RoomManager.TargetsKnown]

/-! ## Every reference over a run -/

theorem ServerRun.referenced {host : Host} {timeout : Time} {p : PacketProcessor}
    (hp : PacketProcessor.make {} timeout = .ok p) {history : List (Entry Server Input)}
    {c : Server} (h : ServerRun host p history c) :
    c.rooms.users.Indexed ∧ c.rooms.TargetsKnown := by
  induction h with
  | start =>
    have husers : p.rooms.users = {} := congrArg Desk.users (PacketProcessor.make_desk hp)
    have hqueue := (RoomManager.make_books (PacketProcessor.make_eq hp).1).2
    constructor
    · show p.rooms.users.Indexed
      rw [husers]
      intro nickname s e
      simp at e
    · show p.rooms.TargetsKnown
      simp [RoomManager.TargetsKnown, hqueue]
  | snoc before taken ih =>
    have hsound := ServerRun.sound hp before
    obtain ⟨packets, hdeed, -⟩ := taken.deed hsound
    exact ⟨taken.indexed hsound ih.1, hdeed.targetsKnown hsound.rooms.wellFormed ih.2⟩

/-- `s` occurs nowhere in the state of the logic. -/
structure PacketProcessor.Forgets (p : PacketProcessor) (s : SessionId) : Prop where
  user : p.rooms.users.users[s]? = none
  nickname : ∀ nickname : Bytes, p.rooms.users.sessionByNickname[nickname]? ≠ some s
  deadline : p.loginDeadlines[s]? = none
  room : ∀ (r : RoomId) (room : Room), p.rooms.rooms[r]? = some room →
    s ∉ room.members ∧ s ∉ room.readyMembers ∧ s ≠ room.hostSession ∧ s ≠ room.blackPlayer ∧
      s ≠ room.whitePlayer
  result : ∀ finished ∈ p.rooms.finishedGames, s ∉ finished.targets

theorem RoomManager.WellFormed.unseated {m : RoomManager} (h : m.WellFormed) {s : SessionId}
    (hs : s ≠ 0) (hu : m.users.users[s]? = none) {r : RoomId} {room : Room}
    (hr : m.rooms[r]? = some room) :
    s ∉ room.members ∧ s ∉ room.readyMembers ∧ s ≠ room.hostSession ∧ s ≠ room.blackPlayer ∧
      s ≠ room.whitePlayer := by
  have hroom := h.room hr
  have hmember : s ∉ room.members := by
    intro hmem
    obtain ⟨u, hu', -⟩ := h.member hr s hmem
    rw [hu] at hu'
    cases hu'
  refine ⟨hmember, fun hready => hmember (hroom.ready s hready).1, ?_, ?_, ?_⟩
  · rintro rfl
    exact hmember hroom.seats.host_mem
  · intro e
    exact hmember (hroom.colours s hs (Or.inl e))
  · intro e
    exact hmember (hroom.colours s hs (Or.inr e))

/-- A session whose `Disconnected` event was taken is forgotten for good, and one that is still
known is connected or has that event queued. -/
theorem sessions_cleaned {host : Host} {timeout : Time} {p : PacketProcessor}
    {history : List (Entry Server Input)} {c : Server}
    (hp : PacketProcessor.make {} timeout = .ok p) (hrun : ServerRun host p history c) :
    (∀ event ∈ consumed history, event.type = .disconnected →
        c.processor.Forgets event.session) ∧
      ∀ s, c.processor.Knows s →
        s ∈ c.network.connected ∨ NetworkEvent.closed s ∈ c.network.events := by
  have hsound := ServerRun.sound hp hrun
  have hstanding := ServerRun.standing hp hrun
  have hstream := ServerRun.streams hp hrun
  obtain ⟨hindexed, htargets⟩ := ServerRun.referenced hp hrun
  constructor
  · intro event he htype
    have hseen : event ∈ ofSession event.session (consumed history) := mem_ofSession.mpr ⟨he, rfl⟩
    have hunknown := (hstanding event.session).left ⟨event, hseen, htype⟩
    have hs : event.session ≠ 0 :=
      ((hstream event.session).old (List.mem_append_left _ hseen)).1
    have huser : c.rooms.users.users[event.session]? = none := by
      cases hu : c.rooms.users.users[event.session]? with
      | none => rfl
      | some u => exact absurd (Or.inr (Option.isSome_iff_exists.mpr ⟨u, hu⟩)) hunknown
    -- every other reference would lead to a user record or a deadline of it
    refine ⟨huser, fun nickname e => ?_, ?_, fun r room hr => ?_, fun finished hf hmem => ?_⟩
    · obtain ⟨u, hu, -⟩ := hindexed nickname _ e
      rw [huser] at hu
      cases hu
    · cases hd : c.processor.loginDeadlines[event.session]? with
      | none => rfl
      | some deadline => exact absurd (Or.inl (Option.isSome_iff_exists.mpr ⟨_, hd⟩)) hunknown
    · exact hsound.rooms.wellFormed.unseated hs huser hr
    · have hknown := htargets finished hf _ hmem
      rw [huser] at hknown
      cases hknown
  · intro s hknown
    obtain ⟨event, he, -⟩ := (hstanding s).met hknown
    rcases (hstream s).open_or_over (List.mem_append_left _ he) with hc | hclosed
    · exact Or.inl hc
    · rcases List.mem_append.mp hclosed with hseen | hqueued
      · exact absurd hknown ((hstanding s).left ⟨_, hseen, rfl⟩)
      · exact Or.inr (mem_ofSession.mp hqueued).1

/-- The host of a game loses its connection in the middle of it; the other player stays. -/
theorem sessions_cleaned_host : ∃ history c,
    ServerRun Host.ascii PacketProcessor.fresh history c ∧
      NetworkEvent.closed 1 ∈ consumed history ∧ c.processor.Forgets 1 ∧ c.processor.Knows 2 := by
  obtain ⟨history, c, hrun, hcheck⟩ := ServerRun.played Host.ascii PacketProcessor.fresh
    (playingInputs ++ [.close 1, .event 0 0])
    (fun history c => decide (NetworkEvent.closed 1 ∈ consumed history ∧
      (c.rooms.users.users[(2 : SessionId)]?).isSome = true)) (by decide +kernel)
  obtain ⟨hclosed, hknown⟩ := of_decide_eq_true hcheck
  exact ⟨history, c, hrun, hclosed,
    (sessions_cleaned PacketProcessor.make_fresh hrun).1 _ hclosed rfl, Or.inr hknown⟩

end SelectServer
