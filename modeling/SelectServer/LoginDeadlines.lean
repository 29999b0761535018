import SelectServer.LoginDesk

/- Login deadlines. `Standing` says for one session what the desk knows of it, given
   the events of it that were taken: nothing before `Connected` and nothing after
   `Disconnected`; in between a session that is still connected has either a user or
   a deadline, which is the time of its `Connected` event plus the timeout.
   `logins_timed` reads off what the login checks promise. -/
namespace SelectServer
open Wire (Bytes)
open Histories

namespace PacketProcessor

/-- The logic holds a deadline or a user record for `s`. -/
def Knows (p : PacketProcessor) (s : SessionId) : Prop :=
  (p.loginDeadlines[s]?).isSome = true ∨ (p.rooms.users.users[s]?).isSome = true

/-! ## The login checks -/

section Checks
variable {p : PacketProcessor} {s : SessionId} {now : Time}

theorem isLoginExpired_iff : p.isLoginExpired s now = true ↔
    ∃ deadline, p.loginDeadlines[s]? = some deadline ∧ deadline ≤ now := by
  unfold isLoginExpired
  cases p.loginDeadlines[s]? with
  | none => simp
  | some deadline => simp

theorem checkLoginTimeout_other (p : PacketProcessor) (now : Time) {a : SessionId} (h : s ≠ a) :
    (checkLoginTimeout now p a).loginDeadlines[s]? = p.loginDeadlines[s]? ∧
      (s ∈ (checkLoginTimeout now p a).network.connected ↔ s ∈ p.network.connected) := by
  unfold checkLoginTimeout
  split
  · exact ⟨rfl, Iff.rfl⟩
  split
  · exact ⟨rfl, Iff.rfl⟩
  · constructor
    · show (p.loginDeadlines.erase a)[s]? = p.loginDeadlines[s]?
      have hne : a ≠ s := fun e => h e.symm
      grind
    · show s ∈ (p.network.disconnect a).connected ↔ s ∈ p.network.connected
      simp [h]

theorem checkLoginTimeout_self (p : PacketProcessor) (now : Time) (s : SessionId) :
    (checkLoginTimeout now p s).loginDeadlines[s]? = (p.loginDeadlines[s]?).filter (now < ·) ∧
      (s ∈ (checkLoginTimeout now p s).network.connected ↔
        s ∈ p.network.connected ∧
          ∀ deadline, p.loginDeadlines[s]? = some deadline → now < deadline) := by
  unfold checkLoginTimeout
  cases hs : p.loginDeadlines[s]? with
  | none => simp [hs]
  | some deadline =>
    dsimp only
    split
    · rename_i hlt
      simp [hs, hlt, Option.filter]
    · rename_i hlt
      constructor
      · show (p.loginDeadlines.erase s)[s]? = _
        simp [hlt, Option.filter]
      · show s ∈ (p.network.disconnect s).connected ↔ _
        simp [hlt]

theorem checkLoginTimeout_fixed (p : PacketProcessor) (now : Time) (a : SessionId) :
    (checkLoginTimeout now p a).rooms = p.rooms ∧
      (checkLoginTimeout now p a).loginTimeout = p.loginTimeout := by
  unfold checkLoginTimeout
  split
  · exact ⟨rfl, rfl⟩
  split <;> exact ⟨rfl, rfl⟩

/-- A row of checks looks at each session of the row. -/
theorem foldl_checkLoginTimeout (now : Time) (s : SessionId) (sessions : List SessionId) :
    ∀ p : PacketProcessor,
      (sessions.foldl (checkLoginTimeout now) p).rooms = p.rooms ∧
      (sessions.foldl (checkLoginTimeout now) p).loginTimeout = p.loginTimeout ∧
      (sessions.foldl (checkLoginTimeout now) p).loginDeadlines[s]? =
        (if s ∈ sessions then (p.loginDeadlines[s]?).filter (now < ·) else p.loginDeadlines[s]?) ∧
      (s ∈ (sessions.foldl (checkLoginTimeout now) p).network.connected ↔
        s ∈ p.network.connected ∧
          (s ∈ sessions → ∀ deadline, p.loginDeadlines[s]? = some deadline → now < deadline)) := by
  induction sessions with
  | nil => simp
  | cons a sessions ih =>
    intro p
    obtain ⟨hrooms, htimeout, hdeadline, hconnected⟩ := ih (checkLoginTimeout now p a)
    obtain ⟨hrooms1, htimeout1⟩ := checkLoginTimeout_fixed p now a
    refine ⟨hrooms.trans hrooms1, htimeout.trans htimeout1, ?_⟩
    rw [List.foldl_cons, hdeadline, hconnected]
    by_cases hs : s = a
    · subst hs
      obtain ⟨hself, hin⟩ := checkLoginTimeout_self p now s
      rw [hself, hin]
      cases p.loginDeadlines[s]? with
      | none => simp
      | some deadline => by_cases hlt : now < deadline <;> simp [hlt]
    · obtain ⟨hother, hin⟩ := checkLoginTimeout_other p now hs
      rw [hother, hin]
      simp [hs]

theorem mem_keys {p : PacketProcessor} (traversal : Traversal SessionId) {s : SessionId} :
    s ∈ traversal.order p.loginDeadlines.keys ↔ (p.loginDeadlines[s]?).isSome = true := by
  rw [(traversal.perm _).mem_iff, Std.ExtTreeMap.mem_keys]
  exact Std.ExtTreeMap.mem_iff_isSome_getElem?

/-- `CheckLoginTimeouts` drops the deadlines that have come, and disconnects their sessions. -/
theorem checkLoginTimeouts_spec (p : PacketProcessor) (traversal : Traversal SessionId)
    (now : Time) (s : SessionId) :
    (p.checkLoginTimeouts traversal now).rooms = p.rooms ∧
    (p.checkLoginTimeouts traversal now).loginTimeout = p.loginTimeout ∧
    (p.checkLoginTimeouts traversal now).loginDeadlines[s]? =
      (p.loginDeadlines[s]?).filter (now < ·) ∧
    (s ∈ (p.checkLoginTimeouts traversal now).network.connected ↔ s ∈ p.network.connected ∧
      ∀ deadline, p.loginDeadlines[s]? = some deadline → now < deadline) := by
  obtain ⟨hrooms, htimeout, hdeadline, hconnected⟩ :=
    foldl_checkLoginTimeout now s (traversal.order p.loginDeadlines.keys) p
  refine ⟨hrooms, htimeout, hdeadline.trans ?_, hconnected.trans ?_⟩
  · by_cases hmem : s ∈ traversal.order p.loginDeadlines.keys
    · rw [if_pos hmem]
    · have hnone : p.loginDeadlines[s]? = none := by
        simpa using fun h => hmem ((mem_keys traversal).mpr h)
      rw [if_neg hmem, hnone]
      rfl
  · rw [mem_keys]
    cases p.loginDeadlines[s]? <;> simp

end Checks

end PacketProcessor

/-! ## What the desk knows of one session -/

/-- What is known of `s` when the events `seen` of it have been taken. -/
structure Standing (p : PacketProcessor) (s : SessionId) (seen : List NetworkEvent) : Prop where
  met : p.Knows s → ∃ event ∈ seen, event.type = .connected
  left : (∃ event ∈ seen, event.type = .disconnected) → ¬ p.Knows s
  once : (p.loginDeadlines[s]?).isSome = true → (p.rooms.users.users[s]?).isSome = false
  known : s ∈ p.network.connected → (∃ event ∈ seen, event.type = .connected) → p.Knows s
  deadline : ∀ deadline, p.loginDeadlines[s]? = some deadline → ∀ event ∈ seen,
    event.type = .connected → deadline = event.occurredAt + p.loginTimeout.val

/-- Nothing happens to `s`, or it is disconnected and its deadline may go. -/
structure PacketProcessor.Settles (p p' : PacketProcessor) (s : SessionId) : Prop where
  connected : s ∈ p'.network.connected → s ∈ p.network.connected
  user : (p'.rooms.users.users[s]?).isSome = (p.rooms.users.users[s]?).isSome
  deadline : p'.loginDeadlines[s]? = p.loginDeadlines[s]? ∨
    (p'.loginDeadlines[s]? = none ∧ s ∉ p'.network.connected)
  timeout : p'.loginTimeout = p.loginTimeout

section Standing
variable {host : Host} {p p' : PacketProcessor} {s : SessionId} {seen : List NetworkEvent}

theorem Standing.settles (h : Standing p s seen) (hs : p.Settles p' s) : Standing p' s seen := by
  obtain ⟨hconnected, huser, hdeadline, htimeout⟩ := hs
  have hkept : ∀ {deadline}, p'.loginDeadlines[s]? = some deadline →
      p.loginDeadlines[s]? = some deadline := by
    intro deadline e
    rcases hdeadline with hsame | ⟨hnone, -⟩
    · exact hsame ▸ e
    · rw [hnone] at e
      cases e
  have hpending : (p'.loginDeadlines[s]?).isSome = true → (p.loginDeadlines[s]?).isSome = true := by
    intro hsome
    obtain ⟨deadline, e⟩ := Option.isSome_iff_exists.mp hsome
    rw [hkept e]
    rfl
  have hknows : p'.Knows s → p.Knows s := by
    rintro (hsome | hsome)
    · exact Or.inl (hpending hsome)
    · exact Or.inr (huser ▸ hsome)
  refine ⟨fun hk => h.met (hknows hk), fun hl hk => h.left hl (hknows hk),
    fun hsome => huser.trans (h.once (hpending hsome)), fun hc hopened => ?_,
    fun deadline e event he htype => ?_⟩
  · rcases hdeadline with hsame | ⟨-, hgone⟩
    · rcases h.known (hconnected hc) hopened with hsome | hsome
      · exact Or.inl (by rw [hsame]; exact hsome)
      · exact Or.inr (by rw [huser]; exact hsome)
    · exact absurd hc hgone
  · rw [htimeout]
    exact h.deadline deadline (hkept e) event he htype

/-- A packet changes nothing by itself. -/
theorem Standing.packet (h : Standing p s seen) {event : NetworkEvent} (htype : event.type = .packet) :
    Standing p s (seen ++ [event]) := by
  have hmem : ∀ {t : NetworkEventType}, t ≠ .packet →
      (∃ e ∈ seen ++ [event], e.type = t) → ∃ e ∈ seen, e.type = t := by
    rintro t ht ⟨e, he, rfl⟩
    rcases List.mem_append.mp he with he | he
    · exact ⟨e, he, rfl⟩
    · exact absurd (List.mem_singleton.mp he ▸ htype) ht
  refine ⟨fun hk => ?_, fun hl => h.left (hmem (by decide) hl), h.once,
    fun hc ho => h.known hc (hmem (by decide) ho), fun deadline e opened he ht => ?_⟩
  · obtain ⟨e, he, ht⟩ := h.met hk
    exact ⟨e, List.mem_append_left _ he, ht⟩
  · rcases List.mem_append.mp he with he | he
    · exact h.deadline deadline e opened he ht
    · rw [List.mem_singleton.mp he, htype] at ht
      cases ht

theorem Settles.refl (p : PacketProcessor) (s : SessionId) : p.Settles p s :=
  ⟨fun h => h, rfl, Or.inl rfl, rfl⟩

/-- Of a request of `a` another session notices nothing at the desk. -/
theorem Desk.Serves.settles {a : SessionId} (h : Desk.Serves a p.desk p'.desk) (hs : s ≠ a)
    (hq : Network.Quits p.network p'.network) : p.Settles p' s := by
  generalize hdesk : p'.desk = desk at h
  cases h with
  | @kept users hsame =>
    have husers : p'.rooms.users = users := congrArg Desk.users hdesk
    have hdeadlines : p'.loginDeadlines = p.loginDeadlines := congrArg Desk.loginDeadlines hdesk
    refine ⟨fun h => hq.connected h, ?_, Or.inl (by rw [hdeadlines]), congrArg Desk.loginTimeout hdesk⟩
    rw [husers]
    exact hsame.isSome s
  | @loggedIn nickname hnew hfree =>
    have husers : p'.rooms.users = p.rooms.users.add a nickname := congrArg Desk.users hdesk
    have hdeadlines : p'.loginDeadlines = p.loginDeadlines.erase a :=
      congrArg Desk.loginDeadlines hdesk
    have hne : a ≠ s := fun e => hs e.symm
    refine ⟨fun h => hq.connected h, ?_, Or.inl ?_, congrArg Desk.loginTimeout hdesk⟩
    · rw [husers]
      simp only [UserManager.add]
      grind
    · rw [hdeadlines]
      grind

/-- A request of `s` keeps its standing; a login exchanges the deadline for a user. -/
theorem Standing.serves (h : Standing p s seen) (hd : Desk.Serves s p.desk p'.desk)
    (hq : Network.Quits p.network p'.network)
    (hinside : (∃ e ∈ seen, e.type = .connected) ∧ ∀ e ∈ seen, e.type ≠ .disconnected) :
    Standing p' s seen := by
  generalize hdesk : p'.desk = desk at hd
  cases hd with
  | @kept users hsame =>
    have husers : p'.rooms.users = users := congrArg Desk.users hdesk
    have hdeadlines : p'.loginDeadlines = p.loginDeadlines := congrArg Desk.loginDeadlines hdesk
    refine h.settles ⟨fun h => hq.connected h, ?_, Or.inl (by rw [hdeadlines]),
      congrArg Desk.loginTimeout hdesk⟩
    rw [husers]
    exact hsame.isSome s
  | @loggedIn nickname hnew hfree =>
    have husers : p'.rooms.users = p.rooms.users.add s nickname := congrArg Desk.users hdesk
    have hdeadlines : p'.loginDeadlines = p.loginDeadlines.erase s :=
      congrArg Desk.loginDeadlines hdesk
    have hnone : p'.loginDeadlines[s]? = none := by
      rw [hdeadlines]
      grind
    have huser : (p'.rooms.users.users[s]?).isSome = true := by
      rw [husers]
      have hnew' : p.rooms.users.users[s]? = none := hnew
      simp only [UserManager.add]
      grind
    refine ⟨fun _ => hinside.1, fun hl => ?_, fun hp => ?_, fun _ _ => Or.inr huser,
      fun deadline e => ?_⟩
    · obtain ⟨e, he, ht⟩ := hl
      exact absurd ht (hinside.2 e he)
    · rw [hnone] at hp
      cases hp
    · rw [hnone] at e
      cases e

end Standing

/-! ## One event -/

section Event
variable {host : Host} {p p' : PacketProcessor} {s : SessionId} {seen rest : List NetworkEvent}
  {event : NetworkEvent} {loginNow gameNow : Time}

/-- An event of another session. -/
theorem handleEvent_settles (hok : p.rooms.Ok) (hs : s ≠ event.session)
    (h : p.handleEvent host event loginNow gameNow = .ok p') : p.Settles p' s := by
  have hne : event.session ≠ s := fun e => hs e.symm
  have hq := PacketProcessor.handleEvent_quits hok h
  cases PacketProcessor.handleEvent_takes h with
  | skipped => exact Settles.refl p s
  | opened =>
    refine ⟨fun h => h, rfl, Or.inl ?_, rfl⟩
    show (p.loginDeadlines.insert event.session _)[s]? = p.loginDeadlines[s]?
    grind
  | late =>
    refine ⟨fun h => hq.connected h, rfl, Or.inl ?_, rfl⟩
    show (p.loginDeadlines.erase event.session)[s]? = p.loginDeadlines[s]?
    grind
  | served _ _ _ hserved => exact (PacketProcessor.processPacket_desk hok hserved).settles hs hq
  | closed _ hclosed =>
    obtain ⟨users, hsame, hdesk⟩ := PacketProcessor.handleDisconnected_desk hok hclosed
    have husers : p'.rooms.users = users.remove event.session := congrArg Desk.users hdesk
    have hdeadlines : p'.loginDeadlines = p.loginDeadlines.erase event.session :=
      congrArg Desk.loginDeadlines hdesk
    refine ⟨fun h => hq.connected h, ?_, Or.inl ?_, congrArg Desk.loginTimeout hdesk⟩
    · rw [husers, PacketProcessor.remove_users, if_neg hs]
      exact hsame.isSome s
    · rw [hdeadlines]
      grind

/-- Of a session that is gone and unknown nothing is claimed. -/
theorem Standing.unknown (hk : ¬ p.Knows s) (hout : s ∉ p.network.connected) :
    Standing p s seen where
  met h := absurd h hk
  left _ := hk
  once h := absurd (Or.inl h) hk
  known h := absurd h hout
  deadline _ e := absurd (Or.inl (by rw [e]; rfl)) hk

/-- Before its first event a session is unknown. -/
theorem Standing.unmet (h : Standing p s []) : ¬ p.Knows s := by
  intro hk
  obtain ⟨e, he, -⟩ := h.met hk
  cases he

theorem Standing.opened (h : Standing p event.session []) (htype : event.type = .connected) :
    Standing { p with loginDeadlines :=
      p.loginDeadlines.insert event.session (event.occurredAt + p.loginTimeout.val) }
      event.session [event] := by
  have huser : (p.rooms.users.users[event.session]?).isSome = false :=
    Bool.eq_false_iff.mpr fun hs => h.unmet (Or.inr hs)
  have hinsert : (p.loginDeadlines.insert event.session
      (event.occurredAt + p.loginTimeout.val))[event.session]? =
        some (event.occurredAt + p.loginTimeout.val) := by
    grind
  refine ⟨fun _ => ⟨event, List.mem_singleton_self _, htype⟩, fun hl => ?_, fun _ => huser,
    fun _ _ => Or.inl (Option.isSome_iff_exists.mpr ⟨_, hinsert⟩), fun deadline e opened he _ => ?_⟩
  · obtain ⟨e, he, ht⟩ := hl
    rw [List.mem_singleton.mp he, htype] at ht
    cases ht
  · rw [List.mem_singleton.mp he]
    exact (Option.some.inj (hinsert.symm.trans e)).symm

/-- An event of the session itself, at its place in the stream. -/
theorem Standing.taken (h : Standing p event.session seen) (hok : p.rooms.Ok)
    (hstream : Network.Streams p.network event.session (seen ++ event :: rest))
    (hevent : p.handleEvent host event loginNow gameNow = .ok p') :
    Standing p' event.session (seen ++ [event]) := by
  have hq := PacketProcessor.handleEvent_quits hok hevent
  cases PacketProcessor.handleEvent_takes hevent with
  | skipped htype hout =>
    cases ht : event.type with
    | connected =>
      obtain rfl := hstream.first ht
      exact .unknown h.unmet hout
    | packet => exact h.packet ht
    | disconnected => exact absurd ht htype
  | opened htype =>
    obtain rfl := hstream.first htype
    exact h.opened htype
  | late htype =>
    refine Standing.packet (h.settles ⟨fun h => hq.connected h, rfl, Or.inr ⟨?_, ?_⟩, rfl⟩) htype
    · show (p.loginDeadlines.erase event.session)[event.session]? = none
      grind
    · show event.session ∉ (p.network.disconnect event.session).connected
      simp
  | served htype _ _ hserved =>
    exact (h.serves (PacketProcessor.processPacket_desk hok hserved) hq
      (hstream.inside htype)).packet htype
  | closed htype hclosed =>
    obtain ⟨users, -, hdesk⟩ := PacketProcessor.handleDisconnected_desk hok hclosed
    have husers : p'.rooms.users = users.remove event.session := congrArg Desk.users hdesk
    have hdeadlines : p'.loginDeadlines = p.loginDeadlines.erase event.session :=
      congrArg Desk.loginDeadlines hdesk
    have hgone : event.session ∉ p.network.connected :=
      hstream.over (List.mem_append_right _ List.mem_cons_self) htype
    refine .unknown ?_ fun hc => hgone (hq.connected hc)
    rintro (hs | hs)
    · rw [hdeadlines] at hs
      grind
    · rw [husers, PacketProcessor.remove_users, if_pos rfl] at hs
      cases hs

end Event

/-! ## Every step -/

theorem sweepRooms_settles {host : Host} {p p' : PacketProcessor} (hok : p.rooms.Ok)
    {traversal : Traversal RoomId} {now : Time}
    (h : p.sweepRooms host traversal now = .ok p') (s : SessionId) : p.Settles p' s := by
  obtain ⟨users, hsame, hdesk⟩ := PacketProcessor.sweepRooms_desk hok h
  have husers : p'.rooms.users = users := congrArg Desk.users hdesk
  have hdeadlines : p'.loginDeadlines = p.loginDeadlines := congrArg Desk.loginDeadlines hdesk
  refine ⟨fun hc => (PacketProcessor.sweepRooms_quits hok h).connected hc, ?_,
    Or.inl (by rw [hdeadlines]), congrArg Desk.loginTimeout hdesk⟩
  rw [husers]
  exact hsame.isSome s

theorem checkLoginTimeouts_settles (p : PacketProcessor) (traversal : Traversal SessionId)
    (now : Time) (s : SessionId) : p.Settles (p.checkLoginTimeouts traversal now) s := by
  obtain ⟨hrooms, htimeout, hdeadline, hconnected⟩ := p.checkLoginTimeouts_spec traversal now s
  refine ⟨fun h => (hconnected.mp h).1, by rw [hrooms], ?_, htimeout⟩
  rw [hdeadline, hconnected]
  cases hs : p.loginDeadlines[s]? with
  | none => exact Or.inl rfl
  | some deadline =>
    by_cases hlt : now < deadline
    · exact Or.inl (by simp [Option.filter, hlt])
    · exact Or.inr ⟨by simp [Option.filter, hlt], fun h => hlt (h.2 deadline rfl)⟩

theorem Standing.step {host : Host} {c c' : Server} {l : Input} {s : SessionId}
    {seen : List NetworkEvent} (h : Standing c.processor s seen) (hc : c.Sound)
    (hstream : Network.Streams c.network s (seen ++ ofSession s c.network.events))
    (hstep : ServerStep host c l c') :
    Standing c'.processor s (seen ++ ofSession s (c.taken l).toList) := by
  cases l with
  | accept now =>
    cases hstep
    show Standing (c.withNetwork (c.network.accept now)).processor s (seen ++ [])
    rw [List.append_nil]
    refine ⟨h.met, h.left, h.once, fun hin hopened => h.known ?_ hopened, h.deadline⟩
    obtain ⟨e, he, -⟩ := hopened
    -- a session with events is not the new one
    have hold := (hstream.old (List.mem_append_left _ he)).2
    have hin' : s ∈ (c.network.accept now).connected := hin
    unfold Network.accept at hin'
    split at hin'
    · exact hin'
    rename_i hlast
    rcases Finset.mem_insert.mp hin' with hnew | hin'
    · have hlt : c.network.lastSessionId < c.network.lastSessionId + 1 := by grind
      exact absurd (hnew ▸ hlt) (UInt64.not_lt.mpr hold)
    · exact hin'
  | receive s' packetId body =>
    cases hstep
    show Standing (c.withNetwork (c.network.receive s' packetId body)).processor s (seen ++ [])
    rw [List.append_nil]
    refine h.settles ⟨fun hin => ?_, rfl, Or.inl rfl, rfl⟩
    exact Network.receive_connected (n := c.network) (s := s') packetId body ▸ hin
  | close s' =>
    cases hstep
    show Standing (c.withNetwork (c.network.disconnect s')).processor s (seen ++ [])
    rw [List.append_nil]
    exact h.settles
      ⟨fun hin => (Network.quits_disconnect c.network s').connected hin, rfl, Or.inl rfl, rfl⟩
  | beginUpdate traversal now =>
    obtain ⟨p', hp', rfl⟩ := Server.step_begin hstep
    show Standing p' s (seen ++ [])
    rw [List.append_nil]
    exact h.settles (sweepRooms_settles hc.rooms hp' s)
  | endUpdate first second traversal now =>
    obtain ⟨p', hp', rfl⟩ := Server.step_end hstep
    show Standing p' s (seen ++ [])
    rw [List.append_nil]
    have h1 := h.settles (checkLoginTimeouts_settles c.processor first.1 first.2 s)
    have h2 := h1.settles (checkLoginTimeouts_settles _ second.1 second.2 s)
    have hrooms := (c.processor.checkLoginTimeouts_twice first second).1
    exact h2.settles (sweepRooms_settles (hrooms ▸ hc.rooms) hp' s)
  | event loginNow gameNow =>
    obtain ⟨event, rest, p', hevents, hp', rfl⟩ := Server.step_event hstep
    have htaken : c.taken (.event loginNow gameNow) = some event := by
      simp [Server.taken, Network.tryPopEvent, hevents]
    have h0 : Standing { c.processor with network := { c.network with events := rest } } s seen :=
      ⟨h.met, h.left, h.once, h.known, h.deadline⟩
    rw [htaken, Option.toList_some]
    -- only an event of its own changes what `s` has
    by_cases hs : s = event.session
    · subst hs
      rw [ofSession_self]
      have hsplit : ofSession event.session c.network.events =
          event :: ofSession event.session rest := by
        rw [hevents, show event :: rest = [event] ++ rest from rfl, ofSession_append, ofSession_self]
        rfl
      rw [hsplit] at hstream
      exact h0.taken hc.rooms (hstream.requeued rest) hp'
    · rw [ofSession_other fun e => hs e.symm, List.append_nil]
      exact h0.settles
        (handleEvent_settles (p := { c.processor with network := _ }) hc.rooms hs hp')

theorem PacketProcessor.make_desk {timeout : Time} {p : PacketProcessor}
    (hp : make {} timeout = .ok p) : p.desk = ⟨{}, ∅, p.loginTimeout⟩ := by
  obtain ⟨h, rfl⟩ := make_ok hp
  rfl

theorem ServerRun.standing {host : Host} {timeout : Time} {p : PacketProcessor}
    (hp : PacketProcessor.make {} timeout = .ok p) {history : List (Entry Server Input)}
    {c : Server} (h : ServerRun host p history c) (s : SessionId) :
    Standing c.processor s (ofSession s (consumed history)) := by
  induction h with
  | start =>
    have hdesk := PacketProcessor.make_desk hp
    have husers : p.rooms.users = {} := congrArg Desk.users hdesk
    have hdeadlines : p.loginDeadlines = ∅ := congrArg Desk.loginDeadlines hdesk
    have hunknown : ¬ p.Knows s := by
      simp [PacketProcessor.Knows, husers, hdeadlines]
    refine ⟨fun hk => absurd hk hunknown, fun _ => hunknown, fun hs => ?_, ?_, ?_⟩
    · exact absurd (Or.inl hs) hunknown
    · rintro - ⟨e, he, -⟩
      cases he
    · intro deadline e
      exact absurd (Or.inl (Option.isSome_iff_exists.mpr ⟨_, e⟩)) hunknown
  | @snoc history c c' l before taken ih =>
    rw [consumed_snoc, ofSession_append]
    exact ih.step (ServerRun.sound hp before) (ServerRun.streams hp before s) taken

/-! ## What the login checks promise -/

/-- `c` takes the packet `event` from its queue and becomes `c'`. -/
structure PacketTaken (host : Host) (c : Server) (loginNow gameNow : Time) (event : NetworkEvent)
    (c' : Server) : Prop where
  step : ServerStep host c (.event loginNow gameNow) c'
  taken : c.taken (.event loginNow gameNow) = some event
  packet : event.type = .packet

structure LoginsTimed (host : Host) (history : List (Entry Server Input)) (c : Server) : Prop where
  /-- A connected session whose `Connected` event was taken has a deadline or a user, not both. -/
  one : ∀ s : SessionId, s ∈ c.network.connected →
    (∃ event ∈ consumed history, event.type = .connected ∧ event.session = s) →
      (c.processor.loginDeadlines[s]?).isSome = !(c.rooms.users.users[s]?).isSome
  deadline : ∀ event ∈ consumed history, event.type = .connected →
    ∀ deadline, c.processor.loginDeadlines[event.session]? = some deadline →
      deadline = event.occurredAt + c.processor.loginTimeout.val
  /-- A packet leaves a deadline as it is, unless its session logs in or is thrown out. -/
  fixed : ∀ loginNow gameNow event c', PacketTaken host c loginNow gameNow event c' →
    ∀ (s : SessionId) (deadline : Time), c.processor.loginDeadlines[s]? = some deadline →
      c'.processor.loginDeadlines[s]? = some deadline ∨
        (s = event.session ∧ c'.processor.loginDeadlines[s]? = none ∧
          ((c'.rooms.users.users[s]?).isSome = true ∨ s ∉ c'.network.connected))
  /-- A packet at or after the deadline of its session is not served. -/
  late : ∀ loginNow gameNow event c', PacketTaken host c loginNow gameNow event c' →
    ∀ deadline, c.processor.loginDeadlines[event.session]? = some deadline → deadline ≤ loginNow →
      c'.rooms = c.rooms ∧ c'.network.sent = c.network.sent ∧
        event.session ∉ c'.network.connected
  /-- Neither login check throws out a session that is logged in. -/
  safe : ∀ s : SessionId, (c.rooms.users.users[s]?).isSome = true →
    (∀ now, c.processor.isLoginExpired s now = false) ∧
      ∀ first second : Traversal SessionId × Time, s ∈ c.network.connected →
        s ∈ ((c.processor.checkLoginTimeouts first.1 first.2).checkLoginTimeouts second.1
          second.2).network.connected
  /-- After the sweep at `now` no deadline has come. -/
  swept : ∀ (p : PacketProcessor) (traversal : Traversal SessionId) (now : Time) (s : SessionId)
      (deadline : Time),
    (p.checkLoginTimeouts traversal now).loginDeadlines[s]? = some deadline → now < deadline

section Promises
variable {host : Host} {c c' : Server} {loginNow gameNow : Time} {event : NetworkEvent}

/-- What becomes of a packet that is taken, in terms of the server before and after. -/
theorem PacketTaken.cases (h : PacketTaken host c loginNow gameNow event c') (hc : c.Sound) :
    (event.session ∉ c.network.connected ∧ c'.rooms = c.rooms ∧
        c'.processor.loginDeadlines = c.processor.loginDeadlines ∧
        c'.network.sent = c.network.sent ∧ c'.network.connected = c.network.connected) ∨
      (c.processor.isLoginExpired event.session loginNow = true ∧ c'.rooms = c.rooms ∧
        c'.processor.loginDeadlines = c.processor.loginDeadlines.erase event.session ∧
        c'.network.sent = c.network.sent ∧ event.session ∉ c'.network.connected) ∨
      (c.processor.isLoginExpired event.session loginNow = false ∧
        Desk.Serves event.session c.processor.desk c'.processor.desk) := by
  obtain ⟨event', rest, p', hevents, hp', rfl⟩ := Server.step_event h.step
  have htaken := h.taken
  simp only [Server.taken, Network.tryPopEvent, hevents, Option.map_some, Option.some.injEq] at htaken
  subst htaken
  have hpacket := h.packet
  cases PacketProcessor.handleEvent_takes hp' with
  | skipped _ hout => exact Or.inl ⟨hout, rfl, rfl, rfl, rfl⟩
  | opened htype =>
    rw [htype] at hpacket
    cases hpacket
  | closed htype =>
    rw [htype] at hpacket
    cases hpacket
  | late _ _ hexpired =>
    refine Or.inr (Or.inl ⟨hexpired, rfl, rfl, ?_, ?_⟩)
    · exact Network.disconnect_sent
    · show event'.session ∉ (Network.disconnect _ event'.session).connected
      simp
  | served _ _ hlive hserved =>
    have hok : ({ c.processor with network := { c.network with events := rest } } :
        PacketProcessor).rooms.Ok := hc.rooms
    have hserves := PacketProcessor.processPacket_desk hok hserved
    exact Or.inr (Or.inr ⟨hlive, hserves⟩)

theorem PacketTaken.deadline_fixed (h : PacketTaken host c loginNow gameNow event c') (hc : c.Sound)
    {s : SessionId} {deadline : Time} (hs : c.processor.loginDeadlines[s]? = some deadline) :
    c'.processor.loginDeadlines[s]? = some deadline ∨
      (s = event.session ∧ c'.processor.loginDeadlines[s]? = none ∧
        ((c'.rooms.users.users[s]?).isSome = true ∨ s ∉ c'.network.connected)) := by
  have herase : s ≠ event.session →
      (c.processor.loginDeadlines.erase event.session)[s]? = some deadline := by
    intro hne
    have hne' : event.session ≠ s := fun e => hne e.symm
    grind
  have hgone : (c.processor.loginDeadlines.erase event.session)[event.session]? = none := by grind
  rcases h.cases hc with ⟨-, -, hdeadlines, -⟩ | ⟨-, -, hdeadlines, -, hout⟩ | ⟨-, hserves⟩
  · exact Or.inl (hdeadlines ▸ hs)
  · by_cases hsame : s = event.session
    · exact Or.inr ⟨hsame, by rw [hsame, hdeadlines]; exact hgone, Or.inr (hsame ▸ hout)⟩
    · exact Or.inl (hdeadlines ▸ herase hsame)
  · generalize hdesk : c'.processor.desk = desk at hserves
    cases hserves with
    | kept =>
      have hdeadlines : c'.processor.loginDeadlines = c.processor.loginDeadlines :=
        congrArg Desk.loginDeadlines hdesk
      exact Or.inl (hdeadlines ▸ hs)
    | @loggedIn nickname hnew hfree =>
      have hdeadlines : c'.processor.loginDeadlines =
          c.processor.loginDeadlines.erase event.session := congrArg Desk.loginDeadlines hdesk
      have husers : c'.rooms.users = c.rooms.users.add event.session nickname :=
        congrArg Desk.users hdesk
      by_cases hsame : s = event.session
      · subst hsame
        refine Or.inr ⟨rfl, by rw [hdeadlines]; exact hgone, Or.inl ?_⟩
        have hnew' : c.rooms.users.users[event.session]? = none := hnew
        rw [husers]
        simp only [UserManager.add]
        grind
      · exact Or.inl (hdeadlines ▸ herase hsame)

theorem PacketTaken.late_refused (h : PacketTaken host c loginNow gameNow event c') (hc : c.Sound)
    {deadline : Time} (hs : c.processor.loginDeadlines[event.session]? = some deadline)
    (hlate : deadline ≤ loginNow) :
    c'.rooms = c.rooms ∧ c'.network.sent = c.network.sent ∧
      event.session ∉ c'.network.connected := by
  have hexpired : c.processor.isLoginExpired event.session loginNow = true :=
    PacketProcessor.isLoginExpired_iff.mpr ⟨deadline, hs, hlate⟩
  rcases h.cases hc with ⟨hout, hrooms, -, hsent, hsame⟩ | ⟨-, hrooms, -, hsent, hout⟩ | ⟨hlive, -⟩
  · exact ⟨hrooms, hsent, hsame ▸ hout⟩
  · exact ⟨hrooms, hsent, hout⟩
  · rw [hexpired] at hlive
    cases hlive

theorem stays_connected {p : PacketProcessor} {s : SessionId} (hs : p.loginDeadlines[s]? = none)
    (traversal : Traversal SessionId) (now : Time) :
    (p.checkLoginTimeouts traversal now).loginDeadlines[s]? = none ∧
      (s ∈ p.network.connected → s ∈ (p.checkLoginTimeouts traversal now).network.connected) := by
  obtain ⟨-, -, hdeadline, hconnected⟩ := p.checkLoginTimeouts_spec traversal now s
  rw [hs] at hdeadline
  exact ⟨hdeadline, fun h => hconnected.mpr ⟨h, fun deadline e => by rw [hs] at e; cases e⟩⟩

theorem stays_connected_twice {p : PacketProcessor} {s : SessionId}
    (hs : p.loginDeadlines[s]? = none) (first second : Traversal SessionId × Time)
    (hin : s ∈ p.network.connected) :
    s ∈ ((p.checkLoginTimeouts first.1 first.2).checkLoginTimeouts second.1
      second.2).network.connected := by
  obtain ⟨hs1, hin1⟩ := stays_connected hs first.1 first.2
  exact (stays_connected hs1 second.1 second.2).2 (hin1 hin)

/-- Who has logged in has no deadline. -/
theorem Standing.exempt {p : PacketProcessor} {s : SessionId} {seen : List NetworkEvent}
    (h : Standing p s seen) (hs : (p.rooms.users.users[s]?).isSome = true) :
    p.loginDeadlines[s]? = none := by
  cases hd : p.loginDeadlines[s]? with
  | none => rfl
  | some deadline =>
    have honce := h.once (by rw [hd]; rfl)
    rw [hs] at honce
    cases honce

end Promises

/-- The two maps of the login desk are complementary and its deadlines are kept, in every state
of every run. -/
theorem logins_timed {host : Host} {timeout : Time} {p : PacketProcessor}
    {history : List (Entry Server Input)} {c : Server}
    (hp : PacketProcessor.make {} timeout = .ok p) (hrun : ServerRun host p history c) :
    LoginsTimed host history c := by
  have hsound := ServerRun.sound hp hrun
  have hstanding := ServerRun.standing hp hrun
  refine ⟨fun s hs hopened => ?_, fun event he htype deadline hd => ?_,
    fun _ _ _ _ h s deadline hs => h.deadline_fixed hsound hs,
    fun _ _ _ _ h deadline hs hlate => h.late_refused hsound hs hlate, fun s hs => ?_,
    fun p traversal now s deadline hd => ?_⟩
  · obtain ⟨event, he, htype, hsession⟩ := hopened
    have hknown := (hstanding s).known hs ⟨event, mem_ofSession.mpr ⟨he, hsession⟩, htype⟩
    cases hd : (c.processor.loginDeadlines[s]?).isSome with
    | true => rw [show (c.rooms.users.users[s]?).isSome = false from (hstanding s).once hd]; rfl
    | false =>
      rcases hknown with h | h
      · rw [hd] at h
        cases h
      · rw [show (c.rooms.users.users[s]?).isSome = true from h]; rfl
  · exact (hstanding event.session).deadline deadline hd event (mem_ofSession.mpr ⟨he, rfl⟩) htype
  · have hnone := (hstanding s).exempt hs
    refine ⟨fun now => ?_, fun first second hin => ?_⟩
    · simp [PacketProcessor.isLoginExpired, hnone]
    · exact stays_connected_twice hnone first second hin
  · rw [(p.checkLoginTimeouts_spec traversal now s).2.2.1] at hd
    simpa using (Option.filter_eq_some_iff.mp hd).2

/-- One session connects at 5 and says nothing: it is thrown out at 15, when its time is up. -/
theorem logins_timed_late : ∃ history c,
    ServerRun Host.ascii PacketProcessor.fresh history c ∧
      (∃ e ∈ history, e.pre.processor.loginDeadlines[(1 : SessionId)]? = some 15 ∧
        (1 : SessionId) ∈ e.pre.network.connected) ∧
      (1 : SessionId) ∉ c.network.connected ∧ c.processor.loginDeadlines[(1 : SessionId)]? = none ∧
        LoginsTimed Host.ascii history c := by
  obtain ⟨history, c, hrun, hcheck⟩ := ServerRun.played Host.ascii PacketProcessor.fresh
    [.accept 5, .beginUpdate .ascending 5, .event 5 5,
      .endUpdate (.ascending, 5) (.ascending, 5) .ascending 5, .beginUpdate .ascending 15,
      .endUpdate (.ascending, 15) (.ascending, 15) .ascending 15]
    (fun history c => history.any (fun e =>
        decide (e.pre.processor.loginDeadlines[(1 : SessionId)]? = some 15 ∧
          (1 : SessionId) ∈ e.pre.network.connected)) &&
      decide ((1 : SessionId) ∉ c.network.connected ∧
        c.processor.loginDeadlines[(1 : SessionId)]? = none)) (by decide +kernel)
  obtain ⟨hwaits, hgone⟩ := Bool.and_eq_true_iff.mp hcheck
  obtain ⟨e, he, hwaits⟩ := List.any_eq_true.mp hwaits
  obtain ⟨hout, hnone⟩ := of_decide_eq_true hgone
  exact ⟨history, c, hrun, ⟨e, he, of_decide_eq_true hwaits⟩, hout, hnone,
    logins_timed PacketProcessor.make_fresh hrun⟩

end SelectServer
