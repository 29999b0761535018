import SelectServer.Room

/- `UserManager` under every history of `Login` and `Remove`. The users are kept in
   two maps that are written one after the other, and `Remove` takes the key of the
   second from the record in the first, so a name could stay taken or be given out
   twice. It is not: the two maps stay inverse to each other (`Paired`), and what
   `Login` and `Remove` do to the names is read off that (`Exact`). -/
namespace SelectServer
open Wire (Bytes)

/-! ## Nicknames -/

/-- A letter, a digit or the underscore. -/
def NicknameByte (ch : UInt8) : Prop :=
  ('A'.toUInt8 ≤ ch ∧ ch ≤ 'Z'.toUInt8) ∨ ('a'.toUInt8 ≤ ch ∧ ch ≤ 'z'.toUInt8) ∨
    ('0'.toUInt8 ≤ ch ∧ ch ≤ '9'.toUInt8) ∨ ch = '_'.toUInt8

/-- What a nickname has to be. -/
structure ValidNickname (nickname : Bytes) : Prop where
  nonempty : 1 ≤ nickname.length
  short : nickname.length ≤ 16
  bytes : ∀ ch ∈ nickname, NicknameByte ch

namespace UserManager

theorem isAllowed_iff (ch : UInt8) : isAllowed ch = true ↔ NicknameByte ch := by
  unfold isAllowed NicknameByte
  simp only [Bool.or_eq_true, Bool.and_eq_true, decide_eq_true_eq, beq_iff_eq, or_assoc]
  rfl

theorem isValidNickname_iff (nickname : Bytes) :
    isValidNickname nickname = true ↔ ValidNickname nickname := by
  simp only [isValidNickname, Bool.and_eq_true, Bool.not_eq_true', List.isEmpty_eq_false_iff,
    List.all_eq_true, isAllowed_iff, maxNicknameBytes, and_assoc]
  constructor
  · intro h
    exact ⟨List.length_pos_iff.mpr h.1, of_decide_eq_true h.2.1, h.2.2⟩
  · intro h
    exact ⟨List.length_pos_iff.mp h.nonempty, decide_eq_true h.short, h.bytes⟩

/-! ## The two maps -/

variable {m : UserManager}

/-- `m_users` has the session `s` with this nickname. -/
def Names (m : UserManager) (s : SessionId) (nickname : Bytes) : Prop :=
  (m.users[s]?).map User.nickname = some nickname

theorem Names.unique {s : SessionId} {name name' : Bytes} (h : m.Names s name)
    (h' : m.Names s name') : name = name' :=
  Option.some.inj (h.symm.trans h')

theorem names_none {s : SessionId} (h : m.users[s]? = none) (nickname : Bytes) :
    ¬ m.Names s nickname := by
  intro hn
  simp [Names, h] at hn

/-- The two maps are inverse to each other and hold valid nicknames only. -/
structure Paired (m : UserManager) : Prop where
  inverse : ∀ (s : SessionId) (nickname : Bytes),
    m.Names s nickname ↔ m.sessionByNickname[nickname]? = some s
  valid : ∀ (s : SessionId) (nickname : Bytes), m.Names s nickname → ValidNickname nickname

theorem empty_paired : ({} : UserManager).Paired where
  inverse s nickname := by simp [Names]
  valid s nickname h := by simp [Names] at h

theorem add_users (m : UserManager) {s : SessionId} {nickname : Bytes} (hnew : m.users[s]? = none)
    (s' : SessionId) : (m.add s nickname).users[s']? =
      if s' = s then some { session := s, nickname := nickname } else m.users[s']? := by
  simp only [add]
  by_cases hs : s' = s
  · subst hs
    grind
  · grind

theorem add_index (m : UserManager) {s : SessionId} {nickname : Bytes}
    (hfree : m.sessionByNickname[nickname]? = none) (nickname' : Bytes) :
    (m.add s nickname).sessionByNickname[nickname']? =
      if nickname' = nickname then some s else m.sessionByNickname[nickname']? := by
  simp only [add]
  by_cases hn : nickname' = nickname
  · subst hn
    grind
  · grind

/-- Both `emplace` calls find their key free, so they write the same pair. -/
theorem Paired.add {s : SessionId} {nickname : Bytes} (h : m.Paired) (hnew : m.users[s]? = none)
    (hfree : m.sessionByNickname[nickname]? = none) (hvalid : ValidNickname nickname) :
    (m.add s nickname).Paired := by
  have hnames : ∀ (s' : SessionId) (nickname' : Bytes), (m.add s nickname).Names s' nickname' ↔
      (s' = s ∧ nickname' = nickname) ∨ (s' ≠ s ∧ m.Names s' nickname') := by
    intro s' nickname'
    unfold Names
    rw [add_users m hnew]
    by_cases hs : s' = s
    · simp [hs, eq_comm]
    · simp [hs]
  constructor
  · intro s' nickname'
    rw [hnames, add_index m hfree]
    by_cases hn : nickname' = nickname
    · subst hn
      rw [if_pos rfl]
      constructor
      · rintro (⟨rfl, -⟩ | ⟨-, hold⟩)
        · rfl
        · -- the nickname was free
          rw [(h.inverse _ _).mp hold] at hfree
          cases hfree
      · intro e
        exact Or.inl ⟨(Option.some.inj e).symm, rfl⟩
    · rw [if_neg hn, ← h.inverse]
      constructor
      · rintro (⟨-, e⟩ | ⟨-, hold⟩)
        · exact absurd e hn
        · exact hold
      · intro hold
        refine Or.inr ⟨?_, hold⟩
        intro e
        subst e
        exact names_none hnew _ hold
  · intro s' nickname' hn
    rcases (hnames _ _).mp hn with ⟨-, rfl⟩ | ⟨-, hold⟩
    · exact hvalid
    · exact h.valid _ _ hold

theorem remove_none {s : SessionId} (h : m.users[s]? = none) : m.remove s = m := by
  unfold remove find
  rw [h]

theorem remove_some {s : SessionId} {user : User} (h : m.users[s]? = some user) :
    m.remove s = { users := m.users.erase s
                   sessionByNickname := m.sessionByNickname.erase user.nickname } := by
  unfold remove find
  rw [h]

/-- A removal takes the session out of the first map and leaves every other session. -/
theorem remove_users_at (m : UserManager) (s s' : SessionId) :
    (m.remove s).users[s']? = if s' = s then none else m.users[s']? := by
  cases hu : m.users[s]? with
  | none =>
    rw [remove_none hu]
    by_cases hs : s' = s
    · rw [if_pos hs, hs, hu]
    · rw [if_neg hs]
  | some user =>
    rw [remove_some hu]
    by_cases hs : s' = s
    · subst hs
      simp
    · have hne : s ≠ s' := fun e => hs e.symm
      grind

/-- And it frees that session's nickname and no other. -/
theorem Paired.remove_index (h : m.Paired) (s : SessionId) (nickname : Bytes) :
    (m.remove s).sessionByNickname[nickname]? =
      if m.sessionByNickname[nickname]? = some s then none else m.sessionByNickname[nickname]? := by
  cases hu : m.users[s]? with
  | none =>
    rw [remove_none hu, if_neg]
    rw [← h.inverse]
    exact names_none hu nickname
  | some user =>
    have hname : m.Names s user.nickname := by simp [Names, hu]
    rw [remove_some hu]
    by_cases hn : nickname = user.nickname
    · subst hn
      rw [if_pos ((h.inverse _ _).mp hname)]
      simp
    · have hother : ¬ m.sessionByNickname[nickname]? = some s := by
        rw [← h.inverse]
        intro hs
        exact hn (hs.unique hname)
      have hne : user.nickname ≠ nickname := fun e => hn e.symm
      rw [if_neg hother]
      grind

theorem Paired.remove (h : m.Paired) (s : SessionId) : (m.remove s).Paired := by
  have hnames : ∀ (s' : SessionId) (nickname : Bytes),
      (m.remove s).Names s' nickname ↔ s' ≠ s ∧ m.Names s' nickname := by
    intro s' nickname
    unfold Names
    rw [remove_users_at]
    by_cases hs : s' = s
    · simp [hs]
    · simp [hs]
  constructor
  · intro s' nickname
    rw [hnames, h.remove_index, h.inverse]
    by_cases hs : m.sessionByNickname[nickname]? = some s
    · rw [if_pos hs, hs]
      simp [eq_comm]
    · rw [if_neg hs]
      constructor
      · exact fun hn => hn.2
      · intro e
        refine ⟨?_, e⟩
        intro hss
        subst hss
        exact hs e
  · intro s' nickname hn
    exact h.valid s' nickname ((hnames _ _).mp hn).2

/-! ## Histories -/

inductive UserCall where
  | login (s : SessionId) (nickname : Bytes)
  | remove (s : SessionId)
  deriving DecidableEq, Repr

def apply (m : UserManager) : UserCall → UserManager
  | .login s nickname => (m.login s nickname).2
  | .remove s => m.remove s

/-- The managers after a sequence of calls. -/
def after (m : UserManager) (calls : List UserCall) : UserManager := calls.foldl apply m

/-- `Login` checks the session, the nickname and the index, in that order, and adds the pair
only when none of them objects. -/
theorem login_cases (m : UserManager) (s : SessionId) (nickname : Bytes) :
    (m.users[s]? = none ∧ ValidNickname nickname ∧ m.sessionByNickname[nickname]? = none ∧
        m.login s nickname = (.success, m.add s nickname)) ∨
      (¬ (m.users[s]? = none ∧ ValidNickname nickname ∧
          m.sessionByNickname[nickname]? = none) ∧
        (m.login s nickname).1 ≠ .success ∧ (m.login s nickname).2 = m) := by
  unfold login find
  by_cases hs : (m.users[s]?).isSome = true
  · rw [if_pos hs]
    refine Or.inr ⟨?_, LoginResult.noConfusion, rfl⟩
    intro h
    rw [h.1] at hs
    cases hs
  rw [if_neg hs]
  have hnew : m.users[s]? = none := by simpa using hs
  by_cases hv : (!isValidNickname nickname) = true
  · rw [if_pos hv]
    refine Or.inr ⟨?_, LoginResult.noConfusion, rfl⟩
    intro h
    rw [(isValidNickname_iff nickname).mpr h.2.1] at hv
    cases hv
  rw [if_neg hv]
  have hvalid : ValidNickname nickname := (isValidNickname_iff nickname).mp (by simpa using hv)
  by_cases hn : (m.sessionByNickname[nickname]?).isSome = true
  · rw [if_pos hn]
    refine Or.inr ⟨?_, LoginResult.noConfusion, rfl⟩
    intro h
    rw [h.2.2] at hn
    cases hn
  · rw [if_neg hn]
    exact Or.inl ⟨hnew, hvalid, by simpa using hn, rfl⟩

theorem Paired.login (h : m.Paired) (s : SessionId) (nickname : Bytes) :
    (m.login s nickname).2.Paired := by
  rcases login_cases m s nickname with ⟨hnew, hvalid, hfree, e⟩ | ⟨-, -, e⟩
  · rw [e]
    exact h.add hnew hfree hvalid
  · rw [e]
    exact h

theorem Paired.apply (h : m.Paired) (call : UserCall) : (m.apply call).Paired := by
  cases call with
  | login s nickname => exact h.login s nickname
  | remove s => exact h.remove s

theorem after_paired (calls : List UserCall) :
    ∀ m : UserManager, m.Paired → (m.after calls).Paired := by
  induction calls with
  | nil => exact fun _ h => h
  | cons call calls ih => exact fun m h => ih _ (h.apply call)

/-- What the two maps say of each other, and what the next `Login` or `Remove` does to them. -/
structure Exact (m : UserManager) : Prop extends m.Paired where
  login : ∀ (s : SessionId) (nickname : Bytes), (m.login s nickname).1 = .success ↔
    m.users[s]? = none ∧ ValidNickname nickname ∧ ∀ s', ¬ m.Names s' nickname
  refused : ∀ (s : SessionId) (nickname : Bytes), (m.login s nickname).1 ≠ .success →
    (m.login s nickname).2 = m
  removed : ∀ s s' : SessionId,
    (m.remove s).users[s']? = if s' = s then none else m.users[s']?
  freed : ∀ (s : SessionId) (nickname : Bytes), (m.remove s).sessionByNickname[nickname]? =
    if m.sessionByNickname[nickname]? = some s then none else m.sessionByNickname[nickname]?

theorem Paired.free_iff (h : m.Paired) (nickname : Bytes) :
    m.sessionByNickname[nickname]? = none ↔ ∀ s, ¬ m.Names s nickname := by
  constructor
  · intro hfree s hs
    rw [(h.inverse s nickname).mp hs] at hfree
    cases hfree
  · intro hnone
    cases hs : m.sessionByNickname[nickname]? with
    | none => rfl
    | some s => exact absurd ((h.inverse s nickname).mpr hs) (hnone s)

theorem exact_of_paired (h : m.Paired) : m.Exact where
  toPaired := h
  login s nickname := by
    rw [← h.free_iff]
    rcases login_cases m s nickname with ⟨hnew, hvalid, hfree, e⟩ | ⟨hnot, e, -⟩
    · rw [e]
      exact ⟨fun _ => ⟨hnew, hvalid, hfree⟩, fun _ => rfl⟩
    · exact ⟨fun he => absurd he e, fun hall => absurd hall hnot⟩
  refused s nickname hne := by
    rcases login_cases m s nickname with ⟨-, -, -, e⟩ | ⟨-, -, e⟩
    · rw [e] at hne
      exact absurd rfl hne
    · exact e
  removed := remove_users_at m
  freed := h.remove_index

/-- After any sequence of `Login` and `Remove` the two maps are inverse to each other, a login
succeeds exactly for a new session with a valid nickname that nobody holds, and a removal frees
exactly the nickname of its session. -/
theorem users_exact (calls : List UserCall) : (after {} calls).Exact :=
  exact_of_paired (after_paired calls {} empty_paired)

end UserManager
end SelectServer
