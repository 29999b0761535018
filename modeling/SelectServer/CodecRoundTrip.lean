import Mathlib.Data.Nat.Bitwise
import Mathlib.Tactic.IntervalCases
import SelectServer.Codec

/- What the server encodes for a client, the client's decoder gives back: one
   theorem for each response and notification, of the form "if `Encode` returns
   `b`, then `Decode` of `b` succeeds with the encoded value". Each is a chain of
   the `Reads` rules, one link for each field in wire order. -/
namespace SelectServer
open Wire Decoder Reader

/-! ## Writer and reader meet field by field -/

/-- The four bytes of `Writer.u32`, most significant first. -/
def u32Bytes (value : UInt32) : Bytes :=
  ([24, 16, 8, 0] : List UInt32).map fun shift => ((value >>> shift) &&& 0xFF).toUInt8

@[simp] theorem u32Bytes_length (value : UInt32) : (u32Bytes value).length = 4 := rfl

@[simp] theorem Writer.u8_body (w : Writer) (value : UInt8) : (w.u8 value).body = w.body ++ [value] :=
  rfl

@[simp] theorem Writer.u32_body (w : Writer) (value : UInt32) :
    (w.u32 value).body = w.body ++ u32Bytes value := by
  simp [Writer.u32, u32Bytes]

theorem Writer.text8_eq {w w' : Writer} {text : Bytes} (h : w.text8 text = some w') :
    text.length ≤ 255 ∧ w'.body = w.body ++ (UInt8.ofNat text.length :: text) := by
  unfold Writer.text8 at h
  split at h
  · cases h
  · cases h
    exact ⟨by omega, by simp⟩

theorem Writer.finish_eq {w : Writer} {b : Bytes} (h : w.finish = some b) : b = w.body := by
  unfold Writer.finish at h
  split at h
  · cases h
  · exact (Option.some.inj h).symm

theorem shiftOr_toNat (v : UInt32) (b : UInt8) (h : v.toNat < 2 ^ 24) :
    ((v <<< 8) ||| b.toUInt32).toNat = v.toNat * 256 + b.toNat := by
  have hb : b.toNat < 2 ^ 8 := b.toNat_lt
  have e : (v <<< 8).toNat = v.toNat <<< 8 := by
    rw [UInt32.toNat_shiftLeft]
    simp [Nat.shiftLeft_eq]; omega
  rw [UInt32.toNat_or, e, UInt8.toNat_toUInt32, ← Nat.shiftLeft_add_eq_or_of_lt hb, Nat.shiftLeft_eq]

theorem shiftedByte_toNat (v shift : UInt32) (h : shift.toNat < 32) :
    ((v >>> shift) &&& 0xFF).toUInt8.toNat = v.toNat / 2 ^ shift.toNat % 256 := by
  simp only [UInt32.toNat_toUInt8, UInt32.toNat_and, UInt32.toNat_shiftRight,
    Nat.shiftRight_eq_div_pow, Nat.mod_eq_of_lt h]
  rw [show (0xFF : UInt32).toNat = 2 ^ 8 - 1 from rfl, Nat.and_two_pow_sub_one_eq_mod]
  omega

/-- Shifting the four bytes back in gives the value again. -/
theorem u32Bytes_fold (v : UInt32) :
    (u32Bytes v).foldl (fun (value : UInt32) b => (value <<< 8) ||| b.toUInt32) 0 = v := by
  have h := v.toNat_lt
  apply UInt32.toNat_inj.mp
  simp only [u32Bytes, List.map_cons, List.map_nil, List.foldl_cons, List.foldl_nil]
  have e1 := shiftOr_toNat 0 (((v >>> 24) &&& 0xFF).toUInt8) (by decide)
  rw [shiftedByte_toNat _ _ (by decide)] at e1
  have e2 := shiftOr_toNat _ (((v >>> 16) &&& 0xFF).toUInt8) (by rw [e1]; simp; omega)
  rw [shiftedByte_toNat _ _ (by decide), e1] at e2
  have e3 := shiftOr_toNat _ (((v >>> 8) &&& 0xFF).toUInt8) (by rw [e2]; simp; omega)
  rw [shiftedByte_toNat _ _ (by decide), e2] at e3
  rw [shiftOr_toNat _ _ (by rw [e3]; simp; omega), shiftedByte_toNat _ _ (by decide), e3]
  simp
  omega

theorem position_reads_lt {cur : Cursor} {b : UInt8} {rest : Bytes} (h : cur.At (b :: rest)) :
    cur.pos < cur.body.length := by
  have hl := h.length
  simp only [List.length_cons] at hl
  omega

theorem reads_u8 (b : UInt8) (rest : Bytes) : Reads Reader.u8 (b :: rest) b rest := by
  intro cur h
  obtain ⟨cur', e, h'⟩ := Reads.next b rest cur h
  have hr : StateT.run Reader.u8 cur =
      ((StateT.run (Decoder.require (cur.pos < cur.body.length)) cur) >>= fun r =>
        StateT.run Decoder.next r.2) := rfl
  refine ⟨cur', ?_, h'⟩
  have hc : StateT.run (Decoder.require (cur.pos < cur.body.length)) cur = .ok ((), cur) := by
    simp [Decoder.require, StateT.run, position_reads_lt h]
  rw [hr, hc]
  exact e

theorem reads_u32 (v : UInt32) (rest : Bytes) : Reads Reader.u32 (u32Bytes v ++ rest) v rest := by
  refine (Reads.remaining _).bind ((Reads.require (by simp) _).bind ?_)
  refine (Reads.take (u32Bytes v) rest).bind ?_
  rw [u32Bytes_fold]
  exact Reads.pure _ _

theorem reads_text8 (text rest : Bytes) (h : text.length ≤ 255) :
    Reads Reader.text8 (UInt8.ofNat text.length :: text ++ rest) text rest := by
  have e : (UInt8.ofNat text.length).toNat = text.length :=
    UInt8.toNat_ofNat_of_lt' (by rw [UInt8.size]; omega)
  refine (reads_u8 _ (text ++ rest)).bind ((Reads.remaining _).bind ?_)
  refine (Reads.require (by simp [e]) _).bind ?_
  rw [e]
  exact Reads.take text rest

theorem reads_done : Reads Reader.done [] () [] := by
  intro cur h
  have hl : cur.pos = cur.body.length := by
    have := h.length
    simp only [List.length_nil] at this
    have := h.1
    omega
  refine ⟨cur, ?_, h⟩
  have hr : StateT.run Reader.done cur =
      StateT.run (Decoder.require (cur.pos == cur.body.length)) cur := rfl
  rw [hr]
  simp [Decoder.require, StateT.run, hl]

theorem reads_cast {α : Type} {o : Option α} {a : α} (h : o = some a) (rest : Bytes) :
    Reads (Reader.cast o) rest a rest := by
  rw [h]
  exact Reads.pure a rest

theorem reads_result (r : RoomResult) (rest : Bytes) :
    Reads Reader.readResult (r.code :: rest) r rest := by
  refine (reads_u8 _ _).bind ((Reads.require ?_ _).bind (reads_cast (by simp) _))
  cases r <;> decide

/-! ## `PacketCode.h` -/

theorem readUInt16_write (v : UInt16) :
    readUInt16 ((v >>> 8) &&& 0xFF).toUInt8 (v &&& 0xFF).toUInt8 = v := by
  have hv := v.toNat_lt
  have hhi : ((v >>> 8) &&& 0xFF).toUInt8.toNat = v.toNat / 256 := by
    simp only [UInt16.toNat_toUInt8, UInt16.toNat_and, UInt16.toNat_shiftRight,
      Nat.shiftRight_eq_div_pow]
    rw [show (0xFF : UInt16).toNat = 2 ^ 8 - 1 from rfl, Nat.and_two_pow_sub_one_eq_mod]
    simp; omega
  have hlo : (v &&& 0xFF).toUInt8.toNat = v.toNat % 256 := by
    simp only [UInt16.toNat_toUInt8, UInt16.toNat_and]
    rw [show (0xFF : UInt16).toNat = 2 ^ 8 - 1 from rfl, Nat.and_two_pow_sub_one_eq_mod]
    omega
  generalize ((v >>> 8) &&& 0xFF).toUInt8 = hi at hhi ⊢
  generalize (v &&& 0xFF).toUInt8 = lo at hlo ⊢
  apply UInt16.toNat_inj.mp
  have hl : lo.toNat < 2 ^ 8 := lo.toNat_lt
  have e : (hi.toUInt16 <<< 8).toNat = hi.toNat <<< 8 := by
    rw [UInt16.toNat_shiftLeft, UInt8.toNat_toUInt16]
    simp [Nat.shiftLeft_eq]; omega
  rw [readUInt16, UInt16.toNat_or, e, UInt8.toNat_toUInt16, ← Nat.shiftLeft_add_eq_or_of_lt hl,
    Nat.shiftLeft_eq, hhi, hlo]
  omega

theorem LoginResponse.decode_encode (p : LoginResponse) : decode p.encode = .ok p := by
  obtain ⟨r⟩ := p
  cases r <;> rfl

theorem ChatResponse.decode_encode (p : ChatResponse) : decode p.encode = .ok p := by
  obtain ⟨r⟩ := p
  cases r <;> rfl

theorem ChatNotification.decode_encode {p : ChatNotification} {b : Bytes}
    (h : p.encode = some b) : decode b = .ok p := by
  obtain ⟨nickname, message⟩ := p
  simp only [ChatNotification.encode] at h
  split at h
  · cases h
  rename_i hn
  split at h
  · cases h
  rename_i hm
  split at h
  · cases h
  simp only [maxNicknameBytes, maxChatMessageBytes, not_or] at hn hm
  obtain rfl := (Option.some.inj h).symm
  have en : (UInt8.ofNat nickname.length).toNat = nickname.length :=
    UInt8.toNat_ofNat_of_lt' (by rw [UInt8.size]; omega)
  have em : (UInt16.ofNat message.length).toNat = message.length :=
    UInt16.toNat_ofNat_of_lt' (by rw [UInt16.size]; omega)
  have n0 : UInt8.ofNat nickname.length ≠ 0 := by
    intro e; rw [e] at en; exact hn.1 en.symm
  have m0 : UInt16.ofNat message.length ≠ 0 := by
    intro e; rw [e] at em; exact hm.1 em.symm
  rw [ChatNotification.decode, Decoder.run_size, Decoder.run_size]
  apply Reads.run
  refine (Reads.require ?_ _).bind ((Reads.next _ _).bind ((Reads.require ?_ _).bind ?_))
  · simp [writeUInt16, maxPacketSize, headerSize]; omega
  · simp [n0, en, maxNicknameBytes]; omega
  refine (Reads.remaining _).bind ((Reads.require ?_ _).bind ?_)
  · simp [en, writeUInt16]
  rw [en]
  refine (Reads.take nickname _).bind ((Reads.next _ _).bind ((Reads.next _ _).bind ?_))
  rw [readUInt16_write]
  refine (Reads.require ?_ _).bind ((Reads.remaining _).bind ((Reads.require ?_ _).bind ?_))
  · simp [m0, em, maxChatMessageBytes]; omega
  · simp [em]
  rw [em]
  have ht := Reads.take message []
  rw [List.append_nil] at ht
  exact ht.bind (Reads.pure _ _)

/-! ## `RoomPacketCodec.h` -/

theorem RoomActionResponse.decode_encode {p : RoomActionResponse} {b : Bytes}
    (h : p.encode = some b) (hid : p.result = .success ↔ p.roomId ≠ 0) : decode b = .ok p := by
  obtain ⟨result, roomId⟩ := p
  have key : ((({} : Writer).u8 result.code).u32 roomId).body =
      result.code :: (u32Bytes roomId ++ []) := by simp
  rw [Writer.finish_eq h, key]
  refine Reads.run ((reads_result _ _).bind ((reads_u32 _ _).bind (reads_done.bind
    ((Reads.require ?_ _).bind (Reads.pure _ _)))))
  dsimp only at hid
  by_cases hr : result = .success
  · simp [hr, hid.mp hr]
  · simp [hr, not_not.mp (mt hid.mpr hr)]

theorem RoomListResponse.encodeRooms_reads : ∀ (rooms : List RoomInfo) (previousId : RoomId)
    (w w' : Writer), encodeRooms rooms previousId w = some w' →
    ∃ tail, w'.body = w.body ++ tail ∧
      ∀ rest, Reads (decodeRooms rooms.length previousId) (tail ++ rest) rooms rest
  | [], _, w, w', h => by
    obtain rfl := Option.some.inj h
    exact ⟨[], by simp, fun rest => Reads.pure _ _⟩
  | room :: rooms, previousId, w, w', h => by
    simp only [encodeRooms] at h
    split at h
    · cases h
    rename_i hok
    obtain ⟨w₁, hw₁, hrest⟩ := Option.bind_eq_some_iff.mp h
    obtain ⟨hlen, hbody⟩ := Writer.text8_eq hw₁
    obtain ⟨tail, htail, hreads⟩ := encodeRooms_reads rooms room.roomId w₁ w' hrest
    refine ⟨u32Bytes room.roomId ++ (room.userCount :: room.capacity ::
      (UInt8.ofNat room.title.length :: room.title ++ tail)), by simp [htail, hbody], fun rest => ?_⟩
    simp only [List.append_assoc, List.cons_append]
    refine (reads_u32 _ _).bind ((reads_u8 _ _).bind ((reads_u8 _ _).bind ?_))
    refine (reads_text8 room.title _ hlen).bind ((Reads.require ?_ _).bind ?_)
    · simpa using hok
    · exact (hreads rest).bind (Reads.pure _ _)

theorem RoomListResponse.decode_encode {p : RoomListResponse} {b : Bytes}
    (h : p.encode = some b) : decode b = .ok p := by
  obtain ⟨result, hasMore, rooms⟩ := p
  simp only [RoomListResponse.encode] at h
  split at h
  · cases h
  rename_i hpage
  split at h
  · cases h
  rename_i hfail
  split at h
  · cases h
  rename_i hmore
  obtain ⟨w, hw, hfin⟩ := Option.bind_eq_some_iff.mp h
  obtain ⟨tail, htail, hreads⟩ := encodeRooms_reads _ _ _ _ hw
  have hlen : rooms.length ≤ 20 := by simpa [roomListPageSize] using hpage
  have ec : (UInt8.ofNat rooms.length).toNat = rooms.length :=
    UInt8.toNat_ofNat_of_lt' (by rw [UInt8.size]; omega)
  have c0 : UInt8.ofNat rooms.length = 0 ↔ rooms = [] := by
    rw [← UInt8.toNat_inj, ec]
    simp
  have key : w.body = result.code :: (if hasMore then 1 else 0) ::
      UInt8.ofNat rooms.length :: (tail ++ []) := by simp [htail]
  rw [Writer.finish_eq hfin, key]
  refine Reads.run ((reads_result _ _).bind ((reads_u8 _ _).bind ((reads_u8 _ _).bind ?_)))
  refine (Reads.require ?_ _).bind ((Reads.require ?_ _).bind ((Reads.require ?_ _).bind ?_))
  · cases hasMore <;> simp [ec, roomListPageSize, hlen]
  · by_cases hr : result = .success
    · simp [hr]
    · simp only [ne_eq, hr, not_false_eq_true, true_and, not_or, not_not] at hfail
      simp [hfail.1, hfail.2]
  · cases hasMore
    · simp
    · simp only [true_and] at hmore
      simp [c0, hmore]
  rw [ec]
  refine (hreads []).bind (reads_done.bind ?_)
  cases hasMore <;> exact Reads.pure _ _

theorem RoomMemberNotification.decode_encode {p : RoomMemberNotification} {b : Bytes}
    (h : p.encode = some b) : decode b = .ok p := by
  obtain ⟨roomId, change, nickname⟩ := p
  simp only [RoomMemberNotification.encode] at h
  split at h
  · cases h
  rename_i hok
  obtain ⟨w, hw, hfin⟩ := Option.bind_eq_some_iff.mp h
  obtain ⟨hlen, hbody⟩ := Writer.text8_eq hw
  have key : w.body = u32Bytes roomId ++ (change.code ::
      (UInt8.ofNat nickname.length :: nickname ++ [])) := by simp [hbody]
  rw [Writer.finish_eq hfin, key]
  refine Reads.run ((reads_u32 _ _).bind ((reads_u8 _ _).bind ((reads_text8 _ _ hlen).bind
    (reads_done.bind ((Reads.require ?_ _).bind ((reads_cast (by simp) _).bind
      (Reads.pure _ _)))))))
  simpa [and_assoc] using hok

theorem RoomStateNotification.encodePlayers_reads : ∀ (players : List RoomPlayerInfo)
    (w w' : Writer), encodePlayers players w = some w' →
    ∃ tail, w'.body = w.body ++ tail ∧
      ∀ rest, Reads (decodePlayers players.length) (tail ++ rest) players rest
  | [], w, w', h => by
    obtain rfl := Option.some.inj h
    exact ⟨[], by simp, fun rest => Reads.pure _ _⟩
  | player :: players, w, w', h => by
    obtain ⟨w₁, hw₁, hrest⟩ := Option.bind_eq_some_iff.mp h
    obtain ⟨hlen, hbody⟩ := Writer.text8_eq hw₁
    obtain ⟨tail, htail, hreads⟩ := encodePlayers_reads players _ w' hrest
    refine ⟨UInt8.ofNat player.nickname.length :: player.nickname ++
      ((if player.ready then 1 else 0) :: tail), by simp [htail, hbody], fun rest => ?_⟩
    rw [List.append_assoc, List.cons_append]
    refine (reads_text8 player.nickname _ hlen).bind ((reads_u8 _ _).bind ?_)
    refine (Reads.require ?_ _).bind ?_
    · cases player.ready <;> simp
    · refine (hreads rest).bind ?_
      obtain ⟨nickname, ready⟩ := player
      cases ready <;> exact Reads.pure _ _

theorem RoomStateNotification.decode_encode {p : RoomStateNotification} {b : Bytes}
    (h : p.encode = some b) : decode b = .ok p := by
  obtain ⟨roomId, game, phase, capacity, hostNickname, players⟩ := p
  simp only [RoomStateNotification.encode] at h
  split at h
  · cases h
  rename_i hvalid
  simp only [Bool.not_eq_true', Bool.not_eq_false] at hvalid
  obtain ⟨w₁, hw₁, h⟩ := Option.bind_eq_some_iff.mp h
  obtain ⟨w₂, hw₂, hfin⟩ := Option.bind_eq_some_iff.mp h
  obtain ⟨hhost, hbody⟩ := Writer.text8_eq hw₁
  obtain ⟨tail, htail, hreads⟩ := encodePlayers_reads _ _ _ hw₂
  have hcount : players ≠ [] ∧ players.length ≤ 2 := by
    have hv := hvalid
    simp only [isValidRoomState] at hv
    split at hv
    · cases hv
    · rename_i hc
      simp only [roomPlayerCount, not_or] at hc
      exact ⟨hc.2.2.1, by omega⟩
  have ec : (UInt8.ofNat players.length).toNat = players.length :=
    UInt8.toNat_ofNat_of_lt' (by rw [UInt8.size]; omega)
  have key : w₂.body = u32Bytes roomId ++ (u32Bytes game ++ (phase.code :: capacity ::
      (UInt8.ofNat hostNickname.length :: hostNickname ++
        (UInt8.ofNat players.length :: (tail ++ []))))) := by simp [htail, hbody]
  rw [Writer.finish_eq hfin, key]
  refine Reads.run ((reads_u32 _ _).bind ((reads_u32 _ _).bind ((reads_u8 _ _).bind
    ((reads_u8 _ _).bind ((reads_text8 _ _ hhost).bind ((reads_u8 _ _).bind
      ((Reads.require ?_ _).bind ?_)))))))
  · have : UInt8.ofNat players.length ≠ 0 := by
      rw [Ne, ← UInt8.toNat_inj, ec]
      simpa using hcount.1
    simp [this, ec, roomPlayerCount, hcount.2]
  rw [ec]
  exact (hreads []).bind (reads_done.bind ((reads_cast (by simp) _).bind
    ((Reads.require hvalid _).bind (Reads.pure _ _))))

/-! ## `GamePacketCodec.h` -/

theorem GameMoveResponse.decode_encode {p : GameMoveResponse} {b : Bytes}
    (h : p.encode = some b) : decode b = .ok p := by
  obtain ⟨result, game⟩ := p
  have key : ((({} : Writer).u8 result.code).u32 game).body =
      result.code :: (u32Bytes game ++ []) := by simp
  rw [Writer.finish_eq h, key]
  refine Reads.run ((reads_u8 _ _).bind ((Reads.require ?_ _).bind ((reads_u32 _ _).bind
    (reads_done.bind ((reads_cast (by simp) _).bind (Reads.pure _ _))))))
  cases result <;> decide

theorem GameMoveNotification.decode_encode {p : GameMoveNotification} {b : Bytes}
    (h : p.encode = some b) : decode b = .ok p := by
  simp only [GameMoveNotification.encode] at h
  split at h
  · cases h
  rename_i hvalid
  simp only [Bool.not_eq_true', Bool.not_eq_false] at hvalid
  obtain ⟨roomId, game, x, y, placed, next, state, moveCount⟩ := p
  have key : ((((((((({} : Writer).u32 roomId).u32 game).u8 x).u8 y).u8 placed.code).u8
      next.code).u8 state.code).u32 moveCount).body = u32Bytes roomId ++ (u32Bytes game ++
        (x :: y :: placed.code :: next.code :: state.code :: (u32Bytes moveCount ++ []))) := by simp
  rw [Writer.finish_eq h, key]
  exact Reads.run ((reads_u32 _ _).bind ((reads_u32 _ _).bind ((reads_u8 _ _).bind
    ((reads_u8 _ _).bind ((reads_u8 _ _).bind ((reads_u8 _ _).bind ((reads_u8 _ _).bind
      ((reads_u32 _ _).bind (reads_done.bind ((reads_cast (by simp) _).bind
        ((reads_cast (by simp) _).bind ((reads_cast (by simp) _).bind
          ((Reads.require hvalid _).bind (Reads.pure _ _))))))))))))))

theorem GameEndNotification.decode_encode {p : GameEndNotification} {b : Bytes}
    (h : p.encode = some b) : decode b = .ok p := by
  simp only [GameEndNotification.encode] at h
  split at h
  · cases h
  rename_i hvalid
  simp only [Bool.not_eq_true', Bool.not_eq_false] at hvalid
  obtain ⟨roomId, game, state, reason, moveCount⟩ := p
  have key : (((((({} : Writer).u32 roomId).u32 game).u8 state.code).u8 reason.code).u32
      moveCount).body = u32Bytes roomId ++ (u32Bytes game ++ (state.code :: reason.code ::
        (u32Bytes moveCount ++ []))) := by simp
  rw [Writer.finish_eq h, key]
  exact Reads.run ((reads_u32 _ _).bind ((reads_u32 _ _).bind ((reads_u8 _ _).bind
    ((reads_u8 _ _).bind ((reads_u32 _ _).bind (reads_done.bind ((reads_cast (by simp) _).bind
      ((reads_cast (by simp) _).bind ((Reads.require hvalid _).bind (Reads.pure _ _))))))))))

end SelectServer
