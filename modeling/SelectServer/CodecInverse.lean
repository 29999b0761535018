import SelectServer.CodecRoundTrip

/- The converse of the round trips: a body that `Decode` accepts is the one body
   that `Encode` gives for its value. Each proof reads the accepted body off the
   fields in wire order (`Only`) and writes it again. `codecs_canonical` has both
   directions for every wire type. -/
namespace SelectServer
open Wire Decoder Reader

/-! ## A byte is the code of at most one enumerator -/

theorem LoginResult.code_ofCode {b : UInt8} {r : LoginResult} (h : ofCode? b = some r) :
    r.code = b := by
  unfold ofCode? at h
  split at h <;> cases h <;> exact UInt8.toNat_inj.mp (Eq.symm ‹_›)

theorem ChatResult.code_ofCode {b : UInt8} {r : ChatResult} (h : ofCode? b = some r) :
    r.code = b := by
  unfold ofCode? at h
  split at h <;> cases h <;> exact UInt8.toNat_inj.mp (Eq.symm ‹_›)

theorem RoomResult.code_ofCode {b : UInt8} {r : RoomResult} (h : ofCode? b = some r) :
    r.code = b := by
  unfold ofCode? at h
  split at h <;> cases h <;> exact UInt8.toNat_inj.mp (Eq.symm ‹_›)

theorem RoomMemberChange.code_ofCode {b : UInt8} {r : RoomMemberChange} (h : ofCode? b = some r) :
    r.code = b := by
  unfold ofCode? at h
  split at h <;> cases h <;> exact UInt8.toNat_inj.mp (Eq.symm ‹_›)

theorem RoomPhase.code_ofCode {b : UInt8} {r : RoomPhase} (h : ofCode? b = some r) :
    r.code = b := by
  unfold ofCode? at h
  split at h <;> cases h <;> exact UInt8.toNat_inj.mp (Eq.symm ‹_›)

theorem GameStone.code_ofCode {b : UInt8} {r : GameStone} (h : ofCode? b = some r) :
    r.code = b := by
  unfold ofCode? at h
  split at h <;> cases h <;> exact UInt8.toNat_inj.mp (Eq.symm ‹_›)

theorem GameState.code_ofCode {b : UInt8} {r : GameState} (h : ofCode? b = some r) :
    r.code = b := by
  unfold ofCode? at h
  split at h <;> cases h <;> exact UInt8.toNat_inj.mp (Eq.symm ‹_›)

theorem GameMoveResult.code_ofCode {b : UInt8} {r : GameMoveResult} (h : ofCode? b = some r) :
    r.code = b := by
  unfold ofCode? at h
  split at h <;> cases h <;> exact UInt8.toNat_inj.mp (Eq.symm ‹_›)

theorem GameEndReason.code_ofCode {b : UInt8} {r : GameEndReason} (h : ofCode? b = some r) :
    r.code = b := by
  unfold ofCode? at h
  split at h <;> cases h <;> exact UInt8.toNat_inj.mp (Eq.symm ‹_›)

/-! ## Fields -/

theorem only_u8 : Only Reader.u8 fun input b rest => input = b :: rest := by
  intro cur cur' input b hcur h
  have hr : StateT.run Reader.u8 cur =
      ((StateT.run (Decoder.require (cur.pos < cur.body.length)) cur) >>= fun r =>
        StateT.run Decoder.next r.2) := rfl
  rw [hr] at h
  cases hc : StateT.run (Decoder.require (cur.pos < cur.body.length)) cur with
  | error fault =>
    rw [hc] at h
    cases h
  | ok r =>
    obtain ⟨rest, hrest, -, rfl⟩ := Only.require _ _ _ _ _ hcur hc
    rw [hc] at h
    exact Only.next r.2 cur' rest b hrest h

theorem only_done : Only Reader.done fun input _ rest => input = [] ∧ rest = [] := by
  intro cur cur' input u hcur h
  have hr : StateT.run Reader.done cur =
      StateT.run (Decoder.require (cur.pos == cur.body.length)) cur := rfl
  rw [hr] at h
  obtain ⟨rest, hrest, hend, rfl⟩ := Only.require _ _ _ _ _ hcur h
  have hlen := hcur.length
  have hpos : cur.pos = cur.body.length := by simpa using hend
  have hnil : rest = [] := List.length_eq_zero_iff.mp (by omega)
  exact ⟨rest, hrest, hnil, hnil⟩

theorem only_cast {α : Type} (o : Option α) :
    Only (Reader.cast o) fun input a rest => o = some a ∧ rest = input := by
  cases o with
  | none => exact Only.reject.weaken fun _ _ _ h => h.elim
  | some a =>
    refine (Only.pure a).weaken ?_
    rintro input a' rest ⟨rfl, rfl⟩
    exact ⟨rfl, rfl⟩

theorem u32Bytes_of_fold {bs : Bytes} (h : bs.length = 4) :
    u32Bytes (bs.foldl (fun (value : UInt32) b => (value <<< 8) ||| b.toUInt32) 0) = bs := by
  match bs, h with
  | [a, b, c, d], _ =>
    have ha := a.toNat_lt
    have hb := b.toNat_lt
    have hc := c.toNat_lt
    have hd := d.toNat_lt
    simp only [List.foldl_cons, List.foldl_nil]
    have e1 := shiftOr_toNat 0 a (by decide)
    simp only [UInt32.toNat_zero, Nat.zero_mul, Nat.zero_add] at e1
    have e2 := shiftOr_toNat _ b (by rw [e1]; omega)
    rw [e1] at e2
    have e3 := shiftOr_toNat _ c (by rw [e2]; omega)
    rw [e2] at e3
    have e4 := shiftOr_toNat _ d (by rw [e3]; omega)
    rw [e3] at e4
    generalize (((((0 : UInt32) <<< 8 ||| a.toUInt32) <<< 8 ||| b.toUInt32) <<< 8 |||
      c.toUInt32) <<< 8 ||| d.toUInt32) = v at e4 ⊢
    have hbyte : ∀ (shift : UInt32) (x : UInt8), shift.toNat < 32 →
        v.toNat / 2 ^ shift.toNat % 256 = x.toNat → ((v >>> shift) &&& 0xFF).toUInt8 = x := by
      intro shift x hshift hx
      exact UInt8.toNat_inj.mp ((shiftedByte_toNat v shift hshift).trans hx)
    simp only [u32Bytes, List.map_cons, List.map_nil]
    rw [hbyte 24 a (by decide) (by rw [e4]; simp; omega),
      hbyte 16 b (by decide) (by rw [e4]; simp; omega),
      hbyte 8 c (by decide) (by rw [e4]; simp; omega),
      hbyte 0 d (by decide) (by rw [e4]; simp)]

theorem only_u32 : Only Reader.u32 fun input v rest => input = u32Bytes v ++ rest := by
  refine (Only.remaining.bind fun n => (Only.require (4 ≤ n)).bind fun _ =>
    (Only.take 4).bind fun bs => Only.pure _).weaken ?_
  rintro input v rest ⟨n, -, ⟨-, rfl⟩, -, -, ⟨-, rfl⟩, bs, -, ⟨hlen, rfl⟩, rfl, rfl⟩
  rw [u32Bytes_of_fold hlen]

/-- A text with its length in one byte. -/
theorem only_text8 : Only Reader.text8 fun input text rest =>
    input = UInt8.ofNat text.length :: text ++ rest ∧ text.length ≤ 255 := by
  refine (only_u8.bind fun size => Only.remaining.bind fun n =>
    (Only.require (size.toNat ≤ n)).bind fun _ => Only.take size.toNat).weaken ?_
  rintro input text rest ⟨size, -, rfl, n, -, ⟨-, rfl⟩, -, -, ⟨-, rfl⟩, hlen, rfl⟩
  have hsize := size.toNat_lt
  refine ⟨?_, by omega⟩
  rw [hlen, UInt8.ofNat_toNat]
  rfl

theorem only_result : Only Reader.readResult fun input r rest => input = r.code :: rest := by
  refine (only_u8.bind fun value => (Only.require _).bind fun _ => only_cast _).weaken ?_
  rintro input r rest ⟨value, -, rfl, -, -, ⟨-, rfl⟩, hcode, rfl⟩
  rw [RoomResult.code_ofCode hcode]

theorem Writer.text8_some (w : Writer) {text : Bytes} (h : text.length ≤ 255) :
    w.text8 text = some ⟨w.body ++ (UInt8.ofNat text.length :: text)⟩ := by
  rw [Writer.text8, if_neg (by omega)]
  simp

theorem Writer.finish_some {w : Writer} (h : w.body.length ≤ 4092) : w.finish = some w.body := by
  rw [Writer.finish, if_neg (by simp only [maxPacketSize, headerSize]; omega)]

/-! ## `PacketCode.h` -/

theorem LoginRequest.decode_iff (b : Bytes) (p : LoginRequest) :
    decode b = .ok p ↔ p.encode = b ∧ p.nickname.length ≤ 4092 := by
  unfold LoginRequest.decode LoginRequest.encode
  constructor
  · intro h
    split at h
    · cases h
    · rename_i hsize
      cases h
      exact ⟨rfl, Nat.le_of_not_lt hsize⟩
  · rintro ⟨rfl, hsize⟩
    rw [if_neg (by simp only [maxPacketSize, headerSize]; omega)]

theorem ChatRequest.decode_iff (b : Bytes) (p : ChatRequest) :
    decode b = .ok p ↔ p.encode = b ∧ p.message.length ≤ 4092 := by
  unfold ChatRequest.decode ChatRequest.encode
  constructor
  · intro h
    split at h
    · cases h
    · rename_i hsize
      cases h
      exact ⟨rfl, Nat.le_of_not_lt hsize⟩
  · rintro ⟨rfl, hsize⟩
    rw [if_neg (by simp only [maxPacketSize, headerSize]; omega)]

theorem LoginResponse.decode_iff (b : Bytes) (p : LoginResponse) :
    decode b = .ok p ↔ p.encode = b := by
  constructor
  · intro h
    rw [LoginResponse.decode, Decoder.run_size] at h
    obtain ⟨rest, hR⟩ := ((Only.require _).bind fun _ => Only.next.bind fun value =>
      (only_cast _).bind fun r => Only.pure _).run h
    obtain ⟨-, _, ⟨hsize, rfl⟩, value, tail, rfl, r, _, ⟨hcode, -⟩, rfl, -⟩ := hR
    have htail : tail = [] := by simpa using hsize
    rw [LoginResponse.encode, LoginResult.code_ofCode hcode, htail]
  · rintro rfl
    exact p.decode_encode

theorem ChatResponse.decode_iff (b : Bytes) (p : ChatResponse) :
    decode b = .ok p ↔ p.encode = b := by
  constructor
  · intro h
    rw [ChatResponse.decode, Decoder.run_size] at h
    obtain ⟨rest, hR⟩ := ((Only.require _).bind fun _ => Only.next.bind fun value =>
      (only_cast _).bind fun r => Only.pure _).run h
    obtain ⟨-, _, ⟨hsize, rfl⟩, value, tail, rfl, r, _, ⟨hcode, -⟩, rfl, -⟩ := hR
    have htail : tail = [] := by simpa using hsize
    rw [ChatResponse.encode, ChatResult.code_ofCode hcode, htail]
  · rintro rfl
    exact p.decode_encode

theorem writeUInt16_readUInt16 (high low : UInt8) :
    writeUInt16 (readUInt16 high low) = [high, low] := by
  have hh := high.toNat_lt
  have hl := low.toNat_lt
  have hshift : (high.toUInt16 <<< 8).toNat = high.toNat <<< 8 := by
    rw [UInt16.toNat_shiftLeft, UInt8.toNat_toUInt16]
    simp [Nat.shiftLeft_eq]
    omega
  have hvalue : (readUInt16 high low).toNat = high.toNat * 256 + low.toNat := by
    rw [readUInt16, UInt16.toNat_or, hshift, UInt8.toNat_toUInt16,
      ← Nat.shiftLeft_add_eq_or_of_lt (by omega), Nat.shiftLeft_eq]
  generalize readUInt16 high low = v at hvalue ⊢
  have hhigh : ((v >>> 8) &&& 0xFF).toUInt8 = high := by
    apply UInt8.toNat_inj.mp
    simp only [UInt16.toNat_toUInt8, UInt16.toNat_and, UInt16.toNat_shiftRight,
      Nat.shiftRight_eq_div_pow]
    rw [show (0xFF : UInt16).toNat = 2 ^ 8 - 1 from rfl, Nat.and_two_pow_sub_one_eq_mod, hvalue]
    simp
    omega
  have hlow : (v &&& 0xFF).toUInt8 = low := by
    apply UInt8.toNat_inj.mp
    simp only [UInt16.toNat_toUInt8, UInt16.toNat_and]
    rw [show (0xFF : UInt16).toNat = 2 ^ 8 - 1 from rfl, Nat.and_two_pow_sub_one_eq_mod, hvalue]
    omega
  rw [writeUInt16, hhigh, hlow]

theorem ChatNotification.encode_decode {b : Bytes} {p : ChatNotification} (h : decode b = .ok p) :
    p.encode = some b := by
  rw [ChatNotification.decode, Decoder.run_size, Decoder.run_size] at h
  obtain ⟨rest, hR⟩ := ((Only.require _).bind fun _ => Only.next.bind fun nicknameSize =>
    (Only.require _).bind fun _ => Only.remaining.bind fun n => (Only.require _).bind fun _ =>
      (Only.take _).bind fun nickname => Only.next.bind fun high => Only.next.bind fun low =>
        (Only.require _).bind fun _ => Only.remaining.bind fun left => (Only.require _).bind fun _ =>
          (Only.take _).bind fun message => Only.pure _).run h
  obtain ⟨-, _, ⟨hsize, rfl⟩, nicknameSize, _, rfl, -, _, ⟨hname, rfl⟩, n, _, ⟨-, rfl⟩, -, _,
    ⟨-, rfl⟩, nickname, _, ⟨hlen, rfl⟩, high, _, rfl, low, _, rfl, -, _, ⟨hmessage, rfl⟩, left, _,
    ⟨hleft, rfl⟩, -, _, ⟨hexact, rfl⟩, message, _, ⟨hmlen, rfl⟩, rfl, rfl⟩ := hR
  have hbytes := writeUInt16_readUInt16 high low
  generalize readUInt16 high low = value at hmessage hexact hmlen hbytes
  simp only [maxPacketSize, headerSize, maxNicknameBytes, maxChatMessageBytes, bne_iff_ne, ne_eq,
    Bool.and_eq_true, decide_eq_true_eq, beq_iff_eq, List.length_append, List.length_cons]
    at hsize hname hmessage hleft hexact
  have hrest : rest = [] := List.length_eq_zero_iff.mp (by omega)
  have hname0 : nicknameSize.toNat ≠ 0 := fun e => hname.1 (UInt8.toNat_inj.mp e)
  have hname16 : nicknameSize.toNat ≤ 16 := of_decide_eq_true hname.2
  have hmessage0 : value.toNat ≠ 0 := fun e => hmessage.1 (UInt16.toNat_inj.mp e)
  have hmessage256 : value.toNat ≤ 256 := of_decide_eq_true hmessage.2
  have hnickname : ¬ (nickname.length = 0 ∨ nickname.length > maxNicknameBytes ∨
      nickname.length > 255) := by
    simp only [maxNicknameBytes]
    omega
  have htext : ¬ (message.length = 0 ∨ message.length > maxChatMessageBytes ∨
      message.length > 65535) := by
    simp only [maxChatMessageBytes]
    omega
  have htotal : ¬ 1 + nickname.length + 2 + message.length > maxPacketSize - headerSize := by
    simp only [maxPacketSize, headerSize]
    omega
  simp only [ChatNotification.encode, if_neg hnickname, if_neg htext, if_neg htotal]
  rw [hlen, hmlen, UInt8.ofNat_toNat, UInt16.ofNat_toNat, hbytes, hrest, List.append_nil]
  rfl

/-! ## `RoomPacketCodec.h` -/

theorem RoomCreateRequest.encode_eq {p : RoomCreateRequest} (h : p.title.length ≤ 255) :
    p.encode = some (UInt8.ofNat p.title.length :: p.title) := by
  have hbody : (⟨({} : Writer).body ++ (UInt8.ofNat p.title.length :: p.title)⟩ : Writer).finish =
      some (UInt8.ofNat p.title.length :: p.title) :=
    Writer.finish_some (by simp; omega)
  simp only [RoomCreateRequest.encode, Writer.text8_some _ h, Option.bind_eq_bind, Option.bind_some]
  exact hbody

theorem RoomCreateRequest.decode_iff (b : Bytes) (p : RoomCreateRequest) :
    decode b = .ok p ↔ p.encode = some b := by
  obtain ⟨title⟩ := p
  constructor
  · intro h
    obtain ⟨rest, hR⟩ := (only_text8.bind fun title => only_done.bind fun _ => Only.pure _).run h
    obtain ⟨title', _, ⟨rfl, hlen⟩, -, _, ⟨rfl, rfl⟩, heq, rfl⟩ := hR
    cases heq
    rw [RoomCreateRequest.encode_eq hlen, List.append_nil]
  · intro h
    obtain ⟨w, hw, hfin⟩ := Option.bind_eq_some_iff.mp h
    obtain ⟨hlen, hbody⟩ := Writer.text8_eq hw
    have key : w.body = UInt8.ofNat title.length :: title ++ [] := by simp [hbody]
    rw [Writer.finish_eq hfin, key]
    exact Reads.run ((reads_text8 _ _ hlen).bind (reads_done.bind (Reads.pure _ _)))

theorem RoomActionResponse.encode_eq (p : RoomActionResponse) :
    p.encode = some (p.result.code :: u32Bytes p.roomId) := by
  have hbody : ((({} : Writer).u8 p.result.code).u32 p.roomId).body =
      p.result.code :: u32Bytes p.roomId := by simp
  rw [RoomActionResponse.encode, Writer.finish_some (by simp), hbody]

/-- A room id goes with success and with nothing else. -/
def RoomActionResponse.WireValid (p : RoomActionResponse) : Prop :=
  p.result = .success ↔ p.roomId ≠ 0

theorem RoomActionResponse.decode_iff (b : Bytes) (p : RoomActionResponse) :
    decode b = .ok p ↔ p.encode = some b ∧ p.WireValid := by
  constructor
  · intro h
    obtain ⟨rest, hR⟩ := (only_result.bind fun result => only_u32.bind fun roomId =>
      only_done.bind fun _ => (Only.require _).bind fun _ => Only.pure _).run h
    obtain ⟨result, _, rfl, roomId, _, rfl, -, _, ⟨rfl, rfl⟩, -, _, ⟨hvalid, rfl⟩, rfl, rfl⟩ := hR
    refine ⟨by rw [RoomActionResponse.encode_eq, List.append_nil], ?_⟩
    show result = .success ↔ roomId ≠ 0
    by_cases hr : result = .success <;> by_cases hid : roomId = 0 <;> simp_all
  · rintro ⟨h, hvalid⟩
    exact RoomActionResponse.decode_encode h hvalid

theorem u32_encode (value : UInt32) : (({} : Writer).u32 value).finish = some (u32Bytes value) := by
  have hbody : (({} : Writer).u32 value).body = u32Bytes value := by simp
  rw [Writer.finish_some (by simp), hbody]

/-- A request that is one number is read from its four bytes and from nothing else. -/
theorem u32_decode_iff {α : Type} {make : UInt32 → α} (hmake : ∀ v w, make v = make w → v = w)
    (b : Bytes) (value : UInt32) :
    Decoder.run (do
      let value ← Reader.u32
      Reader.done
      return make value) b = .ok (make value) ↔ u32Bytes value = b := by
  constructor
  · intro h
    obtain ⟨rest, hR⟩ := (only_u32.bind fun v => only_done.bind fun _ => Only.pure (make v)).run h
    obtain ⟨v, _, rfl, -, _, ⟨rfl, rfl⟩, hsame, rfl⟩ := hR
    rw [hmake _ _ hsame, List.append_nil]
  · intro h
    rw [← h, ← List.append_nil (u32Bytes value)]
    exact Reads.run ((reads_u32 _ _).bind (reads_done.bind (Reads.pure _ _)))

theorem RoomListRequest.decode_iff (b : Bytes) (p : RoomListRequest) :
    decode b = .ok p ↔ p.encode = some b := by
  rw [RoomListRequest.encode, u32_encode, Option.some.injEq]
  exact u32_decode_iff (fun _ _ h => RoomListRequest.mk.inj h) b p.afterRoomId

theorem RoomEnterRequest.decode_iff (b : Bytes) (p : RoomEnterRequest) :
    decode b = .ok p ↔ p.encode = some b := by
  rw [RoomEnterRequest.encode, u32_encode, Option.some.injEq]
  exact u32_decode_iff (fun _ _ h => RoomEnterRequest.mk.inj h) b p.roomId

theorem RoomReadyRequest.decode_iff (b : Bytes) (p : RoomReadyRequest) :
    decode b = .ok p ↔ p.encode = some b := by
  have hencode : p.encode = some [if p.ready then 1 else 0] := by
    rw [RoomReadyRequest.encode, Writer.finish_some (by simp)]
    simp
  rw [hencode]
  constructor
  · intro h
    obtain ⟨rest, hR⟩ := (only_u8.bind fun ready => (Only.require _).bind fun _ =>
      only_done.bind fun _ => Only.pure _).run h
    obtain ⟨ready, _, rfl, -, _, ⟨hle, rfl⟩, -, _, ⟨rfl, rfl⟩, rfl, rfl⟩ := hR
    rw [decide_eq_true_eq] at hle
    have hbit : ready = 0 ∨ ready = 1 := by grind
    rcases hbit with rfl | rfl <;> rfl
  · intro h
    rw [← Option.some.inj h]
    obtain ⟨ready⟩ := p
    cases ready <;> rfl

theorem RoomLeaveRequest.decode_iff (b : Bytes) (p : RoomLeaveRequest) :
    decode b = .ok p ↔ p.encode = some b := by
  unfold RoomLeaveRequest.decode RoomLeaveRequest.encode
  cases b <;> simp

theorem RoomStartRequest.decode_iff (b : Bytes) (p : RoomStartRequest) :
    decode b = .ok p ↔ p.encode = some b := by
  unfold RoomStartRequest.decode RoomStartRequest.encode
  cases b <;> simp

theorem RoomMemberNotification.decode_iff (b : Bytes) (p : RoomMemberNotification) :
    decode b = .ok p ↔ p.encode = some b := by
  constructor
  · intro h
    obtain ⟨rest, hR⟩ := (only_u32.bind fun roomId => only_u8.bind fun change =>
      only_text8.bind fun nickname => only_done.bind fun _ => (Only.require _).bind fun _ =>
        (only_cast _).bind fun change => Only.pure _).run h
    obtain ⟨roomId, _, rfl, byte, _, rfl, nickname, _, ⟨rfl, hlen⟩, -, _, ⟨rfl, rfl⟩, -, _,
      ⟨hvalid, rfl⟩, change, _, ⟨hcode, rfl⟩, rfl, rfl⟩ := hR
    have hok : ¬ (roomId = 0 ∨ nickname = [] ∨ nickname.length > maxNicknameBytes) := by
      simpa [and_assoc] using hvalid
    have hbody : (⟨((({} : Writer).u32 roomId).u8 change.code).body ++
        (UInt8.ofNat nickname.length :: nickname)⟩ : Writer).body = u32Bytes roomId ++
          (change.code :: (UInt8.ofNat nickname.length :: nickname ++ [])) := by simp
    simp only [RoomMemberNotification.encode, if_neg hok, Writer.text8_some _ hlen,
      Option.bind_eq_bind, Option.bind_some]
    rw [Writer.finish_some (by simp; omega), hbody, RoomMemberChange.code_ofCode hcode]
  · exact RoomMemberNotification.decode_encode

theorem RoomInfo.title_short {room : RoomInfo} {previousId : RoomId}
    (h : room.rejected previousId = false) : room.title.length ≤ 48 := by
  simp only [rejected, Bool.or_eq_false_iff, maxRoomTitleBytes] at h
  exact Nat.le_of_not_lt (of_decide_eq_false h.2)

theorem RoomListResponse.only_decodeRooms : ∀ (count : Nat) (previousId : RoomId),
    Only (decodeRooms count previousId) fun input rooms rest => rooms.length = count ∧
      ∃ tail, input = tail ++ rest ∧ tail.length ≤ 55 * count ∧
        ∀ w : Writer, encodeRooms rooms previousId w = some ⟨w.body ++ tail⟩
  | 0, _ => by
    refine (Only.pure []).weaken ?_
    rintro input rooms rest ⟨rfl, rfl⟩
    exact ⟨rfl, [], rfl, by simp, fun w => by simp [encodeRooms]⟩
  | count + 1, previousId => by
    refine (only_u32.bind fun roomId => only_u8.bind fun userCount => only_u8.bind fun capacity =>
      only_text8.bind fun title => (Only.require _).bind fun _ =>
        (only_decodeRooms count roomId).bind fun rooms => Only.pure _).weaken ?_
    rintro input _ rest ⟨roomId, _, rfl, userCount, _, rfl, capacity, _, rfl, title, _, ⟨rfl, hlen⟩,
      -, _, ⟨hok, rfl⟩, rooms, _, ⟨hcount, tail, rfl, htail, hencode⟩, rfl, rfl⟩
    rw [Bool.not_eq_true'] at hok
    have htitle : title.length ≤ 48 := RoomInfo.title_short hok
    refine ⟨by rw [List.length_cons, hcount], u32Bytes roomId ++ (userCount :: capacity ::
      (UInt8.ofNat title.length :: title ++ tail)), by simp, by simp; omega, fun w => ?_⟩
    simp only [encodeRooms, hok, Bool.false_eq_true, if_false, Writer.text8_some _ hlen,
      Option.bind_eq_bind, Option.bind_some, hencode]
    simp

theorem RoomListResponse.decode_iff (b : Bytes) (p : RoomListResponse) :
    decode b = .ok p ↔ p.encode = some b := by
  constructor
  · intro h
    obtain ⟨_, hR⟩ := (only_result.bind fun result => only_u8.bind fun hasMore =>
      only_u8.bind fun count => (Only.require _).bind fun _ => (Only.require _).bind fun _ =>
        (Only.require _).bind fun _ => (only_decodeRooms count.toNat 0).bind fun rooms =>
          only_done.bind fun _ => Only.pure _).run h
    obtain ⟨result, _, rfl, hasMore, _, rfl, count, _, rfl, -, _, ⟨hsize, rfl⟩, -, _, ⟨hfail, rfl⟩,
      -, _, ⟨hmore, rfl⟩, rooms, _, ⟨hcount, tail, rfl, htail, hencode⟩, -, _, ⟨rfl, rfl⟩,
      rfl, rfl⟩ := hR
    rw [Bool.and_eq_true, decide_eq_true_eq, decide_eq_true_eq, roomListPageSize] at hsize
    have hbit : hasMore = 0 ∨ hasMore = 1 := by
      have hle := hsize.1
      grind
    have hnil : rooms = [] ↔ count = 0 := by
      rw [← List.length_eq_zero_iff, hcount, ← UInt8.toNat_inj]
      rfl
    have hpage : ¬ rooms.length > roomListPageSize := by
      simp only [roomListPageSize]
      omega
    have hfail' : ¬ (result ≠ .success ∧ (rooms ≠ [] ∨ (hasMore != 0) = true)) := by
      simp only [ne_eq, hnil]
      simpa [Decidable.imp_iff_not_or] using hfail
    have hmore' : ¬ ((hasMore != 0) = true ∧ rooms = []) := by
      simp only [hnil]
      simpa [Decidable.imp_iff_not_or] using hmore
    simp only [RoomListResponse.encode, if_neg hpage, if_neg hfail', if_neg hmore', hencode,
      Option.bind_eq_bind, Option.bind_some]
    rw [Writer.finish_some (by simp; omega), hcount, UInt8.ofNat_toNat]
    rcases hbit with rfl | rfl <;> simp
  · exact RoomListResponse.decode_encode

theorem RoomStateNotification.only_decodePlayers : ∀ count : Nat,
    Only (decodePlayers count) fun input players rest => players.length = count ∧
      ∃ tail, input = tail ++ rest ∧ tail.length ≤ 257 * count ∧
        ∀ w : Writer, encodePlayers players w = some ⟨w.body ++ tail⟩
  | 0 => by
    refine (Only.pure []).weaken ?_
    rintro input players rest ⟨rfl, rfl⟩
    exact ⟨rfl, [], rfl, by simp, fun w => by simp [encodePlayers]⟩
  | count + 1 => by
    refine (only_text8.bind fun nickname => only_u8.bind fun ready => (Only.require _).bind fun _ =>
      (only_decodePlayers count).bind fun players => Only.pure _).weaken ?_
    rintro input _ rest ⟨nickname, _, ⟨rfl, hlen⟩, ready, _, rfl, -, _, ⟨hready, rfl⟩, players, _,
      ⟨hcount, tail, rfl, htail, hencode⟩, rfl, rfl⟩
    have hbit : ready = 0 ∨ ready = 1 := by
      have hle := of_decide_eq_true hready
      grind
    refine ⟨by rw [List.length_cons, hcount], UInt8.ofNat nickname.length :: nickname ++
      (ready :: tail), by simp, by simp; omega, fun w => ?_⟩
    simp only [encodePlayers, Writer.text8_some _ hlen, Option.bind_eq_bind, Option.bind_some,
      hencode]
    rcases hbit with rfl | rfl <;> simp

theorem RoomStateNotification.decode_iff (b : Bytes) (p : RoomStateNotification) :
    decode b = .ok p ↔ p.encode = some b := by
  constructor
  · intro h
    obtain ⟨_, hR⟩ := (only_u32.bind fun roomId => only_u32.bind fun game =>
      only_u8.bind fun phase => only_u8.bind fun capacity => only_text8.bind fun hostNickname =>
        only_u8.bind fun count => (Only.require _).bind fun _ =>
          (only_decodePlayers count.toNat).bind fun players => only_done.bind fun _ =>
            (only_cast _).bind fun phase => (Only.require _).bind fun _ => Only.pure _).run h
    obtain ⟨roomId, _, rfl, game, _, rfl, byte, _, rfl, capacity, _, rfl, hostNickname, _,
      ⟨rfl, hlen⟩, count, _, rfl, -, _, ⟨hcount, rfl⟩, players, _,
      ⟨hplayers, tail, rfl, htail, hencode⟩, -, _, ⟨rfl, rfl⟩, phase, _, ⟨hcode, rfl⟩, -, _,
      ⟨hvalid, rfl⟩, rfl, rfl⟩ := hR
    have htwo : count.toNat ≤ 2 := by
      have hnot := hcount
      rw [Bool.not_eq_true', Bool.or_eq_false_iff, decide_eq_false_iff_not, roomPlayerCount] at hnot
      omega
    simp only [RoomStateNotification.encode, hvalid, Bool.not_true, Bool.false_eq_true, if_false,
      Writer.text8_some _ hlen, Option.bind_eq_bind, Option.bind_some, hencode]
    rw [Writer.finish_some (by simp; omega), hplayers, UInt8.ofNat_toNat,
      RoomPhase.code_ofCode hcode]
    simp
  · exact RoomStateNotification.decode_encode

/-! ## `GamePacketCodec.h` -/

theorem GameMoveRequest.decode_iff (b : Bytes) (p : GameMoveRequest) :
    decode b = .ok p ↔ p.encode = some b := by
  obtain ⟨roomId, game, x, y⟩ := p
  have hbody : ((((({} : Writer).u32 roomId).u32 game).u8 x).u8 y).body =
      u32Bytes roomId ++ (u32Bytes game ++ (x :: y :: [])) := by simp
  rw [GameMoveRequest.encode, Writer.finish_some (by simp), hbody]
  constructor
  · intro h
    obtain ⟨_, hR⟩ := (only_u32.bind fun roomId => only_u32.bind fun game => only_u8.bind fun x =>
      only_u8.bind fun y => only_done.bind fun _ => Only.pure _).run h
    obtain ⟨roomId', _, rfl, game', _, rfl, x', _, rfl, y', _, rfl, -, _, ⟨rfl, rfl⟩, heq, rfl⟩ := hR
    cases heq
    rfl
  · intro h
    rw [← Option.some.inj h]
    exact Reads.run ((reads_u32 _ _).bind ((reads_u32 _ _).bind ((reads_u8 _ _).bind
      ((reads_u8 _ _).bind (reads_done.bind (Reads.pure _ _))))))

theorem GameMoveResponse.decode_iff (b : Bytes) (p : GameMoveResponse) :
    decode b = .ok p ↔ p.encode = some b := by
  constructor
  · intro h
    obtain ⟨_, hR⟩ := (only_u8.bind fun result => (Only.require _).bind fun _ =>
      only_u32.bind fun game => only_done.bind fun _ => (only_cast _).bind fun result =>
        Only.pure _).run h
    obtain ⟨byte, _, rfl, -, _, ⟨-, rfl⟩, game, _, rfl, -, _, ⟨rfl, rfl⟩, result, _, ⟨hcode, rfl⟩,
      rfl, rfl⟩ := hR
    rw [GameMoveResponse.encode, Writer.finish_some (by simp), GameMoveResult.code_ofCode hcode]
    simp
  · exact GameMoveResponse.decode_encode

theorem GameMoveNotification.decode_iff (b : Bytes) (p : GameMoveNotification) :
    decode b = .ok p ↔ p.encode = some b := by
  constructor
  · intro h
    obtain ⟨_, hR⟩ := (only_u32.bind fun roomId => only_u32.bind fun game => only_u8.bind fun x =>
      only_u8.bind fun y => only_u8.bind fun placed => only_u8.bind fun next =>
        only_u8.bind fun state => only_u32.bind fun moveCount => only_done.bind fun _ =>
          (only_cast _).bind fun placed => (only_cast _).bind fun next =>
            (only_cast _).bind fun state => (Only.require _).bind fun _ => Only.pure _).run h
    obtain ⟨roomId, _, rfl, game, _, rfl, x, _, rfl, y, _, rfl, placedByte, _, rfl, nextByte, _, rfl,
      stateByte, _, rfl, moveCount, _, rfl, -, _, ⟨rfl, rfl⟩, placed, _, ⟨hplaced, rfl⟩, next, _,
      ⟨hnext, rfl⟩, state, _, ⟨hstate, rfl⟩, -, _, ⟨hvalid, rfl⟩, rfl, rfl⟩ := hR
    simp only [GameMoveNotification.encode, hvalid, Bool.not_true, Bool.false_eq_true, if_false]
    rw [Writer.finish_some (by simp), GameStone.code_ofCode hplaced, GameStone.code_ofCode hnext,
      GameState.code_ofCode hstate]
    simp
  · exact GameMoveNotification.decode_encode

theorem GameResignRequest.decode_iff (b : Bytes) (p : GameResignRequest) :
    decode b = .ok p ↔ p.encode = some b := by
  obtain ⟨roomId, game⟩ := p
  have hbody : ((({} : Writer).u32 roomId).u32 game).body =
      u32Bytes roomId ++ (u32Bytes game ++ []) := by simp
  rw [GameResignRequest.encode, Writer.finish_some (by simp), hbody]
  constructor
  · intro h
    obtain ⟨_, hR⟩ := (only_u32.bind fun roomId => only_u32.bind fun game =>
      only_done.bind fun _ => Only.pure _).run h
    obtain ⟨roomId', _, rfl, game', _, rfl, -, _, ⟨rfl, rfl⟩, heq, rfl⟩ := hR
    cases heq
    rfl
  · intro h
    rw [← Option.some.inj h]
    exact Reads.run ((reads_u32 _ _).bind ((reads_u32 _ _).bind
      (reads_done.bind (Reads.pure _ _))))

theorem GameEndNotification.decode_iff (b : Bytes) (p : GameEndNotification) :
    decode b = .ok p ↔ p.encode = some b := by
  constructor
  · intro h
    obtain ⟨_, hR⟩ := (only_u32.bind fun roomId => only_u32.bind fun game =>
      only_u8.bind fun state => only_u8.bind fun reason => only_u32.bind fun moveCount =>
        only_done.bind fun _ => (only_cast _).bind fun state => (only_cast _).bind fun reason =>
          (Only.require _).bind fun _ => Only.pure _).run h
    obtain ⟨roomId, _, rfl, game, _, rfl, stateByte, _, rfl, reasonByte, _, rfl, moveCount, _, rfl,
      -, _, ⟨rfl, rfl⟩, state, _, ⟨hstate, rfl⟩, reason, _, ⟨hreason, rfl⟩, -, _, ⟨hvalid, rfl⟩,
      rfl, rfl⟩ := hR
    simp only [GameEndNotification.encode, hvalid, Bool.not_true, Bool.false_eq_true, if_false]
    rw [Writer.finish_some (by simp), GameState.code_ofCode hstate,
      GameEndReason.code_ofCode hreason]
    simp
  · exact GameEndNotification.decode_encode

/-! ## All wire types -/

/-- `Decode` accepts a body with a value exactly where the value is valid and the body is its
encoding; so it undoes `Encode`, and no two bodies are accepted with one value. -/
structure Canonical {α : Type} (encode : α → Option Bytes) (decode : Bytes → Except Fault α)
    (Valid : α → Prop) : Prop where
  accepts : ∀ (b : Bytes) (p : α), decode b = .ok p ↔ encode p = some b ∧ Valid p
  undoes : ∀ (b : Bytes) (p : α), encode p = some b → Valid p → decode b = .ok p
  unique : ∀ (b b' : Bytes) (p : α), decode b = .ok p → decode b' = .ok p → b = b'

theorem Canonical.of_accepts {α : Type} {encode : α → Option Bytes}
    {decode : Bytes → Except Fault α} {Valid : α → Prop}
    (h : ∀ (b : Bytes) (p : α), decode b = .ok p ↔ encode p = some b ∧ Valid p) :
    Canonical encode decode Valid where
  accepts := h
  undoes b p hb hp := (h b p).mpr ⟨hb, hp⟩
  unique b b' p hb hb' := by
    have e := ((h b p).mp hb).1
    rw [((h b' p).mp hb').1] at e
    exact (Option.some.inj e).symm

theorem Canonical.always {α : Type} {encode : α → Option Bytes} {decode : Bytes → Except Fault α}
    (h : ∀ (b : Bytes) (p : α), decode b = .ok p ↔ encode p = some b) :
    Canonical encode decode fun _ => True :=
  .of_accepts fun b p => by rw [h b p, and_true]

/-- Every codec is canonical. Beyond the checks of `Encode` a value has to be valid in two ways
only: the unchecked texts of a login or chat request fit a packet, and a room id goes with success
(`GameResignResponse` is `GameMoveResponse`). -/
theorem codecs_canonical :
    Canonical (fun p => some (LoginRequest.encode p)) LoginRequest.decode
      (fun p => p.nickname.length ≤ 4092) ∧
    Canonical (fun p => some (LoginResponse.encode p)) LoginResponse.decode (fun _ => True) ∧
    Canonical (fun p => some (ChatRequest.encode p)) ChatRequest.decode
      (fun p => p.message.length ≤ 4092) ∧
    Canonical (fun p => some (ChatResponse.encode p)) ChatResponse.decode (fun _ => True) ∧
    Canonical ChatNotification.encode ChatNotification.decode (fun _ => True) ∧
    Canonical RoomCreateRequest.encode RoomCreateRequest.decode (fun _ => True) ∧
    Canonical RoomActionResponse.encode RoomActionResponse.decode RoomActionResponse.WireValid ∧
    Canonical RoomListRequest.encode RoomListRequest.decode (fun _ => True) ∧
    Canonical RoomListResponse.encode RoomListResponse.decode (fun _ => True) ∧
    Canonical RoomEnterRequest.encode RoomEnterRequest.decode (fun _ => True) ∧
    Canonical RoomMemberNotification.encode RoomMemberNotification.decode (fun _ => True) ∧
    Canonical RoomLeaveRequest.encode RoomLeaveRequest.decode (fun _ => True) ∧
    Canonical RoomReadyRequest.encode RoomReadyRequest.decode (fun _ => True) ∧
    Canonical RoomStartRequest.encode RoomStartRequest.decode (fun _ => True) ∧
    Canonical RoomStateNotification.encode RoomStateNotification.decode (fun _ => True) ∧
    Canonical GameMoveRequest.encode GameMoveRequest.decode (fun _ => True) ∧
    Canonical GameMoveResponse.encode GameMoveResponse.decode (fun _ => True) ∧
    Canonical GameMoveNotification.encode GameMoveNotification.decode (fun _ => True) ∧
    Canonical GameResignRequest.encode GameResignRequest.decode (fun _ => True) ∧
    Canonical GameEndNotification.encode GameEndNotification.decode (fun _ => True) := by
  refine ⟨.of_accepts ?_, .always ?_, .of_accepts ?_, .always ?_, .always ?_,
    .always RoomCreateRequest.decode_iff, .of_accepts RoomActionResponse.decode_iff,
    .always RoomListRequest.decode_iff, .always RoomListResponse.decode_iff,
    .always RoomEnterRequest.decode_iff, .always RoomMemberNotification.decode_iff,
    .always RoomLeaveRequest.decode_iff, .always RoomReadyRequest.decode_iff,
    .always RoomStartRequest.decode_iff, .always RoomStateNotification.decode_iff,
    .always GameMoveRequest.decode_iff, .always GameMoveResponse.decode_iff,
    .always GameMoveNotification.decode_iff, .always GameResignRequest.decode_iff,
    .always GameEndNotification.decode_iff⟩
  · intro b p
    rw [LoginRequest.decode_iff, Option.some_inj]
  · intro b p
    rw [LoginResponse.decode_iff, Option.some_inj]
  · intro b p
    rw [ChatRequest.decode_iff, Option.some_inj]
  · intro b p
    rw [ChatResponse.decode_iff, Option.some_inj]
  · intro b p
    exact ⟨ChatNotification.encode_decode, ChatNotification.decode_encode⟩

end SelectServer
