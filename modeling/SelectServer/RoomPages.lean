import SelectServer.Notifications

/- `GetRoomsAfter`: the sort makes the order of the map irrelevant, so a page is
   the beginning of one list, the rooms with larger ids in ascending order. The
   page of well-formed rooms can always be encoded. -/
namespace SelectServer
open Wire (Bytes)

theorem Map.values_eq {K V : Type} [Ord K] [Std.TransOrd K] (t : Map K V) :
    t.values = t.toList.map Prod.snd := by
  obtain ⟨⟨q⟩⟩ := t
  induction q using Quotient.inductionOn with
  | _ q =>
    show q.inner.values = (Std.DTreeMap.Internal.Impl.Const.toList q.inner).map Prod.snd
    rw [Std.DTreeMap.Internal.Impl.values_eq_map_snd,
      Std.DTreeMap.Internal.Impl.Const.toList_eq_toListModel_map, List.map_map]
    rfl

/-- What the list says of a room. -/
def Room.info (room : Room) : RoomInfo :=
  { roomId := room.id
    userCount := room.members.length.toUInt8
    capacity := room.capacity.toUInt8
    title := room.title }

namespace RoomManager
variable {m : RoomManager}

/-- The rooms with an id above `afterRoomId`, in ascending order. -/
def roomsAfter (m : RoomManager) (afterRoomId : RoomId) : List RoomInfo :=
  ((m.rooms.values.filter fun room => !(room.id ≤ afterRoomId)).map Room.info).mergeSort
    fun a b => a.roomId ≤ b.roomId

theorem getRoomsAfter_eq (m : RoomManager) (afterRoomId : RoomId) :
    m.getRoomsAfter afterRoomId = ((m.roomsAfter afterRoomId).take roomListPageSize,
      decide ((m.roomsAfter afterRoomId).length > roomListPageSize)) := by
  have hpage : m.getRoomsAfter afterRoomId =
      (if decide ((m.roomsAfter afterRoomId).length > roomListPageSize) = true then
        (m.roomsAfter afterRoomId).take roomListPageSize else m.roomsAfter afterRoomId,
        decide ((m.roomsAfter afterRoomId).length > roomListPageSize)) := rfl
  rw [hpage]
  split
  · rfl
  · rename_i h
    rw [decide_eq_true_eq] at h
    rw [List.take_of_length_le (by omega)]

theorem WellFormed.mem_values (h : m.WellFormed) {room : Room} :
    room ∈ m.rooms.values ↔ m.rooms[room.id]? = some room := by
  rw [Map.values_eq, List.mem_map]
  constructor
  · rintro ⟨⟨r, room'⟩, hmem, rfl⟩
    have hr : m.rooms[r]? = some room' := Std.ExtTreeMap.mem_toList_iff_getElem?_eq_some.mp hmem
    show m.rooms[room'.id]? = some room'
    rw [(h.stored hr).1, hr]
  · intro hr
    exact ⟨(room.id, room), Std.ExtTreeMap.mem_toList_iff_getElem?_eq_some.mpr hr, rfl⟩

theorem WellFormed.values_distinct (h : m.WellFormed) : (m.rooms.values.map Room.id).Nodup := by
  have hkeys : m.rooms.values.map Room.id = m.rooms.keys := by
    rw [Map.values_eq, List.map_map, ← Std.ExtTreeMap.map_fst_toList_eq_keys]
    refine List.map_congr_left fun entry hmem => ?_
    exact (h.stored (Std.ExtTreeMap.mem_toList_iff_getElem?_eq_some.mp hmem)).1
  rw [hkeys]
  exact Std.ExtTreeMap.nodup_keys

theorem WellFormed.mem_roomsAfter (h : m.WellFormed) {afterRoomId : RoomId} {info : RoomInfo} :
    info ∈ m.roomsAfter afterRoomId ↔
      ∃ room : Room, m.rooms[room.id]? = some room ∧ afterRoomId < room.id ∧ info = room.info := by
  rw [roomsAfter, (List.mergeSort_perm _ _).mem_iff, List.mem_map]
  constructor
  · rintro ⟨room, hmem, rfl⟩
    obtain ⟨hvalue, hafter⟩ := List.mem_filter.mp hmem
    exact ⟨room, h.mem_values.mp hvalue, by simpa using hafter, rfl⟩
  · rintro ⟨room, hr, hafter, rfl⟩
    exact ⟨room, List.mem_filter.mpr ⟨h.mem_values.mpr hr, by simpa using hafter⟩, rfl⟩

theorem WellFormed.roomsAfter_ascending (h : m.WellFormed) (afterRoomId : RoomId) :
    (m.roomsAfter afterRoomId).Pairwise fun a b => a.roomId < b.roomId := by
  have hsorted : (m.roomsAfter afterRoomId).Pairwise fun a b => a.roomId ≤ b.roomId := by
    have hsort := @List.pairwise_mergeSort RoomInfo (fun a b => decide (a.roomId ≤ b.roomId))
      (fun a b c hab hbc => by
        simpa using UInt32.le_trans (of_decide_eq_true hab) (of_decide_eq_true hbc))
      (fun a b => by simpa using UInt32.le_total a.roomId b.roomId)
      ((m.rooms.values.filter fun room => !(room.id ≤ afterRoomId)).map Room.info)
    simpa [roomsAfter] using hsort
  have hdistinct : ((m.roomsAfter afterRoomId).map (·.roomId)).Nodup := by
    rw [roomsAfter, ((List.mergeSort_perm _ _).map _).nodup_iff, List.map_map]
    exact h.values_distinct.sublist (List.filter_sublist.map _)
  exact hsorted.imp₂ (fun a b hle hne => UInt32.lt_of_le_of_ne hle hne)
    (List.pairwise_map.mp hdistinct)

end RoomManager

/-! ## A page can be encoded -/

/-- What `Encode` asks of the rooms of a list besides their order. -/
def RoomInfo.Listed (room : RoomInfo) : Prop :=
  room.capacity ≠ 0 ∧ room.userCount ≤ room.capacity ∧ room.title ≠ [] ∧
    room.title.length ≤ maxRoomTitleBytes

theorem RoomListResponse.encodeRooms_some (rooms : List RoomInfo) :
    ∀ (previousId : RoomId) (writer : Writer),
      (∀ room ∈ rooms, room.Listed ∧ previousId < room.roomId) →
      rooms.Pairwise (fun a b => a.roomId < b.roomId) →
      ∃ writer', encodeRooms rooms previousId writer = some writer' ∧
        writer'.body.length ≤ writer.body.length + 55 * rooms.length := by
  induction rooms with
  | nil => exact fun _ writer _ _ => ⟨writer, rfl, Nat.le_refl _⟩
  | cons room rooms ih =>
    intro previousId writer hrooms hsorted
    obtain ⟨⟨hcap, hcount, hne, hlen⟩, hprev⟩ := hrooms room List.mem_cons_self
    obtain ⟨hnext, hrest⟩ := List.pairwise_cons.mp hsorted
    have hlen48 : room.title.length ≤ 48 := hlen
    have hkeep : room.rejected previousId = false := by
      simp only [RoomInfo.rejected, Bool.or_eq_false_iff, decide_eq_false_iff_not, beq_eq_false_iff_ne,
        List.isEmpty_eq_false_iff]
      exact ⟨⟨⟨⟨UInt32.not_le.mpr hprev, hcap⟩, UInt8.not_lt.mpr hcount⟩, hne⟩, Nat.not_lt.mpr hlen⟩
    have htext : ∀ w : Writer, w.text8 room.title =
        some ⟨(w.u8 (UInt8.ofNat room.title.length)).body ++ room.title⟩ := fun w => if_neg (by omega)
    obtain ⟨writer', e, hle⟩ := ih room.roomId
      ⟨((((writer.u32 room.roomId).u8 room.userCount).u8 room.capacity).u8
        (UInt8.ofNat room.title.length)).body ++ room.title⟩
      (fun r hr => ⟨(hrooms r (List.mem_cons_of_mem _ hr)).1, hnext r hr⟩) hrest
    refine ⟨writer', by simp only [encodeRooms, hkeep, Bool.false_eq_true, if_false, htext,
      Option.bind_eq_bind, Option.bind_some, e], ?_⟩
    simp only [Writer.u8_body, Writer.u32_body, u32Bytes_length, List.length_append, List.length_cons,
      List.length_nil] at hle ⊢
    omega

namespace RoomManager
variable {m : RoomManager}

theorem WellFormed.info_listed (h : m.WellFormed) {r : RoomId} {room : Room}
    (hr : m.rooms[r]? = some room) : room.info.Listed := by
  have hroom := h.room hr
  have hcap : room.info.capacity = 2 := by
    show room.capacity.toUInt8 = 2
    rw [hroom.capacity]
    rfl
  refine ⟨by rw [hcap]; decide, ?_, hroom.title⟩
  rw [hcap]
  show room.members.length.toUInt8 ≤ 2
  rcases hroom.seats with hm | ⟨guest, hm, -⟩ <;> rw [hm]
  · show (1 : Nat).toUInt8 ≤ 2
    decide
  · show (2 : Nat).toUInt8 ≤ 2
    decide

/-- The page that `HandleRoomList` answers with. -/
theorem WellFormed.page_encodes (h : m.WellFormed) (afterRoomId : RoomId) :
    ∃ body, RoomListResponse.encode { rooms := (m.getRoomsAfter afterRoomId).1
                                      hasMore := (m.getRoomsAfter afterRoomId).2 } = some body := by
  rw [getRoomsAfter_eq]
  dsimp only
  generalize hall : m.roomsAfter afterRoomId = all
  have hlen : (all.take roomListPageSize).length ≤ 20 := List.length_take_le _ _
  have hlisted : ∀ room ∈ all.take roomListPageSize, room.Listed ∧ 0 < room.roomId := by
    intro info hinfo
    have hmem := List.mem_of_mem_take hinfo
    rw [← hall] at hmem
    obtain ⟨room, hr, hafter, rfl⟩ := h.mem_roomsAfter.mp hmem
    exact ⟨h.info_listed hr, UInt32.lt_of_le_of_lt UInt32.zero_le hafter⟩
  have hsorted : (all.take roomListPageSize).Pairwise fun a b => a.roomId < b.roomId :=
    (hall ▸ h.roomsAfter_ascending afterRoomId).sublist (List.take_sublist _ _)
  obtain ⟨writer, e, hle⟩ := RoomListResponse.encodeRooms_some _ 0
    (((({} : Writer).u8 RoomResult.success.code).u8
      (if decide (all.length > roomListPageSize) = true then 1 else 0)).u8
        (UInt8.ofNat (all.take roomListPageSize).length)) hlisted hsorted
  have hpage : ¬ (all.take roomListPageSize).length > roomListPageSize := Nat.not_lt.mpr hlen
  have hmore : ¬ (decide (all.length > roomListPageSize) = true ∧ all.take roomListPageSize = []) := by
    rintro ⟨hmore, hnil⟩
    have hmore' : all.length > 20 := of_decide_eq_true hmore
    have hzero := congrArg List.length hnil
    rw [List.length_take, roomListPageSize, List.length_nil] at hzero
    omega
  refine ⟨writer.body, ?_⟩
  simp only [RoomListResponse.encode, if_neg hpage, ne_eq, not_true_eq_false, false_and, if_false,
    if_neg hmore, e, Option.bind_eq_bind, Option.bind_some]
  refine if_neg ?_
  simp only [Writer.u8_body, List.length_append, List.length_cons, List.length_nil] at hle
  simp only [maxPacketSize, headerSize]
  omega

end RoomManager
end SelectServer
