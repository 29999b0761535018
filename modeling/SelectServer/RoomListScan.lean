import SelectServer.Lib.Paging
import SelectServer.RoomPages

/- A client that goes through the room list page by page, while the rooms change
   between the pages. Every page is the beginning of the rooms above a key in
   ascending order (`getRoomsAfter_eq`), so a scan of the list is one of
   `Lib/Paging`: no room comes twice, a room that is there all the time comes once,
   and rooms that stay as they are come all, on no page more than they need. -/
namespace SelectServer
open Wire (Bytes)
open Histories
open Paging

/-- The pages from `afterRoomId` on, each followed by any calls, until one says that no more rooms
follow; with the managers that they were asked of, and all rooms listed. -/
inductive RoomScan (wideChars : Bytes → Nat) : Managed → RoomId → List Managed → List RoomInfo → Prop
  | last {c : Managed} {afterRoomId : RoomId}
      (hmore : (c.manager.getRoomsAfter afterRoomId).2 = false) :
      RoomScan wideChars c afterRoomId [c] (c.manager.getRoomsAfter afterRoomId).1
  | more {c c' : Managed} {afterRoomId : RoomId} {history : List (Entry Managed (Call × Answer))}
      {final : RoomInfo} {asked : List Managed} {listed : List RoomInfo}
      (hmore : (c.manager.getRoomsAfter afterRoomId).2 = true)
      (hfinal : (c.manager.getRoomsAfter afterRoomId).1.getLast? = some final)
      (between : Run (CallStep wideChars) c history c')
      (rest : RoomScan wideChars c' final.roomId asked listed) :
      RoomScan wideChars c afterRoomId (c :: asked)
        ((c.manager.getRoomsAfter afterRoomId).1 ++ listed)

namespace RoomManager
variable {m : RoomManager}

theorem WellFormed.rooms_listed (h : m.WellFormed) : Listed RoomInfo.roomId m.roomsAfter where
  sorted := h.roomsAfter_ascending
  above k info hinfo := by
    obtain ⟨room, -, hafter, rfl⟩ := h.mem_roomsAfter.mp hinfo
    exact hafter
  rest k k' info hk := by
    rw [h.mem_roomsAfter, h.mem_roomsAfter]
    constructor
    · rintro ⟨room, hr, hafter, rfl⟩
      exact ⟨⟨room, hr, UInt32.lt_trans hk hafter, rfl⟩, hafter⟩
    · rintro ⟨⟨room, hr, -, rfl⟩, hafter⟩
      exact ⟨room, hr, hafter, rfl⟩

/-- What a page lists and whether more follow, in the words of `Scan`. -/
theorem page_more (m : RoomManager) (afterRoomId : RoomId) :
    (m.getRoomsAfter afterRoomId).2 = true ↔
      roomListPageSize < (m.roomsAfter afterRoomId).length := by
  rw [getRoomsAfter_eq]
  exact decide_eq_true_iff

theorem page_rooms (m : RoomManager) (afterRoomId : RoomId) :
    (m.getRoomsAfter afterRoomId).1 = (m.roomsAfter afterRoomId).take roomListPageSize := by
  rw [getRoomsAfter_eq]

/-- Above the id that no room has are all rooms. -/
theorem WellFormed.roomsAfter_zero (h : m.WellFormed) :
    (m.roomsAfter invalidRoomId).Perm (m.rooms.values.map Room.info) ∧
      (m.roomsAfter invalidRoomId).length = m.rooms.size := by
  have hall : m.rooms.values.filter (fun room => !(room.id ≤ invalidRoomId)) = m.rooms.values := by
    rw [List.filter_eq_self]
    intro room hroom
    have hne := (h.stored (h.mem_values.mp hroom)).2.1
    simp only [Bool.not_eq_true', decide_eq_false_iff_not, UInt32.not_le]
    exact UInt32.lt_of_le_of_ne UInt32.zero_le fun e => hne e.symm
  have hperm : (m.roomsAfter invalidRoomId).Perm (m.rooms.values.map Room.info) := by
    rw [roomsAfter, hall]
    exact List.mergeSort_perm _ _
  refine ⟨hperm, ?_⟩
  rw [hperm.length_eq, List.length_map, Map.values_eq, List.length_map,
    Std.ExtTreeMap.length_toList]

end RoomManager

open RoomManager

theorem CallRun.wellFormed_from {wideChars : Bytes → Nat} {c c' : Managed}
    {history : List (Entry Managed (Call × Answer))} (hc : c.WellFormed)
    (hrun : Run (CallStep wideChars) c history c') : c'.WellFormed :=
  hrun.invariant (P := Managed.WellFormed) hc fun _ _ _ h taken => taken.wellFormed h

theorem RoomScan.wellFormed {wideChars : Bytes → Nat} {c : Managed} {afterRoomId : RoomId}
    {asked : List Managed} {listed : List RoomInfo}
    (h : RoomScan wideChars c afterRoomId asked listed) (hc : c.WellFormed) :
    ∀ c' ∈ asked, c'.manager.WellFormed := by
  induction h with
  | last hmore =>
    intro c' hc'
    obtain rfl := List.mem_singleton.mp hc'
    exact hc.manager
  | more hmore hfinal between rest ih =>
    intro c' hc'
    rcases List.mem_cons.mp hc' with rfl | hc'
    · exact hc.manager
    · exact ih (CallRun.wellFormed_from hc between) c' hc'

theorem RoomScan.scan {wideChars : Bytes → Nat} {c : Managed} {afterRoomId : RoomId}
    {asked : List Managed} {listed : List RoomInfo}
    (h : RoomScan wideChars c afterRoomId asked listed) :
    Scan RoomInfo.roomId roomListPageSize afterRoomId (asked.map fun c => c.manager.roomsAfter)
      listed := by
  induction h with
  | @last c afterRoomId hmore =>
    rw [page_rooms]
    refine .last (Nat.not_lt.mp fun hlt => ?_)
    rw [(page_more _ _).mpr hlt] at hmore
    cases hmore
  | @more c c' afterRoomId history final asked listed hmore hfinal between rest ih =>
    rw [page_rooms] at hfinal ⊢
    exact .more ((page_more _ _).mp hmore) hfinal ih

/-- A scan without any call between the pages. -/
theorem roomScan_of_scan (wideChars : Bytes → Nat) (c : Managed) {afterRoomId : RoomId}
    {tables : List (RoomId → List RoomInfo)} {listed : List RoomInfo}
    (h : Scan RoomInfo.roomId roomListPageSize afterRoomId tables listed)
    (hsame : ∀ table ∈ tables, table = c.manager.roomsAfter) :
    RoomScan wideChars c afterRoomId (List.replicate tables.length c) listed := by
  induction h with
  | @last afterRoomId table h =>
    obtain rfl := hsame table (List.mem_cons_self ..)
    rw [← page_rooms]
    refine .last (Bool.eq_false_iff.mpr fun hmore => ?_)
    have hlt := (page_more _ _).mp hmore
    omega
  | @more afterRoomId table tables final listed h hfinal rest ih =>
    obtain rfl := hsame table (List.mem_cons_self ..)
    rw [← page_rooms] at hfinal ⊢
    exact .more ((page_more _ _).mpr h) hfinal .start
      (ih fun table' ht => hsame table' (List.mem_cons_of_mem _ ht))

/-- What a scan of the whole list gives. -/
structure ListsRooms (c : Managed) (asked : List Managed) (listed : List RoomInfo) : Prop where
  ascending : listed.Pairwise fun a b => a.roomId < b.roomId
  /-- A room that is there at every page, as one is that is there all the time. -/
  once : ∀ r : RoomId, (∀ c' ∈ asked, (c'.manager.rooms[r]?).isSome = true) →
    (listed.map RoomInfo.roomId).count r = 1
  /-- Rooms that are the same at every page. -/
  still : (∀ c' ∈ asked, c'.manager.rooms = c.manager.rooms) →
    listed.Perm (c.manager.rooms.values.map Room.info) ∧
      asked.length = max 1 ((c.manager.rooms.size + 19) / 20)

/-- In every scan of the room list, whatever is called between its pages: ids only go up, and a room
that exists throughout is listed once. Without calls in between all rooms are listed, in ascending
order, on one page for each twenty of them. And such a scan ends. -/
theorem room_list_scanned {wideChars : Bytes → Nat} {config : RoomConfig} {m : RoomManager}
    {history : List (Entry Managed (Call × Answer))} {c : Managed}
    (hmake : RoomManager.make {} config = .ok m) (hrun : CallRun wideChars m history c) :
    (∀ asked listed, RoomScan wideChars c invalidRoomId asked listed →
      ListsRooms c asked listed) ∧
    ∃ count listed, RoomScan wideChars c invalidRoomId (List.replicate count c) listed := by
  have hc := run_wellFormed hmake hrun
  have hrooms := hc.manager.rooms_listed
  constructor
  · intro asked listed hscan
    have hwf := hscan.wellFormed hc
    have htables : ∀ rows ∈ asked.map (fun c => c.manager.roomsAfter),
        Listed RoomInfo.roomId rows := by
      intro rows hrows
      obtain ⟨c', hc', rfl⟩ := List.mem_map.mp hrows
      exact (hwf c' hc').rooms_listed
    have hsorted := (hscan.scan.ascending htables).1
    refine ⟨hsorted, ?_, ?_⟩
    · intro r hall
      have hpos : invalidRoomId < r := by
        have hmem : ∃ c', c' ∈ asked := by
          cases hscan with
          | last => exact ⟨c, List.mem_cons_self ..⟩
          | more => exact ⟨c, List.mem_cons_self ..⟩
        obtain ⟨c', hc'⟩ := hmem
        obtain ⟨room, hr⟩ := Option.isSome_iff_exists.mp (hall c' hc')
        exact UInt32.lt_of_le_of_ne UInt32.zero_le fun e => ((hwf c' hc').stored hr).2.1 e.symm
      obtain ⟨info, hinfo, rfl⟩ := hscan.scan.complete htables hpos (by
        intro rows hrows k hk
        obtain ⟨c', hc', rfl⟩ := List.mem_map.mp hrows
        obtain ⟨room, hr⟩ := Option.isSome_iff_exists.mp (hall c' hc')
        obtain ⟨rfl, -⟩ := (hwf c' hc').stored hr
        exact ⟨room.info, (hwf c' hc').mem_roomsAfter.mpr ⟨room, hr, hk, rfl⟩, rfl⟩)
      have hnodup : (listed.map RoomInfo.roomId).Nodup := by
        rw [List.Nodup, List.pairwise_map]
        exact hsorted.imp fun hlt => UInt32.ne_of_lt hlt
      exact List.count_eq_one_of_mem hnodup (List.mem_map_of_mem hinfo)
    · intro hsame
      obtain ⟨hlisted, hlength⟩ := hscan.scan.still hrooms (by decide) (by
        intro rows hrows
        obtain ⟨c', hc', rfl⟩ := List.mem_map.mp hrows
        funext k
        show RoomManager.roomsAfter _ k = _
        rw [roomsAfter, roomsAfter, hsame c' hc'])
      obtain ⟨hperm, hsize⟩ := hc.manager.roomsAfter_zero
      rw [List.length_map, hsize] at hlength
      exact ⟨hlisted ▸ hperm, hlength⟩
  · have hends : ∃ count listed, Scan RoomInfo.roomId roomListPageSize invalidRoomId
        (List.replicate count c.manager.roomsAfter) listed :=
      hrooms.scans (by decide) _ _ (Nat.le_refl _)
    obtain ⟨count, listed, hscan⟩ := hends
    have h := roomScan_of_scan wideChars c hscan fun table ht => List.eq_of_mem_replicate ht
    rw [List.length_replicate] at h
    exact ⟨count, listed, h⟩

/-- Rooms of twenty-one users. -/
def crowdCalls : List Call :=
  (List.range 21).flatMap fun i =>
    [.login (UInt64.ofNat (i + 1)) [UInt8.ofNat (97 + i)], .createRoom (UInt64.ofNat (i + 1)) [97]]

theorem room_list_scanned_crowd : ∃ history c, CallRun (fun _ => 1) RoomManager.fresh history c ∧
    c.manager.rooms.size = 21 ∧
      (∀ asked listed, RoomScan (fun _ => 1) c invalidRoomId asked listed →
        ListsRooms c asked listed) ∧
      ∃ count listed, RoomScan (fun _ => 1) c invalidRoomId (List.replicate count c) listed := by
  obtain ⟨history, c, hrun, hcheck⟩ := CallRun.played (fun _ => 1) RoomManager.fresh crowdCalls
    (fun _ c => decide (c.manager.rooms.size = 21)) (by decide +kernel)
  exact ⟨history, c, hrun, of_decide_eq_true hcheck,
    room_list_scanned RoomManager.make_fresh hrun⟩

end SelectServer
