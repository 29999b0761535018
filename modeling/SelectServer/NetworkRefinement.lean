import SelectServer.TcpSessions
import SelectServer.UpdateTermination

/- `TcpNetwork` as the `Network` that the logic is written against: `seen` forgets
   the buffers, and what the logic calls does there what `Network` says. Whether a
   packet is taken is the state of a send buffer here and `Host.accepts` there. -/
namespace SelectServer
open Wire (Bytes)

namespace TcpNetwork
variable {t : TcpNetwork} {s : SessionId} {sent : List SentPacket}

/-- What the logic can tell of `t`, with the packets that `SendPacket` has taken. -/
def seen (t : TcpNetwork) (sent : List SentPacket) : Network :=
  { connected := t.ids.toFinset
    events := t.events
    sent := sent
    lastSessionId := t.lastSessionId }

theorem isConnected_seen (t : TcpNetwork) (sent : List SentPacket) (s : SessionId) :
    t.isConnected s = (t.seen sent).isConnected s := by
  unfold isConnected Network.isConnected seen ids
  rw [Bool.eq_iff_iff, List.any_eq_true, decide_eq_true_eq, List.mem_toFinset, List.mem_map]
  simp only [decide_eq_true_eq]

theorem tryPopEvent_seen (t : TcpNetwork) (sent : List SentPacket) :
    (t.tryPopEvent.map fun popped => (popped.1, popped.2.seen sent)) =
      (t.seen sent).tryPopEvent := by
  have hevents : (t.seen sent).events = t.events := rfl
  unfold tryPopEvent Network.tryPopEvent
  rw [hevents]
  cases t.events with
  | nil => rfl
  | cons event events => rfl

/-- The search for a session finds it, or there is none of that id. -/
theorem find_cases (t : TcpNetwork) (s : SessionId) :
    (t.clients.findIdx? (·.id = s) = none ∧ s ∉ t.ids) ∨
      ∃ index client, t.clients.findIdx? (·.id = s) = some index ∧
        t.clients[index]? = some client ∧ client.id = s ∧ s ∈ t.ids := by
  cases hfind : t.clients.findIdx? (·.id = s) with
  | none =>
    refine .inl ⟨rfl, fun hin => ?_⟩
    obtain ⟨client, hclient, hid⟩ := List.mem_map.mp hin
    have hmiss := List.findIdx?_eq_none_iff.mp hfind client hclient
    rw [decide_eq_false_iff_not] at hmiss
    exact hmiss hid
  | some index =>
    obtain ⟨hlt, hid, -⟩ := List.findIdx?_eq_some_iff_getElem.mp hfind
    have hid : t.clients[index].id = s := of_decide_eq_true hid
    refine .inr ⟨index, t.clients[index], rfl, List.getElem?_eq_getElem hlt, hid, ?_⟩
    exact List.mem_map.mpr ⟨_, List.getElem_mem hlt, hid⟩

theorem disconnect_seen (hnodup : t.ids.Nodup) (s : SessionId) (sent : List SentPacket) :
    (t.disconnect s).seen sent = (t.seen sent).disconnect s := by
  have hconnected : (t.seen sent).isConnected s = decide (s ∈ t.ids) := by
    unfold Network.isConnected seen
    rw [decide_eq_decide, List.mem_toFinset]
  unfold disconnect Network.disconnect
  rw [hconnected]
  rcases t.find_cases s with ⟨hnone, hout⟩ | ⟨index, client, hfind, hclient, rfl, hin⟩
  · rw [hnone, decide_eq_false hout]
    rfl
  · rw [hfind, decide_eq_true hin]
    dsimp only
    rw [closeClient, hclient]
    have herase : ((t.clients.eraseIdx index).map ClientSession.id).toFinset =
        t.ids.toFinset.erase client.id := by
      ext s
      rw [List.mem_toFinset, mem_closed_ids hnodup hclient, Finset.mem_erase, List.mem_toFinset]
    show Network.mk ((t.clients.eraseIdx index).map ClientSession.id).toFinset _ _ _ = _
    rw [herase]
    rfl

/-- A send changes a buffer, which the logic does not see. -/
theorem sendPacket_keeps (t : TcpNetwork) (s : SessionId) (packetId : UInt16) (body : Bytes)
    (sent : List SentPacket) : (t.sendPacket s packetId body).2.seen sent = t.seen sent := by
  have hact := t.sendPacket_act s packetId body
  generalize (t.sendPacket s packetId body).2 = t' at hact ⊢
  generalize hqueued : ([] : List NetworkEvent) = queued at hact
  cases hact with
  | @kept clients _ hids =>
    subst hqueued
    show Network.mk (clients.map ClientSession.id).toFinset (t.events ++ []) _ _ = _
    rw [hids, List.append_nil]
    rfl
  | accepted => cases hqueued
  | closed => cases hqueued

/-- A packet is taken by both or by neither, if the host answers as the send buffer does. -/
theorem sendPacket_seen {host : Host} {packet : SentPacket}
    (hhost : packet.session ∈ t.ids → host.accepts sent packet =
      (t.sendPacket packet.session packet.packetId packet.body).1) :
    (t.seen sent).sendPacket host packet =
      ((t.sendPacket packet.session packet.packetId packet.body).1,
        (t.sendPacket packet.session packet.packetId packet.body).2.seen
          (if (t.sendPacket packet.session packet.packetId packet.body).1 then sent ++ [packet]
            else sent)) := by
  rw [sendPacket_keeps]
  have hconnected : (t.seen sent).isConnected packet.session = decide (packet.session ∈ t.ids) := by
    unfold Network.isConnected seen
    rw [decide_eq_decide, List.mem_toFinset]
  have haccepts : host.accepts (t.seen sent).sent packet = host.accepts sent packet := rfl
  unfold Network.sendPacket
  rw [hconnected, haccepts]
  rcases t.find_cases packet.session with ⟨hnone, hout⟩ | ⟨_, _, _, _, _, hin⟩
  · have hrefused : (t.sendPacket packet.session packet.packetId packet.body).1 = false := by
      unfold sendPacket
      rw [hnone]
    rw [hrefused, decide_eq_false hout]
    rfl
  · rw [hhost hin, decide_eq_true hin]
    cases (t.sendPacket packet.session packet.packetId packet.body).1 with
    | true => rfl
    | false => rfl

/-- A send of the logic, after which a session that did not take its packet is disconnected. -/
def post (t : TcpNetwork) (packet : SentPacket) : TcpNetwork :=
  let (queued, t) := t.sendPacket packet.session packet.packetId packet.body
  if queued then t else t.disconnect packet.session

theorem post_seen (ht : t.Sound) {host : Host} {packet : SentPacket}
    (hhost : packet.session ∈ t.ids → host.accepts sent packet =
      (t.sendPacket packet.session packet.packetId packet.body).1) :
    (t.seen sent).post host packet = (t.post packet).seen
      (if (t.sendPacket packet.session packet.packetId packet.body).1 then sent ++ [packet]
        else sent) := by
  have hsound := (t.sendPacket_act packet.session packet.packetId packet.body).sound ht
  unfold Network.post post
  rw [sendPacket_seen hhost]
  dsimp only
  cases (t.sendPacket packet.session packet.packetId packet.body).1 with
  | true => rfl
  | false => exact (disconnect_seen hsound.nodup _ _).symm

theorem post_sound (ht : t.Sound) (packet : SentPacket) : (t.post packet).Sound := by
  have hsound := (t.sendPacket_act packet.session packet.packetId packet.body).sound ht
  unfold post
  dsimp only
  split
  · exact hsound
  · obtain ⟨queued, hact⟩ := disconnect_act
      (t.sendPacket packet.session packet.packetId packet.body).2 packet.session
    exact hact.sound hsound

theorem seen_pending (ht : t.Sound) (sent : List SentPacket) :
    (t.seen sent).pending = 2 * t.clients.length + t.events.length := by
  have hcard : t.ids.toFinset.card = t.clients.length := by
    rw [List.toFinset_card_of_nodup ht.nodup, ids, List.length_map]
  show 2 * t.ids.toFinset.card + t.events.length = _
  rw [hcard]

/-- No send adds to what the loop of `Update` has before it. -/
theorem post_pending (ht : t.Sound) (packet : SentPacket) :
    2 * (t.post packet).clients.length + (t.post packet).events.length ≤
      2 * t.clients.length + t.events.length := by
  let host : Host := ⟨fun _ => 0, fun _ _ =>
    (t.sendPacket packet.session packet.packetId packet.body).1⟩
  have hpost := @post_seen t [] ht host packet fun _ => rfl
  obtain ⟨new, hnew, -⟩ := (Network.emits_post host (t.seen []) packet).events
  have hcloses := (Network.quits_post host (t.seen []) packet).closes ⟨new, hnew⟩
  have hle := hcloses.pending_le
  rw [hpost, seen_pending (post_sound ht packet), seen_pending ht] at hle
  exact hle

end TcpNetwork
end SelectServer
