import Cled.Desktop.Signals

/-!
# One session's bytes in a tunnel

A session at one end of a tunnel reads a prefix of what the session at the other
end wrote.  The device that opened a tunnel is the sender of a stream, the other
one follows it through the relay, and both may lose their connection at any
time.
-/

namespace Cled.Desktop

open Cled.Core Cled.Clipboard Cled.Sync

/-! ## The device that opened the tunnel -/

/-- A device without a connection has no tunnels, and nothing is on its way to
it. -/
structure Device.Idle (device : Device) : Prop where
  opened : device.connected = false → ∀ key, device.tunnels.opened.get key = none
  downlink : device.connected = false → device.downlink = []
  registered : device.connected = true → device.registered = true

section Sender

variable {device device' : Device} {key : Key} {heard : Heard UInt8}
  {down : List (Signal UInt8)}

/-- The signals of a tunnel end, as the device that opened it has them. -/
def Device.Feeds (device : Device) (key : Key) (heard : Heard UInt8)
    (down : List (Signal UInt8)) : Prop :=
  Follows device.tunnels.sentBy (device.tunnels.opened.get key) heard
    (down ++ signals key device.uplink)

/-- The tunnel is untouched: others may have been sent more, or created. -/
theorem Device.Feeds.others (hfeeds : device.Feeds key heard down)
    (hextends : Extends device.tunnels.sentBy device'.tunnels.sentBy)
    (hopened : device'.tunnels.opened.get key = device.tunnels.opened.get key)
    (hsent : ∀ pipe, device.tunnels.opened.get key = some pipe →
      device'.tunnels.sentBy pipe = device.tunnels.sentBy pipe)
    (huplink : signals key device'.uplink = signals key device.uplink) :
    device'.Feeds key heard down := by
  rw [Feeds, hopened, huplink]
  exact hfeeds.extend hextends hsent

/-- The tunnel is dropped without a word. -/
theorem Device.Feeds.dropped (hfeeds : device.Feeds key heard down)
    (hsent : device'.tunnels.sentBy = device.tunnels.sentBy)
    (hopened : device'.tunnels.opened.get key = none)
    (huplink : signals key device'.uplink = signals key device.uplink) :
    device'.Feeds key heard down := by
  rw [Feeds, hopened, huplink, hsent]
  exact hfeeds.stop

/-- The tunnel is closed. -/
theorem Device.Feeds.closed (hfeeds : device.Feeds key heard down)
    (hsent : device'.tunnels.sentBy = device.tunnels.sentBy)
    (huplink : signals key device'.uplink =
      signals key device.uplink ++ [.closed]) :
    device'.Feeds key heard down := by
  rw [Feeds, huplink, hsent, ← List.append_assoc]
  exact hfeeds.closes

/-- A tunnel is dropped, and its key closed or not. -/
theorem Device.Feeds.remove (hfeeds : device.Feeds key heard down)
    (removed : Key) {packets : List Packet}
    (hpackets : packets = [] ∨
      packets = [.plain ⟨kindClose, removed, []⟩])
    (htunnels : device'.tunnels = device.tunnels.remove removed)
    (huplink : device'.uplink = device.uplink ++ packets) :
    device'.Feeds key heard down := by
  have hsent : device'.tunnels.sentBy = device.tunnels.sentBy := by
    rw [htunnels, Tunnels.sentBy_remove]
  by_cases heq : key = removed
  · subst heq
    have hgone : device'.tunnels.opened.get key = none := by
      rw [htunnels, Tunnels.remove_opened, if_pos rfl]
    rcases hpackets with rfl | rfl
    · exact hfeeds.dropped hsent hgone (by rw [huplink, List.append_nil])
    · refine hfeeds.closed hsent ?_
      rw [huplink, signals_append, signals_close]
  · have hkept : device'.tunnels.opened.get key =
        device.tunnels.opened.get key := by
      rw [htunnels, Tunnels.remove_opened, if_neg heq]
    have hquiet : signals key packets = [] := by
      rcases hpackets with rfl | rfl
      · rfl
      · have hne : (Packet.plain ⟨kindClose, removed, []⟩).frame.key ≠ key :=
          Ne.symm heq
        exact signals_of_ne hne
    rw [Feeds, hsent, hkept, huplink, signals_append, hquiet, List.append_nil]
    exact hfeeds

theorem Device.Feeds.created {created : Key} {source : Option ℕ}
    (hpumping : Pumping device.tunnels device.pumped)
    (hfeeds : device.Feeds key heard down) (hne : key ≠ created)
    (hsent : device'.tunnels.sentBy =
      (device.tunnels.create created source).sentBy)
    (hopened : device'.tunnels.opened =
      (device.tunnels.create created source).opened)
    (huplink : signals key device'.uplink = signals key device.uplink) :
    device'.Feeds key heard down := by
  refine hfeeds.others (hsent ▸ Tunnels.extends_create _ _) ?_ ?_ huplink
  · rw [hopened, Tunnels.create_opened, if_neg hne]
  · intro pipe hpipe
    obtain ⟨found, hfound, -⟩ := hpumping.opened hpipe
    have hlt : pipe < device.tunnels.nextPipe :=
      (List.getElem?_eq_some_iff.mp hfound).1
    rw [hsent, Tunnels.sentBy_create, if_neg (Nat.ne_of_lt hlt)]

theorem Device.Feeds.openTunnel {peer : DeviceId}
    (hpumping : Pumping device.tunnels device.pumped)
    (hfeeds : device.Feeds key heard down)
    (hstep : device.openTunnel peer = some device') :
    device'.Feeds key heard down := by
  obtain ⟨-, rfl⟩ := Device.openTunnel_eq_some hstep
  by_cases heq : key = device.tunnels.nextKey peer
  · have hextends : Extends device.tunnels.sentBy
        (device.tunnels.create (device.tunnels.nextKey peer) none).sentBy :=
      Tunnels.extends_create _ none
    have hnew : (device.tunnels.create (device.tunnels.nextKey peer)
        none).sentBy device.tunnels.nextPipe = some [] :=
      (Tunnels.sentBy_create _ none _).trans (if_pos rfl)
    have hopened : (device.tunnels.create (device.tunnels.nextKey peer)
        none).opened.get key = some device.tunnels.nextPipe :=
      (Tunnels.create_opened _ _ none _).trans (if_pos heq)
    have hsignal : signals key
        [⟨⟨kindOpen, device.tunnels.nextKey peer, []⟩,
          device.tunnels.nextPipe⟩] = [.opened device.tunnels.nextPipe] := by
      rw [heq]
      exact signals_opened ⟨⟨kindOpen, _, []⟩, _⟩ rfl
    rw [Device.Feeds]
    dsimp only
    rw [hopened, signals_append, hsignal, ← List.append_assoc]
    exact hfeeds.opens hextends hnew
  · refine hfeeds.created hpumping heq rfl rfl ?_
    dsimp only
    rw [signals_append, signals_of_ne, List.append_nil]
    exact Ne.symm heq

theorem Device.Feeds.handlePumped
    (hpumping : Pumping device.tunnels device.pumped)
    (hfeeds : device.Feeds key heard down)
    (hstep : device.handlePumped = some device') :
    device'.Feeds key heard down := by
  obtain ⟨event, rest, result, -, htaken, rfl⟩ :=
    Device.handlePumped_eq_some hstep
  cases htaken with
  | late =>
      refine hfeeds.others (.refl _) rfl (fun _ _ => rfl) ?_
      dsimp only
      rw [Option.toList_none, List.map_nil, List.append_nil]
  | closed => exact hfeeds.remove event.key (.inr rfl) rfl rfl
  | data pipe data hopened =>
      obtain ⟨found, hfound, -⟩ := hpumping.opened hopened
      have hextends := Tunnels.extends_send hfound data
      by_cases heq : key = event.key
      · subst heq
        have hsent : device.tunnels.sentBy pipe = some found.sent := by
          rw [Tunnels.sentBy, hfound]
          rfl
        have hmore : (device.tunnels.modifyPipe pipe
            (.send data)).sentBy pipe = some (found.sent ++ data) := by
          rw [Tunnels.sentBy_send hfound, if_pos rfl]
        have hsignal := signals_data (.plain ⟨kindData, event.key, data⟩) rfl
        dsimp only [Packet.plain] at hsignal
        rw [Device.Feeds, hopened] at hfeeds
        rw [Device.Feeds]
        dsimp only
        rw [Tunnels.modifyPipe_opened, hopened, Option.toList_some,
          List.map_singleton, signals_append, Packet.plain, hsignal,
          ← List.append_assoc]
        exact hfeeds.sends hextends hsent hmore
      · refine hfeeds.others hextends rfl ?_ ?_
        · intro other hother
          dsimp only
          rw [Tunnels.sentBy_send hfound, if_neg]
          rintro rfl
          exact heq (hpumping.key_eq hother hopened)
        · dsimp only
          rw [Option.toList_some, List.map_singleton, signals_append,
            signals_of_ne, List.append_nil]
          exact Ne.symm heq

theorem Device.Feeds.handleFrame {node : Bool}
    (hpumping : Pumping device.tunnels device.pumped)
    (hside : key.openedHere = true) (hfeeds : device.Feeds key heard down)
    (hstep : device.handleFrame node = some device') :
    device'.Feeds key heard down := by
  obtain ⟨packet, rest, result, -, hreceived, rfl⟩ :=
    Device.handleFrame_eq_some hstep
  have hquiet : signals key (device.uplink ++ [] : List Packet) =
      signals key device.uplink := by rw [List.append_nil]
  cases hreceived with
  | refused => exact hfeeds.others (.refl _) rfl (fun _ _ => rfl) hquiet
  | opened _ hother change hchange =>
      have hne : key ≠ packet.frame.key := by
        rintro rfl
        rw [hside] at hother
        cases hother
      have hsent : ((device.tunnels.create packet.frame.key
          (some packet.source)).modifyPipe device.tunnels.nextPipe
            change).sentBy =
          (device.tunnels.create packet.frame.key (some packet.source)).sentBy := by
        refine Tunnels.sentBy_modifyPipe change (fun _ => ?_) _
        rcases hchange with rfl | rfl <;> rfl
      exact hfeeds.created hpumping hne hsent rfl hquiet
  | delivered _ pipe =>
      have hsent : (device.tunnels.modifyPipe pipe
          (.deliver packet.frame.data)).sentBy = device.tunnels.sentBy :=
        Tunnels.sentBy_deliver pipe packet.frame.data
      refine hfeeds.others (hsent ▸ .refl _) rfl
        (fun _ _ => congrFun hsent _) hquiet
  | unknown => exact hfeeds.remove packet.frame.key (.inr rfl) rfl rfl
  | closed => exact hfeeds.remove packet.frame.key (.inl rfl) rfl rfl

/-- Whatever the device does by itself, the other end still follows. -/
theorem Device.Feeds.step {peer : DeviceId} {move : Device.Move}
    (hpumping : Pumping device.tunnels device.pumped) (hidle : device.Idle)
    (hside : key.openedHere = true) (hfeeds : device.Feeds key heard down)
    (hstep : device.step peer move = some device') :
    device'.Feeds key heard down := by
  cases move with
  | pipe pipe move =>
      obtain ⟨found, found', pumped, hfound, hmove, rfl⟩ :=
        Device.stepPipe_eq_some hstep
      obtain ⟨-, -, hsent, -⟩ := Pipe.step_keeps hmove
      have hsame := Tunnels.sentBy_step hfound hsent
      exact hfeeds.others (hsame ▸ .refl _) rfl
        (fun _ _ => congrFun hsame _) rfl
  | openTunnel => exact hfeeds.openTunnel hpumping hstep
  | handlePumped => exact hfeeds.handlePumped hpumping hstep
  | handleFrame node => exact hfeeds.handleFrame hpumping hside hstep
  | forward => cases hstep
  | drop =>
      obtain ⟨-, rfl⟩ := Device.drop_eq_some hstep
      exact hfeeds.dropped Tunnels.sentBy_renew rfl rfl
  | forget =>
      obtain ⟨hgone, rfl⟩ := Device.forget_eq_some hstep
      rw [Device.Feeds, hidle.opened hgone]
      exact hfeeds.lose ((List.prefix_append_right_inj down).mpr
        List.nil_prefix)
  | reconnect =>
      obtain ⟨hgone, rfl⟩ := Device.reconnect_eq_some hstep
      rw [Device.Feeds, hidle.opened hgone]
      exact hfeeds.lose ((List.prefix_append_right_inj down).mpr
        List.nil_prefix)

end Sender

/-! ## The other device -/

section Receiver

variable {device device' : Device} {key : Key} {sent : ℕ → Option Bytes}
  {current : Option ℕ} {up : List (Signal UInt8)}

/-- The signals of a tunnel end, as the other device has them. -/
def Device.Hears (device : Device) (key : Key) (sent : ℕ → Option Bytes)
    (current : Option ℕ) (up : List (Signal UInt8)) : Prop :=
  Follows sent current (device.tunnels.heardAt key)
    (signals key device.downlink ++ up)

/-- The device hears the same or stops listening. -/
theorem Device.Hears.atMost (hhears : device.Hears key sent current up)
    (hheard : device'.tunnels.heardAt key = device.tunnels.heardAt key ∨
      device'.tunnels.heardAt key = none)
    (hdownlink : device'.downlink = device.downlink) :
    device'.Hears key sent current up := by
  rw [Hears, hdownlink]
  exact hhears.forgetOr hheard

theorem Device.Hears.handlePumped (hhears : device.Hears key sent current up)
    (hstep : device.handlePumped = some device') :
    device'.Hears key sent current up := by
  obtain ⟨event, rest, result, -, htaken, rfl⟩ :=
    Device.handlePumped_eq_some hstep
  refine hhears.atMost ?_ rfl
  cases htaken with
  | late => exact .inl rfl
  | data _ data =>
      exact .inl (Tunnels.heardAt_modifyPipe (.send data) (fun _ _ => rfl) key)
  | closed =>
      dsimp only
      rw [Tunnels.heardAt_remove]
      split
      · exact .inr rfl
      · exact .inl rfl

/-- What a frame leaves of a tunnel it is not about. -/
theorem Tunnels.Received.heardAt_of_ne {tunnels : Tunnels} {frame : Frame}
    {source : ℕ} {result : Tunnels × Option Frame} {pumped : List Pumped}
    (hreceived : Tunnels.Received tunnels frame source result)
    (hpumping : Pumping tunnels pumped) (hne : key ≠ frame.key) :
    result.1.heardAt key = tunnels.heardAt key := by
  cases hreceived with
  | refused => rfl
  | opened _ _ change hchange =>
      dsimp only
      rw [Tunnels.heardAt_modifyPipe, Tunnels.heardAt_create hpumping,
        if_neg hne]
      intro found _
      rcases hchange with rfl | rfl <;> rfl
  | delivered _ pipe hlistening =>
      dsimp only
      rw [Tunnels.heardAt_deliver hpumping hlistening, if_neg hne]
  | unknown | closed =>
      dsimp only
      rw [Tunnels.heardAt_remove, if_neg hne]

/-- What a frame leaves of the tunnel it is about. -/
theorem Tunnels.Received.heardAt_self {tunnels : Tunnels} {packet : Packet}
    {result : Tunnels × Option Frame} {pumped : List Pumped}
    (hreceived : Tunnels.Received tunnels packet.frame packet.source result)
    (hpumping : Pumping tunnels pumped)
    (hside : packet.frame.key.openedHere = false) :
    ∃ signal, signals packet.frame.key [packet] = [signal] ∧
      result.1.heardAt packet.frame.key =
        hear (tunnels.heardAt packet.frame.key) signal := by
  cases hreceived with
  | refused _ hother =>
      rw [hside] at hother
      cases hother
  | opened hkind _ change hchange =>
      refine ⟨_, signals_opened packet hkind, ?_⟩
      dsimp only
      rw [Tunnels.heardAt_modifyPipe, Tunnels.heardAt_create hpumping,
        if_pos rfl]
      · rfl
      · intro found _
        rcases hchange with rfl | rfl <;> rfl
  | delivered hkind pipe hlistening =>
      refine ⟨_, signals_data packet hkind, ?_⟩
      exact (Tunnels.heardAt_deliver hpumping hlistening _ _).trans (if_pos rfl)
  | unknown hkind hlistening =>
      refine ⟨_, signals_data packet hkind, ?_⟩
      dsimp only
      rw [Tunnels.heardAt_remove, if_pos rfl,
        Tunnels.heardAt_of_listening hlistening]
      rfl
  | closed hopen hdata =>
      refine ⟨_, signals_closed packet hopen hdata, ?_⟩
      dsimp only
      rw [Tunnels.heardAt_remove, if_pos rfl]
      rfl

theorem Device.Hears.handleFrame {node : Bool}
    (hpumping : Pumping device.tunnels device.pumped)
    (hside : key.openedHere = false) (hhears : device.Hears key sent current up)
    (hstep : device.handleFrame node = some device') :
    device'.Hears key sent current up := by
  obtain ⟨packet, rest, result, hdownlink, hreceived, rfl⟩ :=
    Device.handleFrame_eq_some hstep
  rw [Device.Hears, hdownlink] at hhears
  have hsplit : signals key (packet :: rest) =
      signals key [packet] ++ signals key rest := signals_append key [packet] rest
  rw [hsplit] at hhears
  rw [Device.Hears]
  by_cases heq : key = packet.frame.key
  · subst heq
    obtain ⟨signal, hsignal, hheard⟩ :=
      hreceived.heardAt_self hpumping hside
    rw [hsignal] at hhears
    dsimp only
    rw [hheard]
    exact hhears.receive
  · rw [signals_of_ne (Ne.symm heq)] at hhears
    dsimp only
    rw [hreceived.heardAt_of_ne hpumping heq]
    exact hhears

/-- Whatever the device does by itself, it still follows. -/
theorem Device.Hears.step {peer : DeviceId} {move : Device.Move}
    (hpumping : Pumping device.tunnels device.pumped)
    (hside : key.openedHere = false) (hhears : device.Hears key sent current up)
    (hstep : device.step peer move = some device') :
    device'.Hears key sent current up := by
  cases move with
  | pipe pipe move =>
      obtain ⟨found, found', pumped, hfound, hmove, rfl⟩ :=
        Device.stepPipe_eq_some hstep
      obtain ⟨-, -, -, -, hheard⟩ := Pipe.step_keeps hmove
      exact hhears.atMost (Tunnels.heardAt_step hfound hheard key) rfl
  | openTunnel =>
      obtain ⟨-, rfl⟩ := Device.openTunnel_eq_some hstep
      refine hhears.atMost (.inl ?_) rfl
      refine (Tunnels.heardAt_create hpumping _ none key).trans (if_neg ?_)
      rintro rfl
      cases hside
  | handlePumped => exact hhears.handlePumped hstep
  | handleFrame node => exact hhears.handleFrame hpumping hside hstep
  | forward => cases hstep
  | drop =>
      obtain ⟨-, rfl⟩ := Device.drop_eq_some hstep
      exact hhears.skip
  | forget =>
      obtain ⟨-, rfl⟩ := Device.forget_eq_some hstep
      exact hhears
  | reconnect =>
      obtain ⟨-, rfl⟩ := Device.reconnect_eq_some hstep
      exact hhears

end Receiver

/-! ## What every session wrote -/

/-- The key of the tunnel that a move creates. -/
def Device.createdKey (device : Device) (peer : DeviceId) :
    Device.Move → Option Key
  | .openTunnel => some (device.tunnels.nextKey peer)
  | .handleFrame _ =>
      device.downlink.head?.bind fun packet =>
        if packet.frame.kind = kindOpen ∧ packet.frame.key.openedHere = false
        then some packet.frame.key
        else none
  | _ => none

theorem Device.pumping_step {device device' : Device} {peer : DeviceId}
    {move : Device.Move} (hpumping : Pumping device.tunnels device.pumped)
    (hclean : ∀ key ∈ device.createdKey peer move,
      NothingLeft device.tunnels device.pumped key)
    (hstep : device.step peer move = some device') :
    Pumping device'.tunnels device'.pumped := by
  cases move with
  | pipe =>
      obtain ⟨found, found', pumped, hfound, hmove, rfl⟩ :=
        Device.stepPipe_eq_some hstep
      exact hpumping.step hfound hmove
  | openTunnel =>
      obtain ⟨-, rfl⟩ := Device.openTunnel_eq_some hstep
      have hcreated := hpumping.create (hclean _ rfl) none
      exact ⟨hcreated.opened, hcreated.only, hcreated.alive, hcreated.sent⟩
  | handlePumped =>
      obtain ⟨event, rest, result, hpumped, htaken, rfl⟩ :=
        Device.handlePumped_eq_some hstep
      exact (hpumped ▸ hpumping).taken htaken
  | handleFrame =>
      obtain ⟨packet, rest, result, hdownlink, hreceived, rfl⟩ :=
        Device.handleFrame_eq_some hstep
      refine hpumping.received hreceived fun hkind hside => hclean _ ?_
      rw [Device.createdKey, hdownlink]
      exact if_pos ⟨hkind, hside⟩
  | forward => cases hstep
  | drop =>
      obtain ⟨-, rfl⟩ := Device.drop_eq_some hstep
      exact hpumping.renew
  | forget =>
      obtain ⟨-, rfl⟩ := Device.forget_eq_some hstep
      exact hpumping
  | reconnect =>
      obtain ⟨-, rfl⟩ := Device.reconnect_eq_some hstep
      exact hpumping

/-! ## What every session was brought -/

section Brought

variable {device device' : Device} {peer : DeviceId} {move : Device.Move}

theorem Device.Idle.step (hidle : device.Idle)
    (hstep : device.step peer move = some device') : device'.Idle := by
  cases move with
  | pipe pipe move =>
      obtain ⟨found, found', pumped, -, -, rfl⟩ :=
        Device.stepPipe_eq_some hstep
      exact ⟨hidle.opened, hidle.downlink, hidle.registered⟩
  | openTunnel =>
      obtain ⟨hconnected, rfl⟩ := Device.openTunnel_eq_some hstep
      refine ⟨fun hgone => ?_, hidle.downlink, hidle.registered⟩
      rw [hconnected] at hgone
      cases hgone
  | handlePumped =>
      obtain ⟨event, rest, result, -, htaken, rfl⟩ :=
        Device.handlePumped_eq_some hstep
      refine ⟨fun hgone => ?_, hidle.downlink, hidle.registered⟩
      have hnone := hidle.opened hgone
      cases htaken with
      | late => exact hnone
      | data pipe data hopened | closed pipe hopened =>
          rw [hnone] at hopened
          cases hopened
  | handleFrame node =>
      obtain ⟨packet, rest, result, hdownlink, -, rfl⟩ :=
        Device.handleFrame_eq_some hstep
      have hconnected : device.connected ≠ false := by
        intro hgone
        rw [hidle.downlink hgone] at hdownlink
        cases hdownlink
      exact ⟨fun hgone => absurd hgone hconnected,
        fun hgone => absurd hgone hconnected, hidle.registered⟩
  | forward => cases hstep
  | drop =>
      obtain ⟨-, rfl⟩ := Device.drop_eq_some hstep
      exact ⟨fun _ _ => rfl, fun _ => rfl, nofun⟩
  | forget =>
      obtain ⟨hgone, rfl⟩ := Device.forget_eq_some hstep
      refine ⟨hidle.opened, hidle.downlink, fun hconnected => ?_⟩
      rw [hgone] at hconnected
      cases hconnected
  | reconnect =>
      obtain ⟨-, rfl⟩ := Device.reconnect_eq_some hstep
      exact ⟨nofun, nofun, fun _ => rfl⟩

/-- Tunnels the other device opened have keys that name it. -/
structure Device.Named (peer : DeviceId) (device : Device) : Prop where
  pipes : ∀ {number : ℕ} {pipe : Pipe},
    device.tunnels.pipes[number]? = some pipe → pipe.source ≠ none →
      pipe.key.openedHere = false ∧ pipe.key.peer = peer
  downlink : ∀ packet ∈ device.downlink, packet.frame.kind = kindOpen →
    packet.frame.key.peer = peer

/-- What one step brings to a session: nothing more, or what its tunnel heard. -/
def Device.Brings (peer : DeviceId) (device device' : Device) (number : ℕ)
    (pipe' : Pipe) : Prop :=
  (∃ pipe, device.tunnels.pipes[number]? = some pipe ∧ pipe'.key = pipe.key ∧
    pipe'.source = pipe.source ∧ pipe'.brought <+: pipe.brought) ∨
  pipe'.source = none ∨
  pipe'.key.openedHere = false ∧ pipe'.key.peer = peer ∧
    device'.tunnels.heardAt pipe'.key =
      pipe'.source.map fun source => (source, pipe'.brought)

/-- A pipe whose tunnel was dropped, or as it was. -/
theorem Tunnels.remove_brings {tunnels : Tunnels} {key : Key} {number : ℕ}
    {pipe' : Pipe} (hfound : (tunnels.remove key).pipes[number]? = some pipe') :
    ∃ pipe, tunnels.pipes[number]? = some pipe ∧ pipe'.key = pipe.key ∧
      pipe'.source = pipe.source ∧ pipe'.brought = pipe.brought := by
  rw [Tunnels.remove_pipes] at hfound
  obtain ⟨pipe, hpipe, rfl⟩ := Option.map_eq_some_iff.mp hfound
  refine ⟨pipe, hpipe, ?_⟩
  split <;> exact ⟨rfl, rfl, rfl⟩

theorem Device.brings_received {packet : Packet} {rest : List Packet}
    {result : Tunnels × Option Frame}
    (hpumping : Pumping device.tunnels device.pumped)
    (hnamed : device.Named peer) (hdownlink : device.downlink = packet :: rest)
    (hreceived : Tunnels.Received device.tunnels packet.frame packet.source
      result) (htunnels : device'.tunnels = result.1) {number : ℕ} {pipe' : Pipe}
    (hfound : result.1.pipes[number]? = some pipe') :
    Device.Brings peer device device' number pipe' := by
  have hremoved (h : (device.tunnels.remove packet.frame.key).pipes[number]? =
      some pipe') : Device.Brings peer device device' number pipe' := by
    obtain ⟨pipe, hpipe, hkey, hsource, hbrought⟩ := Tunnels.remove_brings h
    exact .inl ⟨pipe, hpipe, hkey, hsource, hbrought ▸ List.prefix_refl _⟩
  cases hreceived with
  | refused => exact .inl ⟨pipe', hfound, rfl, rfl, List.prefix_refl _⟩
  | opened hkind hside change hchange =>
      have hpeer := hnamed.downlink packet (hdownlink ▸ List.mem_cons_self) hkind
      have hheard : device'.tunnels.heardAt packet.frame.key =
          some (packet.source, []) := by
        rw [htunnels, Tunnels.heardAt_modifyPipe,
          Tunnels.heardAt_create hpumping, if_pos rfl]
        · rfl
        · intro found _
          rcases hchange with rfl | rfl <;> rfl
      have hspawned : Device.Brings peer device device' number
          (.spawned packet.frame.key (some packet.source)) :=
        .inr (.inr ⟨hside, hpeer, hheard⟩)
      rcases Tunnels.modifyPipe_pipes hfound with h | ⟨rfl, found, h, rfl⟩
      · rw [Tunnels.create_pipes] at h
        split at h
        · obtain rfl := Option.some.inj h
          exact hspawned
        · exact hremoved h
      · rw [Tunnels.create_pipes, if_pos rfl] at h
        obtain rfl := Option.some.inj h
        rcases hchange with rfl | rfl <;> exact hspawned
  | delivered hkind pipe hlistening =>
      rcases Tunnels.modifyPipe_pipes hfound with h | ⟨rfl, found, h, rfl⟩
      · exact .inl ⟨pipe', h, rfl, rfl, List.prefix_refl _⟩
      obtain ⟨hopened, same, hsame, hwriting⟩ :=
        Tunnels.listening_eq_some hlistening
      obtain rfl := Option.some.inj (h.symm.trans hsame)
      by_cases hsource : found.source = none
      · exact .inr (.inl hsource)
      obtain ⟨hside, hpeer⟩ := hnamed.pipes h hsource
      have hkey : found.key = packet.frame.key := by
        obtain ⟨other, hother, hkey, -⟩ := hpumping.opened hopened
        rwa [Option.some.inj (h.symm.trans hother)]
      refine .inr (.inr ⟨hside, hpeer, ?_⟩)
      dsimp only [Pipe.deliver]
      rw [htunnels, Tunnels.heardAt, Tunnels.modifyPipe_opened, hkey, hopened,
        Option.bind_some, hfound, Option.bind_some]
      exact if_pos hwriting
  | unknown | closed => exact hremoved hfound

/-- Every step brings a session nothing more, or what its tunnel heard. -/
theorem Device.brings (hpumping : Pumping device.tunnels device.pumped)
    (hnamed : device.Named peer)
    (hstep : device.step peer move = some device') {number : ℕ} {pipe' : Pipe}
    (hfound : device'.tunnels.pipes[number]? = some pipe') :
    Device.Brings peer device device' number pipe' := by
  have hsame (h : device.tunnels.pipes[number]? = some pipe') :
      Device.Brings peer device device' number pipe' :=
    .inl ⟨pipe', h, rfl, rfl, List.prefix_refl _⟩
  have hremoved {key : Key}
      (h : (device.tunnels.remove key).pipes[number]? = some pipe') :
      Device.Brings peer device device' number pipe' := by
    obtain ⟨pipe, hpipe, hkey, hsource, hbrought⟩ := Tunnels.remove_brings h
    exact .inl ⟨pipe, hpipe, hkey, hsource, hbrought ▸ List.prefix_refl _⟩
  cases move with
  | pipe pipe move =>
      obtain ⟨found, found', pumped, hold, hmove, rfl⟩ :=
        Device.stepPipe_eq_some hstep
      rcases Tunnels.modifyPipe_pipes hfound with h | ⟨rfl, -, -, rfl⟩
      · exact hsame h
      · obtain ⟨hkey, hsource, -, hbrought, -⟩ := Pipe.step_keeps hmove
        exact .inl ⟨found, hold, hkey, hsource, hbrought⟩
  | openTunnel =>
      obtain ⟨-, rfl⟩ := Device.openTunnel_eq_some hstep
      have hcreated := (Tunnels.create_pipes device.tunnels _ none
        number).symm.trans hfound
      split at hcreated
      · obtain rfl := Option.some.inj hcreated
        exact .inr (.inl rfl)
      · exact hremoved hcreated
  | handlePumped =>
      obtain ⟨event, rest, result, -, htaken, rfl⟩ :=
        Device.handlePumped_eq_some hstep
      cases htaken with
      | late => exact hsame hfound
      | data =>
          rcases Tunnels.modifyPipe_pipes hfound with h | ⟨rfl, found, h, rfl⟩
          · exact hsame h
          · exact .inl ⟨found, h, rfl, rfl, List.prefix_refl _⟩
      | closed => exact hremoved hfound
  | handleFrame node =>
      obtain ⟨packet, rest, result, hdownlink, hreceived, rfl⟩ :=
        Device.handleFrame_eq_some hstep
      exact Device.brings_received hpumping hnamed hdownlink hreceived rfl hfound
  | forward => cases hstep
  | drop =>
      obtain ⟨-, rfl⟩ := Device.drop_eq_some hstep
      have hstopped := (List.getElem?_map ..).symm.trans hfound
      obtain ⟨pipe, hpipe, rfl⟩ := Option.map_eq_some_iff.mp hstopped
      exact .inl ⟨pipe, hpipe, rfl, rfl, List.prefix_refl _⟩
  | forget =>
      obtain ⟨-, rfl⟩ := Device.forget_eq_some hstep
      exact hsame hfound
  | reconnect =>
      obtain ⟨-, rfl⟩ := Device.reconnect_eq_some hstep
      exact hsame hfound

theorem Device.Named.step (hpumping : Pumping device.tunnels device.pumped)
    (hnamed : device.Named peer)
    (hstep : device.step peer move = some device') : device'.Named peer where
  pipes := by
    intro number pipe' hfound hsource
    rcases Device.brings hpumping hnamed hstep hfound with
      ⟨pipe, hpipe, hkey, hsame, -⟩ | hnone | ⟨hside, hpeer, -⟩
    · rw [hkey]
      exact hnamed.pipes hpipe (hsame ▸ hsource)
    · exact absurd hnone hsource
    · exact ⟨hside, hpeer⟩
  downlink := by
    have hshorter : device'.downlink ⊆ device.downlink := by
      cases move with
      | pipe =>
          obtain ⟨found, found', pumped, -, -, rfl⟩ :=
            Device.stepPipe_eq_some hstep
          exact List.Subset.refl _
      | openTunnel =>
          obtain ⟨-, rfl⟩ := Device.openTunnel_eq_some hstep
          exact List.Subset.refl _
      | handlePumped =>
          obtain ⟨event, rest, result, -, -, rfl⟩ :=
            Device.handlePumped_eq_some hstep
          exact List.Subset.refl _
      | handleFrame =>
          obtain ⟨packet, rest, result, hdownlink, -, rfl⟩ :=
            Device.handleFrame_eq_some hstep
          exact hdownlink ▸ List.subset_cons_self packet rest
      | forward => cases hstep
      | drop =>
          obtain ⟨-, rfl⟩ := Device.drop_eq_some hstep
          exact List.nil_subset _
      | forget =>
          obtain ⟨-, rfl⟩ := Device.forget_eq_some hstep
          exact List.Subset.refl _
      | reconnect =>
          obtain ⟨-, rfl⟩ := Device.reconnect_eq_some hstep
          exact List.Subset.refl _
    exact fun packet hpacket => hnamed.downlink packet (hshorter hpacket)

/-- What was sent stays sent. -/
theorem Device.extends_step (hpumping : Pumping device.tunnels device.pumped)
    (hstep : device.step peer move = some device') :
    Extends device.tunnels.sentBy device'.tunnels.sentBy := by
  cases move with
  | pipe =>
      obtain ⟨found, found', pumped, hfound, hmove, rfl⟩ :=
        Device.stepPipe_eq_some hstep
      obtain ⟨-, -, hsent, -⟩ := Pipe.step_keeps hmove
      exact Tunnels.sentBy_step hfound hsent ▸ .refl _
  | openTunnel =>
      obtain ⟨-, rfl⟩ := Device.openTunnel_eq_some hstep
      exact Tunnels.extends_create (device.tunnels.nextKey peer) none
  | handlePumped =>
      obtain ⟨event, rest, result, -, htaken, rfl⟩ :=
        Device.handlePumped_eq_some hstep
      cases htaken with
      | late => exact .refl _
      | data pipe data hopened =>
          obtain ⟨found, hfound, -⟩ := hpumping.opened hopened
          exact Tunnels.extends_send hfound data
      | closed => exact Tunnels.sentBy_remove event.key ▸ .refl _
  | handleFrame =>
      obtain ⟨packet, rest, result, -, hreceived, rfl⟩ :=
        Device.handleFrame_eq_some hstep
      cases hreceived with
      | refused => exact .refl _
      | opened _ _ change hchange =>
          dsimp only
          rw [Tunnels.sentBy_modifyPipe change]
          · exact Tunnels.extends_create _ _
          · intro pipe
            rcases hchange with rfl | rfl <;> rfl
      | delivered _ pipe =>
          exact Tunnels.sentBy_deliver pipe packet.frame.data ▸ .refl _
      | unknown | closed => exact Tunnels.sentBy_remove packet.frame.key ▸ .refl _
  | forward => cases hstep
  | drop =>
      obtain ⟨-, rfl⟩ := Device.drop_eq_some hstep
      exact Tunnels.sentBy_renew ▸ .refl _
  | forget =>
      obtain ⟨-, rfl⟩ := Device.forget_eq_some hstep
      exact .refl _
  | reconnect =>
      obtain ⟨-, rfl⟩ := Device.reconnect_eq_some hstep
      exact .refl _

end Brought

/-! ## The network -/

namespace Network

variable {pair : Pair} {net next : Network} {move : Move}

/-- A tunnel is created only under a key of which nothing is left. -/
def StartsClean (pair : Pair) (net : Network) (move : Move) : Prop :=
  ∀ key ∈ (net move.side).createdKey (pair.name move.side.other) move.move,
    NothingLeft (net move.side).tunnels (net move.side).pumped key

/-- The other device follows what the device that opened a tunnel sends. -/
def Carried (pair : Pair) (net : Network) (side : Side) (id : UInt32) : Prop :=
  Follows (net side).tunnels.sentBy
    ((net side).tunnels.opened.get (openerKey pair side id))
    ((net side.other).tunnels.heardAt (acceptorKey pair side id))
    (signals (acceptorKey pair side id) (net side.other).downlink ++
      signals (openerKey pair side id) (net side).uplink)

structure Inv (pair : Pair) (net : Network) : Prop where
  pumping : ∀ side, Pumping (net side).tunnels (net side).pumped
  idle : ∀ side, (net side).Idle
  named : ∀ side, (net side).Named (pair.name side.other)
  carried : ∀ side id, Carried pair net side id
  /-- Every session, also of a tunnel closed long ago. -/
  brought : ∀ {side : Side} {number source : ℕ} {pipe : Pipe},
    (net side.other).tunnels.pipes[number]? = some pipe →
      pipe.source = some source →
        PartOf (net side).tunnels.sentBy (some (source, pipe.brought))

theorem inv_initial (pair : Pair) : Inv pair initial where
  pumping _ := .initial
  idle _ := ⟨nofun, nofun, fun _ => rfl⟩
  named _ := ⟨nofun, nofun⟩
  carried _ _ := .nothing _
  brought h := by cases h

/-! ### A device by itself -/

theorem Inv.step_own (hinv : Inv pair net) {side : Side}
    {own : Device.Move} {device : Device}
    (hclean : ∀ key ∈ (net side).createdKey (pair.name side.other) own,
      NothingLeft (net side).tunnels (net side).pumped key)
    (hstep : (net side).step (pair.name side.other) own = some device)
    (hself : next side = device) (hother : next side.other = net side.other) :
    Inv pair next := by
  have hpumping := hinv.pumping side
  have hcarriedSelf (id : UInt32) : Carried pair next side id := by
    have hfeeds : device.Feeds (openerKey pair side id)
        ((net side.other).tunnels.heardAt (acceptorKey pair side id))
        (signals (acceptorKey pair side id) (net side.other).downlink) :=
      Device.Feeds.step hpumping (hinv.idle side) rfl (hinv.carried side id)
        hstep
    rw [Carried, hself, hother]
    exact hfeeds
  have hcarriedOther (id : UInt32) : Carried pair next side.other id := by
    have hhears : device.Hears (acceptorKey pair side.other id)
        (net side.other).tunnels.sentBy
        ((net side.other).tunnels.opened.get (openerKey pair side.other id))
        (signals (openerKey pair side.other id) (net side.other).uplink) := by
      refine Device.Hears.step hpumping rfl ?_ hstep
      have hbefore := hinv.carried side.other id
      rw [Carried, side.other_other] at hbefore
      exact hbefore
    rw [Carried, side.other_other, hself, hother]
    exact hhears
  have hboth {P : Side → Prop} (h : P side) (h' : P side.other)
      (which : Side) : P which := by
    rcases side.eq_or_eq_other which with rfl | rfl
    · exact h
    · exact h'
  refine ⟨hboth ?_ ?_, hboth ?_ ?_, hboth ?_ ?_,
    hboth hcarriedSelf hcarriedOther, ?_⟩
  · rw [hself]
    exact Device.pumping_step hpumping hclean hstep
  · rw [hother]
    exact hinv.pumping side.other
  · rw [hself]
    exact (hinv.idle side).step hstep
  · rw [hother]
    exact hinv.idle side.other
  · rw [hself]
    exact (hinv.named side).step hpumping hstep
  · rw [hother]
    exact hinv.named side.other
  · intro which number source pipe hfound hsource
    rcases side.eq_or_eq_other which with rfl | rfl
    · rw [hother] at hfound
      rw [hself]
      exact (hinv.brought hfound hsource).extend
        (Device.extends_step hpumping hstep)
    · rw [side.other_other, hself] at hfound
      rw [hother]
      rcases Device.brings hpumping (hinv.named side) hstep hfound with
        ⟨old, hold, -, hsame, hfewer⟩ | hnone | ⟨hside, hpeer, hheard⟩
      · have hbefore : (net side.other.other).tunnels.pipes[number]? =
            some old := by rwa [side.other_other]
        exact (hinv.brought hbefore (hsame ▸ hsource)).of_front hfewer
      · rw [hsource] at hnone
        cases hnone
      · have hkey : pipe.key = acceptorKey pair side.other pipe.key.id := by
          rw [acceptorKey, ← hpeer, ← hside]
        have hpart := (hcarriedOther pipe.key.id).partOf
        rw [side.other_other, hself, hother, ← hkey, hheard, hsource] at hpart
        exact hpart

/-! ### The relay -/

/-- The recipient's side of what the relay sends on. -/
theorem Inv.forward_there (hinv : Inv pair net) {side : Side}
    {packet : Packet} {rest there back : List Packet}
    (huplink : (net side).uplink = packet :: rest)
    (honward : onward pair side (net side.other) packet = (there, back))
    (hself : next side = { net side with uplink := rest }.arrive back)
    (hother : next side.other = (net side.other).arrive there)
    (id : UInt32) : Carried pair next side id := by
  have hbefore := hinv.carried side id
  have hsplit : signals (openerKey pair side id) (packet :: rest) =
      signals (openerKey pair side id) [packet] ++
        signals (openerKey pair side id) rest := signals_append _ [packet] rest
  rw [Carried, huplink, hsplit] at hbefore
  rw [Carried, hself, hother]
  simp only [Device.arrive_tunnels, Device.arrive_uplink]
  -- A recipient without a connection listens to nothing.
  have hlost (hgone : (net side.other).connected = false) :
      Follows (net side).tunnels.sentBy
        ((net side).tunnels.opened.get (openerKey pair side id))
        ((net side.other).tunnels.heardAt (acceptorKey pair side id))
        (signals (acceptorKey pair side id) (net side.other).downlink ++
          signals (openerKey pair side id) rest) := by
    have hdeaf : (net side.other).tunnels.heardAt (acceptorKey pair side id) =
        none := by
      rw [Tunnels.heardAt, (hinv.idle side.other).opened hgone]
      rfl
    rw [(hinv.idle side.other).downlink hgone] at hbefore ⊢
    rw [hdeaf] at hbefore ⊢
    rw [← List.append_assoc] at hbefore
    exact hbefore.skip
  rw [Device.arrive_downlink]
  rcases onward_there honward with ⟨hpeer, -, rfl⟩ | ⟨hstays, rfl⟩
  · cases hconnected : (net side.other).connected with
    | true =>
        rw [if_pos rfl, signals_append, signals_across_opener hpeer,
          List.append_assoc]
        exact hbefore
    | false => exact hlost hconnected
  · rw [List.append_nil, ite_self]
    rcases hstays with hpeer | hregistered
    · have hquiet : signals (openerKey pair side id) [packet] = [] := by
        refine signals_of_ne fun hkey => hpeer ?_
        rw [hkey]
        rfl
      rw [hquiet] at hbefore
      exact hbefore
    · refine hlost (Bool.eq_false_iff.mpr fun hconnected => ?_)
      rw [(hinv.idle side.other).registered hconnected] at hregistered
      cases hregistered

/-- The sender's side of what the relay sends back. -/
theorem Inv.forward_back (hinv : Inv pair net) {side : Side}
    {packet : Packet} {rest there back : List Packet}
    (honward : onward pair side (net side.other) packet = (there, back))
    (hself : next side = { net side with uplink := rest }.arrive back)
    (hother : next side.other = (net side.other).arrive there)
    (id : UInt32) : Carried pair next side.other id := by
  have hbefore := hinv.carried side.other id
  rw [Carried, side.other_other] at hbefore
  rw [Carried, side.other_other, hself, hother]
  simp only [Device.arrive_tunnels, Device.arrive_uplink]
  rw [Device.arrive_downlink]
  dsimp only
  split
  swap
  · exact hbefore
  rw [signals_append, List.append_assoc]
  have hsaid : signals (acceptorKey pair side.other id) back = [] ∨
      signals (acceptorKey pair side.other id) back = [.closed] := by
    rcases onward_back honward with rfl | rfl
    · exact .inl rfl
    · by_cases hkey : packet.frame.key = acceptorKey pair side.other id
      · rw [hkey]
        exact .inr (signals_close _)
      · exact .inl (signals_of_ne hkey)
  rcases hsaid with hsaid | hsaid
  · rw [hsaid]
    exact hbefore
  · rw [hsaid]
    exact hbefore.closesWithin

theorem named_arrive {device : Device} {peer : DeviceId}
    (hnamed : device.Named peer) {packets : List Packet}
    (hpackets : ∀ packet ∈ packets, packet.frame.kind = kindOpen →
      packet.frame.key.peer = peer) : (device.arrive packets).Named peer := by
  refine ⟨?_, ?_⟩
  · rw [Device.arrive_tunnels]
    exact hnamed.pipes
  · rw [Device.arrive_downlink]
    split
    · intro packet hpacket
      rcases List.mem_append.mp hpacket with hold | hnew
      · exact hnamed.downlink packet hold
      · exact hpackets packet hnew
    · exact hnamed.downlink

theorem idle_arrive {device : Device} (hidle : device.Idle)
    (packets : List Packet) : (device.arrive packets).Idle := by
  refine ⟨?_, ?_, ?_⟩
  · rw [Device.arrive_connected, Device.arrive_tunnels]
    exact hidle.opened
  · rw [Device.arrive_connected, Device.arrive_downlink]
    intro hgone
    rw [hgone, if_neg Bool.false_ne_true]
    exact hidle.downlink hgone
  · rw [Device.arrive_connected, Device.arrive_registered]
    exact hidle.registered

theorem Inv.step_forward (hinv : Inv pair net) {side : Side}
    (hstep : net.forward pair side = some next) : Inv pair next := by
  obtain ⟨packet, rest, there, back, huplink, honward, hself, hother⟩ :=
    forward_eq_some hstep
  have htunnels (which : Side) : (next which).tunnels = (net which).tunnels := by
    rcases side.eq_or_eq_other which with rfl | rfl
    · rw [hself, Device.arrive_tunnels]
    · rw [hother, Device.arrive_tunnels]
  refine ⟨fun which => ?_, fun which => ?_, fun which => ?_,
    fun which id => ?_, ?_⟩
  · rw [htunnels]
    rcases side.eq_or_eq_other which with rfl | rfl
    · rw [hself, Device.arrive_pumped]
      exact hinv.pumping which
    · rw [hother, Device.arrive_pumped]
      exact hinv.pumping side.other
  · rcases side.eq_or_eq_other which with rfl | rfl
    · rw [hself]
      have hidle := hinv.idle which
      refine idle_arrive ?_ back
      exact ⟨hidle.opened, hidle.downlink, hidle.registered⟩
    · rw [hother]
      exact idle_arrive (hinv.idle side.other) there
  · rcases side.eq_or_eq_other which with rfl | rfl
    · rw [hself]
      have hnamed := hinv.named which
      refine named_arrive ?_ ?_
      · exact ⟨hnamed.pipes, hnamed.downlink⟩
      rcases onward_back honward with rfl | rfl
      · simp
      · simp [Packet.plain, kindClose, kindOpen]
    · rw [hother]
      refine named_arrive (hinv.named side.other) ?_
      rw [side.other_other]
      rcases onward_there honward with ⟨-, -, rfl⟩ | ⟨-, rfl⟩
      · simp [Packet.across, Key.across]
      · simp
  · rcases side.eq_or_eq_other which with rfl | rfl
    · exact hinv.forward_there huplink honward hself hother id
    · exact hinv.forward_back honward hself hother id
  · intro which number source pipe hfound hsource
    rw [htunnels] at hfound ⊢
    exact hinv.brought hfound hsource

theorem Inv.step (hinv : Inv pair net) {move : Move}
    (hclean : StartsClean pair net move)
    (hstep : (machine pair).step net move = some next) : Inv pair next := by
  rcases step_cases hstep with ⟨-, hforward⟩ | ⟨device, hown, hself, hother⟩
  · exact hinv.step_forward hforward
  · exact hinv.step_own hclean hown hself hother

/-! ## One session's bytes -/

/-- In every run in which each tunnel starts under a key of which nothing is
left: a session created for an `open` frame reads a prefix of what the session
at the end that sent the frame wrote, and the data frames sent for a tunnel take
a prefix of what its own session wrote. -/
theorem tunnel_carries_one_session {moves : List Move} {final : Network}
    (hclean : (machine pair).Along (StartsClean pair) initial moves)
    (hrun : (machine pair).run initial moves = some final)
    {side : Side} {number : ℕ} {pipe : Pipe}
    (hpipe : (final side).tunnels.pipes[number]? = some pipe) :
    pipe.sent <+: pipe.written ∧
      ∀ source, pipe.source = some source →
        ∃ opener, (final side.other).tunnels.pipes[source]? = some opener ∧
          pipe.received <+: opener.written := by
  have hinv : Inv pair final := Machine.run_of_invariant
    (fun _ _ _ hinv hclean hstep => hinv.step hclean hstep) (inv_initial pair)
    hclean hrun
  refine ⟨(hinv.pumping side).sent hpipe, fun source hsource => ?_⟩
  have hfound : (final side.other.other).tunnels.pipes[number]? = some pipe := by
    rwa [side.other_other]
  obtain ⟨all, hall, hbrought⟩ := hinv.brought hfound hsource source _ rfl
  obtain ⟨opener, hopener, rfl⟩ := Option.map_eq_some_iff.mp hall
  refine ⟨opener, hopener, ?_⟩
  calc pipe.received
      <+: pipe.brought := List.prefix_append _ _
    _ <+: opener.sent := hbrought
    _ <+: opener.written := (hinv.pumping side.other).sent hopener

/-! ## Two runs -/

instance (pair : Pair) (net : Network) (move : Move) :
    Decidable (StartsClean pair net move) :=
  inferInstanceAs (Decidable (∀ key ∈ (net move.side).createdKey _ _, _))

/-- The right device opens a tunnel, and both sessions write. -/
def bothWrite : List Move :=
  [⟨.right, .openTunnel⟩, ⟨.right, .forward⟩, ⟨.left, .handleFrame true⟩,
    ⟨.right, .pipe 0 (.write [5, 6])⟩, ⟨.right, .pipe 0 .poll⟩,
    ⟨.right, .pipe 0 (.pump 2)⟩, ⟨.right, .handlePumped⟩, ⟨.right, .forward⟩,
    ⟨.left, .handleFrame true⟩, ⟨.left, .pipe 0 (.receive 2)⟩,
    ⟨.left, .pipe 0 (.write [7])⟩, ⟨.left, .pipe 0 .poll⟩,
    ⟨.left, .pipe 0 (.pump 1)⟩, ⟨.left, .handlePumped⟩]

theorem tunnel_carries_one_session_bothWrite :
    ∃ final pipe, (machine examplePair).run initial bothWrite = some final ∧
      (final .left).tunnels.pipes[0]? = some pipe ∧
      pipe.received = [5, 6] ∧ pipe.sent = [7] ∧ pipe.sent <+: pipe.written ∧
      ∃ opener, (final .right).tunnels.pipes[0]? = some opener ∧
        pipe.received <+: opener.written := by
  have hclean : (machine examplePair).Along (StartsClean examplePair) initial
      bothWrite := by decide
  have hpipe : (((machine examplePair).run initial bothWrite).bind fun final =>
      (final .left).tunnels.pipes[0]?).map (fun pipe =>
        (pipe.source, pipe.received, pipe.sent)) =
      some (some 0, [5, 6], [7]) := by decide
  obtain ⟨pipe, hfound, hwhat⟩ := Option.map_eq_some_iff.mp hpipe
  obtain ⟨final, hrun, hpipe⟩ := Option.bind_eq_some_iff.mp hfound
  obtain ⟨hsource, hrest⟩ := Prod.mk.inj hwhat
  obtain ⟨hreceived, hsent⟩ := Prod.mk.inj hrest
  obtain ⟨hstart, hopener⟩ := tunnel_carries_one_session hclean hrun hpipe
  exact ⟨final, pipe, hrun, hpipe, hreceived, hsent, hstart,
    hopener 0 hsource⟩

/-- The right device connects again and opens its first tunnel while bytes of
the session it had before are queued at the left one. -/
def reopenedInTime : List Move :=
  [⟨.right, .openTunnel⟩, ⟨.right, .forward⟩, ⟨.left, .handleFrame true⟩,
    ⟨.left, .pipe 0 (.write [7])⟩, ⟨.left, .pipe 0 .poll⟩,
    ⟨.left, .pipe 0 (.pump 1)⟩, ⟨.left, .pipe 0 .wait⟩,
    ⟨.right, .drop⟩, ⟨.right, .reconnect⟩, ⟨.right, .openTunnel⟩,
    ⟨.right, .forward⟩, ⟨.left, .handleFrame true⟩, ⟨.left, .handlePumped⟩]

/-- Bytes of the old session go out in the new tunnel, whose own session wrote
nothing. -/
theorem old_bytes_in_new_tunnel :
    ∃ final pipe, (machine examplePair).run initial reopenedInTime =
        some final ∧
      (final .left).tunnels.pipes[1]? = some pipe ∧ pipe.source = some 1 ∧
      (final .left).uplink =
        [.plain ⟨kindData, ⟨⟨2⟩, 1, false⟩, [7]⟩] ∧
      pipe.sent = [7] ∧ pipe.written = [] ∧ ¬ pipe.sent <+: pipe.written := by
  have hpipe : ((machine examplePair).run initial reopenedInTime).bind
      (fun final => (final .left).tunnels.pipes[1]?.map fun pipe =>
        (pipe.source, (final .left).uplink, pipe.sent, pipe.written)) =
      some (some 1, [.plain ⟨kindData, ⟨⟨2⟩, 1, false⟩, [7]⟩], [7], []) := by
    decide
  obtain ⟨final, hrun, hfinal⟩ := Option.bind_eq_some_iff.mp hpipe
  obtain ⟨pipe, hpipe, hwhat⟩ := Option.map_eq_some_iff.mp hfinal
  simp only [Prod.mk.injEq] at hwhat
  obtain ⟨hsource, huplink, hsent, hwritten⟩ := hwhat
  refine ⟨final, pipe, hrun, hpipe, hsource, huplink, hsent, hwritten, ?_⟩
  rw [hsent, hwritten]
  decide

end Network

end Cled.Desktop
