import Cled.Core.Handshake
import Cled.Desktop.Signals

/-!
# Both ends of a tunnel

While two devices keep their connections, they agree on which tunnels are open
once every frame and every event of a reader task has been handled; and handling
them ends, since a close is never answered.
-/

namespace Cled.Desktop

open Cled.Core Cled.Clipboard Cled.Sync

/-! ## The keys in use -/

def Tunnels.isOpen (tunnels : Tunnels) (key : Key) : Bool :=
  (tunnels.opened.get key).isSome

theorem Tunnels.isOpen_remove (tunnels : Tunnels) (key other : Key) :
    (tunnels.remove key).isOpen other =
      if other = key then false else tunnels.isOpen other := by
  rw [isOpen, remove_opened]
  split <;> rfl

theorem Tunnels.isOpen_create (tunnels : Tunnels) (key : Key)
    (source : Option ℕ) (other : Key) :
    (tunnels.create key source).isOpen other =
      if other = key then true else tunnels.isOpen other := by
  rw [isOpen, create_opened]
  split <;> rfl

/-- Every key the device has a tunnel for, or a frame, has the property. -/
structure Device.AllKeys (P : Key → Prop) (device : Device) : Prop where
  opened : ∀ key, device.tunnels.isOpen key = true → P key
  uplink : ∀ packet ∈ device.uplink, P packet.frame.key
  downlink : ∀ packet ∈ device.downlink, P packet.frame.key

section AllKeys

variable {P Q : Key → Prop} {device device' : Device} {peer : DeviceId}
  {move : Device.Move}

theorem Device.AllKeys.mono (hkeys : device.AllKeys P)
    (himp : ∀ key, P key → Q key) : device.AllKeys Q where
  opened key hopen := himp key (hkeys.opened key hopen)
  uplink packet hmem := himp _ (hkeys.uplink packet hmem)
  downlink packet hmem := himp _ (hkeys.downlink packet hmem)

theorem Device.AllKeys.not_open (hkeys : device.AllKeys P) {key : Key}
    (hkey : ¬ P key) : device.tunnels.isOpen key = false :=
  Bool.eq_false_iff.mpr fun hopen => hkey (hkeys.opened key hopen)

theorem Device.AllKeys.uplink_nil (hkeys : device.AllKeys P) {key : Key}
    (hkey : ¬ P key) : signals key device.uplink = [] :=
  signals_eq_nil fun packet hmem heq => hkey (heq ▸ hkeys.uplink packet hmem)

theorem Device.AllKeys.downlink_nil (hkeys : device.AllKeys P) {key : Key}
    (hkey : ¬ P key) : signals key device.downlink = [] :=
  signals_eq_nil fun packet hmem heq => hkey (heq ▸ hkeys.downlink packet hmem)

/-- A device only comes to know the keys it opens itself. -/
theorem Device.AllKeys.step (hkeys : device.AllKeys P)
    (hopens : move = .openTunnel → P (device.tunnels.nextKey peer))
    (hstep : device.step peer move = some device') : device'.AllKeys P := by
  have hremove (key : Key) : ∀ other,
      (device.tunnels.remove key).isOpen other = true → P other := by
    intro other hopen
    rw [Tunnels.isOpen_remove] at hopen
    split at hopen
    · cases hopen
    · exact hkeys.opened other hopen
  have hcreate {key : Key} (source : Option ℕ) (hkey : P key) : ∀ other,
      (device.tunnels.create key source).isOpen other = true → P other := by
    intro other hopen
    rw [Tunnels.isOpen_create] at hopen
    split at hopen
    · next heq => exact heq ▸ hkey
    · exact hkeys.opened other hopen
  have hsend {frame : Frame} {source : ℕ} (hkey : P frame.key) :
      ∀ packet ∈ device.uplink ++ [⟨frame, source⟩], P packet.frame.key := by
    intro packet hmem
    rcases List.mem_append.mp hmem with hold | hnew
    · exact hkeys.uplink packet hold
    · rwa [List.mem_singleton.mp hnew]
  have hquiet : ∀ packet ∈ device.uplink ++ ([] : List Packet),
      P packet.frame.key := by
    rw [List.append_nil]
    exact hkeys.uplink
  cases move with
  | pipe =>
      obtain ⟨found, found', pumped, -, -, rfl⟩ := Device.stepPipe_eq_some hstep
      exact ⟨hkeys.opened, hkeys.uplink, hkeys.downlink⟩
  | openTunnel =>
      obtain ⟨-, rfl⟩ := Device.openTunnel_eq_some hstep
      exact ⟨hcreate none (hopens rfl), hsend (hopens rfl), hkeys.downlink⟩
  | handlePumped =>
      obtain ⟨event, rest, result, -, htaken, rfl⟩ :=
        Device.handlePumped_eq_some hstep
      cases htaken with
      | late => exact ⟨hkeys.opened, hquiet, hkeys.downlink⟩
      | data pipe data hopened =>
          have hkey : P event.key :=
            hkeys.opened _ (Option.isSome_of_eq_some hopened)
          exact ⟨hkeys.opened, hsend hkey, hkeys.downlink⟩
      | closed pipe hopened =>
          have hkey : P event.key :=
            hkeys.opened _ (Option.isSome_of_eq_some hopened)
          exact ⟨hremove event.key, hsend hkey, hkeys.downlink⟩
  | handleFrame =>
      obtain ⟨packet, rest, result, hdownlink, hreceived, rfl⟩ :=
        Device.handleFrame_eq_some hstep
      have hkey : P packet.frame.key :=
        hkeys.downlink packet (hdownlink ▸ List.mem_cons_self)
      have hrest : ∀ packet ∈ rest, P packet.frame.key :=
        fun packet hmem => hkeys.downlink packet
          (hdownlink ▸ List.mem_cons_of_mem _ hmem)
      cases hreceived with
      | refused => exact ⟨hkeys.opened, hquiet, hrest⟩
      | opened => exact ⟨hcreate (some packet.source) hkey, hquiet, hrest⟩
      | delivered => exact ⟨hkeys.opened, hquiet, hrest⟩
      | unknown => exact ⟨hremove _, hsend hkey, hrest⟩
      | closed => exact ⟨hremove _, hquiet, hrest⟩
  | forward => cases hstep
  | drop =>
      obtain ⟨-, rfl⟩ := Device.drop_eq_some hstep
      exact ⟨nofun, hkeys.uplink, nofun⟩
  | forget =>
      obtain ⟨-, rfl⟩ := Device.forget_eq_some hstep
      exact ⟨hkeys.opened, nofun, hkeys.downlink⟩
  | reconnect =>
      obtain ⟨-, rfl⟩ := Device.reconnect_eq_some hstep
      exact ⟨hkeys.opened, nofun, hkeys.downlink⟩

end AllKeys

/-! ## The end that opened -/

/-- What a device does while it keeps its connection. -/
def Device.Move.Keeps (move : Device.Move) : Prop :=
  move ≠ .drop ∧ move ≠ .forget ∧ move ≠ .reconnect

instance (move : Device.Move) : Decidable move.Keeps :=
  inferInstanceAs (Decidable (_ ∧ _ ∧ _))

/-- What a device keeps as long as it keeps its connection. -/
theorem Device.step_keeps {device device' : Device} {peer : DeviceId}
    {move : Device.Move} (hkeeps : move.Keeps)
    (hstep : device.step peer move = some device') :
    device'.connected = device.connected ∧
      device'.registered = device.registered ∧
      device'.tunnels.nextId =
        if move = .openTunnel then device.tunnels.nextId + 1
        else device.tunnels.nextId := by
  cases move with
  | pipe =>
      obtain ⟨found, found', pumped, -, -, rfl⟩ := Device.stepPipe_eq_some hstep
      exact ⟨rfl, rfl, rfl⟩
  | openTunnel =>
      obtain ⟨-, rfl⟩ := Device.openTunnel_eq_some hstep
      exact ⟨rfl, rfl, rfl⟩
  | handlePumped =>
      obtain ⟨event, rest, result, -, htaken, rfl⟩ :=
        Device.handlePumped_eq_some hstep
      refine ⟨rfl, rfl, ?_⟩
      cases htaken with
      | late | data => rfl
      | closed => exact Tunnels.remove_nextId _ _
  | handleFrame =>
      obtain ⟨packet, rest, result, -, hreceived, rfl⟩ :=
        Device.handleFrame_eq_some hstep
      refine ⟨rfl, rfl, ?_⟩
      cases hreceived with
      | refused | delivered => rfl
      | opened => exact Tunnels.create_nextId _ _ (some packet.source)
      | unknown | closed => exact Tunnels.remove_nextId _ _
  | forward => cases hstep
  | drop => exact absurd rfl hkeeps.1
  | forget => exact absurd rfl hkeeps.2.1
  | reconnect => exact absurd rfl hkeeps.2.2

section Opener

variable {device device' : Device} {key : Key} {there : Bool}
  {down up : List (Signal UInt8)}

/-- The tunnel as the device that opened it has it. -/
def Device.Opens (device : Device) (key : Key) (there : Bool)
    (down up : List (Signal UInt8)) : Prop :=
  Agreeing (device.tunnels.isOpen key) there (down ++ signals key device.uplink)
    (signals key device.downlink ++ up)

theorem Device.Opens.same (hopens : device.Opens key there down up)
    (hopen : device'.tunnels.isOpen key = device.tunnels.isOpen key)
    (huplink : signals key device'.uplink = signals key device.uplink)
    (hdownlink : signals key device'.downlink = signals key device.downlink) :
    device'.Opens key there down up := by
  rw [Opens, hopen, huplink, hdownlink]
  exact hopens

theorem Device.Opens.handlePumped (hopens : device.Opens key there down up)
    (hstep : device.handlePumped = some device') :
    device'.Opens key there down up := by
  obtain ⟨event, rest, result, -, htaken, rfl⟩ :=
    Device.handlePumped_eq_some hstep
  rw [Device.Opens]
  cases htaken with
  | late =>
      dsimp only
      rw [Option.toList_none, List.map_nil, List.append_nil]
      exact hopens
  | data pipe data hopened =>
      dsimp only
      rw [Option.toList_some, List.map_singleton, signals_append]
      by_cases heq : key = event.key
      · subst heq
        have hsignal := signals_data (.plain ⟨kindData, event.key, data⟩) rfl
        dsimp only [Packet.plain] at hsignal
        rw [Packet.plain, hsignal, ← List.append_assoc]
        exact hopens.sends data
      · rw [signals_of_ne, List.append_nil]
        · exact hopens
        · exact Ne.symm heq
  | closed =>
      dsimp only
      rw [Option.toList_some, List.map_singleton, signals_append,
        Tunnels.isOpen_remove]
      by_cases heq : key = event.key
      · rw [if_pos heq, ← heq, signals_close, ← List.append_assoc]
        exact hopens.closes
      · rw [if_neg heq, signals_of_ne, List.append_nil]
        · exact hopens
        · exact Ne.symm heq

/-- What a frame about another tunnel leaves. -/
theorem Tunnels.Received.other {tunnels : Tunnels} {packet : Packet}
    {result : Tunnels × Option Frame}
    (hreceived : Tunnels.Received tunnels packet.frame packet.source result)
    (hne : packet.frame.key ≠ key) (uplink : List Packet) :
    result.1.isOpen key = tunnels.isOpen key ∧
      signals key (uplink ++ result.2.toList.map .plain) =
        signals key uplink := by
  have hquiet : signals key (uplink ++ ([] : List Packet)) =
      signals key uplink := by rw [List.append_nil]
  cases hreceived with
  | refused => exact ⟨rfl, hquiet⟩
  | opened =>
      refine ⟨?_, hquiet⟩
      exact (Tunnels.isOpen_create _ _ (some packet.source) key).trans
        (if_neg (Ne.symm hne))
  | delivered => exact ⟨rfl, hquiet⟩
  | unknown =>
      refine ⟨(Tunnels.isOpen_remove _ _ key).trans (if_neg (Ne.symm hne)), ?_⟩
      dsimp only
      rw [Option.toList_some, List.map_singleton, signals_append, signals_of_ne,
        List.append_nil]
      exact hne
  | closed =>
      exact ⟨(Tunnels.isOpen_remove _ _ key).trans (if_neg (Ne.symm hne)),
        hquiet⟩

theorem Device.Opens.handleFrame {node : Bool} (hside : key.openedHere = true)
    (hopens : device.Opens key there down up)
    (hstep : device.handleFrame node = some device') :
    device'.Opens key there down up := by
  obtain ⟨packet, rest, result, hdownlink, hreceived, rfl⟩ :=
    Device.handleFrame_eq_some hstep
  by_cases hne : packet.frame.key ≠ key
  · obtain ⟨hopen, huplink⟩ := hreceived.other hne device.uplink
    refine hopens.same hopen huplink ?_
    rw [hdownlink, signals_cons_of_ne hne]
  obtain rfl := not_not.mp hne
  rw [Device.Opens, hdownlink] at hopens
  rw [Device.Opens]
  cases hreceived with
  | refused hkind =>
      rw [signals_cons_self (signals_opened packet hkind)] at hopens
      exact absurd List.mem_cons_self (hopens.onlyHere packet.source)
  | opened _ hother =>
      rw [hside] at hother
      cases hother
  | delivered hkind =>
      rw [signals_cons_self (signals_data packet hkind)] at hopens
      dsimp only
      rw [Option.toList_none, List.map_nil, List.append_nil]
      exact hopens.takesBack
  | unknown hkind =>
      rw [signals_cons_self (signals_data packet hkind)] at hopens
      dsimp only
      rw [Option.toList_some, List.map_singleton, signals_append, signals_close,
        Tunnels.isOpen_remove, if_pos rfl, ← List.append_assoc]
      exact hopens.takesBack.closes
  | closed hopen hdata =>
      rw [signals_cons_self (signals_closed packet hopen hdata)] at hopens
      dsimp only
      rw [Option.toList_none, List.map_nil, List.append_nil,
        Tunnels.isOpen_remove, if_pos rfl]
      exact hopens.toldBack

/-- Whatever the device does by itself, the ends still agree; where it opens the
tunnel, nobody may know its key yet. -/
theorem Device.Opens.step {peer : DeviceId} {move : Device.Move}
    (hside : key.openedHere = true) (hkeeps : move.Keeps)
    (hnew : move = .openTunnel → key = device.tunnels.nextKey peer →
      there = false ∧ down ++ signals key device.uplink = [] ∧
        signals key device.downlink ++ up = [])
    (hopens : device.Opens key there down up)
    (hstep : device.step peer move = some device') :
    device'.Opens key there down up := by
  cases move with
  | pipe =>
      obtain ⟨found, found', pumped, -, -, rfl⟩ := Device.stepPipe_eq_some hstep
      exact hopens
  | openTunnel =>
      obtain ⟨-, rfl⟩ := Device.openTunnel_eq_some hstep
      by_cases heq : key = device.tunnels.nextKey peer
      · obtain ⟨rfl, hout, hback⟩ := hnew rfl heq
        have hcreated := (Tunnels.isOpen_create device.tunnels
          (device.tunnels.nextKey peer) none key).trans (if_pos heq)
        have hsignal : signals key
            [⟨⟨kindOpen, device.tunnels.nextKey peer, []⟩,
              device.tunnels.nextPipe⟩] =
            [.opened device.tunnels.nextPipe] := by
          rw [heq]
          exact signals_opened ⟨⟨kindOpen, _, []⟩, _⟩ rfl
        rw [Device.Opens]
        dsimp only
        rw [signals_append, ← List.append_assoc, hout, hback, hsignal]
        exact hcreated ▸ .opened _
      · refine hopens.same ?_ ?_ rfl
        · exact (Tunnels.isOpen_create device.tunnels _ none key).trans
            (if_neg heq)
        · dsimp only
          rw [signals_append, signals_of_ne, List.append_nil]
          exact Ne.symm heq
  | handlePumped => exact hopens.handlePumped hstep
  | handleFrame => exact hopens.handleFrame hside hstep
  | forward => cases hstep
  | drop => exact absurd rfl hkeeps.1
  | forget => exact absurd rfl hkeeps.2.1
  | reconnect => exact absurd rfl hkeeps.2.2

end Opener

/-! ## The other end -/

section Acceptor

variable {device device' : Device} {key : Key} {here : Bool}
  {down up : List (Signal UInt8)}

/-- The tunnel as the other device has it. -/
def Device.Accepts (device : Device) (key : Key) (here : Bool)
    (up down : List (Signal UInt8)) : Prop :=
  Agreeing here (device.tunnels.isOpen key) (signals key device.downlink ++ up)
    (down ++ signals key device.uplink)

theorem Device.Accepts.same (haccepts : device.Accepts key here up down)
    (hopen : device'.tunnels.isOpen key = device.tunnels.isOpen key)
    (huplink : signals key device'.uplink = signals key device.uplink)
    (hdownlink : signals key device'.downlink = signals key device.downlink) :
    device'.Accepts key here up down := by
  rw [Accepts, hopen, huplink, hdownlink]
  exact haccepts

theorem Device.Accepts.handlePumped (haccepts : device.Accepts key here up down)
    (hstep : device.handlePumped = some device') :
    device'.Accepts key here up down := by
  obtain ⟨event, rest, result, -, htaken, rfl⟩ :=
    Device.handlePumped_eq_some hstep
  rw [Device.Accepts]
  cases htaken with
  | late =>
      dsimp only
      rw [Option.toList_none, List.map_nil, List.append_nil]
      exact haccepts
  | data pipe data hopened =>
      dsimp only
      rw [Option.toList_some, List.map_singleton, signals_append]
      by_cases heq : key = event.key
      · subst heq
        have hopen : device.tunnels.isOpen event.key = true :=
          Option.isSome_of_eq_some hopened
        have hsignal := signals_data (.plain ⟨kindData, event.key, data⟩) rfl
        dsimp only [Packet.plain] at hsignal
        rw [Device.Accepts, hopen] at haccepts
        have hstill : (device.tunnels.modifyPipe pipe (.send data)).isOpen
            event.key = true := hopen
        rw [Packet.plain, hsignal, ← List.append_assoc, hstill]
        exact haccepts.answers data
      · rw [signals_of_ne, List.append_nil]
        · exact haccepts
        · exact Ne.symm heq
  | closed pipe hopened =>
      dsimp only
      rw [Option.toList_some, List.map_singleton, signals_append,
        Tunnels.isOpen_remove]
      by_cases heq : key = event.key
      · have hopen : device.tunnels.isOpen key = true :=
          Option.isSome_of_eq_some (heq ▸ hopened)
        rw [Device.Accepts, hopen] at haccepts
        rw [if_pos heq, ← heq, signals_close, ← List.append_assoc]
        exact haccepts.closesBack haccepts.no_opened_of_open
      · rw [if_neg heq, signals_of_ne, List.append_nil]
        · exact haccepts
        · exact Ne.symm heq

theorem Device.Accepts.handleFrame {node : Bool} (hside : key.openedHere = false)
    (haccepts : device.Accepts key here up down)
    (hstep : device.handleFrame node = some device') :
    device'.Accepts key here up down := by
  obtain ⟨packet, rest, result, hdownlink, hreceived, rfl⟩ :=
    Device.handleFrame_eq_some hstep
  by_cases hne : packet.frame.key ≠ key
  · obtain ⟨hopen, huplink⟩ := hreceived.other hne device.uplink
    refine haccepts.same hopen huplink ?_
    rw [hdownlink, signals_cons_of_ne hne]
  obtain rfl := not_not.mp hne
  rw [Device.Accepts, hdownlink] at haccepts
  rw [Device.Accepts]
  cases hreceived with
  | refused _ hother =>
      rw [hside] at hother
      cases hother
  | opened hkind =>
      rw [signals_cons_self (signals_opened packet hkind)] at haccepts
      have hcreated := (Tunnels.isOpen_create device.tunnels packet.frame.key
        (some packet.source) packet.frame.key).trans (if_pos rfl)
      dsimp only
      rw [Option.toList_none, List.map_nil, List.append_nil]
      exact hcreated ▸ haccepts.takes
  | delivered hkind =>
      rw [signals_cons_self (signals_data packet hkind)] at haccepts
      dsimp only
      rw [Option.toList_none, List.map_nil, List.append_nil]
      exact haccepts.takes
  | unknown hkind =>
      rw [signals_cons_self (signals_data packet hkind)] at haccepts
      dsimp only
      rw [Option.toList_some, List.map_singleton, signals_append, signals_close,
        Tunnels.isOpen_remove, if_pos rfl, ← List.append_assoc]
      exact haccepts.takes.closesBack haccepts.first
  | closed hopen hdata =>
      rw [signals_cons_self (signals_closed packet hopen hdata)] at haccepts
      dsimp only
      rw [Option.toList_none, List.map_nil, List.append_nil,
        Tunnels.isOpen_remove, if_pos rfl]
      exact haccepts.takes

/-- Whatever the other device does by itself, the ends still agree. -/
theorem Device.Accepts.step {peer : DeviceId} {move : Device.Move}
    (hside : key.openedHere = false) (hkeeps : move.Keeps)
    (haccepts : device.Accepts key here up down)
    (hstep : device.step peer move = some device') :
    device'.Accepts key here up down := by
  cases move with
  | pipe =>
      obtain ⟨found, found', pumped, -, -, rfl⟩ := Device.stepPipe_eq_some hstep
      exact haccepts
  | openTunnel =>
      obtain ⟨-, rfl⟩ := Device.openTunnel_eq_some hstep
      have hne : key ≠ device.tunnels.nextKey peer := by
        rintro rfl
        cases hside
      refine haccepts.same ?_ ?_ rfl
      · exact (Tunnels.isOpen_create device.tunnels _ none key).trans
          (if_neg hne)
      · dsimp only
        rw [signals_append, signals_of_ne, List.append_nil]
        exact Ne.symm hne
  | handlePumped => exact haccepts.handlePumped hstep
  | handleFrame => exact haccepts.handleFrame hside hstep
  | forward => cases hstep
  | drop => exact absurd rfl hkeeps.1
  | forget => exact absurd rfl hkeeps.2.1
  | reconnect => exact absurd rfl hkeeps.2.2

end Acceptor

/-! ## The network -/

namespace Network

variable {pair : Pair} {net next : Network} {move : Move} {side : Side}

/-- How many tunnels a device opened. -/
def opens (side : Side) (moves : List Move) : ℕ :=
  moves.count ⟨side, .openTunnel⟩

/-- The key names the other device, and one of the tunnels opened so far. -/
def Known (pair : Pair) (opened : Side → ℕ) (side : Side) (key : Key) : Prop :=
  key.peer = pair.name side.other ∧ 1 ≤ key.id.toNat ∧
    key.id.toNat ≤ opened (if key.openedHere then side else side.other)

/-- Both ends of a tunnel agree. -/
def Agreed (pair : Pair) (net : Network) (side : Side) (id : UInt32) : Prop :=
  Agreeing ((net side).tunnels.isOpen (openerKey pair side id))
    ((net side.other).tunnels.isOpen (acceptorKey pair side id))
    (signals (acceptorKey pair side id) (net side.other).downlink ++
      signals (openerKey pair side id) (net side).uplink)
    (signals (openerKey pair side id) (net side).downlink ++
      signals (acceptorKey pair side id) (net side.other).uplink)

structure Balanced (pair : Pair) (opened : Side → ℕ) (net : Network) :
    Prop where
  connected : ∀ side, (net side).connected = true
  registered : ∀ side, (net side).registered = true
  next : ∀ side,
    (net side).tunnels.nextId = UInt32.ofNat (opened side + 1)
  known : ∀ side, (net side).AllKeys (Known pair opened side)
  agreed : ∀ side id, Agreed pair net side id

theorem balanced_initial (pair : Pair) :
    Balanced pair (fun _ => 0) initial where
  connected _ := rfl
  registered _ := rfl
  next _ := rfl
  known _ := ⟨nofun, nofun, nofun⟩
  agreed _ _ := .nothing

theorem Known.mono {opened opened' : Side → ℕ} {side : Side} {key : Key}
    (hknown : Known pair opened side key)
    (hle : ∀ side, opened side ≤ opened' side) : Known pair opened' side key :=
  ⟨hknown.1, hknown.2.1, hknown.2.2.trans (hle _)⟩

theorem Known.across {opened : Side → ℕ} {side : Side} {key : Key}
    (hknown : Known pair opened side key) :
    Known pair opened side.other (key.across (pair.name side)) := by
  obtain ⟨peer, id, openedHere⟩ := key
  obtain ⟨-, hpos, hle⟩ := hknown
  refine ⟨?_, hpos, ?_⟩
  · rw [side.other_other]
    rfl
  · dsimp only [Key.across] at hle ⊢
    rw [side.other_other]
    cases openedHere <;> exact hle

theorem Agreed.other {id : UInt32} :
    Agreed pair net side.other id ↔
      (net side).Accepts (acceptorKey pair side.other id)
        ((net side.other).tunnels.isOpen (openerKey pair side.other id))
        (signals (openerKey pair side.other id) (net side.other).uplink)
        (signals (openerKey pair side.other id) (net side.other).downlink) := by
  rw [Agreed, Device.Accepts, side.other_other]

section Step

variable {opened : Side → ℕ}

/-- Nobody knows the key of the next tunnel. -/
theorem Balanced.fresh (hbalanced : Balanced pair opened net)
    (hroom : opened side + 1 < 2 ^ 32) {id : UInt32}
    (hnext : id = (net side).tunnels.nextId) :
    ¬ Known pair opened side (openerKey pair side id) ∧
      ¬ Known pair opened side.other (acceptorKey pair side id) := by
  have hid : id.toNat = opened side + 1 := by
    rw [hnext, hbalanced.next side, UInt32.toNat_ofNat_of_lt' hroom]
  refine ⟨fun hknown => ?_, fun hknown => ?_⟩
  · have hle : id.toNat ≤ opened side := hknown.2.2
    omega
  · have hle : id.toNat ≤ opened side.other.other := hknown.2.2
    rw [side.other_other] at hle
    omega

/-- A device does something by itself. -/
theorem Balanced.own (hbalanced : Balanced pair opened net)
    (hkeeps : move.move.Keeps)
    (hroom : ∀ side, opened side + opens side [move] < 2 ^ 32) {device : Device}
    (hdevice : (net move.side).step (pair.name move.side.other) move.move =
      some device)
    (hself : next move.side = device)
    (hother : next move.side.other = net move.side.other) :
    Balanced pair (fun side => opened side + opens side [move]) next := by
  obtain ⟨side, move⟩ := move
  dsimp only at hkeeps hdevice hself hother
  have hopensSelf : opens side [⟨side, move⟩] =
      if move = .openTunnel then 1 else 0 := by
    simp [opens, List.count_singleton]
  have hopensOther : opens side.other [⟨side, move⟩] = 0 := by
    simp [opens, Ne.symm side.other_ne]
  obtain ⟨hconnected, hregistered, hnext⟩ := Device.step_keeps hkeeps hdevice
  have hroomSelf (hopen : move = .openTunnel) : opened side + 1 < 2 ^ 32 := by
    have := hroom side
    rwa [hopensSelf, if_pos hopen] at this
  have hmono {which : Side} {key : Key} (hknown : Known pair opened which key) :
      Known pair (fun side' => opened side' + opens side' [⟨side, move⟩]) which
        key :=
    hknown.mono fun _ => Nat.le_add_right _ _
  refine ⟨fun which => ?_, fun which => ?_, fun which => ?_, fun which => ?_,
    fun which id => ?_⟩
  all_goals obtain rfl | rfl := side.eq_or_eq_other which
  · rw [hself, hconnected, hbalanced.connected]
  · rw [hother, hbalanced.connected]
  · rw [hself, hregistered, hbalanced.registered]
  · rw [hother, hbalanced.registered]
  · rw [hself, hnext, hopensSelf, hbalanced.next which]
    split
    · exact (UInt32.ofNat_add _ 1).symm
    · rfl
  · rw [hother, hopensOther, hbalanced.next, Nat.add_zero]
  · rw [hself]
    refine ((hbalanced.known which).mono fun _ => hmono).step ?_ hdevice
    intro hopen
    have hid : (net which).tunnels.nextId.toNat = opened which + 1 := by
      rw [hbalanced.next which, UInt32.toNat_ofNat_of_lt' (hroomSelf hopen)]
    have hpos : 1 ≤ (net which).tunnels.nextId.toNat :=
      hid ▸ Nat.le_add_left 1 (opened which)
    have hle : (net which).tunnels.nextId.toNat ≤
        opened which + opens which [⟨which, move⟩] := by
      rw [hid, hopensSelf, if_pos hopen]
    exact ⟨rfl, hpos, hle⟩
  · rw [hother]
    exact (hbalanced.known _).mono fun _ => hmono
  · rw [Agreed, hself, hother]
    refine Device.Opens.step rfl hkeeps ?_ (hbalanced.agreed which id) hdevice
    intro hopen hkey
    have hid : id = (net which).tunnels.nextId := congrArg Key.id hkey
    obtain ⟨hhere, hthere⟩ := hbalanced.fresh (hroomSelf hopen) hid
    have hself := hbalanced.known which
    have hother := hbalanced.known which.other
    refine ⟨hother.not_open hthere, ?_, ?_⟩
    · rw [hother.downlink_nil hthere, hself.uplink_nil hhere]
      rfl
    · rw [hself.downlink_nil hhere, hother.uplink_nil hthere]
      rfl
  · rw [Agreed.other, hself, hother]
    exact Device.Accepts.step rfl hkeeps
      (Agreed.other.mp (hbalanced.agreed side.other id)) hdevice

/-- The relay hands the first frame over. -/
theorem Balanced.forward_eq (hbalanced : Balanced pair opened net)
    (hforward : net.forward pair side = some next) :
    ∃ packet rest, (net side).uplink = packet :: rest ∧
      packet.frame.key.peer = pair.name side.other ∧
      next side = { net side with uplink := rest } ∧
      next side.other = { net side.other with
        downlink := (net side.other).downlink ++
          [packet.across (pair.name side)] } := by
  obtain ⟨packet, rest, there, back, huplink, honward, hself, hother⟩ :=
    forward_eq_some hforward
  have hpeer : packet.frame.key.peer = pair.name side.other :=
    ((hbalanced.known side).uplink packet (huplink ▸ List.mem_cons_self)).1
  have hdelivered := honward
  rw [onward, if_pos ⟨hpeer, hbalanced.registered side.other⟩] at hdelivered
  obtain ⟨rfl, rfl⟩ := Prod.mk.inj hdelivered
  refine ⟨packet, rest, huplink, hpeer, ?_, ?_⟩
  · have hconnected :
        ({ net side with uplink := rest } : Device).connected = true :=
      hbalanced.connected side
    rw [hself, Device.arrive_of_connected hconnected, List.append_nil]
  · rw [hother, Device.arrive_of_connected (hbalanced.connected side.other)]

theorem Balanced.forward (hbalanced : Balanced pair opened net)
    (hforward : net.forward pair side = some next) :
    Balanced pair opened next := by
  obtain ⟨packet, rest, huplink, hpeer, hself, hother⟩ :=
    hbalanced.forward_eq hforward
  have hknown := hbalanced.known side
  have hpacket : Known pair opened side packet.frame.key :=
    hknown.uplink packet (huplink ▸ List.mem_cons_self)
  refine ⟨fun which => ?_, fun which => ?_, fun which => ?_, fun which => ?_,
    fun which id => ?_⟩
  all_goals obtain rfl | rfl := side.eq_or_eq_other which
  · rw [hself, hbalanced.connected]
  · rw [hother, hbalanced.connected]
  · rw [hself, hbalanced.registered]
  · rw [hother, hbalanced.registered]
  · rw [hself, hbalanced.next]
  · rw [hother, hbalanced.next]
  · rw [hself]
    exact ⟨hknown.opened, fun other hmem =>
      hknown.uplink other (huplink ▸ List.mem_cons_of_mem _ hmem),
      hknown.downlink⟩
  · have hthere := hbalanced.known side.other
    rw [hother]
    refine ⟨hthere.opened, hthere.uplink, fun other hmem => ?_⟩
    rcases List.mem_append.mp hmem with hold | hnew
    · exact hthere.downlink other hold
    · rw [List.mem_singleton.mp hnew]
      exact hpacket.across
  · have hagreed := hbalanced.agreed which id
    rw [Agreed, huplink, ← List.singleton_append, signals_append,
      ← List.append_assoc] at hagreed
    rw [Agreed, hself, hother]
    dsimp only
    rw [signals_append, signals_across_opener hpeer]
    exact hagreed
  · have hagreed := hbalanced.agreed side.other id
    rw [Agreed.other, Device.Accepts, huplink, ← List.singleton_append,
      signals_append, ← List.append_assoc] at hagreed
    rw [Agreed.other, Device.Accepts, hself, hother]
    dsimp only
    rw [signals_append, signals_across_acceptor hpeer]
    exact hagreed

/-- One step of two devices that keep their connections. -/
theorem Balanced.step (hbalanced : Balanced pair opened net)
    (hkeeps : move.move.Keeps)
    (hroom : ∀ side, opened side + opens side [move] < 2 ^ 32)
    (hstep : (machine pair).step net move = some next) :
    Balanced pair (fun side => opened side + opens side [move]) next := by
  rcases step_cases hstep with ⟨hmove, hforward⟩ | ⟨device, hdevice, hself, hother⟩
  · have hnone : (fun side => opened side + opens side [move]) = opened := by
      funext side
      obtain ⟨which, move⟩ := move
      obtain rfl := hmove
      simp [opens]
    rw [hnone]
    exact hbalanced.forward hforward
  · exact hbalanced.own hkeeps hroom hdevice hself hother

end Step

/-- The ends agree after these moves, if both devices keep their connections and
have numbers left. -/
def BalancedAfter (pair : Pair) (moves : List Move) (net : Network) : Prop :=
  (∀ move ∈ moves, move.move.Keeps) → (∀ side, opens side moves < 2 ^ 32) →
    Balanced pair (fun side => opens side moves) net

theorem BalancedAfter.step (past : List Move) (net : Network) (move : Move)
    (next : Network) (hbefore : BalancedAfter pair past net)
    (hstep : (machine pair).step net move = some next) :
    BalancedAfter pair (past ++ [move]) next := by
  intro hkeeps hroom
  have hopens (side : Side) : opens side (past ++ [move]) =
      opens side past + opens side [move] := List.count_append
  have hpast : Balanced pair (fun side => opens side past) net :=
    hbefore
      (fun earlier hmem => hkeeps earlier (List.mem_append_left _ hmem))
      (fun side => Nat.lt_of_le_of_lt (hopens side ▸ Nat.le_add_right _ _)
        (hroom side))
  simp only [hopens] at hroom ⊢
  exact hpast.step (hkeeps move (List.mem_append_right _ List.mem_cons_self))
    hroom hstep

theorem balanced_of_run {moves : List Move}
    (hkeeps : ∀ move ∈ moves, move.move.Keeps)
    (hroom : ∀ side, opens side moves < 2 ^ 32)
    (hrun : (machine pair).run initial moves = some net) :
    Balanced pair (fun side => opens side moves) net := by
  have hinitial : BalancedAfter pair [] initial :=
    fun _ _ => balanced_initial pair
  exact Machine.run_of_history BalancedAfter.step hinitial hrun hkeeps hroom

/-! ## Handling what is left -/

end Network

/-- Handles an event or a frame, and starts nothing. -/
def Device.Move.Handles : Device.Move → Prop
  | .handlePumped | .handleFrame _ | .forward => True
  | _ => False

instance : ∀ move : Device.Move, Decidable move.Handles
  | .handlePumped => .isTrue trivial
  | .handleFrame _ => .isTrue trivial
  | .forward => .isTrue trivial
  | .pipe _ _ => .isFalse nofun
  | .openTunnel => .isFalse nofun
  | .drop => .isFalse nofun
  | .forget => .isFalse nofun
  | .reconnect => .isFalse nofun

theorem Device.Move.Handles.keeps {move : Device.Move} (hhandles : move.Handles) :
    move.Keeps := by
  cases move with
  | handlePumped | handleFrame | forward => exact ⟨nofun, nofun, nofun⟩
  | _ => cases hhandles

namespace Packet

/-- The steps that a frame can still cause before the relay handles it. -/
def uplinkWork (packet : Packet) : ℕ :=
  if packet.frame.kind = kindData then 4 else 2

/-- The steps that a frame can still cause after that. -/
def downlinkWork (packet : Packet) : ℕ :=
  if packet.frame.kind = kindData then 3 else 1

theorem uplinkWork_le (packet : Packet) : packet.uplinkWork ≤ 4 := by
  rw [uplinkWork]
  split <;> decide

theorem downlinkWork_pos (packet : Packet) : 1 ≤ packet.downlinkWork := by
  rw [downlinkWork]
  split <;> decide

theorem downlinkWork_lt (packet : Packet) :
    packet.downlinkWork < packet.uplinkWork := by
  rw [downlinkWork, uplinkWork]
  split <;> decide

end Packet

namespace Device

/-- No event and no frame is left to be handled. -/
def Quiet (device : Device) : Prop :=
  device.pumped = [] ∧ device.uplink = [] ∧ device.downlink = []

instance (device : Device) : Decidable device.Quiet :=
  inferInstanceAs (Decidable (_ ∧ _ ∧ _))

/-- What is left to be done. -/
def work (device : Device) : ℕ :=
  5 * device.pumped.length + (device.uplink.map Packet.uplinkWork).sum +
    (device.downlink.map Packet.downlinkWork).sum

variable {device device' : Device}

theorem handlePumped_work (hstep : device.handlePumped = some device') :
    device'.work < device.work := by
  obtain ⟨event, rest, result, hpumped, htaken, rfl⟩ :=
    handlePumped_eq_some hstep
  have hreply : (result.2.toList.map
      (Packet.uplinkWork ∘ Packet.plain)).sum ≤ 4 := by
    cases result.2 with
    | none => exact Nat.zero_le 4
    | some frame => exact (Packet.plain frame).uplinkWork_le
  dsimp only [work]
  rw [List.map_append, List.sum_append, List.map_map, hpumped, List.length_cons]
  omega

/-- Only data is ever answered, and with a close. -/
theorem receives_reply {tunnels : Tunnels} {packet : Packet}
    {result : Tunnels × Option Frame}
    (hreceived : Tunnels.Received tunnels packet.frame packet.source result) :
    result.2 = none ∨ packet.frame.kind = kindData ∧
      result.2 = some ⟨kindClose, packet.frame.key, []⟩ := by
  cases hreceived with
  | refused | opened | delivered | closed => exact .inl rfl
  | unknown hkind => exact .inr ⟨hkind, rfl⟩

theorem handleFrame_work {node : Bool}
    (hstep : device.handleFrame node = some device') :
    device'.work < device.work := by
  obtain ⟨packet, rest, result, hdownlink, hreceived, rfl⟩ :=
    handleFrame_eq_some hstep
  have hreply : (result.2.toList.map
      (Packet.uplinkWork ∘ Packet.plain)).sum < packet.downlinkWork := by
    rcases receives_reply hreceived with hnone | ⟨hkind, hclose⟩
    · rw [hnone]
      exact packet.downlinkWork_pos
    · rw [hclose, Packet.downlinkWork, if_pos hkind]
      exact Nat.lt_succ_self 2
  dsimp only [work]
  rw [List.map_append, List.sum_append, List.map_map, hdownlink, List.map_cons,
    List.sum_cons]
  omega

theorem arrive_work (packets : List Packet) :
    (device.arrive packets).work ≤
      device.work + (packets.map Packet.downlinkWork).sum := by
  rw [arrive]
  split
  · dsimp only [work]
    rw [List.map_append, List.sum_append]
    omega
  · exact Nat.le_add_right _ _

end Device

namespace Network

variable {pair : Pair} {net next final : Network} {side : Side}

def work (net : Network) : ℕ := (net .left).work + (net .right).work

theorem work_eq (net : Network) (side : Side) :
    net.work = (net side).work + (net side.other).work := by
  cases side with
  | left => rfl
  | right => exact Nat.add_comm _ _

/-- What the relay makes of a frame is less than the frame. -/
theorem onward_work {recipient : Device} {packet : Packet}
    {there back : List Packet}
    (honward : onward pair side recipient packet = (there, back)) :
    (there.map Packet.downlinkWork).sum + (back.map Packet.downlinkWork).sum <
      packet.uplinkWork := by
  rw [onward] at honward
  split at honward
  · obtain ⟨rfl, rfl⟩ := Prod.mk.inj honward
    exact packet.downlinkWork_lt
  · have hone : 1 < packet.uplinkWork :=
      Nat.lt_of_le_of_lt packet.downlinkWork_pos packet.downlinkWork_lt
    split at honward
    · obtain ⟨rfl, rfl⟩ := Prod.mk.inj honward
      exact Nat.lt_of_succ_lt hone
    · obtain ⟨rfl, rfl⟩ := Prod.mk.inj honward
      exact hone

theorem forward_work (hforward : net.forward pair side = some next) :
    next.work < net.work := by
  obtain ⟨packet, rest, there, back, huplink, honward, hself, hother⟩ :=
    forward_eq_some hforward
  have hless := onward_work honward
  have hhere : (({ net side with uplink := rest } : Device).arrive back).work ≤ _ :=
    Device.arrive_work back
  have hthere : ((net side.other).arrive there).work ≤ _ :=
    Device.arrive_work there
  have hbefore : (net side).work =
      ({ net side with uplink := rest } : Device).work +
        packet.uplinkWork := by
    dsimp only [Device.work]
    rw [huplink, List.map_cons, List.sum_cons]
    omega
  rw [net.work_eq side, next.work_eq side, hself, hother]
  omega

theorem handles_work {move : Move} (hhandles : move.move.Handles)
    (hstep : (machine pair).step net move = some next) :
    next.work < net.work := by
  rcases step_cases hstep with ⟨-, hforward⟩ | ⟨device, hdevice, hself, hother⟩
  · exact forward_work hforward
  · rw [net.work_eq move.side, next.work_eq move.side, hself, hother]
    obtain ⟨side, move⟩ := move
    refine Nat.add_lt_add_right ?_ _
    cases move with
    | handlePumped => exact Device.handlePumped_work hdevice
    | handleFrame => exact Device.handleFrame_work hdevice
    | forward => cases hdevice
    | _ => cases hhandles

/-- As long as something is left, it can be handled. -/
theorem quiet_or_handles (pair : Pair) (net : Network) :
    (∀ side, (net side).Quiet) ∨
      ∃ move, move.move.Handles ∧
        ∃ next, (machine pair).step net move = some next := by
  by_cases hquiet : ∀ side, (net side).Quiet
  · exact .inl hquiet
  obtain ⟨side, hleft⟩ := not_forall.mp hquiet
  refine .inr ?_
  cases hpumped : (net side).pumped with
  | cons event rest =>
      refine ⟨⟨side, .handlePumped⟩, trivial, Option.isSome_iff_exists.mp ?_⟩
      dsimp only [machine, Device.step, Device.handlePumped]
      rw [hpumped, Option.isSome_map]
      rfl
  | nil =>
  cases huplink : (net side).uplink with
  | cons packet rest =>
      refine ⟨⟨side, .forward⟩, trivial, Option.isSome_iff_exists.mp ?_⟩
      dsimp only [machine, forward]
      rw [huplink]
      rfl
  | nil =>
  cases hdownlink : (net side).downlink with
  | cons packet rest =>
      refine ⟨⟨side, .handleFrame true⟩, trivial,
        Option.isSome_iff_exists.mp ?_⟩
      dsimp only [machine, Device.step, Device.handleFrame]
      rw [hdownlink, Option.isSome_map]
      rfl
  | nil => exact absurd ⟨hpumped, huplink, hdownlink⟩ hleft

/-- With nothing left to handle, both ends of every tunnel are open or none is. -/
theorem Balanced.same_open {opened : Side → ℕ}
    (hbalanced : Balanced pair opened net) (hquiet : ∀ side, (net side).Quiet)
    (side : Side) (id : UInt32) (openedHere : Bool) :
    (net side).tunnels.isOpen ⟨pair.name side.other, id, openedHere⟩ =
      (net side.other).tunnels.isOpen ⟨pair.name side, id, !openedHere⟩ := by
  have hagree (which : Side) :
      (net which).tunnels.isOpen (openerKey pair which id) =
        (net which.other).tunnels.isOpen (acceptorKey pair which id) := by
    have hagreed := hbalanced.agreed which id
    rw [Agreed, (hquiet which).2.1, (hquiet which).2.2,
      (hquiet which.other).2.1, (hquiet which.other).2.2] at hagreed
    exact hagreed.agree
  cases openedHere with
  | true => exact hagree side
  | false =>
      have hother := (hagree side.other).symm
      rwa [acceptorKey, openerKey, side.other_other] at hother

/-- Handling a close ends it: nothing is sent because of it, neither by the
device it is for nor by the relay. -/
def CloseEnds (pair : Pair) (net : Network) : Prop :=
  ∀ side packet rest next, packet.frame.kind = kindClose →
    ((net side).downlink = packet :: rest → ∀ node,
      (machine pair).step net ⟨side, .handleFrame node⟩ = some next →
        (next side).uplink = (net side).uplink) ∧
    ((net side).uplink = packet :: rest →
      (machine pair).step net ⟨side, .forward⟩ = some next →
        (next side).downlink = (net side).downlink)

theorem closeEnds (pair : Pair) (net : Network) : CloseEnds pair net := by
  have hnotData {packet : Packet} (hkind : packet.frame.kind = kindClose) :
      packet.frame.kind ≠ kindData := hkind ▸ by decide
  intro side packet rest next hkind
  refine ⟨fun hdownlink node hstep => ?_, fun huplink hstep => ?_⟩
  · obtain ⟨device, hdevice, rfl⟩ := Option.map_eq_some_iff.mp hstep
    obtain ⟨first, others, result, hfirst, hreceived, rfl⟩ :=
      Device.handleFrame_eq_some hdevice
    obtain ⟨rfl, rfl⟩ := List.cons.inj (hdownlink.symm.trans hfirst)
    rw [Function.update_self]
    rcases Device.receives_reply hreceived with hnone | ⟨hdata, -⟩
    · dsimp only
      rw [hnone]
      exact List.append_nil _
    · exact absurd hdata (hnotData hkind)
  · obtain ⟨first, others, there, back, hfirst, honward, hself, -⟩ :=
      forward_eq_some hstep
    obtain ⟨rfl, rfl⟩ := List.cons.inj (huplink.symm.trans hfirst)
    have hback : back = [] := by
      rw [onward, if_pos hkind] at honward
      split at honward
      · exact (Prod.mk.inj honward).2.symm
      · exact (Prod.mk.inj honward).2.symm
    rw [hself, hback, Device.arrive_downlink]
    split
    · exact List.append_nil _
    · rfl

/-- After any run in which both devices keep their connections, handling what is
left comes to an end, and where nothing is left, each device has a tunnel open
exactly when the other one has. -/
theorem both_ends_agree {moves : List Move}
    (hkeeps : ∀ move ∈ moves, move.move.Keeps)
    (hroom : ∀ side, opens side moves < 2 ^ 32)
    (hrun : (machine pair).run initial moves = some net) :
    CloseEnds pair net ∧
    ∀ handling final, (∀ move ∈ handling, move.move.Handles) →
      (machine pair).run net handling = some final →
        handling.length ≤ net.work ∧
        ((∀ side, (final side).Quiet) ∨
          ∃ move, move.move.Handles ∧
            ∃ next, (machine pair).step final move = some next) ∧
        ((∀ side, (final side).Quiet) → ∀ side id openedHere,
          (final side).tunnels.isOpen ⟨pair.name side.other, id, openedHere⟩ =
            (final side.other).tunnels.isOpen
              ⟨pair.name side, id, !openedHere⟩) := by
  refine ⟨closeEnds pair net, fun handling final hhandles hhandled => ?_⟩
  have hless (net : Network) (move : Move) (next : Network) (_ : True)
      (hmem : move ∈ handling) (hstep : (machine pair).step net move = some next) :
      True ∧ next.work < net.work :=
    ⟨trivial, handles_work (hhandles move hmem) hstep⟩
  have hlength : handling.length ≤ net.work :=
    Machine.length_le_of_measure hless trivial
      ((machine pair).along_mem net handling) hhandled
  have hwhole : (machine pair).run initial (moves ++ handling) = some final := by
    rw [Machine.run_append, hrun]
    exact hhandled
  have hkeepsAll : ∀ move ∈ moves ++ handling, move.move.Keeps := by
    intro move hmem
    rcases List.mem_append.mp hmem with hold | hnew
    · exact hkeeps move hold
    · exact (hhandles move hnew).keeps
  have hopens (side : Side) : opens side (moves ++ handling) = opens side moves := by
    have hnone : opens side handling = 0 :=
      List.count_eq_zero.mpr fun hmem => hhandles _ hmem
    rw [opens, List.count_append]
    exact (congrArg _ hnone).trans (Nat.add_zero _)
  have hbalanced := balanced_of_run hkeepsAll
    (fun side => hopens side ▸ hroom side) hwhole
  exact ⟨hlength, quiet_or_handles pair final, hbalanced.same_open⟩

/-- The right device opens two tunnels, and both sessions of the first one end at
the same time. -/
def bothLeave : List Move :=
  [⟨.right, .openTunnel⟩, ⟨.right, .openTunnel⟩, ⟨.right, .forward⟩,
    ⟨.left, .handleFrame true⟩, ⟨.left, .pipe 0 .leave⟩, ⟨.left, .pipe 0 .poll⟩,
    ⟨.left, .pipe 0 .finish⟩, ⟨.right, .pipe 0 .leave⟩,
    ⟨.right, .pipe 0 .poll⟩, ⟨.right, .pipe 0 .finish⟩]

/-- The two closes cross. -/
def crossing : List Move :=
  [⟨.left, .handlePumped⟩, ⟨.right, .handlePumped⟩, ⟨.left, .forward⟩,
    ⟨.right, .forward⟩, ⟨.right, .forward⟩, ⟨.right, .handleFrame true⟩,
    ⟨.left, .handleFrame true⟩, ⟨.left, .handleFrame true⟩]

theorem both_ends_agree_bothLeave :
    ∃ net final, (machine examplePair).run initial bothLeave = some net ∧
      (machine examplePair).run net crossing = some final ∧
      crossing.length ≤ net.work ∧
      (final .left).tunnels.isOpen ⟨⟨2⟩, 1, false⟩ =
        (final .right).tunnels.isOpen ⟨⟨1⟩, 1, true⟩ ∧
      (final .left).tunnels.isOpen ⟨⟨2⟩, 1, false⟩ = false ∧
      (final .left).tunnels.isOpen ⟨⟨2⟩, 2, false⟩ =
        (final .right).tunnels.isOpen ⟨⟨1⟩, 2, true⟩ ∧
      (final .left).tunnels.isOpen ⟨⟨2⟩, 2, false⟩ = true := by
  have hwhat : (((machine examplePair).run initial bothLeave).bind fun net =>
      (machine examplePair).run net crossing).map (fun final =>
        (decide (final .left).Quiet, decide (final .right).Quiet,
          (final .left).tunnels.isOpen ⟨⟨2⟩, 1, false⟩,
          (final .left).tunnels.isOpen ⟨⟨2⟩, 2, false⟩)) =
      some (true, true, false, true) := by decide
  obtain ⟨final, hboth, hfinal⟩ := Option.map_eq_some_iff.mp hwhat
  obtain ⟨net, hrun, hhandled⟩ := Option.bind_eq_some_iff.mp hboth
  simp only [Prod.mk.injEq, decide_eq_true_eq] at hfinal
  obtain ⟨hleft, hright, hclosed, hopen⟩ := hfinal
  obtain ⟨-, hall⟩ := both_ends_agree (by decide)
    (fun side => by cases side <;> decide) hrun
  obtain ⟨hlength, -, hagree⟩ := hall crossing final (by decide) hhandled
  have hquiet (side : Side) : (final side).Quiet := by
    cases side with
    | left => exact hleft
    | right => exact hright
  exact ⟨net, final, hrun, hhandled, hlength, hagree hquiet .left 1 false,
    hclosed, hagree hquiet .left 2 false, hopen⟩

end Network

end Cled.Desktop
