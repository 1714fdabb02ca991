import Cled.Core.Following
import Cled.Desktop.Network
import Cled.Desktop.Pumping

/-!
# What tunnels say and hear

The device that opened a tunnel sends signals about it: that it opened, bytes,
that it closed.  What frames took of each pipe and what they brought to each
session change only where one of the steps of a device is about this tunnel.
-/

namespace Cled.Desktop

open Cled.Core Cled.Clipboard Cled.Sync

/-! ## What was sent, and what was heard -/

/-- What data frames took of a pipe. -/
def Tunnels.sentBy (tunnels : Tunnels) (pipe : ℕ) : Option Bytes :=
  tunnels.pipes[pipe]?.map Pipe.sent

/-- What frames brought for the session. -/
def Pipe.brought (pipe : Pipe) : Bytes := pipe.received ++ pipe.incoming

/-- What frames brought for a session that takes more. -/
def Pipe.heard (pipe : Pipe) : Heard UInt8 :=
  if pipe.writing then pipe.source.map fun source => (source, pipe.brought)
  else none

def Tunnels.heardAt (tunnels : Tunnels) (key : Key) : Heard UInt8 :=
  (tunnels.opened.get key).bind fun pipe => tunnels.pipes[pipe]?.bind Pipe.heard

namespace Tunnels

variable {tunnels : Tunnels}

theorem sentBy_modifyPipe (change : Pipe → Pipe)
    (hkeeps : ∀ pipe, (change pipe).sent = pipe.sent) (pipe : ℕ) :
    (tunnels.modifyPipe pipe change).sentBy = tunnels.sentBy := by
  funext other
  dsimp only [sentBy, modifyPipe]
  rw [List.getElem?_modify]
  cases tunnels.pipes[other]? with
  | none => rfl
  | some found =>
      by_cases heq : pipe = other
      · simp [heq, hkeeps]
      · simp [heq]

theorem sentBy_deliver (pipe : ℕ) (data : Bytes) :
    (tunnels.modifyPipe pipe (.deliver data)).sentBy = tunnels.sentBy :=
  sentBy_modifyPipe (.deliver data) (fun _ => rfl) pipe

theorem sentBy_send {pipe : ℕ} {found : Pipe}
    (hfound : tunnels.pipes[pipe]? = some found) (data : Bytes) (other : ℕ) :
    (tunnels.modifyPipe pipe (.send data)).sentBy other =
      if other = pipe then some (found.sent ++ data)
      else tunnels.sentBy other := by
  dsimp only [sentBy, modifyPipe]
  by_cases heq : other = pipe
  · rw [if_pos heq, heq, List.getElem?_modify_eq, hfound]
    rfl
  · rw [if_neg heq, List.getElem?_modify_ne _ _ (Ne.symm heq)]

theorem sentBy_remove (key : Key) :
    (tunnels.remove key).sentBy = tunnels.sentBy := by
  funext pipe
  rw [sentBy, remove_pipes, sentBy, Option.map_map]
  refine congrArg (Option.map · _) (funext fun found => ?_)
  dsimp only [Function.comp_apply]
  split <;> rfl

theorem sentBy_create (key : Key) (source : Option ℕ) (pipe : ℕ) :
    (tunnels.create key source).sentBy pipe =
      if pipe = tunnels.nextPipe then some [] else tunnels.sentBy pipe := by
  rw [sentBy, create_pipes]
  split
  · rfl
  · rw [← sentBy_remove key]
    rfl

theorem sentBy_renew : tunnels.renew.sentBy = tunnels.sentBy := by
  funext pipe
  rw [sentBy, renew, List.getElem?_map, Option.map_map]
  rfl

theorem extends_create (key : Key) (source : Option ℕ) :
    Extends tunnels.sentBy (tunnels.create key source).sentBy := by
  intro pipe all hall
  rw [sentBy_create]
  split
  · next hnew =>
    rw [sentBy, hnew, nextPipe, List.getElem?_length] at hall
    cases hall
  · exact ⟨all, hall, List.prefix_refl all⟩

theorem extends_send {pipe : ℕ} {found : Pipe}
    (hfound : tunnels.pipes[pipe]? = some found) (data : Bytes) :
    Extends tunnels.sentBy (tunnels.modifyPipe pipe (.send data)).sentBy := by
  intro other all hall
  rw [sentBy_send hfound]
  split
  · next heq =>
    rw [heq, sentBy, hfound] at hall
    obtain rfl := Option.some.inj hall
    exact ⟨_, rfl, List.prefix_append _ _⟩
  · exact ⟨all, hall, List.prefix_refl all⟩

theorem heardAt_of_listening {key : Key}
    (hlistening : tunnels.listening key = none) :
    tunnels.heardAt key = none := by
  rw [listening, Option.filter_eq_none_iff] at hlistening
  cases hopened : tunnels.opened.get key with
  | none => rw [heardAt, hopened, Option.bind_none]
  | some pipe =>
      have hdeaf := hlistening pipe hopened
      rw [heardAt, hopened, Option.bind_some]
      cases hfound : tunnels.pipes[pipe]? with
      | none => rfl
      | some found =>
          rw [hfound, Option.any_some] at hdeaf
          rw [Option.bind_some, Pipe.heard, if_neg hdeaf]

theorem heardAt_remove (key other : Key) :
    (tunnels.remove key).heardAt other =
      if other = key then none else tunnels.heardAt other := by
  rw [heardAt, remove_opened]
  split
  · rfl
  · refine congrArg (Option.bind _) (funext fun pipe => ?_)
    rw [remove_pipes]
    cases tunnels.pipes[pipe]? with
    | none => rfl
    | some found =>
        rw [Option.map_some, Option.bind_some, Option.bind_some]
        split <;> rfl

theorem heardAt_create {pumped : List Pumped} (hpumping : Pumping tunnels pumped)
    (key : Key) (source : Option ℕ) (other : Key) :
    (tunnels.create key source).heardAt other =
      if other = key then source.map fun source => (source, [])
      else tunnels.heardAt other := by
  rw [heardAt, create_opened]
  split
  · rw [Option.bind_some, create_pipes, if_pos rfl]
    rfl
  · next hne =>
    have hremoved : (tunnels.remove key).heardAt other =
        if other = key then none else tunnels.heardAt other :=
      heardAt_remove key other
    rw [if_neg hne, heardAt, remove_opened, if_neg hne] at hremoved
    rw [← hremoved]
    cases hopened : tunnels.opened.get other with
    | none => rfl
    | some pipe =>
        obtain ⟨found, hfound, -⟩ := hpumping.opened hopened
        have hlt : pipe < tunnels.nextPipe :=
          (List.getElem?_eq_some_iff.mp hfound).1
        rw [Option.bind_some, Option.bind_some, create_pipes,
          if_neg (Nat.ne_of_lt hlt)]

theorem heardAt_modifyPipe {pipe : ℕ} (change : Pipe → Pipe)
    (hkeeps : ∀ found, tunnels.pipes[pipe]? = some found →
      (change found).heard = found.heard) (key : Key) :
    (tunnels.modifyPipe pipe change).heardAt key = tunnels.heardAt key := by
  rw [heardAt, modifyPipe_opened, heardAt]
  refine congrArg (Option.bind _) (funext fun other => ?_)
  dsimp only [modifyPipe]
  rw [List.getElem?_modify]
  by_cases heq : pipe = other
  · subst heq
    cases hfound : tunnels.pipes[pipe]? with
    | none => rfl
    | some found => simp [hkeeps found hfound]
  · simp [heq]

theorem listening_eq_some {key : Key} {pipe : ℕ}
    (hlistening : tunnels.listening key = some pipe) :
    tunnels.opened.get key = some pipe ∧
      ∃ found, tunnels.pipes[pipe]? = some found ∧ found.writing = true := by
  obtain ⟨hopened, hwriting⟩ := Option.filter_eq_some_iff.mp hlistening
  refine ⟨hopened, ?_⟩
  cases hfound : tunnels.pipes[pipe]? with
  | none =>
      rw [hfound] at hwriting
      cases hwriting
  | some found =>
      rw [hfound] at hwriting
      exact ⟨found, rfl, hwriting⟩

theorem heardAt_deliver {pumped : List Pumped} (hpumping : Pumping tunnels pumped)
    {key : Key} {pipe : ℕ} (hlistening : tunnels.listening key = some pipe)
    (data : Bytes) (other : Key) :
    (tunnels.modifyPipe pipe (.deliver data)).heardAt other =
      if other = key then hear (tunnels.heardAt other) (.data data)
      else tunnels.heardAt other := by
  obtain ⟨hopened, found, hfound, hwriting⟩ := listening_eq_some hlistening
  rw [heardAt, modifyPipe_opened]
  split
  · next heq =>
    have hdelivered : (tunnels.modifyPipe pipe (.deliver data)).pipes[pipe]? =
        some (found.deliver data) := by
      dsimp only [modifyPipe]
      rw [List.getElem?_modify_eq, hfound]
      rfl
    have hheard : (found.deliver data).heard = hear found.heard (.data data) := by
      have hstill : (found.deliver data).writing = true := hwriting
      rw [Pipe.heard, Pipe.heard, if_pos hwriting, if_pos hstill, hear,
        Option.map_map]
      refine congrArg (Option.map · found.source) (funext fun source => ?_)
      dsimp only [Pipe.brought, Pipe.deliver, Function.comp_apply]
      rw [List.append_assoc]
    rw [heq, hopened, Option.bind_some, hdelivered, Option.bind_some, hheard,
      heardAt, hopened, Option.bind_some, hfound, Option.bind_some]
  · next hne =>
    cases hother : tunnels.opened.get other with
    | none => rw [heardAt, hother, Option.bind_none, Option.bind_none]
    | some number =>
        have hdifferent : pipe ≠ number := by
          rintro rfl
          exact hne (hpumping.key_eq hother hopened)
        dsimp only [modifyPipe]
        rw [heardAt, hother, Option.bind_some, Option.bind_some,
          List.getElem?_modify_ne _ _ hdifferent]

end Tunnels

/-- What a session or one of its tasks leaves as it is. -/
theorem Pipe.step_keeps {pipe pipe' : Pipe} {move : PipeMove}
    {events : List Pumped} (hstep : pipe.step move = some (pipe', events)) :
    pipe'.key = pipe.key ∧ pipe'.source = pipe.source ∧
      pipe'.sent = pipe.sent ∧ pipe'.brought <+: pipe.brought ∧
      (pipe'.heard = pipe.heard ∨ pipe'.heard = none) := by
  have hsame : pipe.brought <+: pipe.brought := List.prefix_refl _
  cases moved_of_step hstep with
  | write | shutDown | leave | poll | pump | finish | wait | stop =>
      exact ⟨rfl, rfl, rfl, hsame, .inl rfl⟩
  | receive count =>
      have hbrought : pipe.received ++ pipe.incoming.take count ++
          pipe.incoming.drop count = pipe.brought := by
        rw [List.append_assoc, List.take_append_drop, brought]
      refine ⟨rfl, rfl, rfl, hbrought ▸ List.prefix_refl _, .inl ?_⟩
      rw [heard, heard, ← hbrought]
      rfl
  | writeFails =>
      refine ⟨rfl, rfl, rfl, ?_, .inr rfl⟩
      dsimp only [brought]
      rw [List.append_nil]
      exact List.prefix_append _ _

namespace Tunnels

variable {tunnels : Tunnels}

theorem sentBy_step {pipe : ℕ} {found found' : Pipe}
    (hfound : tunnels.pipes[pipe]? = some found)
    (hsent : found'.sent = found.sent) :
    (tunnels.modifyPipe pipe fun _ => found').sentBy = tunnels.sentBy := by
  funext other
  dsimp only [sentBy, modifyPipe]
  by_cases heq : other = pipe
  · rw [heq, List.getElem?_modify_eq, hfound, Option.map_some, ← hsent]
    rfl
  · rw [List.getElem?_modify_ne _ _ (Ne.symm heq)]

theorem heardAt_step {pipe : ℕ} {found found' : Pipe}
    (hfound : tunnels.pipes[pipe]? = some found)
    (hheard : found'.heard = found.heard ∨ found'.heard = none) (key : Key) :
    (tunnels.modifyPipe pipe fun _ => found').heardAt key =
        tunnels.heardAt key ∨
      (tunnels.modifyPipe pipe fun _ => found').heardAt key = none := by
  rw [heardAt, modifyPipe_opened, heardAt]
  cases tunnels.opened.get key with
  | none => exact .inl rfl
  | some other =>
      rw [Option.bind_some, Option.bind_some]
      dsimp only [modifyPipe]
      by_cases heq : other = pipe
      · rw [heq, List.getElem?_modify_eq, hfound]
        exact hheard
      · exact .inl (by rw [List.getElem?_modify_ne _ _ (Ne.symm heq)])

end Tunnels

/-! ## What frames say about a tunnel -/

/-- What a packet says about the tunnel with this key. -/
def signalOf (key : Key) (packet : Packet) : Option (Signal UInt8) :=
  if packet.frame.key = key then
    some (if packet.frame.kind = kindOpen then .opened packet.source
      else if packet.frame.kind = kindData then .data packet.frame.data
      else .closed)
  else none

def signals (key : Key) (packets : List Packet) : List (Signal UInt8) :=
  packets.filterMap (signalOf key)

theorem signals_append (key : Key) (front back : List Packet) :
    signals key (front ++ back) = signals key front ++ signals key back :=
  List.filterMap_append

theorem signals_of_ne {key : Key} {packet : Packet}
    (hne : packet.frame.key ≠ key) : signals key [packet] = [] := by
  rw [signals, List.filterMap_cons, signalOf, if_neg hne]
  rfl

theorem signals_opened (packet : Packet) (hkind : packet.frame.kind = kindOpen) :
    signals packet.frame.key [packet] = [.opened packet.source] := by
  rw [signals, List.filterMap_cons, signalOf, if_pos rfl, if_pos hkind]
  rfl

theorem signals_data (packet : Packet) (hkind : packet.frame.kind = kindData) :
    signals packet.frame.key [packet] = [.data packet.frame.data] := by
  have hopen : packet.frame.kind ≠ kindOpen := hkind ▸ by decide
  rw [signals, List.filterMap_cons, signalOf, if_pos rfl, if_neg hopen,
    if_pos hkind]
  rfl

theorem signals_closed (packet : Packet) (hopen : packet.frame.kind ≠ kindOpen)
    (hdata : packet.frame.kind ≠ kindData) :
    signals packet.frame.key [packet] = [.closed] := by
  rw [signals, List.filterMap_cons, signalOf, if_pos rfl, if_neg hopen,
    if_neg hdata]
  rfl

theorem signals_close (key : Key) :
    signals key [.plain ⟨kindClose, key, []⟩] = [.closed] :=
  signals_closed (.plain ⟨kindClose, key, []⟩) (by decide : kindClose ≠ kindOpen)
    (by decide : kindClose ≠ kindData)

theorem signals_eq_nil {key : Key} {packets : List Packet}
    (hpackets : ∀ packet ∈ packets, packet.frame.key ≠ key) :
    signals key packets = [] := by
  rw [signals, List.filterMap_eq_nil_iff]
  exact fun packet hmem => if_neg (hpackets packet hmem)

theorem signals_cons_of_ne {key : Key} {packet : Packet}
    (hne : packet.frame.key ≠ key) (rest : List Packet) :
    signals key (packet :: rest) = signals key rest := by
  rw [← List.singleton_append, signals_append, signals_of_ne hne]
  rfl

theorem signals_cons_self {packet : Packet} {signal : Signal UInt8}
    (hsignal : signals packet.frame.key [packet] = [signal])
    (rest : List Packet) :
    signals packet.frame.key (packet :: rest) =
      signal :: signals packet.frame.key rest := by
  rw [← List.singleton_append, signals_append, hsignal]
  rfl

/-! ## Through the relay -/

namespace Network

variable {pair : Pair}

/-- The key of a tunnel at the device that opened it. -/
def openerKey (pair : Pair) (side : Side) (id : UInt32) : Key :=
  ⟨pair.name side.other, id, true⟩

/-- The key of that tunnel at the other device. -/
def acceptorKey (pair : Pair) (side : Side) (id : UInt32) : Key :=
  ⟨pair.name side, id, false⟩

/-- What the relay delivers says the same about the tunnel. -/
theorem signals_across {packet : Packet} {key : Key} {sender : DeviceId}
    (hpeer : packet.frame.key.peer = key.peer) :
    signals (key.across sender) [packet.across sender] = signals key [packet] := by
  have hkey : (packet.across sender).frame.key = key.across sender ↔
      packet.frame.key = key := by
    obtain ⟨⟨kind, ⟨peer, number, openedHere⟩, data⟩, source⟩ := packet
    obtain ⟨other, id, side⟩ := key
    dsimp only at hpeer
    simp [Packet.across, Key.across, hpeer]
  by_cases hsame : packet.frame.key = key
  · simp only [signals, List.filterMap_cons, signalOf, hkey.mpr hsame, hsame,
      if_true]
    rfl
  · rw [signals_of_ne hsame, signals_of_ne (mt hkey.mp hsame)]

theorem signals_across_opener {packet : Packet} {side : Side} {id : UInt32}
    (hpeer : packet.frame.key.peer = pair.name side.other) :
    signals (acceptorKey pair side id) [packet.across (pair.name side)] =
      signals (openerKey pair side id) [packet] := by
  have hkey : acceptorKey pair side id =
      (openerKey pair side id).across (pair.name side) := rfl
  rw [hkey]
  exact signals_across hpeer

theorem signals_across_acceptor {packet : Packet} {side : Side} {id : UInt32}
    (hpeer : packet.frame.key.peer = pair.name side.other) :
    signals (openerKey pair side.other id) [packet.across (pair.name side)] =
      signals (acceptorKey pair side.other id) [packet] := by
  have hkey : openerKey pair side.other id =
      (acceptorKey pair side.other id).across (pair.name side) := by
    rw [openerKey, side.other_other]
    rfl
  rw [hkey]
  exact signals_across hpeer

/-- What the relay sends back closes a tunnel or nothing. -/
theorem onward_back {side : Side} {recipient : Device} {packet : Packet}
    {there back : List Packet}
    (honward : onward pair side recipient packet = (there, back)) :
    back = [] ∨ back = [.plain ⟨kindClose, packet.frame.key, []⟩] := by
  rw [onward] at honward
  split at honward
  · exact .inl (Prod.mk.inj honward).2.symm
  · split at honward
    · exact .inl (Prod.mk.inj honward).2.symm
    · exact .inr (Prod.mk.inj honward).2.symm

/-- What the relay sends on is the packet, or nothing. -/
theorem onward_there {side : Side} {recipient : Device} {packet : Packet}
    {there back : List Packet}
    (honward : onward pair side recipient packet = (there, back)) :
    packet.frame.key.peer = pair.name side.other ∧
        recipient.registered = true ∧
        there = [packet.across (pair.name side)] ∨
      (packet.frame.key.peer ≠ pair.name side.other ∨
        recipient.registered = false) ∧ there = [] := by
  rw [onward] at honward
  split at honward
  · next hreaches =>
    exact .inl ⟨hreaches.1, hreaches.2, (Prod.mk.inj honward).1.symm⟩
  · next hstays =>
    rw [not_and_or, Bool.not_eq_true] at hstays
    refine .inr ⟨hstays, ?_⟩
    split at honward
    · exact (Prod.mk.inj honward).1.symm
    · exact (Prod.mk.inj honward).1.symm

end Network

end Cled.Desktop
