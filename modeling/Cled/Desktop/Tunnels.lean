import Cled.Desktop.Tunnel

/-!
# The open tunnels of a relay connection

Each open tunnel has a session and two tasks: one reads what the session writes
and queues it for the relay task, the other writes to the session what frames
bring.  The tasks live on for a while after their tunnel is closed.  What they
and the session do is one step each; what the relay task does with its tunnels
is one step too.
-/

namespace Cled.Desktop

open Cled.Core Cled.Clipboard Cled.Sync

/-! ## Sessions and their tasks -/

/-- The task that reads what a session writes. -/
inductive Reader where
  /-- It waits for the session to write. -/
  | waiting
  /-- It is being polled. -/
  | reading
  /-- It was aborted while it was being polled, and ends where it would wait. -/
  | aborted
  | stopped
  deriving DecidableEq

namespace Reader

/-- `AbortHandle::abort`. -/
def abort : Reader → Reader
  | .waiting => .stopped
  | .reading => .aborted
  | .aborted => .aborted
  | .stopped => .stopped

/-- It can still queue something. -/
def Running (reader : Reader) : Prop := reader = .reading ∨ reader = .aborted

instance (reader : Reader) : Decidable reader.Running :=
  inferInstanceAs (Decidable (_ ∨ _))

/-- Its tunnel has not been dropped. -/
def Alive (reader : Reader) : Prop := reader = .waiting ∨ reader = .reading

theorem abort_not_alive (reader : Reader) : ¬ reader.abort.Alive := by
  cases reader <;> simp [abort, Alive]

theorem abort_of_not_running {reader : Reader} (hidle : ¬ reader.Running) :
    reader.abort = .stopped := by
  cases reader <;> simp_all [abort, Running]

end Reader

/-- Bytes the session wrote into a tunnel, to be sent (`none`: it closed its
end). -/
structure Pumped where
  key : Key
  data : Option Bytes
  deriving DecidableEq

/-- A tunnel's session with the two tasks that serve it.  What was written and
sent, and the other end's number, are only there to be spoken about. -/
structure Pipe where
  key : Key
  /-- The number the tunnel has at the device that opened it, if that is the
  other one. -/
  source : Option ℕ
  /-- All that the session wrote. -/
  written : Bytes
  /-- What the reader task has not read yet. -/
  unread : Bytes
  /-- What data frames took while the tunnel was open. -/
  sent : Bytes
  /-- The session has shut down its writing half. -/
  shut : Bool
  /-- The session dropped its end. -/
  ended : Bool
  reader : Reader
  /-- The writer task takes data for the session. -/
  writing : Bool
  /-- Data that the writer task has not written yet. -/
  incoming : Bytes
  received : Bytes
  deriving DecidableEq

/-- What a session and its tasks do. -/
inductive PipeMove where
  | write (data : Bytes)
  /-- It writes no more, and still reads. -/
  | shutDown
  | leave
  | receive (count : ℕ)
  /-- The writer task finds that the session dropped its end. -/
  | writeFails
  | poll
  | pump (count : ℕ)
  /-- The reader task reads the end of what the session wrote. -/
  | finish
  | wait
  deriving DecidableEq

namespace Pipe

def spawned (key : Key) (source : Option ℕ) : Pipe where
  key := key
  source := source
  written := []
  unread := []
  sent := []
  shut := false
  ended := false
  reader := .waiting
  writing := true
  incoming := []
  received := []

/-- The session's stream is dropped. -/
def leave (pipe : Pipe) : Pipe := { pipe with ended := true }

/-- The tunnel is dropped. -/
def abort (pipe : Pipe) : Pipe := { pipe with reader := pipe.reader.abort }

/-- The tunnel is dropped with the queue its reader task writes to. -/
def stop (pipe : Pipe) : Pipe := { pipe with reader := .stopped }

def send (data : Bytes) (pipe : Pipe) : Pipe :=
  { pipe with sent := pipe.sent ++ data }

def deliver (data : Bytes) (pipe : Pipe) : Pipe :=
  { pipe with incoming := pipe.incoming ++ data }

/-- What a move leaves, and what it queues. -/
def step (pipe : Pipe) : PipeMove → Option (Pipe × List Pumped)
  | .write data =>
      if pipe.shut ∨ pipe.ended then none
      else
        some ({ pipe with
          written := pipe.written ++ data
          unread := pipe.unread ++ data }, [])
  | .shutDown =>
      if pipe.shut ∨ pipe.ended then none
      else some ({ pipe with shut := true }, [])
  | .leave => if pipe.ended then none else some (pipe.leave, [])
  | .receive count =>
      if pipe.ended ∨ pipe.incoming.length < count then none
      else
        some ({ pipe with
          received := pipe.received ++ pipe.incoming.take count
          incoming := pipe.incoming.drop count }, [])
  | .writeFails =>
      if pipe.writing ∧ pipe.ended ∧ pipe.incoming ≠ [] then
        some ({ pipe with writing := false, incoming := [] }, [])
      else none
  | .poll =>
      if pipe.reader = .waiting then
        some ({ pipe with reader := .reading }, [])
      else none
  | .pump count =>
      if pipe.reader.Running ∧ 1 ≤ count ∧ count ≤ maxDataBytes ∧
          count ≤ pipe.unread.length then
        some ({ pipe with unread := pipe.unread.drop count },
          [⟨pipe.key, some (pipe.unread.take count)⟩])
      else none
  | .finish =>
      if pipe.reader.Running ∧ (pipe.shut ∨ pipe.ended) ∧ pipe.unread = [] then
        some (pipe.stop, [⟨pipe.key, none⟩])
      else none
  | .wait =>
      match pipe.reader with
      | .reading => some ({ pipe with reader := .waiting }, [])
      | .aborted => some (pipe.stop, [])
      | .waiting | .stopped => none

/-- What a possible move leaves and queues. -/
inductive Moved (pipe : Pipe) : PipeMove → Pipe → List Pumped → Prop
  | write (data : Bytes) :
      Moved pipe (.write data)
        { pipe with written := pipe.written ++ data, unread := pipe.unread ++ data }
        []
  | shutDown : Moved pipe .shutDown { pipe with shut := true } []
  | leave : Moved pipe .leave pipe.leave []
  | receive (count : ℕ) :
      Moved pipe (.receive count)
        { pipe with
          received := pipe.received ++ pipe.incoming.take count
          incoming := pipe.incoming.drop count }
        []
  | writeFails :
      Moved pipe .writeFails { pipe with writing := false, incoming := [] } []
  | poll (hreader : pipe.reader = .waiting) :
      Moved pipe .poll { pipe with reader := .reading } []
  | pump (count : ℕ) (hrunning : pipe.reader.Running) :
      Moved pipe (.pump count) { pipe with unread := pipe.unread.drop count }
        [⟨pipe.key, some (pipe.unread.take count)⟩]
  | finish (hrunning : pipe.reader.Running) :
      Moved pipe .finish pipe.stop [⟨pipe.key, none⟩]
  | wait (hreader : pipe.reader = .reading) :
      Moved pipe .wait { pipe with reader := .waiting } []
  | stop : Moved pipe .wait pipe.stop []

theorem moved_of_step {pipe pipe' : Pipe} {move : PipeMove} {events : List Pumped}
    (hstep : pipe.step move = some (pipe', events)) :
    pipe.Moved move pipe' events := by
  cases move with
  | write data =>
      obtain ⟨-, hresult⟩ := Option.ite_none_left_eq_some.mp hstep
      obtain ⟨rfl, rfl⟩ := Prod.mk.inj (Option.some.inj hresult)
      exact .write data
  | shutDown =>
      obtain ⟨-, hresult⟩ := Option.ite_none_left_eq_some.mp hstep
      obtain ⟨rfl, rfl⟩ := Prod.mk.inj (Option.some.inj hresult)
      exact .shutDown
  | leave =>
      obtain ⟨-, hresult⟩ := Option.ite_none_left_eq_some.mp hstep
      obtain ⟨rfl, rfl⟩ := Prod.mk.inj (Option.some.inj hresult)
      exact .leave
  | receive count =>
      obtain ⟨-, hresult⟩ := Option.ite_none_left_eq_some.mp hstep
      obtain ⟨rfl, rfl⟩ := Prod.mk.inj (Option.some.inj hresult)
      exact .receive count
  | writeFails =>
      obtain ⟨-, hresult⟩ := Option.ite_none_right_eq_some.mp hstep
      obtain ⟨rfl, rfl⟩ := Prod.mk.inj (Option.some.inj hresult)
      exact .writeFails
  | poll =>
      obtain ⟨hreader, hresult⟩ := Option.ite_none_right_eq_some.mp hstep
      obtain ⟨rfl, rfl⟩ := Prod.mk.inj (Option.some.inj hresult)
      exact .poll hreader
  | pump count =>
      obtain ⟨hpump, hresult⟩ := Option.ite_none_right_eq_some.mp hstep
      obtain ⟨rfl, rfl⟩ := Prod.mk.inj (Option.some.inj hresult)
      exact .pump count hpump.1
  | finish =>
      obtain ⟨hfinish, hresult⟩ := Option.ite_none_right_eq_some.mp hstep
      obtain ⟨rfl, rfl⟩ := Prod.mk.inj (Option.some.inj hresult)
      exact .finish hfinish.1
  | wait =>
      dsimp only [step] at hstep
      split at hstep
      · next hreader =>
        obtain ⟨rfl, rfl⟩ := Prod.mk.inj (Option.some.inj hstep)
        exact .wait hreader
      · obtain ⟨rfl, rfl⟩ := Prod.mk.inj (Option.some.inj hstep)
        exact .stop
      · cases hstep
      · cases hstep

end Pipe

/-! ## Frames -/

/-- A frame a device makes, or one it decoded. -/
structure Frame where
  kind : UInt8
  key : Key
  data : Bytes
  deriving DecidableEq

def Frame.encode (format : UuidFormat) (frame : Frame) : Option Bytes :=
  Desktop.encode format frame.kind frame.key frame.data

/-- What to do about a frame from the relay. -/
inductive Incoming where
  /-- A paired device may have opened a tunnel: run a session over the stream of
  this pipe. -/
  | opened (peer : DeviceId) (pipe : ℕ)
  | reply (frame : Frame)
  | nothing
  | invalid
  deriving DecidableEq

/-! ## The open tunnels -/

/-- A tunnel is the number of its pipe. -/
structure Tunnels where
  nextId : UInt32
  opened : InsertionMap Key ℕ
  /-- Every pipe this device spawned, oldest first. -/
  pipes : List Pipe

namespace Tunnels

def initial : Tunnels := ⟨1, .empty, []⟩

/-- `Tunnels::new`, after the tunnels of the last connection were dropped. -/
def renew (tunnels : Tunnels) : Tunnels :=
  ⟨1, .empty, tunnels.pipes.map Pipe.stop⟩

def modifyPipe (tunnels : Tunnels) (pipe : ℕ) (change : Pipe → Pipe) : Tunnels :=
  { tunnels with pipes := tunnels.pipes.modify pipe change }

/-- `self.open.remove`, which drops the tunnel. -/
def remove (tunnels : Tunnels) (key : Key) : Tunnels :=
  match tunnels.opened.get key with
  | none => tunnels
  | some pipe =>
      { tunnels.modifyPipe pipe Pipe.abort with
        opened := tunnels.opened.delete key }

/-- The number of the next pipe. -/
def nextPipe (tunnels : Tunnels) : ℕ := tunnels.pipes.length

/-- Spawns the tasks of a tunnel.  A tunnel that had its key is dropped. -/
def create (tunnels : Tunnels) (key : Key) (source : Option ℕ) : Tunnels :=
  let cleared := tunnels.remove key
  { cleared with
    opened := cleared.opened.set key tunnels.nextPipe
    pipes := cleared.pipes ++ [.spawned key source] }

/-- The key of the next tunnel this device opens. -/
def nextKey (tunnels : Tunnels) (peer : DeviceId) : Key :=
  ⟨peer, tunnels.nextId, true⟩

/-- Whether a tunnel to or from `peer` is open. -/
def has (tunnels : Tunnels) (peer : DeviceId) : Bool :=
  tunnels.opened.rows.any fun row => row.1.peer = peer

/-- Opens a tunnel to `peer`. -/
def openTo (tunnels : Tunnels) (peer : DeviceId) : Tunnels × Frame :=
  let key := tunnels.nextKey peer
  ({ tunnels with nextId := tunnels.nextId + 1 }.create key none,
    ⟨kindOpen, key, []⟩)

/-- Turns what a session wrote into the frame to send, if any. -/
def onPumped (tunnels : Tunnels) (pumped : Pumped) : Tunnels × Option Frame :=
  match tunnels.opened.get pumped.key with
  -- Already closed by the other side.
  | none => (tunnels, none)
  | some pipe =>
      match pumped.data with
      | some data =>
          (tunnels.modifyPipe pipe (.send data),
            some ⟨kindData, pumped.key, data⟩)
      | none => (tunnels.remove pumped.key, some ⟨kindClose, pumped.key, []⟩)

/-- The pipe of the tunnel, if its writer task still takes data. -/
def listening (tunnels : Tunnels) (key : Key) : Option ℕ :=
  (tunnels.opened.get key).filter fun pipe =>
    tunnels.pipes[pipe]?.any Pipe.writing

/-- `on_frame`, once the frame is decoded.  The number that the sender of an
`open` has for the tunnel comes with it. -/
def onFrame (tunnels : Tunnels) (frame : Frame) (source : ℕ) :
    Tunnels × Incoming :=
  if frame.kind = kindOpen then
    -- Only the side that opens a tunnel sends `open`.
    if frame.key.openedHere then (tunnels, .invalid)
    else
      -- Replaces a stale tunnel with the same identity.
      ((tunnels.remove frame.key).create frame.key (some source),
        .opened frame.key.peer (tunnels.remove frame.key).nextPipe)
  else if frame.kind = kindData then
    match tunnels.listening frame.key with
    | some pipe => (tunnels.modifyPipe pipe (.deliver frame.data), .nothing)
    | none =>
        (tunnels.remove frame.key, .reply ⟨kindClose, frame.key, []⟩)
  else (tunnels.remove frame.key, .nothing)

/-- Handles a frame from the relay; without a node to run a session on, the
stream of a new tunnel is dropped. -/
def receive (tunnels : Tunnels) (frame : Frame) (source : ℕ) (node : Bool) :
    Tunnels × Option Frame :=
  match tunnels.onFrame frame source with
  | (tunnels, .opened _ pipe) =>
      (if node then tunnels else tunnels.modifyPipe pipe Pipe.leave, none)
  | (tunnels, .reply reply) => (tunnels, some reply)
  | (tunnels, .nothing) => (tunnels, none)
  | (tunnels, .invalid) => (tunnels, none)

/-! ### Lookups -/

variable (tunnels : Tunnels) (key : Key)

@[simp]
theorem modifyPipe_opened (pipe : ℕ) (change : Pipe → Pipe) :
    (tunnels.modifyPipe pipe change).opened = tunnels.opened := rfl

/-- A pipe after one pipe changed: the changed one, or as it was. -/
theorem modifyPipe_pipes {tunnels : Tunnels} {pipe number : ℕ}
    {change : Pipe → Pipe} {found' : Pipe}
    (hfound : (tunnels.modifyPipe pipe change).pipes[number]? = some found') :
    tunnels.pipes[number]? = some found' ∨
      number = pipe ∧ ∃ found, tunnels.pipes[pipe]? = some found ∧
        found' = change found := by
  dsimp only [modifyPipe] at hfound
  by_cases heq : number = pipe
  · subst heq
    rw [List.getElem?_modify_eq] at hfound
    obtain ⟨found, hold, rfl⟩ := Option.map_eq_some_iff.mp hfound
    exact .inr ⟨rfl, found, hold, rfl⟩
  · rw [List.getElem?_modify_ne _ _ (Ne.symm heq)] at hfound
    exact .inl hfound

theorem remove_opened (other : Key) :
    (tunnels.remove key).opened.get other =
      if other = key then none else tunnels.opened.get other := by
  rw [remove]
  split
  · next hnone =>
    split
    · next heq => rw [heq, hnone]
    · rfl
  · exact InsertionMap.get_delete _ _ _

theorem remove_pipes (pipe : ℕ) :
    (tunnels.remove key).pipes[pipe]? =
      tunnels.pipes[pipe]?.map fun found =>
        if tunnels.opened.get key = some pipe then found.abort else found := by
  rw [remove]
  split
  · next hnone => simp [hnone]
  · next number hnumber =>
    dsimp only [modifyPipe]
    rw [List.getElem?_modify]
    by_cases heq : number = pipe
    · simp [heq, hnumber]
    · simp [heq, hnumber]

@[simp]
theorem length_remove_pipes :
    (tunnels.remove key).pipes.length = tunnels.pipes.length := by
  rw [remove]
  split
  · rfl
  · exact List.length_modify _ _ _

@[simp]
theorem remove_nextId : (tunnels.remove key).nextId = tunnels.nextId := by
  rw [remove]
  split <;> rfl

@[simp]
theorem create_nextId (source : Option ℕ) :
    (tunnels.create key source).nextId = tunnels.nextId :=
  remove_nextId tunnels key

theorem create_opened (source : Option ℕ) (other : Key) :
    (tunnels.create key source).opened.get other =
      if other = key then some tunnels.nextPipe
      else tunnels.opened.get other := by
  dsimp only [create]
  rw [InsertionMap.get_set, remove_opened]
  split <;> rfl

theorem create_pipes (source : Option ℕ) (pipe : ℕ) :
    (tunnels.create key source).pipes[pipe]? =
      if pipe = tunnels.nextPipe then some (.spawned key source)
      else (tunnels.remove key).pipes[pipe]? := by
  have hlength : (tunnels.remove key).pipes.length = tunnels.nextPipe :=
    length_remove_pipes tunnels key
  dsimp only [create]
  by_cases heq : pipe = tunnels.nextPipe
  · rw [if_pos heq, heq, ← hlength, List.getElem?_concat_length]
  · rw [if_neg heq]
    rcases Nat.lt_or_gt_of_ne heq with hlt | hgt
    · exact List.getElem?_append_left (hlength ▸ hlt)
    · rw [List.getElem?_eq_none, List.getElem?_eq_none]
      · exact hlength ▸ Nat.le_of_lt hgt
      · rw [List.length_append, hlength]
        exact hgt

/-- A tunnel is dropped once. -/
theorem remove_remove : (tunnels.remove key).remove key = tunnels.remove key := by
  have hgone : (tunnels.remove key).opened.get key = none := by
    rw [remove_opened, if_pos rfl]
  rw [remove.eq_def (tunnels.remove key), hgone]

theorem remove_create (source : Option ℕ) :
    (tunnels.remove key).create key source = tunnels.create key source := by
  dsimp only [create, nextPipe]
  rw [remove_remove, length_remove_pipes]

/-! ### What the relay task can do -/

/-- Opening a tunnel creates it and counts on. -/
theorem openTo_eq (peer : DeviceId) :
    tunnels.openTo peer =
      ({ tunnels.create (tunnels.nextKey peer) none with
          nextId := tunnels.nextId + 1 },
        ⟨kindOpen, tunnels.nextKey peer, []⟩) := by
  have hremove : ({ tunnels with nextId := tunnels.nextId + 1 } :
      Tunnels).remove (tunnels.nextKey peer) =
        { tunnels.remove (tunnels.nextKey peer) with
          nextId := tunnels.nextId + 1 } := by
    rw [remove, remove]
    dsimp only
    cases tunnels.opened.get (tunnels.nextKey peer) <;> rfl
  rw [openTo]
  dsimp only [create]
  rw [hremove]
  rfl

/-- What handling an event of a reader task does. -/
inductive Taken (tunnels : Tunnels) (event : Pumped) :
    Tunnels × Option Frame → Prop
  | late (hopened : tunnels.opened.get event.key = none) :
      Taken tunnels event (tunnels, none)
  | data (pipe : ℕ) (data : Bytes)
      (hopened : tunnels.opened.get event.key = some pipe)
      (hdata : event.data = some data) :
      Taken tunnels event
        (tunnels.modifyPipe pipe (.send data),
          some ⟨kindData, event.key, data⟩)
  | closed (pipe : ℕ) (hopened : tunnels.opened.get event.key = some pipe)
      (hdata : event.data = none) :
      Taken tunnels event
        (tunnels.remove event.key, some ⟨kindClose, event.key, []⟩)

theorem onPumped_taken (event : Pumped) :
    Taken tunnels event (tunnels.onPumped event) := by
  rw [onPumped]
  cases hopened : tunnels.opened.get event.key with
  | none => exact .late hopened
  | some pipe =>
      cases hdata : event.data with
      | some data => exact .data pipe data hopened hdata
      | none => exact .closed pipe hopened hdata

/-- What handling a frame does. -/
inductive Received (tunnels : Tunnels) (frame : Frame) (source : ℕ) :
    Tunnels × Option Frame → Prop
  | refused (hkind : frame.kind = kindOpen)
      (hside : frame.key.openedHere = true) :
      Received tunnels frame source (tunnels, none)
  | opened (hkind : frame.kind = kindOpen)
      (hside : frame.key.openedHere = false) (change : Pipe → Pipe)
      (hchange : change = id ∨ change = Pipe.leave) :
      Received tunnels frame source
        ((tunnels.create frame.key (some source)).modifyPipe tunnels.nextPipe
          change, none)
  | delivered (hkind : frame.kind = kindData) (pipe : ℕ)
      (hlistening : tunnels.listening frame.key = some pipe) :
      Received tunnels frame source
        (tunnels.modifyPipe pipe (.deliver frame.data), none)
  | unknown (hkind : frame.kind = kindData)
      (hlistening : tunnels.listening frame.key = none) :
      Received tunnels frame source
        (tunnels.remove frame.key, some ⟨kindClose, frame.key, []⟩)
  | closed (hopen : frame.kind ≠ kindOpen) (hdata : frame.kind ≠ kindData) :
      Received tunnels frame source (tunnels.remove frame.key, none)

theorem receive_received (frame : Frame) (source : ℕ) (node : Bool) :
    Received tunnels frame source (tunnels.receive frame source node) := by
  unfold receive onFrame
  by_cases hopen : frame.kind = kindOpen
  · rw [if_pos hopen]
    cases hside : frame.key.openedHere with
    | true => exact .refused hopen hside
    | false =>
        have hpipe : (tunnels.remove frame.key).nextPipe = tunnels.nextPipe :=
          length_remove_pipes tunnels frame.key
        rw [if_neg Bool.false_ne_true]
        rw [hpipe, remove_create]
        cases node with
        | true =>
            have hturn : Received tunnels frame source _ :=
              .opened hopen hside id (.inl rfl)
            rw [modifyPipe, List.modify_id] at hturn
            exact hturn
        | false => exact .opened hopen hside Pipe.leave (.inr rfl)
  · rw [if_neg hopen]
    by_cases hdata : frame.kind = kindData
    · rw [if_pos hdata]
      cases hlistening : tunnels.listening frame.key with
      | some pipe => exact .delivered hdata pipe hlistening
      | none => exact .unknown hdata hlistening
    · rw [if_neg hdata]
      exact .closed hopen hdata

end Tunnels

end Cled.Desktop
