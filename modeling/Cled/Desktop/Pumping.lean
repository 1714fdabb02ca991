import Cled.Desktop.Tunnels

/-!
# From the sessions to the frames

What a session wrote is, in this order: what went out in data frames, what the
reader task queued for the relay task, and what it has not read yet.  The queue
names tunnels by their keys only, so this holds as long as a key is not used
again while something of an earlier tunnel with this key is on its way.
-/

namespace Cled.Desktop

open Cled.Core Cled.Clipboard Cled.Sync

/-- The data queued under a key. -/
def queued (key : Key) (pumped : List Pumped) : Bytes :=
  (pumped.filter (·.key = key)).flatMap fun event => event.data.getD []

theorem queued_append (key : Key) (front back : List Pumped) :
    queued key (front ++ back) = queued key front ++ queued key back := by
  rw [queued, List.filter_append, List.flatMap_append]
  rfl

theorem queued_cons_self (event : Pumped) (rest : List Pumped) :
    queued event.key (event :: rest) =
      event.data.getD [] ++ queued event.key rest := by
  simp [queued]

theorem queued_cons_of_ne {key : Key} {event : Pumped} (hne : event.key ≠ key)
    (rest : List Pumped) : queued key (event :: rest) = queued key rest := by
  rw [queued, List.filter_cons_of_neg (by simpa using hne)]
  rfl

theorem queued_singleton (key : Key) (data : Option Bytes) :
    queued key [⟨key, data⟩] = data.getD [] := by
  simp [queued]

/-- Nothing that earlier tunnels with this key read is queued, and none of their
reader tasks is running. -/
def NothingLeft (tunnels : Tunnels) (pumped : List Pumped) (key : Key) : Prop :=
  queued key pumped = [] ∧
    ∀ pipe ∈ tunnels.pipes, pipe.key = key → ¬ pipe.reader.Running

instance (tunnels : Tunnels) (pumped : List Pumped) (key : Key) :
    Decidable (NothingLeft tunnels pumped key) :=
  inferInstanceAs (Decidable (_ ∧ _))

/-- Every byte an open tunnel's session wrote is accounted for, and the tunnel's
reader task is the only one that can queue anything under its key. -/
structure Pumping (tunnels : Tunnels) (pumped : List Pumped) : Prop where
  opened : ∀ {key : Key} {pipe : ℕ}, tunnels.opened.get key = some pipe →
    ∃ found : Pipe, tunnels.pipes[pipe]? = some found ∧ found.key = key ∧
      found.written = found.sent ++ (queued key pumped ++ found.unread)
  only : ∀ {key : Key} {pipe other : ℕ} {found : Pipe},
    tunnels.opened.get key = some pipe → tunnels.pipes[other]? = some found →
      found.key = key → other ≠ pipe → found.reader = .stopped
  alive : ∀ {pipe : ℕ} {found : Pipe}, tunnels.pipes[pipe]? = some found →
    found.reader.Alive → tunnels.opened.get found.key = some pipe
  sent : ∀ {pipe : ℕ} {found : Pipe}, tunnels.pipes[pipe]? = some found →
    found.sent <+: found.written

namespace Pumping

variable {tunnels : Tunnels} {pumped : List Pumped}

theorem initial : Pumping .initial [] where
  opened h := by cases h
  only h := by cases h
  alive h := by cases h
  sent h := by cases h

/-- Two keys do not share a pipe. -/
theorem key_eq (hpumping : Pumping tunnels pumped) {key other : Key} {pipe : ℕ}
    (hkey : tunnels.opened.get key = some pipe)
    (hother : tunnels.opened.get other = some pipe) : key = other := by
  obtain ⟨found, hfound, rfl, -⟩ := hpumping.opened hkey
  obtain ⟨same, hsame, rfl, -⟩ := hpumping.opened hother
  rw [Option.some.inj (hfound.symm.trans hsame)]

/-- One pipe changes, and something may be queued. -/
theorem modify (hpumping : Pumping tunnels pumped) {pipe : ℕ} {found : Pipe}
    (hfound : tunnels.pipes[pipe]? = some found) {change : Pipe → Pipe}
    {pumped' : List Pumped} (hkey : (change found).key = found.key)
    (halive : (change found).reader.Alive → found.reader.Alive)
    (hstopped : found.reader = .stopped → (change found).reader = .stopped)
    (hsent : (change found).sent <+: (change found).written)
    (hbalance : tunnels.opened.get found.key = some pipe →
      (change found).written = (change found).sent ++
        (queued found.key pumped' ++ (change found).unread))
    (hqueued : ∀ key other, tunnels.opened.get key = some other →
      other ≠ pipe → queued key pumped' = queued key pumped) :
    Pumping (tunnels.modifyPipe pipe change) pumped' := by
  have hlookup (other : ℕ) : (tunnels.modifyPipe pipe change).pipes[other]? =
      if pipe = other then some (change found) else tunnels.pipes[other]? := by
    dsimp only [Tunnels.modifyPipe]
    rw [List.getElem?_modify]
    split
    · next heq => rw [← heq, hfound]; rfl
    · exact Option.map_id'
  refine ⟨?_, ?_, ?_, ?_⟩
  · intro key other hopened
    by_cases heq : pipe = other
    · subst heq
      obtain ⟨same, hsame, rfl, -⟩ := hpumping.opened hopened
      obtain rfl := Option.some.inj (hfound.symm.trans hsame)
      exact ⟨_, (hlookup pipe).trans (if_pos rfl), hkey, hbalance hopened⟩
    · obtain ⟨old, hold, hsame, hwritten⟩ := hpumping.opened hopened
      refine ⟨old, (hlookup other).trans ((if_neg heq).trans hold), hsame, ?_⟩
      rw [hqueued key other hopened (Ne.symm heq)]
      exact hwritten
  · intro key open' other old hopened hold hsame hne
    rw [hlookup] at hold
    split at hold
    · next heq =>
      obtain rfl := Option.some.inj hold
      rw [hkey] at hsame
      exact hstopped (hpumping.only hopened (heq ▸ hfound) hsame hne)
    · exact hpumping.only hopened hold hsame hne
  · intro other old hold hreader
    rw [hlookup] at hold
    split at hold
    · next heq =>
      obtain rfl := Option.some.inj hold
      subst heq
      rw [hkey]
      exact hpumping.alive hfound (halive hreader)
    · exact hpumping.alive hold hreader
  · intro other old hold
    rw [hlookup] at hold
    split at hold
    · obtain rfl := Option.some.inj hold
      exact hsent
    · exact hpumping.sent hold

/-- One pipe changes in what its session receives. -/
theorem modify_incoming (hpumping : Pumping tunnels pumped) (pipe : ℕ)
    {change : Pipe → Pipe}
    (hkeeps : ∀ found, (change found).key = found.key ∧
      (change found).written = found.written ∧
      (change found).unread = found.unread ∧
      (change found).sent = found.sent ∧
      (change found).reader = found.reader) :
    Pumping (tunnels.modifyPipe pipe change) pumped := by
  cases hfound : tunnels.pipes[pipe]? with
  | none =>
      have hsame : tunnels.modifyPipe pipe change = tunnels := by
        rw [Tunnels.modifyPipe,
          List.modify_eq_self (List.getElem?_eq_none_iff.mp hfound)]
      rwa [hsame]
  | some found =>
      obtain ⟨hkey, hwritten, hunread, hsent, hreader⟩ := hkeeps found
      refine hpumping.modify hfound hkey (hreader ▸ id) (hreader ▸ id) ?_ ?_
        fun _ _ _ _ => rfl
      · rw [hsent, hwritten]
        exact hpumping.sent hfound
      · intro hopened
        obtain ⟨same, hsame, -, hbalance⟩ := hpumping.opened hopened
        obtain rfl := Option.some.inj (hfound.symm.trans hsame)
        rw [hsent, hwritten, hunread]
        exact hbalance

/-- A tunnel is dropped. -/
theorem remove (hpumping : Pumping tunnels pumped) (key : Key) :
    Pumping (tunnels.remove key) pumped := by
  refine ⟨?_, ?_, ?_, ?_⟩
  · intro other pipe hopened
    rw [Tunnels.remove_opened] at hopened
    split at hopened
    · cases hopened
    next hne =>
    obtain ⟨found, hfound, hkey, hwritten⟩ := hpumping.opened hopened
    have hkept : ¬ tunnels.opened.get key = some pipe :=
      fun hsame => hne (hpumping.key_eq hopened hsame)
    refine ⟨found, ?_, hkey, hwritten⟩
    rw [Tunnels.remove_pipes, hfound, Option.map_some, if_neg hkept]
  · intro other pipe number found hopened hfound hkey hne
    rw [Tunnels.remove_opened] at hopened
    split at hopened
    · cases hopened
    rw [Tunnels.remove_pipes] at hfound
    obtain ⟨old, hold, rfl⟩ := Option.map_eq_some_iff.mp hfound
    split
    · next hremoved =>
      rw [if_pos hremoved] at hkey
      have hstopped := hpumping.only hopened hold hkey hne
      rw [Pipe.abort, hstopped]
      rfl
    · next hkept =>
      rw [if_neg hkept] at hkey
      exact hpumping.only hopened hold hkey hne
  · intro pipe found hfound hreader
    rw [Tunnels.remove_pipes] at hfound
    obtain ⟨old, hold, rfl⟩ := Option.map_eq_some_iff.mp hfound
    split at hreader
    · exact absurd hreader (Reader.abort_not_alive _)
    next hkept =>
    have hopened := hpumping.alive hold hreader
    rw [if_neg hkept, Tunnels.remove_opened, if_neg, hopened]
    intro heq
    exact hkept (heq ▸ hopened)
  · intro pipe found hfound
    rw [Tunnels.remove_pipes] at hfound
    obtain ⟨old, hold, rfl⟩ := Option.map_eq_some_iff.mp hfound
    split
    · have hsent := hpumping.sent hold
      exact hsent
    · exact hpumping.sent hold

/-- A tunnel is created under a key of which nothing is left. -/
theorem create (hpumping : Pumping tunnels pumped) {key : Key}
    (hnothing : NothingLeft tunnels pumped key) (source : Option ℕ) :
    Pumping (tunnels.create key source) pumped := by
  have hcleared := hpumping.remove key
  refine ⟨?_, ?_, ?_, ?_⟩
  · intro other pipe hopened
    rw [Tunnels.create_opened] at hopened
    split at hopened
    · next heq =>
      obtain rfl := Option.some.inj hopened
      refine ⟨_, (Tunnels.create_pipes _ _ _ _).trans (if_pos rfl), heq.symm, ?_⟩
      rw [heq, hnothing.1]
      rfl
    · next hne =>
      have hkept : (tunnels.remove key).opened.get other = some pipe := by
        rwa [Tunnels.remove_opened, if_neg hne]
      obtain ⟨found, hfound, hkey, hwritten⟩ := hcleared.opened hkept
      refine ⟨found, ?_, hkey, hwritten⟩
      obtain ⟨old, hold, -⟩ := hpumping.opened hopened
      have hlt : pipe < tunnels.nextPipe := (List.getElem?_eq_some_iff.mp hold).1
      rw [Tunnels.create_pipes, if_neg (Nat.ne_of_lt hlt), hfound]
  · intro other pipe number found hopened hfound hkey hne
    rw [Tunnels.create_opened] at hopened
    rw [Tunnels.create_pipes] at hfound
    split at hfound
    · next hnew =>
      obtain rfl := Option.some.inj hfound
      have hsame : other = key := hkey.symm
      rw [if_pos hsame] at hopened
      exact absurd (hnew.trans (Option.some.inj hopened)) hne
    split at hopened
    · next hsame =>
      rw [Tunnels.remove_pipes] at hfound
      obtain ⟨old, hold, rfl⟩ := Option.map_eq_some_iff.mp hfound
      have holdKey : old.key = key := by
        split at hkey <;> exact hkey.trans hsame
      have hidle := hnothing.2 old (List.mem_of_getElem? hold) holdKey
      split
      · exact Reader.abort_of_not_running hidle
      · next hkept =>
        cases hreader : old.reader with
        | waiting =>
            have halive := hpumping.alive hold (.inl hreader)
            exact absurd (holdKey ▸ halive) hkept
        | reading => exact absurd (.inl hreader) hidle
        | aborted => exact absurd (.inr hreader) hidle
        | stopped => rfl
    · next hother =>
      have hkept : (tunnels.remove key).opened.get other = some pipe := by
        rwa [Tunnels.remove_opened, if_neg hother]
      exact hcleared.only hkept hfound hkey hne
  · intro pipe found hfound hreader
    rw [Tunnels.create_pipes] at hfound
    split at hfound
    · next hnew =>
      obtain rfl := Option.some.inj hfound
      exact (Tunnels.create_opened _ _ _ _).trans
        ((if_pos rfl).trans (congrArg some hnew.symm))
    · have hopened := hcleared.alive hfound hreader
      rw [Tunnels.remove_opened] at hopened
      split at hopened
      · cases hopened
      · next hne =>
        exact (Tunnels.create_opened _ _ _ _).trans
          ((if_neg hne).trans hopened)
  · intro pipe found hfound
    rw [Tunnels.create_pipes] at hfound
    split at hfound
    · obtain rfl := Option.some.inj hfound
      exact List.prefix_refl []
    · exact hcleared.sent hfound

/-- An open tunnel's account. -/
theorem balance (hpumping : Pumping tunnels pumped) {pipe : ℕ} {found : Pipe}
    (hfound : tunnels.pipes[pipe]? = some found)
    (hopened : tunnels.opened.get found.key = some pipe) :
    found.written = found.sent ++ (queued found.key pumped ++ found.unread) := by
  obtain ⟨same, hsame, -, hwritten⟩ := hpumping.opened hopened
  obtain rfl := Option.some.inj (hfound.symm.trans hsame)
  exact hwritten

/-- A running reader task queues under its own key, which no other tunnel that
is open has. -/
theorem queued_of_running (hpumping : Pumping tunnels pumped) {pipe : ℕ}
    {found : Pipe} (hfound : tunnels.pipes[pipe]? = some found)
    (hrunning : found.reader.Running) (data : Option Bytes) {key : Key}
    {other : ℕ} (hopened : tunnels.opened.get key = some other)
    (hne : other ≠ pipe) :
    queued key (pumped ++ [⟨found.key, data⟩]) = queued key pumped := by
  have hkey : found.key ≠ key := by
    intro hsame
    have hstopped := hpumping.only hopened hfound hsame hne.symm
    rw [hstopped] at hrunning
    rcases hrunning with h | h <;> cases h
  rw [queued_append, queued_cons_of_ne hkey]
  exact List.append_nil _

/-- A session or one of its tasks goes on. -/
theorem step (hpumping : Pumping tunnels pumped) {pipe : ℕ} {found found' : Pipe}
    (hfound : tunnels.pipes[pipe]? = some found) {move : PipeMove}
    {events : List Pumped} (hstep : found.step move = some (found', events)) :
    Pumping (tunnels.modifyPipe pipe fun _ => found') (pumped ++ events) := by
  have hsent := hpumping.sent hfound
  cases Pipe.moved_of_step hstep with
  | write data =>
      rw [List.append_nil]
      refine hpumping.modify hfound rfl id id ?_ (fun hopened => ?_)
        fun _ _ _ _ => rfl
      · exact hsent.trans (List.prefix_append _ _)
      · dsimp only
        rw [hpumping.balance hfound hopened]
        simp only [List.append_assoc]
  | shutDown | leave | receive | writeFails =>
      rw [List.append_nil]
      exact hpumping.modify hfound rfl id id hsent (hpumping.balance hfound)
        fun _ _ _ _ => rfl
  | poll hreader =>
      rw [List.append_nil]
      refine hpumping.modify hfound rfl (fun _ => .inl hreader) ?_ hsent
        (hpumping.balance hfound) fun _ _ _ _ => rfl
      intro hstopped
      rw [hreader] at hstopped
      cases hstopped
  | pump count hrunning =>
      refine hpumping.modify hfound rfl id id hsent (fun hopened => ?_)
        fun _ _ => hpumping.queued_of_running hfound hrunning _
      dsimp only
      rw [queued_append, queued_singleton, List.append_assoc,
        Option.getD_some, List.take_append_drop]
      exact hpumping.balance hfound hopened
  | finish hrunning =>
      refine hpumping.modify hfound rfl ?_ (fun _ => rfl) hsent
        (fun hopened => ?_)
        fun _ _ => hpumping.queued_of_running hfound hrunning _
      · rintro (h | h) <;> cases h
      · dsimp only [Pipe.stop]
        rw [queued_append, queued_singleton, Option.getD_none,
          List.append_nil]
        exact hpumping.balance hfound hopened
  | wait hreader =>
      rw [List.append_nil]
      refine hpumping.modify hfound rfl (fun _ => .inr hreader) ?_ hsent
        (hpumping.balance hfound) fun _ _ _ _ => rfl
      intro hstopped
      rw [hreader] at hstopped
      cases hstopped
  | stop =>
      rw [List.append_nil]
      refine hpumping.modify hfound rfl ?_ (fun _ => rfl) hsent
        (hpumping.balance hfound) fun _ _ _ _ => rfl
      rintro (h | h) <;> cases h

/-- The relay task takes the first event of the queue. -/
theorem taken {event : Pumped} {result : Tunnels × Option Frame}
    (hpumping : Pumping tunnels (event :: pumped))
    (htaken : Tunnels.Taken tunnels event result) :
    Pumping result.1 pumped := by
  have hother : ∀ key other, tunnels.opened.get key = some other →
      tunnels.opened.get event.key ≠ some other →
        queued key pumped = queued key (event :: pumped) := by
    intro key other hopened hevent
    refine (queued_cons_of_ne ?_ pumped).symm
    rintro rfl
    exact hevent hopened
  cases htaken with
  | late hopened =>
      refine ⟨fun {key pipe} hkey => ?_, hpumping.only, hpumping.alive,
        hpumping.sent⟩
      rw [hother key pipe hkey (hopened ▸ (Option.some_ne_none pipe).symm)]
      exact hpumping.opened hkey
  | data pipe data hopened hdata =>
      obtain ⟨found, hfound, hkey, hbalance⟩ := hpumping.opened hopened
      rw [queued_cons_self, hdata, Option.getD_some] at hbalance
      refine hpumping.modify hfound rfl id id ?_ (fun _ => ?_) ?_
      · refine ⟨queued event.key pumped ++ found.unread, ?_⟩
        dsimp only [Pipe.send]
        rw [hbalance]
        simp only [List.append_assoc]
      · dsimp only [Pipe.send]
        rw [hkey, hbalance]
        simp only [List.append_assoc]
      · intro key other hkey hne
        refine hother key other hkey ?_
        rw [hopened]
        exact fun h => hne (Option.some.inj h).symm
  | closed pipe hopened hdata =>
      have htaken : Pumping tunnels pumped := by
        refine ⟨fun {key other} hkey => ?_, hpumping.only, hpumping.alive,
          hpumping.sent⟩
        obtain ⟨same, hsame, hsameKey, hwritten⟩ := hpumping.opened hkey
        refine ⟨same, hsame, hsameKey, ?_⟩
        by_cases heq : event.key = key
        · rw [← heq, queued_cons_self, hdata] at hwritten
          rw [← heq]
          exact hwritten
        · rwa [queued_cons_of_ne heq] at hwritten
      exact htaken.remove event.key

/-- The tunnels of a connection are dropped. -/
theorem renew (hpumping : Pumping tunnels pumped) : Pumping tunnels.renew [] where
  opened h := by cases h
  only h := by cases h
  alive := by
    intro pipe found hfound hreader
    dsimp only [Tunnels.renew] at hfound
    rw [List.getElem?_map] at hfound
    obtain ⟨old, -, rfl⟩ := Option.map_eq_some_iff.mp hfound
    rcases hreader with h | h <;> cases h
  sent := by
    intro pipe found hfound
    dsimp only [Tunnels.renew] at hfound
    rw [List.getElem?_map] at hfound
    obtain ⟨old, hold, rfl⟩ := Option.map_eq_some_iff.mp hfound
    have hstart : old.sent <+: old.written := hpumping.sent hold
    exact hstart

/-- The relay task handles a frame. -/
theorem received {frame : Frame} {source : ℕ}
    {result : Tunnels × Option Frame} (hpumping : Pumping tunnels pumped)
    (hreceived : Tunnels.Received tunnels frame source result)
    (hnothing : frame.kind = kindOpen → frame.key.openedHere = false →
      NothingLeft tunnels pumped frame.key) :
    Pumping result.1 pumped := by
  cases hreceived with
  | refused => exact hpumping
  | opened hkind hside change hchange =>
      have hcreated := hpumping.create (hnothing hkind hside) (some source)
      refine hcreated.modify_incoming _ fun _ => ?_
      rcases hchange with rfl | rfl <;> exact ⟨rfl, rfl, rfl, rfl, rfl⟩
  | delivered =>
      exact hpumping.modify_incoming _ fun _ => ⟨rfl, rfl, rfl, rfl, rfl⟩
  | unknown | closed => exact hpumping.remove frame.key

end Pumping

end Cled.Desktop
