import Mathlib.Data.List.Basic
import Mathlib.Data.List.Infix

/-!
# Following a sender

A sender opens one stream after another and sends signals about the one it has
open; a queue carries them to a receiver, which can stop listening at any time
and starts again at the next stream.  Whatever the receiver heard of a stream is
a prefix of what was sent of it.  The rules say what each thing that can happen
at either end, or to the queue, does to this.
-/

namespace Cled.Core

/-- What a sender says about its streams, which it numbers. -/
inductive Signal (A : Type*) where
  | opened (stream : ℕ)
  | data (items : List A)
  | closed

/-- The stream a receiver listens to, if any, and what it heard of it. -/
abbrev Heard (A : Type*) := Option (ℕ × List A)

variable {A : Type*}

def hear : Heard A → Signal A → Heard A
  | _, .opened stream => some (stream, [])
  | heard, .data items => heard.map fun (stream, old) => (stream, old ++ items)
  | _, .closed => none

def hearAll (heard : Heard A) (signals : List (Signal A)) : Heard A :=
  signals.foldl hear heard

@[simp]
theorem hearAll_nil (heard : Heard A) : hearAll heard [] = heard := rfl

@[simp]
theorem hearAll_cons (heard : Heard A) (signal : Signal A)
    (signals : List (Signal A)) :
    hearAll heard (signal :: signals) = hearAll (hear heard signal) signals :=
  rfl

@[simp]
theorem hearAll_append (heard : Heard A) (front back : List (Signal A)) :
    hearAll heard (front ++ back) = hearAll (hearAll heard front) back :=
  List.foldl_append

/-- Who was not listening hears nothing else than who was. -/
theorem hearAll_none (heard : Heard A) (signals : List (Signal A)) :
    hearAll none signals = none ∨
      hearAll none signals = hearAll heard signals := by
  induction signals generalizing heard with
  | nil => exact .inl rfl
  | cons signal signals ih =>
      cases signal with
      | opened stream => exact .inr rfl
      | data items => exact ih _
      | closed => exact .inr rfl

/-- What was heard is the beginning of what was sent of the stream. -/
def PartOf (sent : ℕ → Option (List A)) (heard : Heard A) : Prop :=
  ∀ stream items, heard = some (stream, items) →
    ∃ all, sent stream = some all ∧ items <+: all

/-- More may have been sent, of more streams. -/
def Extends (sent sent' : ℕ → Option (List A)) : Prop :=
  ∀ stream all, sent stream = some all →
    ∃ more, sent' stream = some more ∧ all <+: more

theorem partOf_none {sent : ℕ → Option (List A)} : PartOf sent none :=
  fun _ _ h => nomatch h

theorem Extends.refl (sent : ℕ → Option (List A)) : Extends sent sent :=
  fun _ all hall => ⟨all, hall, List.prefix_refl all⟩

theorem PartOf.extend {sent sent' : ℕ → Option (List A)} {heard : Heard A}
    (hpart : PartOf sent heard) (hextends : Extends sent sent') :
    PartOf sent' heard := by
  intro stream items hheard
  obtain ⟨all, hall, hstart⟩ := hpart stream items hheard
  obtain ⟨more, hmore, hgrown⟩ := hextends stream all hall
  exact ⟨more, hmore, hstart.trans hgrown⟩

theorem PartOf.of_front {sent : ℕ → Option (List A)} {stream : ℕ}
    {items fewer : List A} (hpart : PartOf sent (some (stream, items)))
    (hfewer : fewer <+: items) : PartOf sent (some (stream, fewer)) := by
  rintro _ _ ⟨rfl, rfl⟩
  obtain ⟨all, hall, hstart⟩ := hpart stream items rfl
  exact ⟨all, hall, hfewer.trans hstart⟩

/-- At every moment of taking what is in the queue, the receiver has heard the
beginning of a stream; at the end it has heard all that was sent of the stream
that is open, unless it does not listen. -/
structure Follows (sent : ℕ → Option (List A)) (current : Option ℕ)
    (heard : Heard A) (signals : List (Signal A)) : Prop where
  part : ∀ front, front <+: signals → PartOf sent (hearAll heard front)
  all : ∀ stream, current = some stream → ∀ last,
    hearAll heard signals = some last →
      last.1 = stream ∧ sent stream = some last.2

namespace Follows

variable {sent sent' : ℕ → Option (List A)} {current : Option ℕ}
  {heard : Heard A} {signals : List (Signal A)}

theorem nothing (sent : ℕ → Option (List A)) :
    Follows sent none none [] where
  part front hfront := by
    rw [List.prefix_nil.mp hfront]
    exact partOf_none
  all _ h := nomatch h

theorem partOf (hfollows : Follows sent current heard signals) :
    PartOf sent heard := hfollows.part [] (List.nil_prefix)

/-- The receiver takes a signal. -/
theorem receive {signal : Signal A}
    (hfollows : Follows sent current heard (signal :: signals)) :
    Follows sent current (hear heard signal) signals where
  part front hfront :=
    hfollows.part (signal :: front) (List.cons_prefix_cons.mpr ⟨rfl, hfront⟩)
  all := hfollows.all

/-- The receiver stops listening. -/
theorem forget (hfollows : Follows sent current heard signals) :
    Follows sent current none signals where
  part front hfront := by
    rcases hearAll_none heard front with hnone | hsame
    · rw [hnone]
      exact partOf_none
    · rw [hsame]
      exact hfollows.part front hfront
  all stream hcurrent last hlast := by
    rcases hearAll_none heard signals with hnone | hsame
    · rw [hnone] at hlast
      cases hlast
    · rw [hsame] at hlast
      exact hfollows.all stream hcurrent last hlast

theorem forgetOr {heard' : Heard A}
    (hfollows : Follows sent current heard signals)
    (hheard : heard' = heard ∨ heard' = none) :
    Follows sent current heard' signals := by
  rcases hheard with rfl | rfl
  · exact hfollows
  · exact hfollows.forget

/-- The receiver stops listening, and signals on their way to it are lost. -/
theorem skip {front back : List (Signal A)}
    (hfollows : Follows sent current heard (front ++ back)) :
    Follows sent current none back := by
  induction front generalizing heard with
  | nil => exact hfollows.forget
  | cons signal front ih => exact ih hfollows.receive

/-- The sender's stream ends without a word. -/
theorem stop (hfollows : Follows sent current heard signals) :
    Follows sent none heard signals :=
  ⟨hfollows.part, fun _ h => nomatch h⟩

/-- The last signals are lost. -/
theorem lose {kept : List (Signal A)}
    (hfollows : Follows sent current heard signals) (hkept : kept <+: signals) :
    Follows sent none heard kept :=
  ⟨fun front hfront => hfollows.part front (hfront.trans hkept),
    fun _ h => nomatch h⟩

/-- One more signal is sent. -/
theorem send {current' : Option ℕ} {signal : Signal A}
    (hfollows : Follows sent current heard signals)
    (hextends : Extends sent sent')
    (hpart : PartOf sent' (hear (hearAll heard signals) signal))
    (hall : ∀ stream, current' = some stream → ∀ last,
      hear (hearAll heard signals) signal = some last →
        last.1 = stream ∧ sent' stream = some last.2) :
    Follows sent' current' heard (signals ++ [signal]) where
  part front hfront := by
    rcases List.prefix_concat_iff.mp hfront with rfl | hfront
    · rwa [hearAll_append]
    · exact (hfollows.part front hfront).extend hextends
  all := by rwa [hearAll_append]

/-- The sender opens its next stream. -/
theorem opens {stream : ℕ} (hfollows : Follows sent current heard signals)
    (hextends : Extends sent sent') (hnew : sent' stream = some []) :
    Follows sent' (some stream) heard (signals ++ [.opened stream]) := by
  refine hfollows.send hextends ?_ ?_
  · rintro _ _ ⟨rfl, rfl⟩
    exact ⟨[], hnew, List.prefix_refl []⟩
  · rintro _ ⟨rfl⟩ _ ⟨rfl, rfl⟩
    exact ⟨rfl, hnew⟩

/-- The sender sends more of its stream. -/
theorem sends {stream : ℕ} {all items : List A}
    (hfollows : Follows sent (some stream) heard signals)
    (hextends : Extends sent sent') (hsent : sent stream = some all)
    (hmore : sent' stream = some (all ++ items)) :
    Follows sent' (some stream) heard (signals ++ [.data items]) := by
  have hlast : ∀ last, hear (hearAll heard signals) (.data items) = some last →
      last = (stream, all ++ items) := by
    intro last h
    obtain ⟨⟨number, old⟩, hheard, rfl⟩ := Option.map_eq_some_iff.mp h
    obtain ⟨hnumber, hold⟩ := hfollows.all stream rfl _ hheard
    dsimp only at hnumber hold
    rw [hsent, Option.some.injEq] at hold
    rw [hnumber, hold]
  refine hfollows.send hextends ?_ ?_
  · intro number found hheard
    obtain ⟨rfl, rfl⟩ := Prod.mk.inj (hlast _ hheard)
    exact ⟨_, hmore, List.prefix_refl _⟩
  · rintro _ ⟨rfl⟩ last hheard
    rw [hlast last hheard]
    exact ⟨rfl, hmore⟩

/-- The sender closes its stream. -/
theorem closes {current' : Option ℕ}
    (hfollows : Follows sent current heard signals) :
    Follows sent current' heard (signals ++ [.closed]) :=
  hfollows.send (.refl sent) partOf_none (fun _ _ _ h => nomatch h)

/-- Someone else closes the stream, in the middle of the queue. -/
theorem closesWithin {front back : List (Signal A)}
    (hfollows : Follows sent current heard (front ++ back)) :
    Follows sent current heard (front ++ .closed :: back) where
  part part hpart := by
    rcases List.prefix_or_prefix_of_prefix hpart (List.prefix_append front _)
      with hshort | ⟨rest, rfl⟩
    · exact hfollows.part part (hshort.trans (List.prefix_append front back))
    rw [List.prefix_append_right_inj] at hpart
    rw [hearAll_append]
    cases rest with
    | nil =>
        rw [hearAll_nil]
        exact hfollows.part front (List.prefix_append front back)
    | cons signal rest =>
        obtain ⟨rfl, hrest⟩ := List.cons_prefix_cons.mp hpart
        rw [hearAll_cons]
        rcases hearAll_none (hearAll heard front) rest with hnone | hsame
        · rw [hear, hnone]
          exact partOf_none
        · rw [hear, hsame, ← hearAll_append]
          exact hfollows.part _ ((List.prefix_append_right_inj front).mpr hrest)
  all stream hcurrent last hlast := by
    rw [hearAll_append, hearAll_cons, hear] at hlast
    rcases hearAll_none (hearAll heard front) back with hnone | hsame
    · rw [hnone] at hlast
      cases hlast
    · rw [hsame, ← hearAll_append] at hlast
      exact hfollows.all stream hcurrent last hlast

/-- Streams other than the open one grow, or there are more of them. -/
theorem extend (hfollows : Follows sent current heard signals)
    (hextends : Extends sent sent')
    (hcurrent : ∀ stream, current = some stream → sent' stream = sent stream) :
    Follows sent' current heard signals where
  part front hfront := (hfollows.part front hfront).extend hextends
  all stream hstream last hlast := by
    rw [hcurrent stream hstream]
    exact hfollows.all stream hstream last hlast

end Follows

end Cled.Core
