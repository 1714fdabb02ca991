import Mathlib.Data.List.Basic

/-!
# Lists of news

A state takes in the entries of a list one by one.  An entry that is not news to
the state changes nothing, and one that is news moves the state forward.  So a
list with news moves the state forward, and any other list changes nothing.
-/

namespace Cled.Core

/-- In states with `Inv`, an entry with `Allowed` changes something only if it is
`News`, and then it moves the state `Forward`. -/
structure HandlesNews {State Entry : Type*} (handle : State → Entry → State)
    (Inv : State → Prop) (Allowed : Entry → Prop) (News : State → Entry → Prop)
    (Forward : State → State → Prop) : Prop where
  inv : ∀ {state entry}, Inv state → Allowed entry → Inv (handle state entry)
  old : ∀ {state entry}, Inv state → Allowed entry → ¬ News state entry →
    handle state entry = state
  news : ∀ {state entry}, Inv state → Allowed entry → News state entry →
    Forward state (handle state entry)
  trans : ∀ {before middle after}, Forward before middle →
    Forward middle after → Forward before after

namespace HandlesNews

variable {State Entry : Type*} {handle : State → Entry → State}
  {Inv : State → Prop} {Allowed : Entry → Prop} {News : State → Entry → Prop}
  {Forward : State → State → Prop} {state : State} {entries : List Entry}

/-- What is news at the start is still news when its turn comes, unless the
state has moved forward before. -/
theorem foldl_old_or_forward
    (hhandles : HandlesNews handle Inv Allowed News Forward)
    (hinv : Inv state) (hallowed : ∀ entry ∈ entries, Allowed entry) :
    ((∀ entry ∈ entries, ¬ News state entry) ∧
        entries.foldl handle state = state) ∨
      Forward state (entries.foldl handle state) := by
  induction entries generalizing state with
  | nil => exact Or.inl ⟨nofun, rfl⟩
  | cons entry entries ih =>
      obtain ⟨hhead, hrest⟩ := List.forall_mem_cons.mp hallowed
      have hafter := ih (hhandles.inv hinv hhead) hrest
      rw [List.foldl_cons]
      by_cases hnews : News state entry
      · have hforward := hhandles.news hinv hhead hnews
        apply Or.inr
        rcases hafter with ⟨_, hsame⟩ | hmore
        · rwa [hsame]
        · exact hhandles.trans hforward hmore
      · rw [hhandles.old hinv hhead hnews] at hafter ⊢
        exact hafter.imp_left fun ⟨hnone, hsame⟩ =>
          ⟨List.forall_mem_cons.mpr ⟨hnews, hnone⟩, hsame⟩

theorem foldl_eq_or_forward
    (hhandles : HandlesNews handle Inv Allowed News Forward)
    (hinv : Inv state) (hallowed : ∀ entry ∈ entries, Allowed entry) :
    entries.foldl handle state = state ∨
      Forward state (entries.foldl handle state) :=
  (hhandles.foldl_old_or_forward hinv hallowed).imp_left And.right

theorem foldl_forward (hhandles : HandlesNews handle Inv Allowed News Forward)
    (hinv : Inv state) (hallowed : ∀ entry ∈ entries, Allowed entry)
    (hnews : ∃ entry ∈ entries, News state entry) :
    Forward state (entries.foldl handle state) := by
  refine (hhandles.foldl_old_or_forward hinv hallowed).resolve_left ?_
  rintro ⟨hnone, _⟩
  obtain ⟨entry, hmem, htold⟩ := hnews
  exact hnone entry hmem htold

/-- Two lists, one after the other: news in either moves the state forward. -/
theorem foldl_foldl_forward {Other : Type*} {handleOther : State → Other → State}
    {InvOther : State → Prop} {AllowedOther : Other → Prop}
    {NewsOther : State → Other → Prop} {others : List Other}
    (hhandles : HandlesNews handle Inv Allowed News Forward)
    (hothers : HandlesNews handleOther InvOther AllowedOther NewsOther Forward)
    (hinv : Inv state) (hallowed : ∀ entry ∈ entries, Allowed entry)
    (hinvOther : InvOther (entries.foldl handle state))
    (hallowedOther : ∀ other ∈ others, AllowedOther other)
    (hnews : ¬ ((∀ entry ∈ entries, ¬ News state entry) ∧
      ∀ other ∈ others, ¬ NewsOther state other)) :
    Forward state (others.foldl handleOther (entries.foldl handle state)) := by
  rcases hhandles.foldl_old_or_forward hinv hallowed
    with ⟨hnone, hsame⟩ | hforward
  · rw [hsame] at hinvOther ⊢
    have htold : ¬ ∀ other ∈ others, ¬ NewsOther state other := fun hnoneOther =>
      hnews ⟨hnone, hnoneOther⟩
    push Not at htold
    exact hothers.foldl_forward hinvOther hallowedOther htold
  · rcases hothers.foldl_eq_or_forward hinvOther hallowedOther
      with hsame | hmore
    · rwa [hsame]
    · exact hhandles.trans hforward hmore

end HandlesNews

end Cled.Core
