import Cled.Core.Standing

/-!
# Members that keep their keys

Joins and removals of one member, as they may happen over time.  If a member
that joins again with the key it had was neither removed nor joined with another
key meanwhile, then a replica that is not behind some report never falls behind
it again, and two replicas neither of which is behind the other agree.
-/

namespace Cled.Core.Standing

variable {Key : Type*}

/-- The key of a member. -/
def key : Standing Key → Option Key
  | .member key _ => some key
  | _ => none

/-- When it was removed. -/
def removal : Standing Key → Option ℕ
  | .removed removedAt => some removedAt
  | _ => none

theorem SameKey.key_eq {left right : Standing Key}
    (hsame : left.SameKey right) : left.key = right.key := by
  cases left with
  | member key joinedAt =>
      cases right with
      | member other later => exact congrArg some hsame
      | unknown => exact hsame.elim
      | removed _ => exact hsame.elim
  | unknown => exact hsame.elim
  | removed _ => exact hsame.elim

theorem SameKey.removal_eq {left right : Standing Key}
    (hsame : left.SameKey right) : left.removal = right.removal := by
  cases left with
  | member key joinedAt =>
      cases right with
      | member other later => rfl
      | unknown => exact hsame.elim
      | removed _ => exact hsame.elim
  | unknown => exact hsame.elim
  | removed _ => exact hsame.elim

/-- At each time there is one event, and none of them comes between two joins
with one key. -/
structure Lasting (history : List (Standing Key)) : Prop where
  ties : ∀ left ∈ history, ∀ right ∈ history, left.rank = right.rank →
    left = right
  between : ∀ earlier ∈ history, ∀ later ∈ history, earlier.SameKey later →
    ∀ other ∈ history, earlier.rank < other.rank → other.rank < later.rank →
      earlier.SameKey other

instance [DecidableEq Key] (history : List (Standing Key)) :
    Decidable (Lasting history) :=
  decidable_of_iff
    ((∀ left ∈ history, ∀ right ∈ history, left.rank = right.rank →
        left = right) ∧
      ∀ earlier ∈ history, ∀ later ∈ history, earlier.SameKey later →
        ∀ other ∈ history, earlier.rank < other.rank →
          other.rank < later.rank → earlier.SameKey other)
    ⟨fun hlasting => ⟨hlasting.1, hlasting.2⟩,
      fun hlasting => ⟨hlasting.ties, hlasting.between⟩⟩

theorem lasting_singleton (only : Standing Key) : Lasting [only] where
  ties left hleft right hright _ := by
    rw [List.mem_singleton.mp hleft, List.mem_singleton.mp hright]
  between earlier hearlier _ _ _ other hother hlt _ := by
    rw [List.mem_singleton.mp hearlier, List.mem_singleton.mp hother] at hlt
    exact absurd hlt (lt_irrefl _)

namespace Lasting

variable {history : List (Standing Key)} {source known next : Standing Key}

/-- A replica that moves forward does not fall behind a report. -/
theorem not_replaces_of_lt (hlasting : Lasting history)
    (hsource : source ∈ history) (hknown : known ∈ history)
    (hnext : next ∈ history) (hlt : known.rank < next.rank)
    (hreplaces : ¬ source.Replaces known) : ¬ source.Replaces next := by
  rintro ⟨hbehind, hdiffer⟩
  have hsame : known.SameKey source := by
    by_contra hother
    exact hreplaces ⟨hlt.trans hbehind, hother⟩
  have hbetween :=
    hlasting.between known hknown source hsource hsame next hnext hlt hbehind
  exact hdiffer (hbetween.symm.trans hsame)

theorem not_replaces_of_le (hlasting : Lasting history)
    (hsource : source ∈ history) (hknown : known ∈ history)
    (hnext : next ∈ history) (hle : known.rank ≤ next.rank)
    (hreplaces : ¬ source.Replaces known) : ¬ source.Replaces next := by
  rcases Nat.lt_or_eq_of_le hle with hlt | heq
  · exact hlasting.not_replaces_of_lt hsource hknown hnext hlt hreplaces
  · rwa [← hlasting.ties known hknown next hnext heq]

/-- Replicas neither of which is behind the other know the same, up to the time
of a join. -/
theorem eq_or_sameKey (hlasting : Lasting history) (hknown : known ∈ history)
    (hnext : next ∈ history) (hleft : ¬ known.Replaces next)
    (hright : ¬ next.Replaces known) : known = next ∨ known.SameKey next := by
  rcases Nat.lt_trichotomy known.rank next.rank with hlt | heq | hlt
  · by_contra hnot
    exact hright ⟨hlt, fun hsame => hnot (.inr hsame)⟩
  · exact .inl (hlasting.ties known hknown next hnext heq)
  · by_contra hnot
    exact hleft ⟨hlt, fun hsame => hnot (.inr hsame.symm)⟩

end Lasting

end Cled.Core.Standing
