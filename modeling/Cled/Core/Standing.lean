import Mathlib.Data.List.Basic
import Mathlib.Order.Lattice
import Mathlib.Tactic.Tauto

/-!
# Joins and removals of one member

What a replica knows about one member of a group: nothing, that it joined with a
key at some time, or that it was removed at some time.  A report from another
replica replaces that if it is newer, a removal winning a tie, except that a
join with the same key changes nothing.  Because of that exception the order of
the reports can matter; `settles_iff` says when it does not.
-/

namespace Cled.Core

inductive Standing (Key : Type*) where
  | unknown
  | member (key : Key) (joinedAt : ℕ)
  | removed (removedAt : ℕ)
  deriving DecidableEq

namespace Standing

variable {Key : Type*}

/-- Newer standings have the higher rank.  A removal ranks just above a join at
the same time. -/
def rank : Standing Key → ℕ
  | .unknown => 0
  | .member _ joinedAt => 2 * joinedAt + 1
  | .removed removedAt => 2 * removedAt + 2

@[simp]
theorem rank_unknown : rank (.unknown : Standing Key) = 0 := rfl

@[simp]
theorem rank_member (key : Key) (joinedAt : ℕ) :
    rank (.member key joinedAt) = 2 * joinedAt + 1 := rfl

@[simp]
theorem rank_removed (removedAt : ℕ) :
    rank (.removed removedAt : Standing Key) = 2 * removedAt + 2 := rfl

/-- Both are joins with one key. -/
def SameKey : Standing Key → Standing Key → Prop
  | .member left _, .member right _ => left = right
  | _, _ => False

/-- A report of `told` replaces `known`. -/
def Replaces (told known : Standing Key) : Prop :=
  known.rank < told.rank ∧ ¬ known.SameKey told

theorem not_sameKey_removed (known : Standing Key) (removedAt : ℕ) :
    ¬ known.SameKey (.removed removedAt) := by
  cases known <;> exact id

theorem not_removed_sameKey (removedAt : ℕ) (told : Standing Key) :
    ¬ SameKey (.removed removedAt) told := by
  cases told <;> exact id

/-- A removal replaces whatever it is newer than. -/
theorem removed_replaces_iff {known : Standing Key} {removedAt : ℕ} :
    Replaces (.removed removedAt) known ↔ known.rank < 2 * removedAt + 2 :=
  and_iff_left (not_sameKey_removed known removedAt)

variable [DecidableEq Key]

instance : DecidableRel (SameKey : Standing Key → Standing Key → Prop)
  | .member left _, .member right _ => inferInstanceAs (Decidable (left = right))
  | .member _ _, .unknown => inferInstanceAs (Decidable False)
  | .member _ _, .removed _ => inferInstanceAs (Decidable False)
  | .unknown, _ => inferInstanceAs (Decidable False)
  | .removed _, _ => inferInstanceAs (Decidable False)

instance (told known : Standing Key) : Decidable (told.Replaces known) :=
  inferInstanceAs (Decidable (_ ∧ _))

def absorb (known told : Standing Key) : Standing Key :=
  if told.Replaces known then told else known

def absorbAll (known : Standing Key) (told : List (Standing Key)) :
    Standing Key :=
  told.foldl absorb known

omit [DecidableEq Key] in
theorem SameKey.symm {left right : Standing Key} (hsame : left.SameKey right) :
    right.SameKey left := by
  cases left <;> cases right <;> first | exact hsame.elim | exact Eq.symm hsame

omit [DecidableEq Key] in
theorem SameKey.trans {left middle right : Standing Key}
    (hleft : left.SameKey middle) (hright : middle.SameKey right) :
    left.SameKey right := by
  cases left <;> cases middle <;> cases right <;>
    first | exact hleft.elim | exact hright.elim | exact Eq.trans hleft hright

omit [DecidableEq Key] in
theorem not_replaces_of_le {known told : Standing Key}
    (hle : told.rank ≤ known.rank) : ¬ told.Replaces known :=
  fun hreplaces => absurd hreplaces.1 (Nat.not_lt.mpr hle)

theorem absorb_of_replaces {known told : Standing Key}
    (hreplaces : told.Replaces known) : known.absorb told = told :=
  if_pos hreplaces

theorem absorb_of_not_replaces {known told : Standing Key}
    (hreplaces : ¬ told.Replaces known) : known.absorb told = known :=
  if_neg hreplaces

@[simp]
theorem absorb_unknown (known : Standing Key) :
    known.absorb .unknown = known :=
  absorb_of_not_replaces (not_replaces_of_le (Nat.zero_le _))

/-- A report that was absorbed changes nothing when it comes again. -/
theorem absorb_absorb (known told : Standing Key) :
    (known.absorb told).absorb told = known.absorb told := by
  by_cases hreplaces : told.Replaces known
  · rw [absorb_of_replaces hreplaces]
    exact absorb_of_not_replaces (not_replaces_of_le le_rfl)
  · rw [absorb_of_not_replaces hreplaces, absorb_of_not_replaces hreplaces]

theorem rank_le_absorb (known told : Standing Key) :
    known.rank ≤ (known.absorb told).rank := by
  by_cases hreplaces : told.Replaces known
  · rw [absorb_of_replaces hreplaces]
    exact hreplaces.1.le
  · rw [absorb_of_not_replaces hreplaces]

theorem absorb_eq_or (known told : Standing Key) :
    known.absorb told = known ∨ known.absorb told = told := by
  unfold absorb
  split
  · exact Or.inr rfl
  · exact Or.inl rfl

@[simp]
theorem absorbAll_cons (known told : Standing Key)
    (rest : List (Standing Key)) :
    known.absorbAll (told :: rest) = (known.absorb told).absorbAll rest := rfl

theorem absorbAll_append (known : Standing Key)
    (front back : List (Standing Key)) :
    known.absorbAll (front ++ back) =
      (known.absorbAll front).absorbAll back :=
  List.foldl_append

theorem rank_le_absorbAll (known : Standing Key) (told : List (Standing Key)) :
    known.rank ≤ (known.absorbAll told).rank := by
  induction told generalizing known with
  | nil => exact le_rfl
  | cons first rest ih => exact (rank_le_absorb known first).trans (ih _)

/-- What is known in the end was known before or reported. -/
theorem absorbAll_mem (known : Standing Key) (told : List (Standing Key)) :
    known.absorbAll told = known ∨ known.absorbAll told ∈ told := by
  induction told generalizing known with
  | nil => exact Or.inl rfl
  | cons first rest ih =>
      rw [absorbAll_cons]
      rcases ih (known.absorb first) with heq | hmem
      · rcases absorb_eq_or known first with hknown | hfirst
        · exact Or.inl (heq.trans hknown)
        · exact Or.inr (by rw [heq, hfirst]; exact List.mem_cons_self)
      · exact Or.inr (List.mem_cons_of_mem _ hmem)

/-- Reports none of which replaces what is known. -/
theorem absorbAll_of_not_replaces {known : Standing Key}
    {told : List (Standing Key)}
    (hnone : ∀ report ∈ told, ¬ report.Replaces known) :
    known.absorbAll told = known := by
  induction told with
  | nil => rfl
  | cons first rest ih =>
      rw [absorbAll_cons, absorb_of_not_replaces (hnone first List.mem_cons_self)]
      exact ih fun report hmem => hnone report (List.mem_cons_of_mem _ hmem)

/-- Reports that are all one report, or none, are as good as that one. -/
theorem absorbAll_of_forall_eq {known report : Standing Key}
    {told : List (Standing Key)}
    (hall : ∀ other ∈ told, other = .unknown ∨ other = report)
    (hmem : report ≠ .unknown → report ∈ told) :
    known.absorbAll told = known.absorb report := by
  have hgeneral : ∀ told : List (Standing Key),
      (∀ other ∈ told, other = .unknown ∨ other = report) →
        ∀ known : Standing Key,
          known.absorbAll told = known ∨
            known.absorbAll told = known.absorb report := by
    intro told
    induction told with
    | nil => exact fun _ _ => Or.inl rfl
    | cons first rest ih =>
        intro hall known
        have hrest := ih fun other hother =>
          hall other (List.mem_cons_of_mem _ hother)
        rw [absorbAll_cons]
        rcases hall first List.mem_cons_self with rfl | rfl
        · rw [absorb_unknown]
          exact hrest known
        · refine Or.inr ?_
          rcases hrest (known.absorb first) with heq | heq
          · exact heq
          · exact heq.trans (absorb_absorb known first)
  by_cases hunknown : report = .unknown
  · subst hunknown
    rcases hgeneral told hall known with heq | heq
    · rw [heq, absorb_unknown]
    · exact heq
  · obtain ⟨front, back, rfl⟩ := List.append_of_mem (hmem hunknown)
    rw [absorbAll_append, absorbAll_cons]
    have hfront := hgeneral front
      (fun other hother => hall other (List.mem_append_left _ hother)) known
    have hback := hgeneral back fun other hother =>
      hall other (List.mem_append_right _ (List.mem_cons_of_mem _ hother))
    have habsorbed : (known.absorbAll front).absorb report =
        known.absorb report := by
      rcases hfront with heq | heq
      · rw [heq]
      · rw [heq, absorb_absorb]
    rw [habsorbed]
    rcases hback (known.absorb report) with heq | heq
    · exact heq
    · exact heq.trans (absorb_absorb known report)

/-! ## When the order of the reports does not matter -/

section Order

variable {Report : Type*} (tells : Report → Standing Key)

/-- Every order of the reports, each of them once or more often, ends with
`final`. -/
def EndsWith (known : Standing Key) (reports : List Report)
    (final : Standing Key) : Prop :=
  ∀ sequence : List Report, (∀ report, report ∈ sequence ↔ report ∈ reports) →
    known.absorbAll (sequence.map tells) = final

/-- `newest` is known already; or it is reported and is no join with the key of
what is known, no older join with its own key is news, and if another join at
its time is reported, then that one is no news and neither is anything older. -/
def Settles (known : Standing Key) (told : List (Standing Key))
    (newest : Standing Key) : Prop :=
  newest = known ∨
    (newest ∈ told ∧ newest.Replaces known ∧
      (∀ older ∈ told, older.rank < newest.rank → older.SameKey newest →
        ¬ older.Replaces known) ∧
      ∀ tied ∈ told, tied ≠ newest → tied.rank = newest.rank →
        ¬ tied.Replaces known ∧
          ∀ older ∈ told, older.rank < newest.rank → ¬ older.Replaces known)

instance (known : Standing Key) (told : List (Standing Key))
    (newest : Standing Key) : Decidable (Settles known told newest) :=
  inferInstanceAs (Decidable (_ ∨ (_ ∧ _ ∧ (∀ older ∈ told, _ → _ → _) ∧
    ∀ tied ∈ told, _ → _ → _ ∧ ∀ older ∈ told, _ → _)))

variable {tells}

/-- Where the reports can have led before `newest` is absorbed. -/
def Before (known : Standing Key) (told : List (Standing Key))
    (newest state : Standing Key) : Prop :=
  newest.Replaces state ∧ known.rank ≤ state.rank ∧
    (state = known ∨
      ∃ older ∈ told, older.rank < newest.rank ∧ older.Replaces known)

theorem before_absorb {known newest state report : Standing Key}
    {told : List (Standing Key)} (hmem : report ∈ told)
    (hnewest : report.rank ≤ newest.rank) (hne : newest ≠ known)
    (hsettles : Settles known told newest)
    (hbefore : Before known told newest state) :
    state.absorb report = newest ∨
      Before known told newest (state.absorb report) := by
  obtain ⟨_, hreplacesKnown, holder, htied⟩ := hsettles.resolve_left hne
  obtain ⟨hreplaces, hrank, hstate⟩ := hbefore
  by_cases hreport : report.Replaces state
  swap
  · rw [absorb_of_not_replaces hreport]
    exact Or.inr ⟨hreplaces, hrank, hstate⟩
  rw [absorb_of_replaces hreport]
  by_cases heq : report = newest
  · exact Or.inl heq
  rcases Nat.lt_or_eq_of_le hnewest with hlt | htie
  · have hrankReport : known.rank < report.rank :=
      lt_of_le_of_lt hrank hreport.1
    refine Or.inr ⟨⟨hlt, fun hsame => ?_⟩, hrankReport.le, ?_⟩
    · -- An older join with the key of `newest` would be news.
      refine holder report hmem hlt hsame ⟨hrankReport, fun hknown => ?_⟩
      exact hreplacesKnown.2 (hknown.trans hsame)
    · rcases hstate with rfl | hsome
      · exact Or.inr ⟨report, hmem, hlt, hreport⟩
      · exact Or.inr hsome
  · obtain ⟨hnotTied, hnotOlder⟩ := htied report hmem heq htie
    rcases hstate with rfl | ⟨older, holderMem, holderLt, holderNews⟩
    · exact absurd hreport hnotTied
    · exact absurd holderNews (hnotOlder older holderMem holderLt)

theorem before_absorbAll {known newest : Standing Key}
    {told : List (Standing Key)} (hne : newest ≠ known)
    (hnewest : ∀ report ∈ told, report.rank ≤ newest.rank)
    (hsettles : Settles known told newest)
    (state : Standing Key) (sequence : List (Standing Key))
    (hsequence : ∀ report ∈ sequence, report ∈ told)
    (hstate : state = newest ∨ Before known told newest state) :
    state.absorbAll sequence = newest ∨
      Before known told newest (state.absorbAll sequence) := by
  induction sequence generalizing state with
  | nil => exact hstate
  | cons report rest ih =>
      have hmem := hsequence report List.mem_cons_self
      refine ih _ (fun other hother =>
        hsequence other (List.mem_cons_of_mem _ hother)) ?_
      rcases hstate with rfl | hbefore
      · exact Or.inl (absorb_of_not_replaces
          (not_replaces_of_le (hnewest report hmem)))
      · exact before_absorb hmem (hnewest report hmem) hne hsettles hbefore

theorem endsWith_of_settles {known newest : Standing Key}
    {reports : List Report} (hknown : known.rank ≤ newest.rank)
    (hnewest : ∀ report ∈ reports, (tells report).rank ≤ newest.rank)
    (hsettles : Settles known (reports.map tells) newest) :
    EndsWith tells known reports newest := by
  intro sequence hsequence
  have hranks : ∀ report ∈ reports.map tells, report.rank ≤ newest.rank := by
    simpa using hnewest
  have hmem : ∀ report ∈ sequence.map tells, report ∈ reports.map tells := by
    intro report hreport
    obtain ⟨source, hsource, rfl⟩ := List.mem_map.mp hreport
    exact List.mem_map_of_mem ((hsequence source).mp hsource)
  by_cases hne : newest = known
  · subst hne
    exact absorbAll_of_not_replaces fun report hreport =>
      not_replaces_of_le (hranks report (hmem report hreport))
  obtain ⟨hreported, hreplaces, _⟩ := hsettles.resolve_left hne
  obtain ⟨source, hsource, hsourceEq⟩ := List.mem_map.mp hreported
  have hin : newest ∈ sequence.map tells :=
    hsourceEq ▸ List.mem_map_of_mem ((hsequence source).mpr hsource)
  obtain ⟨front, back, hsplit⟩ := List.append_of_mem hin
  rw [hsplit] at hmem ⊢
  rw [absorbAll_append, absorbAll_cons]
  have hfront := before_absorbAll hne hranks hsettles known front
    (fun report hreport => hmem report (List.mem_append_left _ hreport))
    (Or.inr ⟨hreplaces, le_rfl, Or.inl rfl⟩)
  have harrived : (known.absorbAll front).absorb newest = newest := by
    rcases hfront with heq | hbefore
    · rw [heq]
      exact absorb_of_not_replaces (not_replaces_of_le le_rfl)
    · exact absorb_of_replaces hbefore.1
  rw [harrived]
  exact absorbAll_of_not_replaces fun report hreport =>
    not_replaces_of_le (hranks report (hmem report
      (List.mem_append_right _ (List.mem_cons_of_mem _ hreport))))

/-- If `front` leads to a standing that `newest` does not replace, the reports
of `newest` can all come right after it and be lost. -/
theorem eq_of_endsWith {known newest : Standing Key}
    {reports : List Report} (hends : EndsWith tells known reports newest)
    (front : List Report) (hfront : ∀ report ∈ front, report ∈ reports)
    (hlost : ¬ newest.Replaces (known.absorbAll (front.map tells))) :
    known.absorbAll (front.map tells) = newest := by
  let late := reports.filter fun report => tells report = newest
  let rest := reports.filter fun report => tells report ≠ newest
  have hlate : ∀ report ∈ late.map tells,
      ¬ report.Replaces (known.absorbAll (front.map tells)) := by
    intro report hreport
    obtain ⟨source, hsource, rfl⟩ := List.mem_map.mp hreport
    rwa [of_decide_eq_true (List.mem_filter.mp hsource).2]
  have hfinal := hends ((front ++ late) ++ rest) fun report => by
    have hmem := hfront report
    by_cases htells : tells report = newest <;>
      simp [late, rest, htells] <;> tauto
  rw [List.map_append, absorbAll_append, List.map_append, absorbAll_append,
    absorbAll_of_not_replaces hlate] at hfinal
  rcases absorbAll_mem (known.absorbAll (front.map tells)) (rest.map tells)
    with heq | hmem
  · exact heq.symm.trans hfinal
  · rw [hfinal] at hmem
    obtain ⟨source, hsource, hnewest⟩ := List.mem_map.mp hmem
    exact absurd hnewest (of_decide_eq_true (List.mem_filter.mp hsource).2)

theorem settles_of_endsWith {known newest : Standing Key}
    {reports : List Report}
    (hnewest : ∀ report ∈ reports, (tells report).rank ≤ newest.rank)
    (hends : EndsWith tells known reports newest) :
    Settles known (reports.map tells) newest := by
  by_cases hne : newest = known
  · exact Or.inl hne
  have hranks : ∀ report ∈ reports.map tells, report.rank ≤ newest.rank := by
    simpa using hnewest
  have hreplaces : newest.Replaces known := by
    by_contra hlost
    have hknown := eq_of_endsWith hends [] nofun hlost
    exact hne hknown.symm
  -- A report of the rank of `newest` that counts first counts to the end.
  have hfirst : ∀ front : List Report, (∀ report ∈ front, report ∈ reports) →
      newest.rank ≤ (known.absorbAll (front.map tells)).rank →
        known.absorbAll (front.map tells) = newest :=
    fun front hfront hle =>
      eq_of_endsWith hends front hfront (not_replaces_of_le hle)
  refine Or.inr ⟨?_, hreplaces, ?_, ?_⟩
  · rcases absorbAll_mem known (reports.map tells) with heq | hmem
    · exact absurd ((hends reports fun _ => Iff.rfl).symm.trans heq) hne
    · rwa [hends reports fun _ => Iff.rfl] at hmem
  · intro older hmem hlt hsame hnews
    obtain ⟨source, hsource, rfl⟩ := List.mem_map.mp hmem
    have hstate : known.absorbAll ([source].map tells) = tells source :=
      absorb_of_replaces hnews
    have heq := eq_of_endsWith hends [source]
      (by simpa using hsource) (by rw [hstate]; exact fun h => h.2 hsame)
    rw [hstate] at heq
    exact absurd hlt (by rw [heq]; exact lt_irrefl _)
  · intro tied hmem htiedNe htie
    obtain ⟨source, hsource, rfl⟩ := List.mem_map.mp hmem
    have hnotTied : ¬ (tells source).Replaces known := by
      intro hnews
      have hstate : known.absorbAll ([source].map tells) = tells source :=
        absorb_of_replaces hnews
      have heq := hfirst [source] (by simpa using hsource)
        (by rw [hstate, htie])
      exact htiedNe (hstate.symm.trans heq)
    refine ⟨hnotTied, fun older holder hlt hnews => ?_⟩
    obtain ⟨first, hfirstMem, rfl⟩ := List.mem_map.mp holder
    -- What is known has the key of the tied join, the older report another.
    have hsame : known.SameKey (tells source) := by
      by_contra hsame
      exact hnotTied ⟨htie ▸ hreplaces.1, hsame⟩
    have hreplacesFirst : (tells source).Replaces (tells first) :=
      ⟨htie ▸ hlt, fun hfirstSame => hnews.2 (hsame.trans hfirstSame.symm)⟩
    have hstate : known.absorbAll ([first, source].map tells) =
        tells source := by
      change (known.absorb (tells first)).absorb (tells source) = tells source
      rw [absorb_of_replaces hnews, absorb_of_replaces hreplacesFirst]
    have heq := hfirst [first, source]
      (by simpa using ⟨hfirstMem, hsource⟩) (by rw [hstate, htie])
    exact htiedNe (hstate.symm.trans heq)

end Order

end Standing

end Cled.Core
