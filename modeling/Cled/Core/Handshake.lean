import Cled.Core.Following

/-!
# Two ends that open and close

One end opens, with a signal to the other, and either end closes by itself and
tells the other.  A queue carries the signals each way.  Both ends agree on
whether they are open as soon as both queues are empty, in whatever order the
signals crossed.
-/

namespace Cled.Core

variable {A : Type*}

/-- Whether an end is open after a signal. -/
def opens : Bool → Signal A → Bool
  | _, .opened _ => true
  | isOpen, .data _ => isOpen
  | _, .closed => false

def opensAll (isOpen : Bool) (signals : List (Signal A)) : Bool :=
  signals.foldl opens isOpen

@[simp]
theorem opensAll_nil (isOpen : Bool) :
    opensAll isOpen ([] : List (Signal A)) = isOpen := rfl

@[simp]
theorem opensAll_cons (isOpen : Bool) (signal : Signal A)
    (signals : List (Signal A)) :
    opensAll isOpen (signal :: signals) = opensAll (opens isOpen signal) signals :=
  rfl

@[simp]
theorem opensAll_append (isOpen : Bool) (front back : List (Signal A)) :
    opensAll isOpen (front ++ back) = opensAll (opensAll isOpen front) back :=
  List.foldl_append

/-- Only a signal that says so opens an end. -/
theorem opensAll_false {signals : List (Signal A)}
    (hnone : ∀ stream, .opened stream ∉ signals) :
    opensAll false signals = false := by
  induction signals with
  | nil => rfl
  | cons signal signals ih =>
      have hrest : ∀ stream, Signal.opened stream ∉ signals :=
        fun stream hmem => hnone stream (List.mem_cons_of_mem _ hmem)
      cases signal with
      | opened stream => exact absurd List.mem_cons_self (hnone stream)
      | data | closed => exact ih hrest

/-- The end that opens, the other one, and what is on its way between them. -/
structure Agreeing (here there : Bool) (out back : List (Signal A)) : Prop where
  /-- What opens the other end is the first thing sent. -/
  first : ∀ stream, .opened stream ∉ out.tail
  early : ∀ stream, .opened stream ∈ out → there = false ∧ back = []
  onlyHere : ∀ stream, .opened stream ∉ back
  closed : .closed ∈ back → opensAll there out = false
  told : here = true → opensAll there out = false → .closed ∈ back
  shut : here = false → opensAll there out = false

namespace Agreeing

variable {here there : Bool} {out back : List (Signal A)} {signal : Signal A}

theorem nothing : Agreeing false false ([] : List (Signal A)) [] where
  first _ := List.not_mem_nil
  early _ h := by cases h
  onlyHere _ := List.not_mem_nil
  closed h := by cases h
  told h := by cases h
  shut _ := rfl

/-- With nothing on its way, both ends are open or none is. -/
theorem agree (hagree : Agreeing here there ([] : List (Signal A)) []) :
    here = there := by
  cases here with
  | false => exact (hagree.shut rfl).symm
  | true =>
      cases there with
      | true => rfl
      | false => cases hagree.told rfl rfl

theorem no_opened_of_open (hagree : Agreeing here true out back) (stream : ℕ) :
    .opened stream ∉ out :=
  fun hmem => Bool.noConfusion (hagree.early stream hmem).1

theorem no_opened_of_back {rest : List (Signal A)}
    (hagree : Agreeing here there out (signal :: rest)) (stream : ℕ) :
    .opened stream ∉ out :=
  fun hmem => List.cons_ne_nil _ _ (hagree.early stream hmem).2

/-! ### This end -/

/-- This end opens. -/
theorem opened (stream : ℕ) :
    Agreeing true false [(.opened stream : Signal A)] [] where
  first _ := List.not_mem_nil
  early _ _ := ⟨rfl, rfl⟩
  onlyHere _ := List.not_mem_nil
  closed h := by cases h
  told _ h := by cases h
  shut h := by cases h

theorem first_concat (hagree : Agreeing here there out back)
    (hsignal : ∀ stream, signal ≠ .opened stream) (stream : ℕ) :
    .opened stream ∉ (out ++ [signal]).tail := by
  have hfirst := hagree.first stream
  cases out with
  | nil => exact List.not_mem_nil
  | cons head out =>
      intro hmem
      rcases List.mem_append.mp hmem with hold | hnew
      · exact hfirst hold
      · exact hsignal stream (List.mem_singleton.mp hnew).symm

theorem early_concat (hagree : Agreeing here there out back)
    (hsignal : ∀ stream, signal ≠ .opened stream) (stream : ℕ)
    (hmem : .opened stream ∈ out ++ [signal]) : there = false ∧ back = [] := by
  rcases List.mem_append.mp hmem with hold | hnew
  · exact hagree.early stream hold
  · exact absurd (List.mem_singleton.mp hnew).symm (hsignal stream)

/-- This end sends something. -/
theorem sends (hagree : Agreeing here there out back) (items : List A) :
    Agreeing here there (out ++ [.data items]) back where
  first := hagree.first_concat fun _ => nofun
  early := hagree.early_concat fun _ => nofun
  onlyHere := hagree.onlyHere
  closed := by
    rw [opensAll_append]
    exact hagree.closed
  told := by
    rw [opensAll_append]
    exact hagree.told
  shut := by
    rw [opensAll_append]
    exact hagree.shut

/-- This end closes and says so. -/
theorem closes (hagree : Agreeing here there out back) :
    Agreeing false there (out ++ [.closed]) back where
  first := hagree.first_concat fun _ => nofun
  early := hagree.early_concat fun _ => nofun
  onlyHere := hagree.onlyHere
  closed _ := by
    rw [opensAll_append]
    rfl
  told h := by cases h
  shut _ := by
    rw [opensAll_append]
    rfl

/-- This end takes a signal that leaves it as it is. -/
theorem takesBack {items : List A}
    (hagree : Agreeing here there out (.data items :: back)) :
    Agreeing here there out back where
  first := hagree.first
  early stream hmem := absurd hmem (hagree.no_opened_of_back stream)
  onlyHere stream hmem :=
    hagree.onlyHere stream (List.mem_cons_of_mem _ hmem)
  closed hmem := hagree.closed (List.mem_cons_of_mem _ hmem)
  told hhere hshut := by
    rcases List.mem_cons.mp (hagree.told hhere hshut) with h | h
    · cases h
    · exact h
  shut := hagree.shut

/-- This end is told to close. -/
theorem toldBack (hagree : Agreeing here there out (.closed :: back)) :
    Agreeing false there out back where
  first := hagree.first
  early stream hmem := absurd hmem (hagree.no_opened_of_back stream)
  onlyHere stream hmem :=
    hagree.onlyHere stream (List.mem_cons_of_mem _ hmem)
  closed hmem := hagree.closed (List.mem_cons_of_mem _ hmem)
  told h := by cases h
  shut _ := hagree.closed List.mem_cons_self

/-! ### The other end -/

/-- The other end takes a signal. -/
theorem takes (hagree : Agreeing here there (signal :: out) back) :
    Agreeing here (opens there signal) out back where
  first stream hmem :=
    hagree.first stream (List.mem_of_mem_tail hmem)
  early stream hmem := absurd hmem (hagree.first stream)
  onlyHere := hagree.onlyHere
  closed := hagree.closed
  told := hagree.told
  shut := hagree.shut

/-- The other end sends something, while it is open. -/
theorem answers (hagree : Agreeing here true out back) (items : List A) :
    Agreeing here true out (back ++ [.data items]) where
  first := hagree.first
  early stream hmem := absurd hmem (hagree.no_opened_of_open stream)
  onlyHere stream hmem := by
    rcases List.mem_append.mp hmem with hold | hnew
    · exact hagree.onlyHere stream hold
    · cases List.mem_singleton.mp hnew
  closed hmem := by
    rcases List.mem_append.mp hmem with hold | hnew
    · exact hagree.closed hold
    · cases List.mem_singleton.mp hnew
  told hhere hshut := List.mem_append_left _ (hagree.told hhere hshut)
  shut := hagree.shut

/-- The other end closes and says so, once it cannot be opened any more. -/
theorem closesBack (hagree : Agreeing here there out back)
    (hnone : ∀ stream, .opened stream ∉ out) :
    Agreeing here false out (back ++ [.closed]) where
  first := hagree.first
  early stream hmem := absurd hmem (hnone stream)
  onlyHere stream hmem := by
    rcases List.mem_append.mp hmem with hold | hnew
    · exact hagree.onlyHere stream hold
    · cases List.mem_singleton.mp hnew
  closed _ := opensAll_false hnone
  told _ _ := List.mem_append_right _ List.mem_cons_self
  shut _ := opensAll_false hnone

end Agreeing

end Cled.Core
