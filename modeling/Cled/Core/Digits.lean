import Mathlib.Data.Nat.Digits.Lemmas
import Cled.Core.Framing

/-!
# Digits of a fixed count

A number below `base ^ count` is written with exactly `count` digits, and every
such list of digits is the one of a number.  Bytes are the digits in base 256.
-/

namespace Cled.Core

/-- Bytes of a fixed count and the numbers they spell. -/
theorem bijOn_fromBe (count : ℕ) :
    Set.BijOn fromBe {bytes | bytes.length = count}
      {value | value < 256 ^ count} := by
  have hinverse : Set.InvOn (beBytes count) fromBe
      {bytes | bytes.length = count} {value | value < 256 ^ count} := by
    constructor
    · rintro bytes rfl
      exact beBytes_fromBe bytes
    · intro value hvalue
      exact fromBe_beBytes hvalue
  apply hinverse.bijOn
  · rintro bytes rfl
    exact fromBe_lt bytes
  · intro value _
    exact length_beBytes count value

/-- The `count` low digits of `value`, most significant digit first. -/
def digitsBe (base count value : ℕ) : List ℕ :=
  (List.range count).reverse.map fun index => value / base ^ index % base

theorem digitsAppend_eq_map {base : ℕ} (hbase : 1 < base) {count value : ℕ}
    (hvalue : value < base ^ count) :
    Nat.digitsAppend base count value =
      (List.range count).map fun index => value / base ^ index % base := by
  apply List.ext_getElem
  · rw [Nat.length_digitsAppend hbase count hvalue, List.length_map,
      List.length_range]
  · intro index hleft _
    have hpadded : (Nat.digitsAppend base count value)[index] =
        (base.digits value).getD index 0 := by
      simp only [Nat.digitsAppend, List.getElem_append, List.getElem_replicate,
        List.getD_eq_getElem?_getD]
      split
      · next hdigit => rw [List.getElem?_eq_getElem hdigit, Option.getD_some]
      · next hdigit =>
          rw [List.getElem?_eq_none (Nat.le_of_not_lt hdigit), Option.getD_none]
    rw [hpadded, Nat.getD_digits value index hbase, List.getElem_map,
      List.getElem_range]

/-- Numbers and their digits. -/
theorem bijOn_digitsBe {base : ℕ} (hbase : 1 < base) (count : ℕ) :
    Set.BijOn (digitsBe base count) {value | value < base ^ count}
      {digits | digits.length = count ∧ ∀ digit ∈ digits, digit < base} := by
  have hreverse : Set.BijOn List.reverse
      {digits : List ℕ | digits.length = count ∧ ∀ digit ∈ digits, digit < base}
      {digits | digits.length = count ∧ ∀ digit ∈ digits, digit < base} := by
    have hinverse : Set.InvOn (List.reverse (α := ℕ)) List.reverse
        {digits | digits.length = count ∧ ∀ digit ∈ digits, digit < base}
        {digits | digits.length = count ∧ ∀ digit ∈ digits, digit < base} :=
      ⟨fun digits _ => List.reverse_reverse digits,
        fun digits _ => List.reverse_reverse digits⟩
    apply hinverse.bijOn
    · intro digits hdigits
      simpa using hdigits
    · intro digits hdigits
      simpa using hdigits
  apply (hreverse.comp (Nat.bijOn_digitsAppend hbase count)).congr
  intro value hvalue
  rw [Function.comp_apply, digitsAppend_eq_map hbase hvalue, digitsBe,
    List.map_reverse]

/-- One symbol for each digit makes one word for each list of digits. -/
theorem bijOn_map {A B : Type*} [Nonempty A] {symbol : A → B} {digits : Set A}
    {alphabet : Set B} (hsymbol : Set.BijOn symbol digits alphabet)
    (count : ℕ) :
    Set.BijOn (List.map symbol)
      {word | word.length = count ∧ ∀ digit ∈ word, digit ∈ digits}
      {word | word.length = count ∧ ∀ char ∈ word, char ∈ alphabet} := by
  obtain ⟨hleft, hright⟩ := hsymbol.invOn_invFunOn
  have hinverse : Set.InvOn (List.map (Function.invFunOn symbol digits))
      (List.map symbol)
      {word | word.length = count ∧ ∀ digit ∈ word, digit ∈ digits}
      {word | word.length = count ∧ ∀ char ∈ word, char ∈ alphabet} := by
    constructor
    · rintro word ⟨_, hword⟩
      rw [List.map_map]
      exact (List.map_congr_left fun digit hdigit =>
        hleft (hword digit hdigit)).trans (List.map_id word)
    · rintro word ⟨_, hword⟩
      rw [List.map_map]
      exact (List.map_congr_left fun char hchar =>
        hright (hword char hchar)).trans (List.map_id word)
  apply hinverse.bijOn
  · rintro word ⟨hlength, hword⟩
    refine ⟨by rw [List.length_map, hlength], ?_⟩
    exact List.forall_mem_map.mpr fun digit hdigit =>
      hsymbol.mapsTo (hword digit hdigit)
  · rintro word ⟨hlength, hword⟩
    refine ⟨by rw [List.length_map, hlength], ?_⟩
    exact List.forall_mem_map.mpr fun char hchar =>
      hsymbol.surjOn.mapsTo_invFunOn (hword char hchar)

end Cled.Core
