import Cled.Clipboard.Content
import Cled.Lan.Wire

/-!
# Keys as text

A key is stored as two lower-case hexadecimal digits for each of its bytes.
What is read back is cut into pieces of two bytes, and each piece is left to
`u8::from_str_radix`.
-/

namespace Cled.Lan

open Cled.Core Cled.Clipboard

def keyLen : ℕ := 32

def keyBytes (key : PublicKey) : Bytes := beBytes keyLen key.toNat

def toKey (bytes : Bytes) : Except LanError PublicKey :=
  if bytes.length = keyLen then .ok (BitVec.ofNat 256 (fromBe bytes))
  else .error (.malformed "key must be 32 bytes")

theorem length_keyBytes (key : PublicKey) : (keyBytes key).length = keyLen :=
  length_beBytes keyLen key.toNat

theorem pow_keyLen : 256 ^ keyLen = 2 ^ 256 := by decide

/-- A key is read from its own bytes and from no others. -/
theorem toKey_eq_ok_iff {bytes : Bytes} {key : PublicKey} :
    toKey bytes = .ok key ↔ bytes = keyBytes key := by
  rw [toKey]
  constructor
  · intro hkey
    split at hkey
    · next hlength =>
        obtain rfl := Except.ok.inj hkey
        have hsmall : fromBe bytes < 2 ^ 256 := by
          rw [← pow_keyLen, ← hlength]
          exact fromBe_lt bytes
        rw [keyBytes, BitVec.toNat_ofNat, Nat.mod_eq_of_lt hsmall, ← hlength,
          beBytes_fromBe]
    · cases hkey
  · intro hbytes
    have hsmall : key.toNat < 256 ^ keyLen := by
      rw [pow_keyLen]
      exact key.isLt
    rw [hbytes, if_pos (length_keyBytes key), keyBytes, fromBe_beBytes hsmall,
      BitVec.ofNat_toNat, BitVec.setWidth_eq]

/-- `format!("{b:02x}")`. -/
def hexByte (byte : UInt8) : List Char :=
  [Nat.digitChar (byte.toNat / 16), Nat.digitChar (byte.toNat % 16)]

def hex (bytes : Bytes) : String := String.ofList (bytes.flatMap hexByte)

/-! ## The standard library -/

/-- `char::to_digit`. -/
def toDigit (char : Char) (radix : ℕ) : Option ℕ :=
  let digit :=
    if '0' ≤ char ∧ char ≤ '9' then some (char.toNat - '0'.toNat)
    else if 'a' ≤ char ∧ char ≤ 'z' then some (char.toNat - 'a'.toNat + 10)
    else if 'A' ≤ char ∧ char ≤ 'Z' then some (char.toNat - 'A'.toNat + 10)
    else none
  digit.filter (· < radix)

/-- One more digit of a `u8`, unless it is none or overflows. -/
def pushDigit (radix value : ℕ) (char : Char) : Option ℕ :=
  (toDigit char radix).bind fun digit =>
    if value * radix + digit < 256 then some (value * radix + digit) else none

/-- `u8::from_str_radix`, on the bytes of the text as characters.  A sign of its
own is not a number; `-` is a digit of none. -/
def fromStrRadix (src : List Char) (radix : ℕ) : Option UInt8 :=
  match src with
  | [] | ['+'] | ['-'] => none
  | '+' :: digits => (digits.foldlM (pushDigit radix) 0).map UInt8.ofNat
  | digits => (digits.foldlM (pushDigit radix) 0).map UInt8.ofNat

/-- `str::is_char_boundary`: no continuation byte follows. -/
def isCharBoundary (bytes : Bytes) (index : ℕ) : Bool :=
  index == 0 ||
    match bytes[index]? with
    | some byte => byte < 0x80 || 0xC0 ≤ byte
    | none => index == bytes.length

/-- `str::get` of a range. -/
def getRange (bytes : Bytes) (start stop : ℕ) : Option Bytes :=
  if start ≤ stop ∧ isCharBoundary bytes start ∧ isCharBoundary bytes stop then
    some ((bytes.take stop).drop start)
  else none

/-- One byte of a key, from the two bytes of text at `index`. -/
def byteAt (bytes : Bytes) (index : ℕ) : Option UInt8 :=
  (getRange bytes index (index + 2)).bind fun piece =>
    fromStrRadix (piece.map Char.ofUInt8) 16

def fromHex (text : String) : Option Bytes :=
  let bytes := utf8 text
  if bytes.length % 2 ≠ 0 then none
  else (List.range' 0 (bytes.length / 2) 2).mapM (byteAt bytes)

/-! ## Pairs of characters -/

/-- Two hexadecimal digits, of either case, for each byte. -/
inductive IsHexOf : List Char → Bytes → Prop where
  | nil : IsHexOf [] []
  | cons {high low : Char} {chars : List Char} {byte : UInt8} {bytes : Bytes}
      (hhigh : toDigit high 16 = some (byte.toNat / 16))
      (hlow : toDigit low 16 = some (byte.toNat % 16))
      (hrest : IsHexOf chars bytes) :
      IsHexOf (high :: low :: chars) (byte :: bytes)

/-- Pairs of a hexadecimal digit or a plus and a hexadecimal digit. -/
def isPaired : List Char → Bool
  | [] => true
  | [_] => false
  | high :: low :: chars =>
      (high == '+' || (toDigit high 16).isSome) && (toDigit low 16).isSome &&
        isPaired chars

/-- What `u8::from_str_radix` makes of two characters. -/
def readPair (high low : Char) : Option UInt8 :=
  if high = '+' then (toDigit low 16).map UInt8.ofNat
  else
    (toDigit high 16).bind fun value =>
      (toDigit low 16).map fun digit => UInt8.ofNat (value * 16 + digit)

def readPairs : List Char → Option Bytes
  | [] => some []
  | [_] => none
  | high :: low :: chars =>
      (readPair high low).bind fun byte =>
        (readPairs chars).map fun bytes => byte :: bytes

theorem toDigit_lt {char : Char} {radix digit : ℕ}
    (hdigit : toDigit char radix = some digit) : digit < radix := by
  rw [toDigit, Option.filter_eq_some_iff] at hdigit
  exact of_decide_eq_true hdigit.2

theorem pushDigit_eq {value digit : ℕ} {char : Char} (hvalue : value < 16)
    (hdigit : toDigit char 16 = some digit) :
    pushDigit 16 value char = some (value * 16 + digit) := by
  have hlt := toDigit_lt hdigit
  rw [pushDigit, hdigit, Option.bind_some, if_pos (by omega)]

theorem fromStrRadix_pair (high low : Char) :
    fromStrRadix [high, low] 16 = readPair high low := by
  by_cases hplus : high = '+'
  · subst hplus
    rw [readPair, if_pos rfl]
    cases hlow : toDigit low 16 with
    | none => simp [fromStrRadix, pushDigit, hlow]
    | some digit =>
        simp [fromStrRadix, pushDigit_eq (Nat.zero_lt_succ 15) hlow]
  · rw [readPair, if_neg hplus]
    cases hhigh : toDigit high 16 with
    | none => simp [fromStrRadix, hplus, pushDigit, hhigh]
    | some value =>
        cases hlow : toDigit low 16 with
        | none => simp [fromStrRadix, hplus, pushDigit, hhigh, hlow]
        | some digit =>
            have hfirst := pushDigit_eq (Nat.zero_lt_succ 15) hhigh
            have hsecond := pushDigit_eq (toDigit_lt hhigh) hlow
            simp [fromStrRadix, hplus, hfirst, hsecond]

theorem toDigit_ascii {char : Char} {radix digit : ℕ}
    (hdigit : toDigit char radix = some digit) : char.toNat < 128 := by
  by_contra hlarge
  have hnone (bound : Char) (hbound : bound.toNat < 128) : ¬ char ≤ bound := by
    intro hle
    have hle : char.toNat ≤ bound.toNat := hle
    omega
  have hrefused : toDigit char radix = none := by
    simp [toDigit, hnone '9' (by decide), hnone 'z' (by decide),
      hnone 'Z' (by decide)]
  rw [hrefused] at hdigit
  cases hdigit

theorem readPair_ascii {high low : Char} {byte : UInt8}
    (hpair : readPair high low = some byte) :
    high.toNat < 128 ∧ low.toNat < 128 := by
  rw [readPair] at hpair
  split at hpair
  · next hplus =>
      obtain ⟨digit, hlow, -⟩ := Option.map_eq_some_iff.mp hpair
      rw [hplus]
      exact ⟨by decide, toDigit_ascii hlow⟩
  · obtain ⟨value, hhigh, hpair⟩ := Option.bind_eq_some_iff.mp hpair
    obtain ⟨digit, hlow, -⟩ := Option.map_eq_some_iff.mp hpair
    exact ⟨toDigit_ascii hhigh, toDigit_ascii hlow⟩

theorem readPairs_cons_eq_some_iff {high low : Char} {chars : List Char}
    {bytes : Bytes} :
    readPairs (high :: low :: chars) = some bytes ↔
      ∃ byte rest, readPair high low = some byte ∧ readPairs chars = some rest ∧
        bytes = byte :: rest := by
  simp only [readPairs, Option.bind_eq_some_iff, Option.map_eq_some_iff]
  constructor
  · rintro ⟨byte, hbyte, rest, hrest, rfl⟩
    exact ⟨byte, rest, hbyte, hrest, rfl⟩
  · rintro ⟨byte, rest, hbyte, hrest, rfl⟩
    exact ⟨byte, hbyte, rest, hrest, rfl⟩

/-- What is read has two characters for each byte, all of them ASCII. -/
theorem length_and_ascii_of_readPairs {chars : List Char} {bytes : Bytes}
    (hread : readPairs chars = some bytes) :
    chars.length = 2 * bytes.length ∧ ∀ char ∈ chars, char.toNat < 128 := by
  induction chars using readPairs.induct generalizing bytes with
  | case1 =>
      obtain rfl := Option.some.inj hread
      exact ⟨rfl, fun char hmem => absurd hmem List.not_mem_nil⟩
  | case2 => cases hread
  | case3 high low chars ih =>
      obtain ⟨byte, rest, hpair, hrest, rfl⟩ := readPairs_cons_eq_some_iff.mp hread
      obtain ⟨hlength, hascii⟩ := ih hrest
      obtain ⟨hhigh, hlow⟩ := readPair_ascii hpair
      refine ⟨?_, ?_⟩
      · simp only [List.length_cons, hlength]
        omega
      · simp only [List.forall_mem_cons]
        exact ⟨hhigh, hlow, hascii⟩

theorem readPairs_eq_none {chars : List Char} {char : Char} (hmem : char ∈ chars)
    (hlarge : 128 ≤ char.toNat) : readPairs chars = none := by
  rw [Option.eq_none_iff_forall_ne_some]
  intro bytes hread
  have hsmall := (length_and_ascii_of_readPairs hread).2 char hmem
  omega

theorem readPairs_map_eq_none {bytes : Bytes} {byte : UInt8} (hmem : byte ∈ bytes)
    (hlarge : 128 ≤ byte.toNat) : readPairs (bytes.map Char.ofUInt8) = none := by
  apply readPairs_eq_none (List.mem_map_of_mem hmem)
  rw [toNat_ofUInt8]
  exact hlarge

/-! ## Pieces of the text -/

/-- Where a character does not start, a byte of its middle stands. -/
theorem exists_of_not_isCharBoundary {bytes : Bytes} {index : ℕ}
    (hindex : index ≤ bytes.length)
    (hmiddle : isCharBoundary bytes index = false) :
    ∃ byte ∈ bytes.drop index, 128 ≤ byte.toNat := by
  rw [isCharBoundary, Bool.or_eq_false_iff] at hmiddle
  obtain ⟨-, hmiddle⟩ := hmiddle
  cases hbyte : bytes[index]? with
  | none =>
      rw [hbyte] at hmiddle
      have hend : index = bytes.length :=
        Nat.le_antisymm hindex (List.getElem?_eq_none_iff.mp hbyte)
      simp [hend] at hmiddle
  | some byte =>
      rw [hbyte] at hmiddle
      have hmem : byte ∈ bytes.drop index := by
        apply List.mem_of_getElem?
        rw [List.getElem?_drop, Nat.add_zero]
        exact hbyte
      simp only [Bool.or_eq_false_iff, decide_eq_false_iff_not,
        UInt8.not_lt, UInt8.le_iff_toNat_le] at hmiddle
      exact ⟨byte, hmem, hmiddle.1⟩

theorem byteAt_eq {bytes rest : Bytes} {index : ℕ} {high low : UInt8}
    (hdrop : bytes.drop index = high :: low :: rest) :
    byteAt bytes index =
      if isCharBoundary bytes index ∧ isCharBoundary bytes (index + 2) then
        readPair (Char.ofUInt8 high) (Char.ofUInt8 low)
      else none := by
  have hpiece : (bytes.take (index + 2)).drop index = [high, low] := by
    rw [List.drop_take, hdrop, Nat.add_sub_cancel_left]
    rfl
  rw [byteAt, getRange, hpiece]
  simp only [Nat.le_add_right, true_and]
  split
  · exact fromStrRadix_pair _ _
  · rfl

/-- Piece by piece, the bytes are read as pairs of characters. -/
theorem mapM_byteAt {bytes : Bytes} {index count : ℕ}
    (hlength : bytes.length = index + 2 * count) :
    (List.range' index count 2).mapM (byteAt bytes) =
      readPairs ((bytes.drop index).map Char.ofUInt8) := by
  induction count generalizing index with
  | zero =>
      have hend : bytes.drop index = [] := List.drop_eq_nil_of_le (by omega)
      rw [hend]
      rfl
  | succ count ih =>
      obtain ⟨high, low, rest, hdrop⟩ :
          ∃ high low rest, bytes.drop index = high :: low :: rest := by
        have hlong : 2 ≤ (bytes.drop index).length := by
          rw [List.length_drop]
          omega
        match hlist : bytes.drop index, hlong with
        | high :: low :: rest, _ => exact ⟨high, low, rest, rfl⟩
      have hrest : bytes.drop (index + 2) = rest := by
        rw [← List.drop_drop, hdrop]
        rfl
      rw [List.range'_succ, List.mapM_cons, byteAt_eq hdrop,
        ih (by omega : bytes.length = index + 2 + 2 * count), hrest, hdrop]
      by_cases hboundaries :
          isCharBoundary bytes index ∧ isCharBoundary bytes (index + 2)
      · rw [if_pos hboundaries]
        simp [readPairs, Option.map_eq_bind]
      · rw [if_neg hboundaries]
        have hlarge : ∃ byte ∈ high :: low :: rest, 128 ≤ byte.toNat := by
          rcases not_and_or.mp hboundaries with hfirst | hsecond
          · rw [← hdrop]
            exact exists_of_not_isCharBoundary (by omega)
              (Bool.eq_false_of_not_eq_true hfirst)
          · obtain ⟨byte, hmem, hbyte⟩ := exists_of_not_isCharBoundary
              (by omega) (Bool.eq_false_of_not_eq_true hsecond)
            rw [hrest] at hmem
            exact ⟨byte, List.mem_cons_of_mem _ (List.mem_cons_of_mem _ hmem), hbyte⟩
        obtain ⟨byte, hmem, hbyte⟩ := hlarge
        exact (readPairs_map_eq_none hmem hbyte).symm

/-- The text is read as pairs of its characters. -/
theorem fromHex_eq_readPairs (text : String) :
    fromHex text = readPairs text.toList := by
  have hbytes : fromHex text = readPairs ((utf8 text).map Char.ofUInt8) := by
    rw [fromHex]
    split
    · next hodd =>
        symm
        rw [Option.eq_none_iff_forall_ne_some]
        intro bytes hread
        have hlength := (length_and_ascii_of_readPairs hread).1
        rw [List.length_map] at hlength
        omega
    · next heven =>
        rw [mapM_byteAt (by omega), List.drop_zero]
  rw [hbytes]
  by_cases hascii : ∀ char ∈ text.toList, char.toNat < 128
  · rw [map_ofUInt8_utf8 hascii]
  · have hlarge : ¬ ∀ byte ∈ utf8 text, byte.toNat < 128 :=
      fun h => hascii (ascii_of_utf8 h)
    simp only [not_forall, Nat.not_lt] at hascii hlarge
    obtain ⟨char, hchar, hlargeChar⟩ := hascii
    obtain ⟨byte, hbyte, hlargeByte⟩ := hlarge
    rw [readPairs_eq_none hchar hlargeChar, readPairs_map_eq_none hbyte hlargeByte]

/-! ## Digits only -/

theorem toDigit_digitChar {digit : ℕ} (hdigit : digit < 16) :
    toDigit (Nat.digitChar digit) 16 = some digit := by
  revert digit
  decide

theorem isHexOf_hex (bytes : Bytes) : IsHexOf (hex bytes).toList bytes := by
  rw [hex, String.toList_ofList]
  induction bytes with
  | nil => exact .nil
  | cons byte bytes ih =>
      have hbyte : byte.toNat < 256 := byte.toNat_lt
      exact .cons (toDigit_digitChar (by omega)) (toDigit_digitChar (by omega)) ih

theorem readPair_of_toDigit {high low : Char} {byte : UInt8}
    (hhigh : toDigit high 16 = some (byte.toNat / 16))
    (hlow : toDigit low 16 = some (byte.toNat % 16)) :
    readPair high low = some byte := by
  have hplus : high ≠ '+' := by
    rintro rfl
    cases hhigh
  rw [readPair, if_neg hplus, hhigh, hlow, Option.bind_some, Option.map_some,
    Nat.div_add_mod', UInt8.ofNat_toNat]

theorem readPairs_of_isHexOf {chars : List Char} {bytes : Bytes}
    (hhex : IsHexOf chars bytes) : readPairs chars = some bytes := by
  induction hhex with
  | nil => rfl
  | cons hhigh hlow _ ih =>
      exact readPairs_cons_eq_some_iff.mpr
        ⟨_, _, readPair_of_toDigit hhigh hlow, ih, rfl⟩

theorem plus_notMem_of_isHexOf {chars : List Char} {bytes : Bytes}
    (hhex : IsHexOf chars bytes) : '+' ∉ chars := by
  induction hhex with
  | nil => exact List.not_mem_nil
  | cons hhigh hlow _ ih =>
      have hdigit {char : Char} {digit : ℕ} (hchar : toDigit char 16 = some digit) :
          '+' ≠ char := by
        rintro rfl
        cases hchar
      simp only [List.mem_cons, not_or]
      exact ⟨hdigit hhigh, hdigit hlow, ih⟩

theorem toDigit_of_readPair {high low : Char} {byte : UInt8} (hplus : high ≠ '+')
    (hpair : readPair high low = some byte) :
    toDigit high 16 = some (byte.toNat / 16) ∧
      toDigit low 16 = some (byte.toNat % 16) := by
  rw [readPair, if_neg hplus] at hpair
  obtain ⟨value, hhigh, hpair⟩ := Option.bind_eq_some_iff.mp hpair
  obtain ⟨digit, hlow, rfl⟩ := Option.map_eq_some_iff.mp hpair
  have hvalue := toDigit_lt hhigh
  have hdigit := toDigit_lt hlow
  have hbyte : (UInt8.ofNat (value * 16 + digit)).toNat = value * 16 + digit := by
    rw [UInt8.toNat_ofNat']
    omega
  rw [hbyte, hhigh, hlow]
  refine ⟨congrArg some ?_, congrArg some ?_⟩ <;> omega

/-- Without a plus, what is read is the hexadecimal text of its bytes. -/
theorem isHexOf_of_readPairs {chars : List Char} {bytes : Bytes}
    (hread : readPairs chars = some bytes) (hplus : '+' ∉ chars) :
    IsHexOf chars bytes := by
  induction chars using readPairs.induct generalizing bytes with
  | case1 =>
      obtain rfl := Option.some.inj hread
      exact .nil
  | case2 => cases hread
  | case3 high low chars ih =>
      obtain ⟨byte, rest, hpair, hrest, rfl⟩ := readPairs_cons_eq_some_iff.mp hread
      simp only [List.mem_cons, not_or] at hplus
      obtain ⟨hhigh, -, hchars⟩ := hplus
      obtain ⟨hfirst, hsecond⟩ := toDigit_of_readPair (Ne.symm hhigh) hpair
      exact .cons hfirst hsecond (ih hrest hchars)

/-! ## What is accepted -/

theorem isSome_readPair (high low : Char) :
    (readPair high low).isSome =
      ((high == '+' || (toDigit high 16).isSome) && (toDigit low 16).isSome) := by
  rw [readPair]
  split
  · next hplus => simp [hplus]
  · next hplus =>
      cases toDigit high 16 with
      | none => simp [hplus]
      | some value => simp

theorem isSome_readPairs (chars : List Char) :
    (readPairs chars).isSome = isPaired chars := by
  induction chars using readPairs.induct with
  | case1 => rfl
  | case2 => rfl
  | case3 high low chars ih =>
      rw [isPaired, ← isSome_readPair, ← ih, readPairs]
      cases readPair high low with
      | none => rfl
      | some byte => simp

theorem fromHex_hex (bytes : Bytes) : fromHex (hex bytes) = some bytes := by
  rw [fromHex_eq_readPairs]
  exact readPairs_of_isHexOf (isHexOf_hex bytes)

example : hex [0, 1, 0xab, 0xff] = "0001abff" := by decide

/-- A text is misread exactly if it is accepted and has a plus. -/
theorem forall_isHexOf_iff (text : String) :
    (∀ bytes, fromHex text = some bytes → IsHexOf text.toList bytes) ↔
      '+' ∉ text.toList ∨ isPaired text.toList = false := by
  rw [fromHex_eq_readPairs, ← isSome_readPairs]
  constructor
  · intro hexact
    cases hread : readPairs text.toList with
    | none => exact Or.inr rfl
    | some bytes => exact Or.inl (plus_notMem_of_isHexOf (hexact bytes hread))
  · rintro (hplus | hrefused) bytes hread
    · exact isHexOf_of_readPairs hread hplus
    · rw [hread] at hrefused
      cases hrefused

end Cled.Lan
