import Cled.Core.Framing

/-!
# Reading one piece after another

A format without a length for the whole lays its pieces end to end, so a reader
hands on what follows the piece it read.  Besides pieces of a fixed size there
are variable-length numbers: base 128, least significant digit first, every byte
but the last with its high bit set.
-/

namespace Cled.Core

/-! ## Pieces of a fixed size -/

def readBytes (count : ℕ) (bytes : List UInt8) :
    Option (List UInt8 × List UInt8) :=
  if count ≤ bytes.length then some (bytes.take count, bytes.drop count)
  else none

theorem readBytes_append {count : ℕ} {front : List UInt8}
    (hcount : front.length = count) (rest : List UInt8) :
    readBytes count (front ++ rest) = some (front, rest) := by
  subst hcount
  rw [readBytes, List.length_append, if_pos (Nat.le_add_right _ _),
    List.take_left, List.drop_left]

/-! ## Variable-length numbers -/

/-- `value` in at most `count` bytes. -/
def varint : ℕ → ℕ → List UInt8
  | 0, _ => []
  | count + 1, value =>
      if value < 128 then [UInt8.ofNat value]
      else UInt8.ofNat (value % 128 + 128) :: varint count (value / 128)

def readVarint : ℕ → List UInt8 → Option (ℕ × List UInt8)
  | 0, _ => none
  | _ + 1, [] => none
  | count + 1, byte :: rest =>
      if byte.toNat < 128 then some (byte.toNat, rest)
      else
        (readVarint count rest).map fun (high, rest) =>
          (high * 128 + byte.toNat % 128, rest)

theorem readVarint_varint {count value : ℕ} (hcount : 0 < count)
    (hfits : value < 128 ^ count) (rest : List UInt8) :
    readVarint count (varint count value ++ rest) = some (value, rest) := by
  induction count generalizing value with
  | zero => contradiction
  | succ count ih =>
      by_cases hsmall : value < 128
      · have hbyte : (UInt8.ofNat value).toNat = value := by
          rw [toNat_ofNat_byte]
          omega
        rw [varint, if_pos hsmall, List.singleton_append, readVarint, hbyte,
          if_pos hsmall]
      · have hbyte : (UInt8.ofNat (value % 128 + 128)).toNat =
            value % 128 + 128 := by
          rw [toNat_ofNat_byte]
          omega
        have hhigh : value / 128 < 128 ^ count :=
          Nat.div_lt_of_lt_mul (Nat.pow_succ' ▸ hfits)
        have hmore : 0 < count := by
          apply Nat.pos_of_ne_zero
          rintro rfl
          omega
        rw [varint, if_neg hsmall, List.cons_append, readVarint, hbyte,
          if_neg (by omega), ih hmore hhigh, Option.map_some, Option.some.injEq,
          Prod.mk.injEq]
        refine ⟨?_, rfl⟩
        omega

/-! ## Pieces after their length -/

/-- A list after its length. -/
def prefixed (count : ℕ) (bytes : List UInt8) : List UInt8 :=
  varint count bytes.length ++ bytes

def readPrefixed (count : ℕ) (bytes : List UInt8) :
    Option (List UInt8 × List UInt8) :=
  (readVarint count bytes).bind fun (length, rest) => readBytes length rest

theorem readPrefixed_prefixed {count : ℕ} {bytes : List UInt8}
    (hcount : 0 < count) (hfits : bytes.length < 128 ^ count)
    (rest : List UInt8) :
    readPrefixed count (prefixed count bytes ++ rest) = some (bytes, rest) := by
  rw [prefixed, List.append_assoc, readPrefixed,
    readVarint_varint hcount hfits, Option.bind_some]
  exact readBytes_append rfl rest

end Cled.Core
