import Mathlib.Algebra.Group.Nat.Defs
import Mathlib.Data.List.DropRight
import Mathlib.Data.Option.Basic
import Cled.Core.Framing

/-!
# Clipboard content

`ClipboardContent` is what Cled reads from and writes to the clipboard: text, or
an image with exactly `width * height * 4` bytes of pixels.  Two hash functions
look at it.  Change detection feeds it to the standard hasher; sync feeds it to
BLAKE3.  Neither hasher is part of the repository, so this module only fixes the
bytes that are fed to them.
-/

namespace Cled.Clipboard

open Cled.Core

abbrev Bytes := List UInt8

/-- The UTF-8 bytes of a string. -/
def utf8 (text : String) : Bytes := text.toUTF8.data.toList

/-- Bytes are read as a text exactly if they are the bytes of that text. -/
theorem fromUTF8?_eq_some_iff {bytes : Bytes} {text : String} :
    String.fromUTF8? ⟨bytes.toArray⟩ = some text ↔ bytes = utf8 text := by
  constructor
  · intro hread
    rw [String.fromUTF8?] at hread
    split at hread
    · obtain rfl := Option.some.inj hread
      rfl
    · cases hread
  · rintro rfl
    have hbytes : (⟨(utf8 text).toArray⟩ : ByteArray) = text.toByteArray := by
      rw [utf8, Array.toArray_toList]
      rfl
    have hvalid : ByteArray.IsValidUTF8 ⟨(utf8 text).toArray⟩ :=
      hbytes ▸ text.isValidUTF8
    rw [String.fromUTF8?, dif_pos hvalid]
    exact congrArg some (String.toByteArray_inj.mp hbytes)

theorem utf8_eq_flatMap (text : String) :
    utf8 text = text.toList.flatMap String.utf8EncodeChar := by
  have hbytes : text.toUTF8 = text.toList.utf8Encode :=
    String.utf8Encode_toList.symm
  rw [utf8, hbytes, List.utf8Encode]
  simp

/-- Every character of ASCII text is its own byte. -/
theorem utf8_eq_map_of_ascii {text : String}
    (hascii : ∀ char ∈ text.toList, char.toNat < 128) :
    utf8 text = text.toList.map fun char => UInt8.ofNat char.toNat := by
  rw [utf8_eq_flatMap, List.map_eq_flatMap]
  refine List.flatMap_congr fun char hmem => ?_
  have hsmall : char.toNat ≤ 127 := Nat.le_of_lt_succ (hascii char hmem)
  simp [String.utf8EncodeChar, hsmall]

/-- Text whose bytes are all below 128 is ASCII. -/
theorem ascii_of_utf8 {text : String}
    (hbytes : ∀ byte ∈ utf8 text, byte.toNat < 128) :
    ∀ char ∈ text.toList, char.toNat < 128 := by
  intro char hchar
  by_contra hlarge
  have hle : ¬ char.val.toNat ≤ 127 := fun h => hlarge (Nat.lt_succ_of_le h)
  have hfirst : ∃ byte ∈ String.utf8EncodeChar char, 128 ≤ byte.toNat := by
    rw [String.utf8EncodeChar]
    simp only [hle, if_false]
    split
    · refine ⟨_, List.mem_cons_self, ?_⟩
      rw [UInt8.toNat_ofNat']
      omega
    · split
      · refine ⟨_, List.mem_cons_self, ?_⟩
        rw [UInt8.toNat_ofNat']
        omega
      · refine ⟨_, List.mem_cons_self, ?_⟩
        rw [UInt8.toNat_ofNat']
        omega
  obtain ⟨byte, hbyte, hlarge⟩ := hfirst
  have hmem : byte ∈ utf8 text := by
    rw [utf8_eq_flatMap]
    exact List.mem_flatMap.mpr ⟨char, hchar, hbyte⟩
  exact absurd (hbytes byte hmem) (Nat.not_lt.mpr hlarge)

theorem toNat_ofUInt8 (byte : UInt8) : (Char.ofUInt8 byte).toNat = byte.toNat :=
  rfl

theorem ofUInt8_ofNat_toNat {char : Char} (hascii : char.toNat < 128) :
    Char.ofUInt8 (UInt8.ofNat char.toNat) = char := by
  apply Char.toNat_inj.mp
  rw [toNat_ofUInt8, UInt8.toNat_ofNat']
  omega

/-- The bytes of ASCII text are read as its characters. -/
theorem map_ofUInt8_utf8 {text : String}
    (hascii : ∀ char ∈ text.toList, char.toNat < 128) :
    (utf8 text).map Char.ofUInt8 = text.toList := by
  rw [utf8_eq_map_of_ascii hascii, List.map_map]
  calc
    text.toList.map (Char.ofUInt8 ∘ fun char => UInt8.ofNat char.toNat) =
        text.toList.map id :=
      List.map_congr_left fun char hmem => ofUInt8_ofNat_toNat (hascii char hmem)
    _ = text.toList := List.map_id _

/-- The `count` low bytes of `value`, least significant byte first. -/
def leBytes (value : ℕ) (count : ℕ) : Bytes :=
  (List.range count).map fun index => UInt8.ofNat (value / 256 ^ index)

@[simp]
theorem length_leBytes (value count : ℕ) :
    (leBytes value count).length = count := by
  rw [leBytes, List.length_map, List.length_range]

theorem leBytes_eq_reverse (value count : ℕ) :
    leBytes value count = (beBytes count value).reverse := by
  induction count generalizing value with
  | zero => rfl
  | succ count ih =>
      have hrest : (List.range count).map
          ((fun index => UInt8.ofNat (value / 256 ^ index)) ∘ Nat.succ) =
          leBytes (value / 256) count := by
        refine List.map_congr_left fun index _ => ?_
        rw [Function.comp_apply, Nat.pow_succ', Nat.div_div_eq_div_mul]
      rw [leBytes, List.range_succ_eq_map, List.map_cons, List.map_map, hrest,
        ih, beBytes, List.reverse_append, pow_zero, Nat.div_one]
      rfl

/-- The number that little-endian bytes spell. -/
def fromLe (bytes : Bytes) : ℕ := fromBe bytes.reverse

/-- `u32::from_le_bytes`. -/
def u32FromLe (bytes : Bytes) : UInt32 := UInt32.ofNat (fromLe bytes)

@[simp]
theorem u32FromLe_leBytes (value : UInt32) :
    u32FromLe (leBytes value.toNat 4) = value := by
  rw [u32FromLe, fromLe, leBytes_eq_reverse, List.reverse_reverse,
    fromBe_beBytes value.toNat_lt, UInt32.ofNat_toNat]

/-- Four bytes are those of the number they spell. -/
theorem leBytes_u32FromLe {bytes : Bytes} (hlength : bytes.length = 4) :
    leBytes (u32FromLe bytes).toNat 4 = bytes := by
  have hsame : beBytes 4 (fromBe bytes.reverse) = bytes.reverse := by
    rw [← hlength, ← List.length_reverse]
    exact beBytes_fromBe bytes.reverse
  have hsmall : fromBe bytes.reverse < 2 ^ 32 := by
    have hvalue := fromBe_beBytes_mod 4 (fromBe bytes.reverse)
    rw [hsame] at hvalue
    rw [hvalue]
    exact Nat.mod_lt _ (by decide)
  rw [u32FromLe, fromLe, UInt32.toNat_ofNat_of_lt' hsmall, leBytes_eq_reverse,
    hsame, List.reverse_reverse]

theorem leBytes_four_injective {left right : UInt32}
    (heq : leBytes left.toNat 4 = leBytes right.toNat 4) : left = right := by
  simpa using congrArg u32FromLe heq

/-! ## Images -/

/-- `usize::MAX` on the 64-bit targets the app is built for. -/
def usizeMax : ℕ := 2 ^ 64 - 1

def checkedMul (left right : ℕ) : Option ℕ :=
  if left * right ≤ usizeMax then some (left * right) else none

def rgbaLen (width height : UInt32) : Option ℕ :=
  (checkedMul width.toNat height.toNat).bind fun pixels => checkedMul pixels 4

/-- A clipboard image as straight RGBA, 8 bits per channel, row by row.  The
pixel buffer always has the length its dimensions ask for. -/
structure Image where
  width : UInt32
  height : UInt32
  rgba : Bytes
  size : some rgba.length = rgbaLen width height
  deriving DecidableEq

/-- `none` if `rgba` is not exactly `width * height * 4` bytes. -/
def Image.fromRgba (width height : UInt32) (rgba : Bytes) : Option Image :=
  if size : some rgba.length = rgbaLen width height then
    some { width, height, rgba, size }
  else none

/-! ## Text -/

/-- Unicode `White_Space`, the characters `str::trim_end` removes. -/
def isWhiteSpace (char : Char) : Bool :=
  let code := char.toNat
  (9 ≤ code && code ≤ 13) || code == 0x20 || code == 0x85 || code == 0xA0 ||
    code == 0x1680 || (0x2000 ≤ code && code ≤ 0x200A) || code == 0x2028 ||
    code == 0x2029 || code == 0x202F || code == 0x205F || code == 0x3000

/-- `str::trim_end`. -/
def trimEnd (text : String) : String :=
  String.ofList (text.toList.rdropWhile isWhiteSpace)

/-- `text.replace("\r\n", "\n")`. -/
def replaceCrLf : List Char → List Char
  | '\r' :: '\n' :: rest => '\n' :: replaceCrLf rest
  | char :: rest => char :: replaceCrLf rest
  | [] => []

/-- `text.replace('\r', "\n")`. -/
def replaceCr (chars : List Char) : List Char :=
  chars.map fun char => if char = '\r' then '\n' else char

def normalizeLineEndings (text : String) : String :=
  if '\r' ∈ text.toList then
    String.ofList (replaceCr (replaceCrLf text.toList))
  else text

/-! ## Content -/

inductive ClipboardContent where
  | text (body : String)
  | image (picture : Image)
  deriving DecidableEq

namespace ClipboardContent

/-- Text as used for identity: trailing whitespace removed. -/
def identityText (body : String) : String := trimEnd body

/-- `ClipboardContent::text`: text content with line endings normalized. -/
def ofText (raw : String) : ClipboardContent :=
  .text (normalizeLineEndings raw)

/-- Content as `Clipboard::read` makes it: text went through
`ClipboardContent::text`. -/
def Normalized : ClipboardContent → Prop
  | .text body => '\r' ∉ body.toList
  | .image _ => True

instance : DecidablePred Normalized
  | .text body => inferInstanceAs (Decidable ('\r' ∉ body.toList))
  | .image _ => inferInstanceAs (Decidable True)

/-- What `Hash for ClipboardContent` feeds to the hasher: a tag byte, then the
trimmed text with the `0xff` that ends a string, or the derived fields of the
image. -/
def hashBytes : ClipboardContent → Bytes
  | .text body => 0 :: utf8 (trimEnd body) ++ [0xff]
  | .image picture =>
      1 :: leBytes picture.width.toNat 4 ++ leBytes picture.height.toNat 4 ++
        leBytes picture.rgba.length 8 ++ picture.rgba

end ClipboardContent

theorem cr_notMem_replaceCr (chars : List Char) : '\r' ∉ replaceCr chars := by
  intro hmem
  obtain ⟨char, _, hchar⟩ := List.mem_map.mp hmem
  split at hchar
  · exact absurd hchar (by decide)
  · contradiction

/-- Normalizing already normalized text changes nothing. -/
theorem normalizeLineEndings_eq_self {text : String}
    (hcr : '\r' ∉ text.toList) : normalizeLineEndings text = text := by
  rw [normalizeLineEndings, if_neg hcr]

theorem cr_notMem_normalizeLineEndings (text : String) :
    '\r' ∉ (normalizeLineEndings text).toList := by
  unfold normalizeLineEndings
  split
  · rw [String.toList_ofList]
    exact cr_notMem_replaceCr _
  · assumption

theorem ClipboardContent.ofText_normalized (raw : String) :
    (ClipboardContent.ofText raw).Normalized :=
  cr_notMem_normalizeLineEndings raw

theorem ClipboardContent.ofText_eq_text {body : String}
    (hnormal : (ClipboardContent.text body).Normalized) :
    ClipboardContent.ofText body = .text body := by
  rw [ofText, normalizeLineEndings_eq_self hnormal]

end Cled.Clipboard
