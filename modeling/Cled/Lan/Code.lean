import Cled.Clipboard.Content
import Cled.Core.Digits
import Cled.Lan.Wire

/-!
# Pairing codes

A pairing code is 8 Crockford base32 characters, 40 random bits, shown as
`XXXX-XXXX`.  People read it out and type it, so parsing is forgiving about case,
spaces, dashes and the usual misreadings.
-/

namespace Cled.Lan

open Cled.Clipboard Cled.Core

/-! ## Codes -/

/-- Crockford's base32 alphabet: no I, L, O, or U, so codes are hard to
misread. -/
def alphabet : Bytes := utf8 "0123456789ABCDEFGHJKMNPQRSTVWXYZ"

def codeLen : ℕ := 8

/-- `char::from(ALPHABET[digit])`; no digit is above 31. -/
def symbol (digit : ℕ) : Char := Char.ofUInt8 (alphabet.getD digit 0)

/-- The characters of `ALPHABET`. -/
def symbols : List Char := alphabet.map Char.ofUInt8

def IsCode (text : String) : Prop :=
  text.toList.length = codeLen ∧ ∀ char ∈ text.toList, char ∈ symbols

@[ext]
structure PairingCode where
  text : String
  isCode : IsCode text

/-- The random bytes as one number. -/
def randomBits (bytes : Bytes) : ℕ :=
  bytes.foldl (fun bits byte => (bits <<< 8) ||| byte.toNat) 0

/-- The eight characters made from 40 bits. -/
def codeText (bits : ℕ) : String :=
  String.ofList ((List.range codeLen).reverse.map fun index =>
    symbol ((bits >>> (index * 5)) &&& 0x1f))

/-- What a typed character is read as. -/
def readChar (char : Char) : Char :=
  let upper := char.toUpper
  if upper = 'I' ∨ upper = 'L' then '1'
  else if upper = 'O' then '0'
  else upper

/-- `!c.is_whitespace() && *c != '-'`. -/
def isKept (char : Char) : Bool := !isWhiteSpace char && char != '-'

def typedCode (input : String) : String :=
  String.ofList ((input.toList.filter isKept).map readChar)

/-- The check on the bytes of what was typed. -/
def isAccepted (code : String) : Bool :=
  (utf8 code).length == codeLen && (utf8 code).all alphabet.contains

/-! ## The alphabet -/

theorem length_symbols : symbols.length = 32 := by decide

theorem nodup_symbols : symbols.Nodup := by decide

theorem symbol_eq_getElem {digit : ℕ} (hdigit : digit < symbols.length) :
    symbol digit = symbols[digit] := by
  have hbyte : digit < alphabet.length := by
    rwa [symbols, List.length_map] at hdigit
  simp only [symbol, symbols, List.getElem_map, List.getD_eq_getElem?_getD,
    List.getElem?_eq_getElem hbyte, Option.getD_some]

theorem bijOn_symbol :
    Set.BijOn symbol {digit | digit < 32} {char | char ∈ symbols} := by
  rw [← length_symbols]
  refine ⟨?_, ?_, ?_⟩
  · intro digit hdigit
    rw [symbol_eq_getElem hdigit]
    exact List.getElem_mem hdigit
  · intro digit hdigit other hother heq
    rw [symbol_eq_getElem hdigit, symbol_eq_getElem hother] at heq
    exact (nodup_symbols.getElem_inj_iff).mp heq
  · intro char hchar
    obtain ⟨digit, hdigit, heq⟩ := List.getElem_of_mem hchar
    exact ⟨digit, hdigit, (symbol_eq_getElem hdigit).trans heq⟩

theorem alphabet_ascii : ∀ byte ∈ alphabet, byte.toNat < 128 := by
  have hall : (alphabet.all fun byte => byte.toNat < 128) = true := by decide
  simpa using List.all_eq_true.mp hall

theorem symbols_ascii : ∀ char ∈ symbols, char.toNat < 128 := by
  have hall : (symbols.all fun char => char.toNat < 128) = true := by decide
  simpa using List.all_eq_true.mp hall

theorem mem_symbols_iff {char : Char} (hascii : char.toNat < 128) :
    char ∈ symbols ↔ UInt8.ofNat char.toNat ∈ alphabet := by
  constructor
  · intro hmem
    obtain ⟨byte, hbyte, rfl⟩ := List.mem_map.mp hmem
    rwa [toNat_ofUInt8, UInt8.ofNat_toNat]
  · intro hmem
    exact List.mem_map.mpr ⟨_, hmem, ofUInt8_ofNat_toNat hascii⟩

/-- Only ASCII characters have bytes of the alphabet. -/
theorem isAccepted_iff {code : String} :
    isAccepted code = true ↔ IsCode code := by
  have hchecks : isAccepted code = true ↔
      (utf8 code).length = codeLen ∧ ∀ byte ∈ utf8 code, byte ∈ alphabet := by
    simp [isAccepted]
  have hiff (hascii : ∀ char ∈ code.toList, char.toNat < 128) :
      isAccepted code = true ↔ IsCode code := by
    rw [hchecks, utf8_eq_map_of_ascii hascii, List.length_map, IsCode,
      List.forall_mem_map]
    exact and_congr_right fun _ => forall₂_congr fun char hchar =>
      (mem_symbols_iff (hascii char hchar)).symm
  constructor
  · intro haccepted
    have hbytes : ∀ byte ∈ utf8 code, byte.toNat < 128 := fun byte hbyte =>
      alphabet_ascii byte ((hchecks.mp haccepted).2 byte hbyte)
    exact (hiff (ascii_of_utf8 hbytes)).mp haccepted
  · intro hcode
    exact (hiff fun char hchar => symbols_ascii char (hcode.2 char hchar)).mpr
      hcode

/-! ## Random codes -/

theorem randomBits_eq_fromBe (bytes : Bytes) :
    randomBits bytes = fromBe bytes := by
  rw [randomBits, fromBe]
  congr 1
  ext bits byte
  rw [← Nat.shiftLeft_add_eq_or_of_lt (i := 8) byte.toNat_lt, Nat.shiftLeft_eq]

theorem codeText_eq (bits : ℕ) :
    codeText bits = String.ofList ((digitsBe 32 codeLen bits).map symbol) := by
  rw [codeText, digitsBe, List.map_map]
  congr 1
  refine List.map_congr_left fun index _ => ?_
  have hdigit : (bits >>> (index * 5)) &&& 0x1f = bits / 32 ^ index % 32 := by
    rw [Nat.shiftRight_eq_div_pow, Nat.mul_comm, Nat.pow_mul]
    exact Nat.and_two_pow_sub_one_eq_mod _ 5
  rw [Function.comp_apply, hdigit]

/-- Five bytes have as many values as eight characters. -/
theorem bijOn_codeText :
    Set.BijOn (fun bytes => codeText (randomBits bytes))
      {bytes | bytes.length = 5} {text | IsCode text} := by
  have hbits : Set.BijOn randomBits {bytes | bytes.length = 5}
      {value | value < 32 ^ codeLen} := by
    rw [funext randomBits_eq_fromBe]
    exact bijOn_fromBe 5
  have htext : Set.BijOn String.ofList
      {chars | chars.length = codeLen ∧ ∀ char ∈ chars, char ∈ symbols}
      {text | IsCode text} := by
    refine ⟨?_, ?_, ?_⟩
    · intro chars hchars
      rwa [Set.mem_ofPred_eq, IsCode, String.toList_ofList]
    · intro chars _ other _ heq
      exact String.ofList_injective heq
    · intro text htext
      exact ⟨text.toList, htext, String.ofList_toList⟩
  have hall := htext.comp ((bijOn_map bijOn_symbol codeLen).comp
    ((bijOn_digitsBe (by decide) codeLen).comp hbits))
  apply hall.congr
  intro bytes _
  exact (codeText_eq (randomBits bytes)).symm

namespace PairingCode

def fromRandom (bytes : Vector UInt8 5) : PairingCode where
  text := codeText (randomBits bytes.toList)
  isCode := bijOn_codeText.mapsTo bytes.length_toList

/-- `PairingCode::generate`, with what `getrandom` answers. -/
def generate (filled : Except String (Vector UInt8 5)) :
    Except LanError PairingCode :=
  match filled with
  | .ok bytes => .ok (fromRandom bytes)
  | .error message => .error (.other message)

/-- Parses what a person typed. -/
def parse (input : String) : Except LanError PairingCode :=
  let text := typedCode input
  if haccepted : isAccepted text = true then
    .ok { text, isCode := isAccepted_iff.mp haccepted }
  else .error .wrongCode

/-- `Display`: `XXXX-XXXX`. -/
def display (code : PairingCode) : String :=
  String.ofList (code.text.toList.take 4 ++ '-' :: code.text.toList.drop 4)

end PairingCode

/-! ## Reading a typed code -/

/-- The ways to write a character of a code. -/
def spellings (char : Char) : List Char :=
  if char = '1' then ['1', 'i', 'I', 'l', 'L']
  else if char = '0' then ['0', 'o', 'O']
  else [char, char.toLower]

/-- `typed` is the code in any spelling, with whitespace and dashes anywhere. -/
inductive Rendering : List Char → List Char → Prop
  | nil : Rendering [] []
  | filler {char : Char} {code typed : List Char}
      (hfiller : isWhiteSpace char = true ∨ char = '-')
      (hrest : Rendering code typed) : Rendering code (char :: typed)
  | char {char written : Char} {code typed : List Char}
      (hwritten : written ∈ spellings char) (hrest : Rendering code typed) :
      Rendering (char :: code) (written :: typed)

theorem isKept_eq_false_iff {char : Char} :
    isKept char = false ↔ isWhiteSpace char = true ∨ char = '-' := by
  rw [isKept, Bool.and_eq_false_iff, Bool.not_eq_false', bne_eq_false_iff_eq]

theorem read_spelling {char written : Char} (hchar : char ∈ symbols)
    (hwritten : written ∈ spellings char) :
    isKept written = true ∧ readChar written = char := by
  have hall : (symbols.all fun char => (spellings char).all fun written =>
      isKept written && readChar written == char) = true := by decide
  have hone := List.all_eq_true.mp (List.all_eq_true.mp hall char hchar) written
    hwritten
  rwa [Bool.and_eq_true, beq_iff_eq] at hone

theorem mem_spellings_self (char : Char) : char ∈ spellings char := by
  rw [spellings]
  split
  · next hone => simp [hone]
  · split
    · next hzero => simp [hzero]
    · exact List.mem_cons_self

theorem readChar_eq_self {char : Char} (hlarge : ¬ char.toNat < 128) :
    readChar char = char := by
  have hupper : char.toUpper = char := by
    apply dif_neg
    rintro ⟨_, hle⟩
    exact hlarge (Nat.lt_of_le_of_lt (UInt32.le_iff_toNat_le.mp hle) (by decide))
  have hne (other : Char) (hother : other.toNat < 128) : char ≠ other := by
    rintro rfl
    exact hlarge hother
  simp only [readChar, hupper, hne 'I' (by decide), hne 'L' (by decide),
    hne 'O' (by decide), or_self, if_false]

theorem mem_spellings_readChar {char : Char} (hread : readChar char ∈ symbols) :
    char ∈ spellings (readChar char) := by
  have hall : ((List.range 128).all fun code =>
      !symbols.contains (readChar (Char.ofNat code)) ||
        (spellings (readChar (Char.ofNat code))).contains (Char.ofNat code)) =
      true := by decide +kernel
  by_cases hascii : char.toNat < 128
  · have hone := List.all_eq_true.mp hall char.toNat (List.mem_range.mpr hascii)
    rw [Char.ofNat_toNat] at hone
    simpa [hread] using hone
  · exact absurd (symbols_ascii _ (readChar_eq_self hascii ▸ hread)) hascii

/-- What is read is the code that was rendered. -/
theorem rendering_iff {code typed : List Char}
    (hcode : ∀ char ∈ code, char ∈ symbols) :
    Rendering code typed ↔ (typed.filter isKept).map readChar = code := by
  constructor
  · intro hrendering
    induction hrendering with
    | nil => rfl
    | filler hfiller _ ih =>
        rw [List.filter_cons_of_neg (by simp [isKept_eq_false_iff, hfiller])]
        exact ih hcode
    | char hwritten _ ih =>
        obtain ⟨hkept, hread⟩ := read_spelling (hcode _ List.mem_cons_self)
          hwritten
        rw [List.filter_cons_of_pos hkept, List.map_cons, hread,
          ih fun char hchar => hcode char (List.mem_cons_of_mem _ hchar)]
  · intro hread
    induction typed generalizing code with
    | nil =>
        subst hread
        exact .nil
    | cons char typed ih =>
        by_cases hkept : isKept char = true
        · rw [List.filter_cons_of_pos hkept, List.map_cons] at hread
          subst hread
          exact .char (mem_spellings_readChar (hcode _ List.mem_cons_self))
            (ih (fun char hchar => hcode char (List.mem_cons_of_mem _ hchar)) rfl)
        · rw [List.filter_cons_of_neg hkept] at hread
          exact .filler (isKept_eq_false_iff.mp (Bool.eq_false_iff.mpr hkept))
            (ih hcode hread)

theorem parse_eq_ok_iff {code : PairingCode} {input : String} :
    PairingCode.parse input = .ok code ↔
      Rendering code.text.toList input.toList := by
  have htext : Rendering code.text.toList input.toList ↔
      typedCode input = code.text := by
    rw [rendering_iff code.isCode.2, typedCode, ← String.toList_inj,
      String.toList_ofList]
  rw [htext, PairingCode.parse]
  constructor
  · intro hparse
    split at hparse
    · exact congrArg PairingCode.text (Except.ok.inj hparse)
    · cases hparse
  · intro heq
    have haccepted : isAccepted (typedCode input) = true := by
      rw [heq]
      exact isAccepted_iff.mpr code.isCode
    rw [dif_pos haccepted]
    exact congrArg Except.ok (PairingCode.ext heq)

/-- The dash in the middle is filler. -/
theorem rendering_display (code : PairingCode) :
    Rendering code.text.toList code.display.toList := by
  obtain ⟨text, hlength, hsymbols⟩ := code
  have hkept : text.toList.filter isKept = text.toList :=
    List.filter_eq_self.mpr fun char hchar =>
      (read_spelling (hsymbols char hchar) (mem_spellings_self char)).1
  have hread : text.toList.map readChar = text.toList :=
    (List.map_congr_left fun char hchar =>
      (read_spelling (hsymbols char hchar) (mem_spellings_self char)).2).trans
      (List.map_id _)
  apply (rendering_iff hsymbols).mpr
  rw [PairingCode.display, String.toList_ofList, List.filter_append,
    List.filter_cons_of_neg (by decide), ← List.filter_append,
    List.take_append_drop, hkept, hread]

/-- The random bytes and the codes correspond one to one; a text is read as a
code exactly if it renders that code, so it renders no other; and the form that
is shown is such a text. -/
theorem codes_survive_typing :
    Set.BijOn (fun bytes => (PairingCode.fromRandom bytes).text) Set.univ
        {text | IsCode text} ∧
      (∀ code input, PairingCode.parse input = .ok code ↔
        Rendering code.text.toList input.toList) ∧
      (∀ code, PairingCode.parse code.display = .ok code) ∧
      ∀ (code other : PairingCode) (input : String),
        Rendering code.text.toList input.toList →
          Rendering other.text.toList input.toList → code = other := by
  refine ⟨?_, fun _ _ => parse_eq_ok_iff, ?_, ?_⟩
  · have hlists : Set.BijOn (Vector.toList (α := UInt8) (n := 5)) Set.univ
        {bytes | bytes.length = 5} := by
      refine ⟨fun bytes _ => bytes.length_toList, fun bytes _ other _ heq =>
        Vector.toList_inj.mp heq, fun bytes hlength => ?_⟩
      exact ⟨⟨bytes.toArray, hlength⟩, trivial, rfl⟩
    exact bijOn_codeText.comp hlists
  · intro code
    exact parse_eq_ok_iff.mpr (rendering_display code)
  · intro code other input hcode hother
    have hboth := (parse_eq_ok_iff.mpr hcode).symm.trans
      (parse_eq_ok_iff.mpr hother)
    exact Except.ok.inj hboth

end Cled.Lan
