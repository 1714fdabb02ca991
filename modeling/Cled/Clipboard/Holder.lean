import Cled.Clipboard.Content

/-!
# Handing content to the holder

Before Cled exits it writes its clipboard content to a process that keeps
serving it.  The content is a tag and then the UTF-8 bytes of a text, or the
dimensions and pixels of an image.
-/

namespace Cled.Clipboard

/-! ## The format -/

/-- `b'T'`. -/
def tagText : UInt8 := 0x54

/-- `b'I'`. -/
def tagImage : UInt8 := 0x49

def encode : ClipboardContent → Bytes
  | .text body => tagText :: utf8 body
  | .image picture =>
      tagImage :: (leBytes picture.width.toNat 4 ++
        leBytes picture.height.toNat 4 ++ picture.rgba)

/-- `bytes.get(start..stop)`. -/
def slice (bytes : Bytes) (start stop : ℕ) : Option Bytes :=
  if start ≤ stop ∧ stop ≤ bytes.length then
    some ((bytes.take stop).drop start)
  else none

/-- `bytes.get(start..)`. -/
def sliceFrom (bytes : Bytes) (start : ℕ) : Option Bytes :=
  if start ≤ bytes.length then some (bytes.drop start) else none

/-- The branch of `decode` for an image. -/
def decodeImage (rest : Bytes) : Option Image := do
  let width ← slice rest 0 4
  let height ← slice rest 4 8
  let rgba ← sliceFrom rest 8
  Image.fromRgba (u32FromLe width) (u32FromLe height) rgba

def decode : Bytes → Option ClipboardContent
  | [] => none
  | tag :: rest =>
      if tag = tagText then
        (String.fromUTF8? ⟨rest.toArray⟩).map .text
      else if tag = tagImage then (decodeImage rest).map .image
      else none

theorem fromRgba_eq_some_iff {width height : UInt32} {rgba : Bytes}
    {picture : Image} :
    Image.fromRgba width height rgba = some picture ↔
      picture.width = width ∧ picture.height = height ∧ picture.rgba = rgba := by
  rw [Image.fromRgba]
  constructor
  · intro hmade
    split at hmade
    · obtain rfl := Option.some.inj hmade
      exact ⟨rfl, rfl, rfl⟩
    · cases hmade
  · rintro ⟨rfl, rfl, rfl⟩
    exact dif_pos picture.size

/-- The fields of an image, cut at four and eight bytes. -/
theorem slices_eq_some_iff {rest width height rgba : Bytes} :
    slice rest 0 4 = some width ∧ slice rest 4 8 = some height ∧
        sliceFrom rest 8 = some rgba ↔
      width.length = 4 ∧ height.length = 4 ∧ rest = width ++ height ++ rgba := by
  constructor
  · rintro ⟨hwidth, hheight, hrgba⟩
    simp only [slice, sliceFrom, Option.ite_none_right_eq_some, Option.some.injEq,
      List.drop_zero] at hwidth hheight hrgba
    obtain ⟨-, rfl⟩ := hwidth
    obtain ⟨hlong, rfl⟩ := hheight
    obtain ⟨-, rfl⟩ := hrgba
    have hfront : rest.take 4 ++ (rest.take 8).drop 4 = rest.take 8 := by
      have hsame : rest.take 4 = (rest.take 8).take 4 := by
        rw [List.take_take]
        rfl
      rw [hsame, List.take_append_drop]
    refine ⟨?_, ?_, ?_⟩
    · rw [List.length_take]
      omega
    · rw [List.length_drop, List.length_take]
      omega
    · rw [hfront, List.take_append_drop]
  · rintro ⟨hwidth, hheight, rfl⟩
    have hlong : 8 ≤ (width ++ height ++ rgba).length := by
      simp only [List.length_append]
      omega
    have hfront : (width ++ height).length = 8 := by
      rw [List.length_append, hwidth, hheight]
    refine ⟨?_, ?_, ?_⟩
    · rw [slice, if_pos ⟨by decide, by omega⟩, List.drop_zero, List.append_assoc,
        ← hwidth, List.take_left]
    · rw [slice, if_pos ⟨by decide, hlong⟩, ← hfront, List.take_left, ← hwidth,
        List.drop_left]
    · rw [sliceFrom, if_pos hlong, ← hfront, List.drop_left]

theorem decodeImage_eq_some_iff {rest : Bytes} {picture : Image} :
    decodeImage rest = some picture ↔
      rest = leBytes picture.width.toNat 4 ++ leBytes picture.height.toNat 4 ++
        picture.rgba := by
  simp only [decodeImage, Option.bind_eq_bind, Option.bind_eq_some_iff,
    fromRgba_eq_some_iff]
  constructor
  · rintro ⟨width, hwidth, height, hheight, rgba, hrgba, hw, hh, rfl⟩
    obtain ⟨hfour, hfour', rfl⟩ :=
      slices_eq_some_iff.mp ⟨hwidth, hheight, hrgba⟩
    rw [hw, hh, leBytes_u32FromLe hfour, leBytes_u32FromLe hfour']
  · intro hrest
    obtain ⟨hwidth, hheight, hrgba⟩ :=
      slices_eq_some_iff.mpr ⟨length_leBytes _ 4, length_leBytes _ 4, hrest⟩
    exact ⟨_, hwidth, _, hheight, _, hrgba, (u32FromLe_leBytes _).symm,
      (u32FromLe_leBytes _).symm, rfl⟩

/-- What is decoded is exactly what is encoded: bytes that are not the encoding
of a content, truncated, padded or of an impossible size, are refused. -/
theorem decode_eq_some_iff (bytes : Bytes) (content : ClipboardContent) :
    decode bytes = some content ↔ bytes = encode content := by
  cases bytes with
  | nil => cases content <;> exact ⟨nofun, nofun⟩
  | cons tag rest =>
      rw [decode]
      by_cases htext : tag = tagText
      · rw [if_pos htext, Option.map_eq_some_iff]
        cases content with
        | text body =>
            rw [encode, List.cons.injEq, ← fromUTF8?_eq_some_iff]
            simp [htext]
        | image picture => simp [encode, htext, tagText, tagImage]
      rw [if_neg htext]
      by_cases himage : tag = tagImage
      · rw [if_pos himage, Option.map_eq_some_iff]
        cases content with
        | text body => simp [encode, htext]
        | image picture =>
            rw [encode, List.cons.injEq, ← decodeImage_eq_some_iff]
            simp [himage]
      rw [if_neg himage]
      cases content with
      | text body => simp [encode, htext]
      | image picture => simp [encode, himage]

end Cled.Clipboard
