import Mathlib.Data.Set.Function
import Cled.Clipboard.Detector
import Cled.Sync.Item

/-!
# One identity for change detection and sync

Change detection and sync each write a content down in bytes and hash them.
Both layouts keep the same: a text up to trailing whitespace, or the dimensions
and pixels of an image.  As long as neither hash collides on what is fed to it,
both take the same contents for the same.
-/

namespace Cled.Sync

open Cled.Clipboard

/-! ## Identity -/

/-- What counts as the same content. -/
def SameIdentity : ClipboardContent → ClipboardContent → Prop
  | .text body, .text other =>
      ClipboardContent.identityText body = ClipboardContent.identityText other
  | .image picture, .image other =>
      picture.width = other.width ∧ picture.height = other.height ∧
        picture.rgba = other.rgba
  | _, _ => False

theorem utf8_injective : Function.Injective utf8 := by
  intro left right heq
  have hread := fromUTF8?_eq_some_iff.mpr heq
  rw [fromUTF8?_eq_some_iff.mpr rfl] at hread
  exact Option.some.inj hread

variable {left right : ClipboardContent}

theorem hashBytes_eq_of_sameIdentity (hsame : SameIdentity left right) :
    left.hashBytes = right.hashBytes := by
  cases left with
  | text body =>
      cases right with
      | text other =>
          have htrim : trimEnd body = trimEnd other := hsame
          rw [ClipboardContent.hashBytes, ClipboardContent.hashBytes, htrim]
      | image other => cases hsame
  | image picture =>
      cases right with
      | text other => cases hsame
      | image other =>
          obtain ⟨hwidth, hheight, hrgba⟩ := hsame
          rw [ClipboardContent.hashBytes, ClipboardContent.hashBytes, hwidth,
            hheight, hrgba]

theorem sameIdentity_of_input_eq
    (heq : ContentHash.input left = ContentHash.input right) :
    SameIdentity left right := by
  -- The sixth byte tells a text from an image.
  have htag : (ContentHash.input left)[5]? = (ContentHash.input right)[5]? :=
    congrArg (·[5]?) heq
  have htext (body : String) :
      (ContentHash.input (.text body))[5]? = some 0x74 := by
    rw [ContentHash.input, List.getElem?_append_left (by decide)]
    decide
  have himage (picture : Image) :
      (ContentHash.input (.image picture))[5]? = some 0x69 := by
    rw [ContentHash.input, List.append_assoc, List.append_assoc,
      List.getElem?_append_left (by decide)]
    decide
  cases left with
  | text body =>
      cases right with
      | text other => exact utf8_injective (List.append_cancel_left heq)
      | image other =>
          rw [htext, himage] at htag
          exact absurd htag (by decide)
  | image picture =>
      cases right with
      | text other =>
          rw [htext, himage] at htag
          exact absurd htag (by decide)
      | image other =>
          simp only [ContentHash.input, List.append_assoc,
            List.append_cancel_left_eq] at heq
          obtain ⟨hwidth, hrest⟩ := List.append_inj heq (by simp)
          obtain ⟨hheight, hrgba⟩ := List.append_inj hrest (by simp)
          exact ⟨leBytes_four_injective hwidth, leBytes_four_injective hheight,
            hrgba⟩

/-- Both layouts keep the identity and nothing else. -/
theorem hashBytes_eq_iff :
    left.hashBytes = right.hashBytes ↔ SameIdentity left right :=
  ⟨fun heq => sameIdentity_of_input_eq (ContentHash.input_eq_of_hashBytes_eq heq),
    hashBytes_eq_of_sameIdentity⟩

theorem input_eq_iff :
    ContentHash.input left = ContentHash.input right ↔ SameIdentity left right :=
  ⟨sameIdentity_of_input_eq, fun hsame =>
    ContentHash.input_eq_of_hashBytes_eq (hashBytes_eq_of_sameIdentity hsame)⟩

theorem hashInput_content_eq_iff :
    (Snapshot.content left).hashInput = (Snapshot.content right).hashInput ↔
      SameIdentity left right := by
  rw [← hashBytes_eq_iff, Snapshot.hashInput, Snapshot.hashInput,
    Option.some.injEq, List.append_cancel_left_eq]

/-! ## The two hashes -/

/-- Everything that is fed to the hasher for these snapshots. -/
def fedTo (snapshots : List Snapshot) : Set Bytes :=
  {bytes | ∃ snapshot ∈ snapshots, snapshot.hashInput = some bytes}

variable {blake3 : Blake3} {hasher : Hasher}

theorem fingerprint_eq_iff {snapshots : List Snapshot} {first second : Snapshot}
    (hhasher : Set.InjOn hasher (fedTo snapshots)) (hfirst : first ∈ snapshots)
    (hsecond : second ∈ snapshots) :
    first.fingerprint hasher = second.fingerprint hasher ↔
      first.hashInput = second.hashInput := by
  rw [Snapshot.fingerprint_eq_map, Snapshot.fingerprint_eq_map]
  refine ⟨fun heq => ?_, congrArg (Option.map hasher)⟩
  cases hbytes : first.hashInput with
  | none =>
      rw [hbytes] at heq
      exact (Option.map_eq_none_iff.mp heq.symm).symm
  | some bytes =>
      rw [hbytes] at heq
      obtain ⟨other, hother, hsame⟩ := Option.map_eq_some_iff.mp heq.symm
      rw [hother, hhasher ⟨second, hsecond, hother⟩ ⟨first, hfirst, hbytes⟩ hsame]

/-- Content after content is no change exactly if the fingerprints are the
same. -/
theorem observe_twice (detector : ChangeDetector) :
    ((detector.observe hasher (.content left)).2.observe hasher
        (.content right)).1 = false ↔
      (Snapshot.content left).fingerprint hasher =
        (Snapshot.content right).fingerprint hasher := by
  rw [Bool.eq_false_iff, Ne, ChangeDetector.observe_changed_iff, not_and,
    not_not]
  exact ⟨fun h => (h Snapshot.noConfusion).symm, fun h _ => h.symm⟩

/-- Sync takes two contents for the same exactly if change detection does, and
both exactly if they have the same identity; skipped content has the identity of
none. -/
theorem one_identity (detector : ChangeDetector)
    (left right : ClipboardContent) (reason : SkipReason)
    (hblake3 : Set.InjOn blake3
      {ContentHash.input left, ContentHash.input right})
    (hhasher : Set.InjOn hasher
      (fedTo [.content left, .content right, .skipped reason])) :
    (ContentHash.of blake3 left = ContentHash.of blake3 right ↔
        ((detector.observe hasher (.content left)).2.observe hasher
          (.content right)).1 = false) ∧
      (ContentHash.of blake3 left = ContentHash.of blake3 right ↔
        SameIdentity left right) ∧
      (Snapshot.skipped reason).fingerprint hasher ≠
        (Snapshot.content left).fingerprint hasher := by
  have hsync : ContentHash.of blake3 left = ContentHash.of blake3 right ↔
      SameIdentity left right := by
    rw [ContentHash.of, ContentHash.of, ContentHash.mk.injEq,
      hblake3.eq_iff (.inl rfl) (.inr rfl), input_eq_iff]
  refine ⟨?_, hsync, ?_⟩
  · rw [hsync, observe_twice, fingerprint_eq_iff hhasher (by simp) (by simp),
      hashInput_content_eq_iff]
  · rw [Ne, fingerprint_eq_iff hhasher (by simp) (by simp)]
    exact (Snapshot.hashInput_content_ne_skipped left reason).symm

/-- A text and the same text with its trailing space cut off. -/
theorem one_identity_trailing :
    (ContentHash.of shortDigest (.text "x ") =
          ContentHash.of shortDigest (.text "x") ↔
        ((ChangeDetector.default.observe shortHasher
            (.content (.text "x "))).2.observe shortHasher
          (.content (.text "x"))).1 = false) ∧
      (ContentHash.of shortDigest (.text "x ") =
          ContentHash.of shortDigest (.text "x") ↔
        SameIdentity (.text "x ") (.text "x")) ∧
      (Snapshot.skipped .sensitive).fingerprint shortHasher ≠
        (Snapshot.content (.text "x ")).fingerprint shortHasher := by
  have hsame : ContentHash.input (.text "x ") = ContentHash.input (.text "x") :=
    by decide
  have hfed : fedTo [.content (.text "x "), .content (.text "x"),
      .skipped .sensitive] ⊆
      {utf8 "content" ++ [0xff] ++ (ClipboardContent.text "x").hashBytes,
        utf8 "skipped" ++ [0xff] ++ SkipReason.sensitive.hashBytes} := by
    rintro bytes ⟨snapshot, hmem, hbytes⟩
    simp only [List.mem_cons, List.not_mem_nil, or_false] at hmem
    rcases hmem with rfl | rfl | rfl
    · exact .inl (Option.some.inj (hbytes.symm.trans (by decide)))
    · exact .inl (Option.some.inj hbytes).symm
    · exact .inr (Option.some.inj hbytes).symm
  refine one_identity ChangeDetector.default (.text "x ") (.text "x") .sensitive
    ?_ (Set.InjOn.mono hfed ?_)
  · rw [hsame, Set.pair_eq_singleton]
    exact Set.injOn_singleton _ _
  · exact (Set.injOn_pair).mpr fun heq => absurd heq (by decide)

end Cled.Sync
