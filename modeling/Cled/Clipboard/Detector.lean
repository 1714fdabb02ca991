import Cled.Clipboard.Content

/-!
# Snapshots and change detection

A snapshot is what the clipboard holds from Cled's point of view.  The change
detector compares the fingerprint of each snapshot with that of the previous
one.  The standard hasher behind the fingerprint is a parameter.
-/

namespace Cled.Clipboard

/-- Largest image that is read, in bytes of pixels. -/
def maxImageBytes : ℕ := 64 * 1024 * 1024

inductive SkipReason where
  /-- The copying app marked the content as secret. -/
  | sensitive
  /-- An image above `MAX_IMAGE_BYTES`. -/
  | tooLarge (width height : UInt32)
  deriving DecidableEq

inductive Snapshot where
  | empty
  | content (held : ClipboardContent)
  | skipped (reason : SkipReason)
  deriving DecidableEq

/-- The content, of a clipboard that has some. -/
def Snapshot.content? : Snapshot → Option ClipboardContent
  | .content held => some held
  | _ => none

/-- The derived `Hash` of a reason: the discriminant, then the fields. -/
def SkipReason.hashBytes : SkipReason → Bytes
  | .sensitive => leBytes 0 8
  | .tooLarge width height =>
      leBytes 1 8 ++ leBytes width.toNat 4 ++ leBytes height.toNat 4

/-- `DefaultHasher`: 64 bits of the bytes fed to it. -/
abbrev Hasher := Bytes → UInt64

/-- A hasher for examples: it reads its input as a number. -/
def shortHasher : Hasher := fun bytes =>
  UInt64.ofNat (bytes.foldl (fun number byte => number * 257 + byte.toNat) 1)

/-- Identity used for change detection; `none` for an empty clipboard. -/
def Snapshot.fingerprint (hasher : Hasher) : Snapshot → Option UInt64
  | .empty => none
  | .content held =>
      some (hasher (utf8 "content" ++ [0xff] ++ held.hashBytes))
  | .skipped reason =>
      some (hasher (utf8 "skipped" ++ [0xff] ++ reason.hashBytes))

/-- What is fed to the hasher for the fingerprint. -/
def Snapshot.hashInput : Snapshot → Option Bytes
  | .empty => none
  | .content held => some (utf8 "content" ++ [0xff] ++ held.hashBytes)
  | .skipped reason => some (utf8 "skipped" ++ [0xff] ++ reason.hashBytes)

theorem Snapshot.fingerprint_eq_map (hasher : Hasher) (snapshot : Snapshot) :
    snapshot.fingerprint hasher = snapshot.hashInput.map hasher := by
  cases snapshot <;> rfl

/-- Content and skipped content are never taken for each other. -/
theorem Snapshot.hashInput_content_ne_skipped (held : ClipboardContent)
    (reason : SkipReason) :
    (Snapshot.content held).hashInput ≠ (Snapshot.skipped reason).hashInput := by
  intro heq
  have hbytes : utf8 "content" ++ ([0xff] ++ held.hashBytes) =
      utf8 "skipped" ++ ([0xff] ++ reason.hashBytes) := by
    simpa only [List.append_assoc] using Option.some.inj heq
  have hwords := (List.append_inj hbytes (by decide)).1
  exact absurd hwords (by decide)

/-- Decides whether a clipboard observation is a new change. -/
structure ChangeDetector where
  last : Option UInt64
  deriving DecidableEq

namespace ChangeDetector

variable (hasher : Hasher)

def default : ChangeDetector := ⟨none⟩

/-- Records the initial clipboard state without reporting it as a change. -/
def baseline (_ : ChangeDetector) (snapshot : Snapshot) : ChangeDetector :=
  ⟨snapshot.fingerprint hasher⟩

/-- Whether `snapshot` differs from the previous observation, and the detector
that has observed it. -/
def observe (detector : ChangeDetector) (snapshot : Snapshot) :
    Bool × ChangeDetector :=
  let current := snapshot.fingerprint hasher
  (current.isSome && current != detector.last, ⟨current⟩)

theorem observe_changed_iff (detector : ChangeDetector) (snapshot : Snapshot) :
    (detector.observe hasher snapshot).1 = true ↔
      snapshot ≠ .empty ∧ snapshot.fingerprint hasher ≠ detector.last := by
  cases snapshot <;> simp [observe, Snapshot.fingerprint]

end ChangeDetector

end Cled.Clipboard
