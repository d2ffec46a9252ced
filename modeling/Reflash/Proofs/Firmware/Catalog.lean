import Mathlib.Data.List.Induction
import Reflash.Firmware.Catalog
import Reflash.Proofs.Bytes
import Reflash.Proofs.Firmware.Version

/-!
# Reflash.Proofs.Firmware.Catalog — revisions inside images, and the catalog made of some images

An image `Embeds` a revision word if the bytes at the offset of its line are those of the word.  A version
in packed form is older than the one under which an image is offered exactly if the image embeds a greater
word (`ofPacked_lt_offered_iff`); an image that embeds none is offered as `0.0.0.0`, which nothing is
older than.  A catalog that is made of images one after the other has for each line the last image of that
line (`entry?_ofImages`).
-/

namespace Reflash

/-! ## Revisions -/

namespace FirmwareImage

variable {image : FirmwareImage} {word : UInt32}

/-- The bytes at the offset of the line are those of a revision word. -/
def Embeds (image : FirmwareImage) (word : UInt32) : Prop :=
  ∃ offset, image.line.versionOffset? = some offset ∧ image.data.slice offset 4 = littleEndian 4 word.toNat

theorem version?_eq_some_iff {v : FirmwareVersion} :
    image.version? = some v ↔ ∃ word, image.Embeds word ∧ word ≠ 0 ∧ v = .ofPacked word := by
  unfold version? Embeds
  cases hoffset : image.line.versionOffset? with
  | none => simp
  | some offset =>
    simp only [Option.some.injEq, exists_eq_left']
    cases hword : image.data.word32At? offset with
    | none =>
      simp only [reduceCtorEq, false_iff, not_exists, not_and]
      intro word hbytes
      rw [Bytes.word32At?_eq_some_iff.mpr hbytes] at hword
      cases hword
    | some word =>
      have hbytes := Bytes.word32At?_eq_some_iff.mp hword
      have honly : ∀ word', image.data.slice offset 4 = littleEndian 4 word'.toNat → word' = word := by
        intro word' h
        exact Option.some.inj ((Bytes.word32At?_eq_some_iff.mpr h).symm.trans hword)
      by_cases hzero : word = 0
      · simp only [hzero, ↓reduceIte, reduceCtorEq, false_iff, not_exists, not_and]
        intro word' h hne
        exact absurd ((honly word' h).trans hzero) hne
      · simp only [hzero, ↓reduceIte, Option.some.injEq]
        constructor
        · rintro rfl
          exact ⟨word, hbytes, hzero, rfl⟩
        · rintro ⟨word', h, -, rfl⟩
          rw [honly word' h]

/-- The version under which a catalog offers an image: the one inside it, or `0.0.0.0`. -/
def offered (image : FirmwareImage) : FirmwareVersion := image.version?.getD .zero

/-- A version is older than an offer exactly if its word is below the revision word of the image. -/
theorem ofPacked_lt_offered_iff :
    FirmwareVersion.ofPacked word < image.offered ↔ ∃ r, image.Embeds r ∧ word < r := by
  have hzero : ∀ r : UInt32, word < r → r ≠ 0 := by
    rintro r hlt rfl
    have hnot : ¬ word.toNat < 0 := Nat.not_lt_zero _
    exact hnot (UInt32.lt_iff_toNat_lt.mp hlt)
  unfold offered
  cases hversion : image.version? with
  | none =>
    rw [Option.getD_none, ← FirmwareVersion.ofPacked_zero, FirmwareVersion.ofPacked_lt_iff]
    constructor
    · exact fun hlt => absurd rfl (hzero 0 hlt)
    · rintro ⟨r, hr, hlt⟩
      have hsome := version?_eq_some_iff.mpr ⟨r, hr, hzero r hlt, rfl⟩
      rw [hversion] at hsome
      cases hsome
  | some v =>
    obtain ⟨r, hr, -, rfl⟩ := version?_eq_some_iff.mp hversion
    rw [Option.getD_some, FirmwareVersion.ofPacked_lt_iff]
    constructor
    · exact fun hlt => ⟨r, hr, hlt⟩
    · rintro ⟨r', hr', hlt⟩
      have hsome := version?_eq_some_iff.mpr ⟨r', hr', hzero r' hlt, rfl⟩
      have heq : FirmwareVersion.ofPacked r = .ofPacked r' := Option.some.inj (hversion.symm.trans hsome)
      -- Words with the same version are the same word, since neither is below the other.
      have hnot : ¬ r < r' := by
        rw [← FirmwareVersion.ofPacked_lt_iff, heq]
        exact FirmwareVersion.lt_irrefl _
      exact UInt32.lt_of_lt_of_le hlt (UInt32.not_lt.mp hnot)

end FirmwareImage

/-! ## Catalogs -/

namespace Catalog

/-- Puts an image into a catalog, under the version inside it. -/
def offer (catalog : Catalog) (image : FirmwareImage) : Catalog := catalog.insert image.offered image

/-- The catalog of some images, put into it one after the other. -/
def ofImages (images : List FirmwareImage) : Catalog := images.foldl offer empty

/-- The last image of a line. -/
def last? (images : List FirmwareImage) (line : ProductLine) : Option FirmwareImage :=
  (images.filter fun image => image.line = line).getLast?

/-- A line has the last of its images. -/
theorem entry?_ofImages (images : List FirmwareImage) (line : ProductLine) :
    entry? (ofImages images) line = (last? images line).map fun image => ⟨image.offered, image⟩ := by
  induction images using List.reverseRecOn with
  | nil => rfl
  | append_singleton images image ih =>
    have hconcat : ofImages (images ++ [image]) = (ofImages images).offer image := by simp [ofImages]
    rw [hconcat, offer, insert, last?, List.filter_append]
    by_cases hline : image.line = line
    · simp [hline]
    · have hne : line ≠ image.line := fun heq => hline heq.symm
      simp [hline, hne, ih, last?]

theorem version?_ofImages (images : List FirmwareImage) (line : ProductLine) :
    (ofImages images).version? line = (last? images line).map FirmwareImage.offered := by
  rw [version?, entry?_ofImages, Option.map_map]
  rfl

/-- A newer image is one with a greater revision word. -/
theorem recommends_ofImages_iff {images : List FirmwareImage} {line : ProductLine}
    {image : FirmwareImage} {word : UInt32} (hlast : last? images line = some image) :
    (ofImages images).recommends line (FirmwareVersion.ofPacked word).text = true ↔
    ∃ r, image.Embeds r ∧ word < r := by
  rw [recommends, FirmwareVersion.parse?_text, version?_ofImages, hlast]
  simp only [Option.map_some, decide_eq_true_eq]
  exact FirmwareImage.ofPacked_lt_offered_iff

end Catalog

end Reflash
