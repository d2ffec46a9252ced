import Mathlib.Algebra.Ring.Nat
import Reflash.Firmware.Version
import Reflash.Proofs.Text

/-!
# Reflash.Proofs.Firmware.Version — texts of versions, and their order

`Spells` is the grammar of a version: four numerals with dots between them, and blanks around the whole.
Reading takes exactly the texts of this grammar (`parse?_eq_some_iff`), what is printed among them
(`parse?_text`).  Versions are ordered as their parts are in the lexicographic order of lists
(`lt_iff_parts_lt`), and a packed version as its word (`ofPacked_lt_iff`).
-/

namespace Reflash.FirmwareVersion

open Text

variable {text x y z : String} {u v w : FirmwareVersion}

/-! ## Texts -/

/-- Four numerals for the parts of `v` with dots between them, and blanks around the whole. -/
def Spells (text : List Char) (v : FirmwareVersion) : Prop :=
  ∃ before a b c d after, text = before ++ (a ++ '.' :: (b ++ '.' :: (c ++ '.' :: d))) ++ after ∧
    (∀ x ∈ before, isBlank x = true) ∧ (∀ x ∈ after, isBlank x = true) ∧
    Numeral a v.major.toNat ∧ Numeral b v.minor.toNat ∧ Numeral c v.patch.toNat ∧ Numeral d v.build.toNat

theorem part?_eq_some_iff {piece : List Char} {n : UInt32} : part? piece = some n ↔ Numeral piece n.toNat := by
  have hsize : n.toNat < UInt32.size := n.toNat_lt
  have hread : readUnsigned UInt32.size piece = .ok n.toNat ↔ Numeral piece n.toNat := by
    rw [readUnsigned_eq_ok_iff (by decide)]
    exact and_iff_left hsize
  rw [← hread, part?]
  cases hpiece : readUnsigned UInt32.size piece with
  | error e => simp
  | ok m =>
    have hm : m < UInt32.size := ((readUnsigned_eq_ok_iff (by decide)).mp hpiece).2
    simp only [Option.some.injEq, Except.ok.injEq]
    constructor
    · rintro rfl
      exact (UInt32.toNat_ofNat_of_lt' hm).symm
    · rintro rfl
      exact UInt32.ofNat_toNat

/-- The pieces of a text with three dots. -/
theorem eq_of_fields_eq {core a b c d : List Char} (h : fields '.' core = [a, b, c, d]) :
    core = a ++ '.' :: (b ++ '.' :: (c ++ '.' :: d)) := by
  rw [fields_eq_splitOn] at h
  have hjoin : ['.'].intercalate (core.splitOn '.') = core := List.intercalate_splitOn '.'
  rw [← hjoin, h]
  simp [List.intercalate]

theorem fields_of_dots {a b c d : List Char} (ha : '.' ∉ a) (hb : '.' ∉ b) (hc : '.' ∉ c) (hd : '.' ∉ d) :
    fields '.' (a ++ '.' :: (b ++ '.' :: (c ++ '.' :: d))) = [a, b, c, d] := by
  rw [fields_eq_splitOn, List.splitOn_append_cons_self_of_not_mem ha, List.splitOn_append_cons_self_of_not_mem hb,
    List.splitOn_append_cons_self_of_not_mem hc, List.splitOn_eq_singleton hd]

theorem not_dot_mem {piece : List Char} {n : Nat} (h : Numeral piece n) : '.' ∉ piece := h.not_mem (by decide)

/-- What is read is four numerals with dots between them. -/
theorem parse?_eq_some_iff_fields : parse? text = some v ↔ ∃ a b c d,
    fields '.' (trim text.toList) = [a, b, c, d] ∧ Numeral a v.major.toNat ∧ Numeral b v.minor.toNat ∧
      Numeral c v.patch.toNat ∧ Numeral d v.build.toNat := by
  unfold parse?
  constructor
  · intro hparse
    split at hparse
    · rename_i a b c d hfields
      split at hparse
      · rename_i major minor patch build hmajor hminor hpatch hbuild
        obtain rfl := Option.some.inj hparse
        exact ⟨a, b, c, d, hfields, part?_eq_some_iff.mp hmajor, part?_eq_some_iff.mp hminor,
          part?_eq_some_iff.mp hpatch, part?_eq_some_iff.mp hbuild⟩
      · cases hparse
    · cases hparse
  · rintro ⟨a, b, c, d, hfields, ha, hb, hc, hd⟩
    simp [hfields, part?_eq_some_iff.mpr ha, part?_eq_some_iff.mpr hb, part?_eq_some_iff.mpr hc,
      part?_eq_some_iff.mpr hd]

/-- Exactly the texts of the grammar are read. -/
theorem parse?_eq_some_iff : parse? text = some v ↔ Spells text.toList v := by
  rw [parse?_eq_some_iff_fields]
  constructor
  · rintro ⟨a, b, c, d, hfields, ha, hb, hc, hd⟩
    obtain ⟨before, after, htext, hbefore, hafter⟩ := exists_trim text.toList
    exact ⟨before, a, b, c, d, after, eq_of_fields_eq hfields ▸ htext, hbefore, hafter, ha, hb, hc, hd⟩
  · rintro ⟨before, a, b, c, d, after, htext, hbefore, hafter, ha, hb, hc, hd⟩
    have hcore : ∀ x ∈ a ++ '.' :: (b ++ '.' :: (c ++ '.' :: d)), isBlank x = false := by
      intro x hx
      apply isBlank_eq_false
      simp only [List.mem_append, List.mem_cons] at hx
      rcases hx with hx | hx | hx | hx | hx | hx | hx
      · exact (ha.isDigit_or_plus hx).imp_right .inl
      · exact .inr (.inr hx)
      · exact (hb.isDigit_or_plus hx).imp_right .inl
      · exact .inr (.inr hx)
      · exact (hc.isDigit_or_plus hx).imp_right .inl
      · exact .inr (.inr hx)
      · exact (hd.isDigit_or_plus hx).imp_right .inl
    have hfields := fields_of_dots (not_dot_mem ha) (not_dot_mem hb) (not_dot_mem hc) (not_dot_mem hd)
    refine ⟨a, b, c, d, ?_, ha, hb, hc, hd⟩
    rw [htext, trim_between hbefore hcore hafter, hfields]

/-- What is printed is read back. -/
theorem parse?_text (v : FirmwareVersion) : parse? v.text = some v := by
  have htext : v.text.toList = [] ++
      ((decimal v.major.toNat).toList ++ '.' :: ((decimal v.minor.toNat).toList ++ '.' ::
      ((decimal v.patch.toNat).toList ++ '.' :: (decimal v.build.toNat).toList))) ++ [] := by
    simp [FirmwareVersion.text]
  rw [parse?_eq_some_iff]
  exact ⟨[], _, _, _, _, [], htext, by simp, by simp, numeral_decimal _, numeral_decimal _, numeral_decimal _,
    numeral_decimal _⟩

/-! ## Order -/

/-- The parts from the left, as numbers. -/
def parts (v : FirmwareVersion) : List Nat := [v.major.toNat, v.minor.toNat, v.patch.toNat, v.build.toNat]

theorem parts_injective (h : v.parts = w.parts) : v = w := by
  obtain ⟨major, minor, patch, build⟩ := v
  obtain ⟨major', minor', patch', build'⟩ := w
  simpa [parts, UInt32.toNat_inj] using h

/-- Versions are ordered as their parts are in the lexicographic order. -/
theorem lt_iff_parts_lt : v < w ↔ v.parts < w.parts := by
  change Older v w ↔ _
  simp [Older, parts, List.cons_lt_cons_iff, UInt32.lt_iff_toNat_lt, UInt32.toNat_inj]

theorem lt_trans (huv : u < v) (hvw : v < w) : u < w := by
  rw [lt_iff_parts_lt] at *
  exact List.lt_trans huv hvw

theorem lt_irrefl (v : FirmwareVersion) : ¬ v < v := by
  rw [lt_iff_parts_lt]
  exact List.lt_irrefl v.parts

theorem lt_or_lt_of_ne (h : v ≠ w) : v < w ∨ w < v := by
  rw [lt_iff_parts_lt, lt_iff_parts_lt]
  by_contra hnot
  obtain ⟨hvw, hwv⟩ := not_or.mp hnot
  have heq : v.parts = w.parts := List.le_antisymm (List.not_lt.mp hwv) (List.not_lt.mp hvw)
  exact h (parts_injective heq)

theorem isUpgrade_iff : isUpgrade x y = true ↔ ∃ v w, parse? x = some v ∧ parse? y = some w ∧ v < w := by
  unfold isUpgrade
  split
  · rename_i v w hv hw
    simp [hv, hw]
  · rename_i hnot
    simp only [Bool.false_eq_true, false_iff]
    rintro ⟨v, w, hv, hw, -⟩
    exact hnot v w hv hw

/-! ## Packed versions -/

/-- The parts of a packed version are the bytes of its word, the high one first. -/
theorem parts_ofPacked (word : UInt32) : (ofPacked word).parts =
    [word.toNat / 2 ^ 24, word.toNat / 2 ^ 16 % 256, word.toNat / 2 ^ 8 % 256, word.toNat % 256] := by
  have hbyte : ∀ n : Nat, n &&& 255 = n % 256 := fun n => Nat.and_two_pow_sub_one_eq_mod n 8
  simp [parts, ofPacked, UInt32.toNat_and, UInt32.toNat_shiftRight, Nat.shiftRight_eq_div_pow, hbyte]

/-- Packed versions are ordered as their words are. -/
theorem ofPacked_lt_iff (a b : UInt32) : ofPacked a < ofPacked b ↔ a < b := by
  have ha : a.toNat < 2 ^ 32 := a.toNat_lt
  have hb : b.toNat < 2 ^ 32 := b.toNat_lt
  rw [lt_iff_parts_lt, parts_ofPacked, parts_ofPacked, UInt32.lt_iff_toNat_lt]
  simp only [List.cons_lt_cons_iff, List.not_lt_nil, and_false, or_false]
  omega

@[simp] theorem ofPacked_zero : ofPacked 0 = zero := by decide

/-! ## Reading and comparing -/

/-- Reading takes exactly the grammar, printing is undone by it, and one text upgrades another exactly if both
are versions and the parts of the first come before those of the second: a strict order of the versions that
they spell, in which any two that differ compare. -/
theorem parse?_reads_grammar :
    (∀ text v, parse? text = some v ↔ Spells text.toList v) ∧
    (∀ v, parse? v.text = some v) ∧
    (∀ current available, isUpgrade current available = true ↔
      ∃ v w, parse? current = some v ∧ parse? available = some w ∧ v.parts < w.parts) ∧
    (∀ x, isUpgrade x x = false) ∧
    (∀ x y z, isUpgrade x y = true → isUpgrade y z = true → isUpgrade x z = true) ∧
    ∀ x y v w, parse? x = some v → parse? y = some w → v ≠ w → isUpgrade x y = true ∨ isUpgrade y x = true := by
  refine ⟨fun text v => parse?_eq_some_iff, parse?_text, fun current available => ?_, fun x => ?_,
    fun x y z hxy hyz => ?_, fun x y v w hv hw hne => ?_⟩
  · simp only [isUpgrade_iff, lt_iff_parts_lt]
  · rw [← Bool.not_eq_true, isUpgrade_iff]
    rintro ⟨v, w, hv, hw, hlt⟩
    obtain rfl := Option.some.inj (hv.symm.trans hw)
    exact lt_irrefl v hlt
  · obtain ⟨u, v, hu, hv, huv⟩ := isUpgrade_iff.mp hxy
    obtain ⟨v', w, hv', hw, hvw⟩ := isUpgrade_iff.mp hyz
    obtain rfl := Option.some.inj (hv.symm.trans hv')
    exact isUpgrade_iff.mpr ⟨u, w, hu, hw, lt_trans huv hvw⟩
  · rcases lt_or_lt_of_ne hne with hlt | hlt
    · exact .inl (isUpgrade_iff.mpr ⟨v, w, hv, hw, hlt⟩)
    · exact .inr (isUpgrade_iff.mpr ⟨w, v, hw, hv, hlt⟩)

/-- A sign, zeros in front and a wide blank before a version; and three texts of which each
upgrades the one before it. -/
theorem parse?_reads_grammar_signed :
    parse? "\u3000+01.9.0.4294967295 " = some ⟨1, 9, 0, 4294967295⟩ ∧ isUpgrade "1.9.0.0" "2.0.0.0" = true := by
  have hparts : Numeral ['+', '0', '1'] 1 ∧ Numeral ['9'] 9 ∧ Numeral ['0'] 0 ∧
      Numeral (decimal 4294967295).toList 4294967295 :=
    ⟨⟨['0', '1'], .inr rfl, List.cons_ne_nil _ _, List.all_eq_true.mp rfl, rfl⟩, numeral_decimal 9,
      numeral_decimal 0, numeral_decimal _⟩
  have hspells : Spells "\u3000+01.9.0.4294967295 ".toList ⟨1, 9, 0, 4294967295⟩ :=
    ⟨['\u3000'], _, _, _, _, [' '], by decide +kernel, List.all_eq_true.mp rfl, List.all_eq_true.mp rfl, hparts⟩
  have htrans := parse?_reads_grammar.2.2.2.2.1 "1.9.0.0" "1.10.0.0" "2.0.0.0"
  exact ⟨(parse?_reads_grammar.1 _ _).mpr hspells, htrans (by decide +kernel) (by decide +kernel)⟩

end Reflash.FirmwareVersion
