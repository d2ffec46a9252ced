import Mathlib.Data.List.TakeWhile
import Mathlib.Tactic.Common
import Reflash.Text.Blank
import Reflash.Text.Digits

/-!
# Reflash.Proofs.Text — pieces, numerals and blanks

`fields` is the library's `splitOn` (`fields_eq_splitOn`), so its pieces can be joined again.  `Numeral` is the
grammar of the numbers that `readUnsigned` reads, with their values; it reads those that are below its limit,
and nothing else (`readUnsigned_eq_ok_iff`).  `trim` takes away blanks at the two ends (`exists_trim`), all of
them where the rest has none (`trim_between`).
-/

namespace Reflash.Text

/-! ## Pieces -/

theorem fields_eq_splitOn (sep : Char) (text : List Char) : fields sep text = text.splitOn sep := by
  induction text with
  | nil => rfl
  | cons c rest ih =>
    rw [fields, List.splitOn_cons_eq_if_modifyHead, ih]
    by_cases hc : c = sep
    · simp [hc]
    · simp only [hc, ↓reduceIte, beq_iff_eq]
      cases hrest : rest.splitOn sep with
      | nil => exact absurd hrest (List.splitOn_ne_nil sep rest)
      | cons piece pieces => rfl

/-- A text is cut in one way at the first separator. -/
theorem append_cons_inj {sep : Char} {x x' rest rest' : List Char} (hx : sep ∉ x) (hx' : sep ∉ x') :
    x ++ sep :: rest = x' ++ sep :: rest' ↔ x = x' ∧ rest = rest' := by
  induction x generalizing x' with
  | nil =>
    cases x' with
    | nil => simp
    | cons c' x' => simp [List.ne_of_not_mem_cons hx']
  | cons c x ih =>
    cases x' with
    | nil => simp [(List.ne_of_not_mem_cons hx).symm]
    | cons c' x' =>
      simp [ih (List.not_mem_of_not_mem_cons hx) (List.not_mem_of_not_mem_cons hx'), and_assoc]

theorem splitOnce_append {sep : Char} {x rest : List Char} (hx : sep ∉ x) :
    splitOnce sep (x ++ sep :: rest) = some (x, rest) := by
  induction x with
  | nil => simp [splitOnce]
  | cons c x ih =>
    have hc : c ≠ sep := (List.ne_of_not_mem_cons hx).symm
    simp [splitOnce, hc, ih (List.not_mem_of_not_mem_cons hx)]

/-! ## Numerals -/

/-- An optional `+` and one or more decimal digits, of value `n`. -/
def Numeral (piece : List Char) (n : Nat) : Prop :=
  ∃ digits : List Char, (piece = digits ∨ piece = '+' :: digits) ∧ digits ≠ [] ∧ (∀ c ∈ digits, c.isDigit = true) ∧
    Nat.ofDigitChars 10 digits 0 = n

variable {limit n m : Nat} {piece digits : List Char}

/-- More digits make no number smaller. -/
theorem le_ofDigitChars (digits : List Char) (n : Nat) : n ≤ Nat.ofDigitChars 10 digits n := by
  induction digits generalizing n with
  | nil => exact Nat.le_refl n
  | cons c rest ih =>
    rw [Nat.ofDigitChars_cons]
    have hmore := ih (10 * n + (c.toNat - '0'.toNat))
    omega

/-- Digits are read to their value, as long as it stays below the limit. -/
theorem readDigits_eq_ok_iff (hn : n < limit) : readDigits limit n digits = .ok m ↔
    (∀ c ∈ digits, c.isDigit = true) ∧ Nat.ofDigitChars 10 digits n = m ∧ m < limit := by
  induction digits generalizing n with
  | nil =>
    simp only [readDigits, Except.ok.injEq, List.not_mem_nil, false_implies, implies_true, true_and,
      Nat.ofDigitChars_nil]
    constructor
    · rintro rfl
      exact ⟨rfl, hn⟩
    · exact And.left
  | cons c rest ih =>
    rw [readDigits, Nat.ofDigitChars_cons]
    by_cases hc : c.isDigit = true
    · simp only [hc, ↓reduceIte, List.forall_mem_cons, true_and]
      by_cases hlt : 10 * n + (c.toNat - '0'.toNat) < limit
      · rw [if_pos hlt]
        exact ih hlt
      · -- The value only grows from here, so it is not below the limit either.
        have hle := le_ofDigitChars rest (10 * n + (c.toNat - '0'.toNat))
        rw [if_neg hlt]
        simp only [reduceCtorEq, false_iff, not_and]
        intro _ hm
        omega
    · simp [hc]

/-- Zeros in front do not change what digits are worth. -/
theorem numeral_zeros_toDigits (zeros n : Nat) : Numeral (List.replicate zeros '0' ++ Nat.toDigits 10 n) n := by
  have hdigits : ∀ c ∈ List.replicate zeros '0' ++ Nat.toDigits 10 n, c.isDigit = true := by
    intro c hc
    rcases List.mem_append.mp hc with hc | hc
    · rw [List.eq_of_mem_replicate hc]
      decide
    · exact Nat.isDigit_of_mem_toDigits (by decide) (by decide) hc
  have hvalue : Nat.ofDigitChars 10 (List.replicate zeros '0' ++ Nat.toDigits 10 n) 0 = n := by
    rw [Nat.ofDigitChars_append, Nat.ofDigitChars_replicate_zero, Nat.mul_zero, Nat.ofDigitChars_ten_toDigits]
  exact ⟨_, .inl rfl, by simp [Nat.toDigits_ne_nil], hdigits, hvalue⟩

theorem numeral_paddedDecimal (width n : Nat) : Numeral (paddedDecimal width n).toList n := by
  rw [paddedDecimal, String.toList_ofList]
  exact numeral_zeros_toDigits _ n

theorem toList_decimal (n : Nat) : (decimal n).toList = Nat.toDigits 10 n := by
  rw [decimal, Nat.repr_eq_ofList_toDigits, String.toList_ofList]

/-- The decimal text of a number is a numeral of it. -/
theorem numeral_decimal (n : Nat) : Numeral (decimal n).toList n := by
  rw [toList_decimal]
  exact numeral_zeros_toDigits 0 n

/-- And so it is with a sign. -/
theorem numeral_plus_decimal (n : Nat) : Numeral ('+' :: (decimal n).toList) n := by
  rw [toList_decimal]
  exact ⟨Nat.toDigits 10 n, .inr rfl, Nat.toDigits_ne_nil,
    fun c hc => Nat.isDigit_of_mem_toDigits (by decide) (by decide) hc, Nat.ofDigitChars_ten_toDigits⟩

/-- The characters of a numeral. -/
theorem Numeral.isDigit_or_plus (h : Numeral piece n) {c : Char} (hc : c ∈ piece) :
    c.isDigit = true ∨ c = '+' := by
  obtain ⟨digits, rfl | rfl, -, hdigits, -⟩ := h
  · exact .inl (hdigits c hc)
  · rcases List.mem_cons.mp hc with rfl | hc
    · exact .inr rfl
    · exact .inl (hdigits c hc)

theorem Numeral.not_mem (h : Numeral piece n) {c : Char} (hc : ¬ (c.isDigit = true ∨ c = '+')) : c ∉ piece :=
  fun hmem => hc (h.isDigit_or_plus hmem)

/-- Exactly the numerals below the limit are read. -/
theorem readUnsigned_eq_ok_iff (hlimit : 0 < limit) :
    readUnsigned limit piece = .ok n ↔ Numeral piece n ∧ n < limit := by
  have hplus : ¬ '+'.isDigit = true := by decide
  unfold readUnsigned
  split
  · simp [Numeral]
  · -- A lone `+` has no digits behind it, and is none itself.
    simp only [reduceCtorEq, false_iff, not_and]
    rintro ⟨digits, hpiece | hpiece, hne, hdigits, -⟩
    · exact absurd (hdigits '+' (by simp [← hpiece])) hplus
    · exact absurd (List.cons.inj hpiece).2.symm hne
  · rename_i digits hne
    rw [readDigits_eq_ok_iff hlimit]
    constructor
    · rintro ⟨hdigits, hvalue, hlt⟩
      exact ⟨⟨digits, .inr rfl, fun h => hne (by rw [h]), hdigits, hvalue⟩, hlt⟩
    · rintro ⟨⟨digits', hpiece | hpiece, -, hdigits, hvalue⟩, hlt⟩
      · exact absurd (hdigits '+' (by simp [← hpiece])) hplus
      · obtain rfl := (List.cons.inj hpiece).2
        exact ⟨hdigits, hvalue, hlt⟩
  · rename_i hnil hlone hsigned
    rw [readDigits_eq_ok_iff hlimit]
    constructor
    · rintro ⟨hdigits, hvalue, hlt⟩
      exact ⟨⟨piece, .inl rfl, hnil, hdigits, hvalue⟩, hlt⟩
    · rintro ⟨⟨digits, rfl | rfl, -, hdigits, hvalue⟩, hlt⟩
      · exact ⟨hdigits, hvalue, hlt⟩
      · exact absurd rfl (hsigned digits)

/-- A numeral is worth one number. -/
theorem Numeral.unique (hn : Numeral piece n) (hm : Numeral piece m) : n = m := by
  have hlimit : 0 < n + m + 1 := by omega
  have hreadn : readUnsigned (n + m + 1) piece = .ok n := (readUnsigned_eq_ok_iff hlimit).mpr ⟨hn, by omega⟩
  have hreadm : readUnsigned (n + m + 1) piece = .ok m := (readUnsigned_eq_ok_iff hlimit).mpr ⟨hm, by omega⟩
  exact Except.ok.inj (hreadn.symm.trans hreadm)

/-- Two texts that begin with numerals and a separator are alike only if the numbers are. -/
theorem Numeral.eq_of_append {piece' rest rest' : List Char} {sep : Char} (hn : Numeral piece n)
    (hm : Numeral piece' m) (hsep : ¬ (sep.isDigit = true ∨ sep = '+'))
    (h : piece ++ sep :: rest = piece' ++ sep :: rest') :
    n = m ∧ rest = rest' := by
  obtain ⟨rfl, hrest⟩ := (append_cons_inj (hn.not_mem hsep) (hm.not_mem hsep)).mp h
  exact ⟨hn.unique hm, hrest⟩

/-! ## Blanks -/

/-- What is trimmed is blank. -/
theorem exists_trim (text : List Char) : ∃ before after, text = before ++ trim text ++ after ∧
    (∀ c ∈ before, isBlank c = true) ∧ ∀ c ∈ after, isBlank c = true := by
  let rest := text.dropWhile isBlank
  refine ⟨text.takeWhile isBlank, (rest.reverse.takeWhile isBlank).reverse, ?_, fun c => List.mem_takeWhile_imp,
    fun c hc => List.mem_takeWhile_imp (List.mem_reverse.mp hc)⟩
  have hfront : text.takeWhile isBlank ++ rest = text := List.takeWhile_append_dropWhile
  have hback : rest = trim text ++ (rest.reverse.takeWhile isBlank).reverse := by
    have hsplit : rest.reverse.takeWhile isBlank ++ rest.reverse.dropWhile isBlank = rest.reverse :=
      List.takeWhile_append_dropWhile
    have hreverse := congrArg List.reverse hsplit
    rw [List.reverse_append, List.reverse_reverse] at hreverse
    exact hreverse.symm
  rw [List.append_assoc, ← hback, hfront]

theorem dropWhile_isBlank_append {before core : List Char} (hbefore : ∀ c ∈ before, isBlank c = true)
    (hcore : ∀ c ∈ core, isBlank c = false) : (before ++ core).dropWhile isBlank = core := by
  rw [List.dropWhile_append_of_pos hbefore]
  cases core with
  | nil => rfl
  | cons c rest => rw [List.dropWhile_cons_of_neg (by simp [hcore c List.mem_cons_self])]

/-- A text without blanks is what trimming leaves of it between blanks. -/
theorem trim_between {before core after : List Char} (hbefore : ∀ c ∈ before, isBlank c = true)
    (hcore : ∀ c ∈ core, isBlank c = false) (hafter : ∀ c ∈ after, isBlank c = true) :
    trim (before ++ core ++ after) = core := by
  cases core with
  | nil =>
    have hblank : ∀ c ∈ before ++ [] ++ after, isBlank c = true := by
      simpa [or_imp, forall_and] using ⟨hbefore, hafter⟩
    have hnil : (before ++ [] ++ after).dropWhile isBlank = [] := List.dropWhile_eq_nil_iff.mpr hblank
    simp only [trim, hnil, List.reverse_nil, List.dropWhile_nil]
  | cons c rest =>
    have hfront : (before ++ (c :: rest) ++ after).dropWhile isBlank = c :: rest ++ after := by
      rw [List.append_assoc, List.dropWhile_append_of_pos hbefore]
      exact List.dropWhile_cons_of_neg (by simp [hcore c List.mem_cons_self])
    have hback : (c :: rest ++ after).reverse.dropWhile isBlank = (c :: rest).reverse := by
      rw [List.reverse_append]
      exact dropWhile_isBlank_append (fun c hc => hafter c (List.mem_reverse.mp hc))
        fun c hc => hcore c (List.mem_reverse.mp hc)
    rw [trim, hfront, hback, List.reverse_reverse]

/-- Neither digits nor signs nor dots are blank. -/
theorem isBlank_eq_false {c : Char} (h : c.isDigit = true ∨ c = '+' ∨ c = '.') : isBlank c = false := by
  rcases h with h | rfl | rfl
  · have hrange := Char.isDigit_iff_toNat.mp h
    simp only [isBlank]
    grind
  · decide
  · decide

end Reflash.Text
