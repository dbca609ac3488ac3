import KokkosUtils.Foundations.ReadableTexts
import KokkosUtils.Foundations.Streams
import Mathlib.Data.Nat.Digits.Lemmas

/-! Quoted strings and unsigned integers in formatted output, in the classic locale, and what can be
read back from them.
-/

namespace KokkosUtils.Foundations

/-- A character between quotation marks. -/
def escape (symbol : Char) : List Char :=
  if symbol = '"' ∨ symbol = '\\' then ['\\', symbol] else [symbol]

/-- `std::quoted`. -/
def quoted (text : String) : List Char := '"' :: (text.toList.flatMap escape ++ ['"'])

/-- Escaped characters can be read one by one. -/
theorem readable_escape : Readable (fun _ => True) id escape := by
  intro left right leftRest rightRest _ _ same
  unfold escape at same
  split at same <;> split at same <;> grind

/-- An escaped character does not begin with a quotation mark. -/
theorem escape_eq_cons (symbol : Char)
    : ∃ first rest, escape symbol = first :: rest ∧ first ≠ '"' := by
  unfold escape
  split
  · exact ⟨_, _, rfl, by decide⟩
  · next plain => exact ⟨_, _, rfl, fun same => plain (.inl same)⟩

/-- Quoted strings can be read back, whatever characters they contain. -/
theorem readable_quoted : Readable (fun _ => True) id quoted := by
  intro left right leftRest rightRest _ _ same
  have characters :=
    Readable.flatMap_stop readable_escape (fun symbol _ => escape_eq_cons symbol) []
  obtain ⟨texts, rest⟩ :=
    characters (fun _ _ => trivial) (fun _ _ => trivial) (List.cons.inj same).2
  rw [List.map_id, List.map_id] at texts
  exact ⟨String.toList_inj.mp texts, rest⟩

/-- The radices in which integers are written. -/
inductive Radix
  | octal
  | decimal
  | hexadecimal
  deriving DecidableEq

/-- The base of a radix. -/
def Radix.base : Radix → ℕ
  | .octal => 8
  | .decimal => 10
  | .hexadecimal => 16

/-- The digits of an integer, the most significant one first and without leading zeros. -/
def numeral (base value : ℕ) : List ℕ := if value = 0 then [0] else (base.digits value).reverse

namespace FormatFlags

variable (flags : FormatFlags)

/-- The radix that `flags & basefield` selects: the decimal one unless it is exactly `oct` or
exactly `hex`.
-/
def radix : Radix :=
  if flags.oct && !flags.dec && !flags.hex then .octal
  else if flags.hex && !flags.dec && !flags.oct then .hexadecimal
  else .decimal

/-- Whether fill characters come after the mark of the base: whether `flags & adjustfield` is
`internal`.
-/
def adjustsInternally : Bool := flags.internal && !flags.left && !flags.right

/-- The character of a digit, an upper-case letter if `uppercase` asks for it. -/
def digit (value : ℕ) : Char :=
  if flags.uppercase then value.digitChar.toUpper else value.digitChar

/-- The characters of the digits of an integer. -/
def digits (value : ℕ) : List Char := (numeral flags.radix.base value).map flags.digit

/-- The mark of the base that `showbase` asks for, which zero does not get. -/
def baseMark (value : ℕ) : List Char :=
  if flags.showbase && value != 0 then
    match flags.radix with
    | .octal => ['0']
    | .decimal => []
    | .hexadecimal => if flags.uppercase then ['0', 'X'] else ['0', 'x']
  else
    []

end FormatFlags

/-- What is written for an unsigned integer. -/
def putUnsigned (format : Format) (value : ℕ) : List Char :=
  let mark := format.flags.baseMark value
  let digits := format.flags.digits value
  if format.flags.adjustsInternally && format.flags.radix == .hexadecimal then
    let padding := List.replicate (format.width - (mark ++ digits).length).toNat format.fill
    mark ++ padding ++ digits
  else
    format.pad (mark ++ digits)

/-- An integer is what its digits stand for. -/
theorem ofDigits_numeral (base value : ℕ)
    : Nat.ofDigits base (numeral base value).reverse = value := by
  unfold numeral
  split
  · next zero => simp [zero]
  · rw [List.reverse_reverse, Nat.ofDigits_digits]

/-- No radix has more than 16 digits. -/
theorem lt_of_mem_numeral {radix : Radix} {value digit : ℕ}
    (member : digit ∈ numeral radix.base value)
    : digit < 16 := by
  unfold numeral at member
  split at member
  · rw [List.mem_singleton.mp member]
    decide
  · rw [List.mem_reverse] at member
    cases radix with
    | octal => exact (Nat.digits_lt_base (by decide) member).trans_le (by decide)
    | decimal => exact (Nat.digits_lt_base (by decide) member).trans_le (by decide)
    | hexadecimal => exact Nat.digits_lt_base (by decide) member

/-- A function keeps lists apart whose members it keeps apart, by induction on the lists. -/
theorem eq_of_map_eq {α β : Type*} {f : α → β} {left right : List α}
    (apart : ∀ first ∈ left, ∀ second ∈ right, f first = f second → first = second)
    (same : left.map f = right.map f)
    : left = right := by
  induction left generalizing right with
  | nil => exact (List.map_eq_nil_iff.mp same.symm).symm
  | cons first left ih =>
      cases right with
      | nil => cases same
      | cons second right =>
          obtain ⟨heads, tails⟩ := List.cons.inj same
          have others := ih (fun first member second other =>
            apart first (List.mem_cons_of_mem _ member) second (List.mem_cons_of_mem _ other)) tails
          rw [apart first (by simp) second (by simp) heads, others]

namespace FormatFlags

variable {flags : FormatFlags}

/-- Different digits have different characters. -/
theorem digit_injective {left right : ℕ} (leftBelow : left < 16) (rightBelow : right < 16)
    (same : flags.digit left = flags.digit right)
    : left = right := by
  have lower : ∀ left < 16, ∀ right < 16, left.digitChar = right.digitChar → left = right := by
    decide
  have upper : ∀ left < 16, ∀ right < 16,
      left.digitChar.toUpper = right.digitChar.toUpper → left = right := by
    decide
  unfold digit at same
  split at same
  · exact upper left leftBelow right rightBelow same
  · exact lower left leftBelow right rightBelow same

/-- The characters of digits are letters and decimal digits. -/
theorem isAlphanum_digit {value : ℕ} (below : value < 16)
    : (flags.digit value).isAlphanum = true := by
  have lower : ∀ value < 16, value.digitChar.isAlphanum = true := by decide
  have upper : ∀ value < 16, value.digitChar.toUpper.isAlphanum = true := by decide
  unfold digit
  split
  · exact upper value below
  · exact lower value below

/-- The characters of its digits determine an integer. -/
theorem digits_injective : Function.Injective flags.digits := by
  intro left right same
  have numerals := eq_of_map_eq (fun first member second other =>
    digit_injective (lt_of_mem_numeral member) (lt_of_mem_numeral other)) same
  rw [← ofDigits_numeral flags.radix.base left, numerals, ofDigits_numeral]

/-- Zero gets no mark of the base. -/
@[simp] theorem baseMark_zero : flags.baseMark 0 = [] := by
  simp [baseMark]

/-- All other integers get the same mark of the base. -/
theorem baseMark_eq {left right : ℕ} (leftPositive : left ≠ 0) (rightPositive : right ≠ 0)
    : flags.baseMark left = flags.baseMark right := by
  simp [baseMark, leftPositive, rightPositive]

/-- Only zero is written like zero. -/
theorem eq_zero_of_digits {value : ℕ}
    (same : flags.baseMark value ++ flags.digits value = flags.digits 0)
    : value = 0 := by
  have short : flags.digits 0 = [flags.digit 0] := rfl
  rw [short] at same
  rcases List.append_eq_singleton_iff.mp same with ⟨-, shown⟩ | ⟨-, absent⟩
  · exact digits_injective (shown.trans short.symm)
  · have written := ofDigits_numeral flags.radix.base value
    rw [List.map_eq_nil_iff.mp absent] at written
    exact written.symm

/-- A mark of the base consists of letters and decimal digits. -/
theorem isAlphanum_baseMark {value : ℕ} {symbol : Char} (member : symbol ∈ flags.baseMark value)
    : symbol.isAlphanum = true := by
  unfold baseMark at member
  split at member
  · split at member
    · rw [List.mem_singleton.mp member]
      rfl
    · cases member
    · split at member <;> rcases List.mem_pair.mp member with rfl | rfl <;> rfl
  · cases member

end FormatFlags

variable {format : Format}

/-- Without a field width, the digits of an integer follow the mark of the base. -/
theorem putUnsigned_unpadded (narrow : format.width = 0) (value : ℕ)
    : putUnsigned format value = format.flags.baseMark value ++ format.flags.digits value := by
  unfold putUnsigned
  split
  · simp [narrow]
  · exact Format.pad_eq_self (narrow.trans_le (Int.natCast_nonneg _))

/-- Without a field width, what is written for an integer determines it. -/
theorem putUnsigned_injective (narrow : format.width = 0)
    : Function.Injective (putUnsigned format) := by
  intro left right same
  rw [putUnsigned_unpadded narrow, putUnsigned_unpadded narrow] at same
  by_cases leftZero : left = 0
  · rw [leftZero, FormatFlags.baseMark_zero, List.nil_append] at same
    rw [leftZero, FormatFlags.eq_zero_of_digits same.symm]
  by_cases rightZero : right = 0
  · rw [rightZero, FormatFlags.baseMark_zero, List.nil_append] at same
    rw [rightZero, FormatFlags.eq_zero_of_digits same]
  rw [FormatFlags.baseMark_eq leftZero rightZero] at same
  exact FormatFlags.digits_injective (List.append_cancel_left same)

/-- Without a field width, something is written for each integer. -/
theorem putUnsigned_ne_nil (narrow : format.width = 0) (value : ℕ)
    : putUnsigned format value ≠ [] := by
  intro nothing
  rw [putUnsigned_unpadded narrow] at nothing
  have digits := List.map_eq_nil_iff.mp (List.append_eq_nil_iff.mp nothing).2
  unfold numeral at digits
  split at digits
  · cases digits
  · next nonzero =>
      exact nonzero (Nat.digits_eq_nil_iff_eq_zero.mp (List.reverse_eq_nil_iff.mp digits))

/-- Without a field width, integers are written in letters and decimal digits. -/
theorem isAlphanum_putUnsigned (narrow : format.width = 0) {value : ℕ} {symbol : Char}
    (member : symbol ∈ putUnsigned format value)
    : symbol.isAlphanum = true := by
  rw [putUnsigned_unpadded narrow, List.mem_append] at member
  rcases member with marks | shows
  · exact FormatFlags.isAlphanum_baseMark marks
  · obtain ⟨digit, known, rfl⟩ := List.mem_map.mp shows
    exact FormatFlags.isAlphanum_digit (lt_of_mem_numeral known)

/-- Without a field width, an integer can be read up to a character that is no letter and no decimal
digit.
-/
theorem readable_putUnsigned (narrow : format.width = 0)
    : ReadableBefore (fun symbol => !symbol.isAlphanum) (fun _ => True) id (putUnsigned format) :=
  .of_clear (fun _ _ _ _ same => putUnsigned_injective narrow same) fun _ _ _ member =>
    congrArg Bool.not (isAlphanum_putUnsigned narrow member)

end KokkosUtils.Foundations
