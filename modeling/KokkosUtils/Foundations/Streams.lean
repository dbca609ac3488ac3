import Mathlib.Data.Int.Order.Basic
import Mathlib.Data.List.FinRange

/-! Output streams with a formatting state, after the formatted output functions of the C++
standard library: the insertion of a text or of a scalar takes the field width into account and
resets it to zero.
-/

namespace KokkosUtils.Foundations

/-- The members of the bitmask type `fmtflags`. -/
structure FormatFlags where
  boolalpha : Bool := false
  dec : Bool := true
  fixed : Bool := false
  hex : Bool := false
  internal : Bool := false
  left : Bool := false
  oct : Bool := false
  right : Bool := false
  scientific : Bool := false
  showbase : Bool := false
  showpoint : Bool := false
  showpos : Bool := false
  skipws : Bool := true
  unitbuf : Bool := false
  uppercase : Bool := false

/-- The formatting state of a stream, as a new stream has it. -/
structure Format where
  flags : FormatFlags := {}
  precision : ℤ := 6
  fill : Char := ' '
  width : ℤ := 0

namespace Format

/-- The formatting state without a field width. -/
def unpadded (format : Format) : Format := { format with width := 0 }

/-- Whether fill characters come after a text: whether `flags & adjustfield` is `left`. -/
def adjustsLeft (format : Format) : Bool :=
  format.flags.left && !format.flags.right && !format.flags.internal

/-- A text, filled up to the field width. -/
def pad (format : Format) (text : List Char) : List Char :=
  let padding := List.replicate (format.width - text.length).toNat format.fill
  if format.adjustsLeft then text ++ padding else padding ++ text

variable {format : Format} {text : List Char}

@[simp] theorem unpadded_width : format.unpadded.width = 0 := rfl

@[simp] theorem unpadded_unpadded : format.unpadded.unpadded = format.unpadded := rfl

/-- A field that is not wider than a text leaves it as it is. -/
theorem pad_eq_self (narrow : format.width ≤ text.length) : format.pad text = text := by
  have none : (format.width - text.length).toNat = 0 :=
    Int.toNat_of_nonpos (Int.sub_nonpos_of_le narrow)
  simp [pad, none]

/-- A padded text is as long as the text or as the field. -/
theorem length_pad : (format.pad text).length = max text.length format.width.toNat := by
  unfold pad
  split <;> simp only [List.length_append, List.length_replicate] <;> omega

end Format

/-- A stream: the characters written to it so far, and its formatting state. -/
structure Ostream where
  text : List Char := []
  format : Format := {}

namespace Ostream

variable {α : Type*}

/-- `copyfmt`. -/
def copyfmt (self source : Ostream) : Ostream := { self with format := source.format }

/-- Characters written as they are. -/
def append (text : List Char) (out : Ostream) : Ostream := { out with text := out.text ++ text }

/-- The insertion of a text. -/
def insertText (text : List Char) (out : Ostream) : Ostream :=
  { text := out.text ++ out.format.pad text, format := out.format.unpadded }

/-- The insertion of a scalar, which `put` writes for a formatting state. -/
def insertScalar (put : Format → α → List Char) (value : α) (out : Ostream) : Ostream :=
  { text := out.text ++ put out.format value, format := out.format.unpadded }

variable {out : Ostream} {text : List Char}

@[simp] theorem append_format : (out.append text).format = out.format := rfl

@[simp] theorem append_append (later : List Char)
    : (out.append text).append later = out.append (text ++ later) := by
  simp [append]

@[simp] theorem append_nil : out.append [] = out := by
  simp [append]

/-- Without a field width a text is inserted as it is. -/
theorem insertText_unpadded (unpadded : out.format.unpadded = out.format)
    : out.insertText text = out.append text := by
  have narrow : out.format.width ≤ text.length := by
    rw [← unpadded]
    exact Int.natCast_nonneg _
  rw [insertText, append, Format.pad_eq_self narrow, unpadded]

/-- So is what is written for a scalar. -/
theorem insertScalar_unpadded {put : Format → α → List Char} {value : α}
    (unpadded : out.format.unpadded = out.format)
    : out.insertScalar put value = out.append (put out.format value) := by
  rw [insertScalar, append, unpadded]

end Ostream

end KokkosUtils.Foundations
