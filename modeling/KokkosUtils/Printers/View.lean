import KokkosUtils.Foundations.Streams
import KokkosUtils.View.Slice

/-! The output operator of views, and when it prints a view as it prints the view's rendering.
The operator copies the whole formatting state of the stream into each string stream that it
creates, the field width included.
-/

namespace KokkosUtils.Printers

open KokkosUtils.Foundations KokkosUtils.Views

variable {α : Type} {rank : ℕ}

/-- The loop over the first index, with a separator before each element but the first. -/
def printElements (size : ℕ) (insert : Fin size → Ostream → Ostream) (oss : Ostream) : Ostream :=
  (List.finRange size).foldl
    (fun oss idx => insert idx (if 0 < idx.val then oss.insertText [',', ' '] else oss))
    oss

/-- What `operator<<` does for all ranks, around the contents of the brackets. -/
def printBracketed (contents : Ostream → Ostream) (out : Ostream) : Ostream :=
  let oss := ({} : Ostream).copyfmt out
  let oss := contents (oss.insertText ['['])
  out.insertText (oss.insertText [']']).text

/-- `operator<<`. The mirror view on the host has the same elements. -/
def print (put : Format → α → List Char) : {rank : ℕ} → View α rank → Ostream → Ostream
  | 0, view => printBracketed fun oss => oss.insertScalar put view.scalar
  | 1, view =>
      printBracketed
        (printElements (view.extent slowest) fun idx oss =>
          oss.insertScalar put (view.scalarAt idx))
  | _ + 2, view =>
      printBracketed (printElements (view.extent slowest) fun idx => print put (view.slice idx))

/-- A part of a rendering: a text of its own or the text of a scalar. -/
inductive Token (α : Type)
  | text (characters : List Char)
  | scalar (value : α)

/-- The characters of a token. -/
def Token.render (put : α → List Char) : Token α → List Char
  | .text characters => characters
  | .scalar value => put value

/-- The scalar of a token, if it is one. -/
def Token.scalar? : Token α → Option α
  | .text _ => none
  | .scalar value => some value

/-- Tokens between brackets. -/
def bracketed (tokens : List (Token α)) : List (Token α) :=
  .text ['['] :: tokens ++ [.text [']']]

/-- Sequences of tokens, separated by a comma. -/
def separated (parts : List (List (Token α))) : List (Token α) :=
  List.intercalate [.text [',', ' ']] parts

/-- What a view is rendered as, without the outermost brackets: its elements or, for higher
ranks, its slices.
-/
def contents : {rank : ℕ} → View α rank → List (Token α)
  | 0, view => [.scalar view.scalar]
  | 1, view =>
      separated ((List.finRange (view.extent slowest)).map fun idx => [.scalar (view.scalarAt idx)])
  | _ + 2, view =>
      separated
        ((List.finRange (view.extent slowest)).map fun idx => bracketed (contents (view.slice idx)))

/-- The tokens that a view is rendered as. -/
def tokens (view : View α rank) : List (Token α) := bracketed (contents view)

/-- The rendering of a view, for given texts of its scalars. -/
def rendering (put : α → List Char) (view : View α rank) : List Char :=
  (tokens view).flatMap (Token.render put)

/-- The operator behaves like the insertion of the rendering of the view, whose scalars are
formatted without a field width. The scalars of the rendering are the elements in row-major
order, each once.
-/
structure PrintsAsRendering (put : Format → α → List Char) (view : View α rank) (out : Ostream)
    : Prop where
  text
    : (print put view out).text
      = (out.insertText (rendering (put out.format.unpadded) view)).text
  scalars
    : (tokens view).filterMap Token.scalar? = (indicesOf view.extent).map view.element
  ordered : (indicesOf view.extent).Pairwise (RowMajor view.extent)
  complete : ∀ indices, indices ∈ indicesOf view.extent

/-- A separator comes before each part but the first, by induction on the other parts. -/
theorem intercalate_cons {β : Type} (separator first : List β) (rest : List (List β))
    : List.intercalate separator (first :: rest)
      = first ++ rest.flatMap (fun part => separator ++ part) := by
  induction rest generalizing first with
  | nil => simp
  | cons second rest ih =>
      rw [List.intercalate_cons_cons, ih, List.flatMap_cons, List.append_assoc, List.append_assoc]

/-- What tokens become does not depend on how they are put together. -/
theorem flatMap_separated {β : Type} (become : Token α → List β) (parts : List (List (Token α)))
    : (separated parts).flatMap become
      = List.intercalate (become (.text [',', ' ']))
          (parts.map (fun part => part.flatMap become)) := by
  cases parts with
  | nil => rfl
  | cons first rest =>
      simp [separated, intercalate_cons, List.flatMap_append, List.flatMap_assoc,
        List.flatMap_map]

section

variable {size : ℕ} {insert : Fin size → Ostream → Ostream} {part : Fin size → List Char}
variable {oss : Ostream}

/-- After the first element, each element is printed with a separator before it. -/
theorem foldl_later (unpadded : oss.format.unpadded = oss.format)
    (inserts
      : ∀ idx (current : Ostream),
          current.format = oss.format → insert idx current = current.append (part idx))
    {later : List (Fin size)} (positive : ∀ idx ∈ later, 0 < idx.val) {current : Ostream}
    (same : current.format = oss.format)
    : later.foldl
          (fun oss idx => insert idx (if 0 < idx.val then oss.insertText [',', ' '] else oss))
          current
      = current.append (later.flatMap (fun idx => [',', ' '] ++ part idx)) := by
  induction later generalizing current with
  | nil => simp
  | cons idx rest ih =>
      rw [List.forall_mem_cons] at positive
      have separates : current.insertText [',', ' '] = current.append [',', ' '] :=
        Ostream.insertText_unpadded (by rw [same, unpadded])
      have inserted := inserts idx (current.append [',', ' ']) same
      rw [Ostream.append_append] at inserted
      rw [List.foldl_cons, if_pos positive.1, separates, inserted, ih positive.2, List.flatMap_cons,
        Ostream.append_append]
      exact same

/-- Without a field width the loop prints the elements separated by commas. -/
theorem printElements_eq (unpadded : oss.format.unpadded = oss.format)
    (inserts
      : ∀ idx (current : Ostream),
          current.format = oss.format → insert idx current = current.append (part idx))
    : printElements size insert oss
      = oss.append (List.intercalate [',', ' '] ((List.finRange size).map part)) := by
  unfold printElements
  cases size with
  | zero => simp
  | succ size =>
      have positive : ∀ idx ∈ (List.finRange size).map Fin.succ, 0 < idx.val := by
        intro idx later
        obtain ⟨earlier, -, rfl⟩ := List.mem_map.mp later
        exact Nat.succ_pos earlier.val
      have first : ¬0 < (0 : Fin (size + 1)).val := Nat.lt_irrefl 0
      have same : (oss.append (part 0)).format = oss.format := rfl
      rw [List.finRange_succ, List.foldl_cons, if_neg first, inserts 0 oss rfl,
        foldl_later unpadded inserts positive same, List.map_cons, intercalate_cons,
        Ostream.append_append, List.flatMap_map part]

end

/-- The characters that an operator call inserts: the field width applies to the opening bracket,
since the insertion of a text resets it.
-/
theorem printBracketed_eq {insertContents : Ostream → Ostream} {characters : List Char}
    {out : Ostream}
    (writes
      : ∀ current : Ostream,
          current.format = out.format.unpadded
          → insertContents current = current.append characters)
    : printBracketed insertContents out
      = out.insertText (out.format.pad ['['] ++ characters ++ [']']) := by
  have opened
      : (({} : Ostream).copyfmt out).insertText ['[']
        = { text := out.format.pad ['['], format := out.format.unpadded } := rfl
  have unpadded (text : List Char)
      : ({ text := text, format := out.format.unpadded } : Ostream).insertText [']']
        = { text := text ++ [']'], format := out.format.unpadded } :=
    Ostream.insertText_unpadded rfl
  rw [printBracketed, opened, writes _ rfl, Ostream.append, unpadded]

/-- So it is around elements that are each inserted as the characters of some tokens. -/
theorem printBracketed_printElements {render : Token α → List Char} {size : ℕ}
    {insert : Fin size → Ostream → Ostream} {part : Fin size → List (Token α)} {out : Ostream}
    (comma : render (.text [',', ' ']) = [',', ' '])
    (inserts
      : ∀ idx (current : Ostream),
          current.format = out.format.unpadded
          → insert idx current = current.append ((part idx).flatMap render))
    : printBracketed (printElements size insert) out
      = out.insertText
          (out.format.pad ['[']
            ++ (separated ((List.finRange size).map part)).flatMap render
            ++ [']']) := by
  refine printBracketed_eq fun current same => ?_
  have unpadded : current.format.unpadded = current.format := by
    rw [same, Format.unpadded_unpadded]
  rw [← same] at inserts
  rw [printElements_eq unpadded inserts, flatMap_separated, comma, List.map_map]
  rfl

/-- The operator inserts the rendering of the view, except that the field width applies to its
opening bracket as well. By induction on the rank: the slices are printed without a field width.
-/
theorem print_eq (put : Format → α → List Char) (view : View α rank) (out : Ostream)
    : print put view out
      = out.insertText
          (out.format.pad ['[']
            ++ (contents view).flatMap (Token.render (put out.format.unpadded))
            ++ [']']) := by
  fun_induction print put view generalizing out with
  | case1 view =>
      refine printBracketed_eq fun current same => ?_
      rw [Ostream.insertScalar_unpadded (by rw [same, Format.unpadded_unpadded]), same]
      simp [contents, Token.render]
  | case2 view =>
      refine printBracketed_printElements rfl fun idx current same => ?_
      rw [Ostream.insertScalar_unpadded (by rw [same, Format.unpadded_unpadded]), same]
      simp [Token.render]
  | case3 rank view ih =>
      refine printBracketed_printElements rfl fun idx current same => ?_
      have bracket : current.format.pad ['['] = ['['] := by
        refine Format.pad_eq_self ?_
        rw [same]
        exact Int.natCast_nonneg _
      rw [ih idx, Ostream.insertText_unpadded (by rw [same, Format.unpadded_unpadded]), bracket,
        same, Format.unpadded_unpadded]
      simp [bracketed, Token.render]

@[simp] theorem scalars_text_cons (characters : List Char) (tokens : List (Token α))
    : (.text characters :: tokens).filterMap Token.scalar? = tokens.filterMap Token.scalar? :=
  List.filterMap_cons_none rfl

/-- Text between scalars is no scalar. -/
theorem scalars_separated (parts : List (List (Token α)))
    : (separated parts).filterMap Token.scalar?
      = parts.flatMap (fun part => part.filterMap Token.scalar?) := by
  cases parts with
  | nil => rfl
  | cons first rest =>
      simp [separated, intercalate_cons, List.filterMap_append, List.filterMap_flatMap]

/-- Brackets are no scalars. -/
theorem scalars_bracketed (tokens : List (Token α))
    : (bracketed tokens).filterMap Token.scalar? = tokens.filterMap Token.scalar? := by
  simp [bracketed, List.filterMap_append]

/-- The scalars of a rendering are the elements in row-major order, by induction on the rank. -/
theorem scalars_contents (view : View α rank)
    : (contents view).filterMap Token.scalar? = view.elements := by
  fun_induction contents view with
  | case1 view => exact view.elements_zero.symm
  | case2 view =>
      rw [scalars_separated, View.elements_succ, List.flatMap_map]
      rfl
  | case3 rank view ih =>
      rw [scalars_separated, View.elements_succ, List.flatMap_map]
      simp only [scalars_bracketed, ih]

/-- A field that is wider than the opening bracket makes the operator write more characters than
the insertion of the rendering.
-/
theorem print_longer (put : Format → α → List Char) (view : View α rank) {out : Ostream}
    (wide : 1 < out.format.width)
    : (out.insertText (rendering (put out.format.unpadded) view)).text.length
      < (print put view out).text.length := by
  rw [print_eq, Ostream.insertText, Ostream.insertText, rendering, tokens, bracketed]
  simp only [List.length_append, Format.length_pad, List.flatMap_append, List.flatMap_cons,
    List.flatMap_nil, Token.render, List.length_cons, List.length_nil]
  omega

/-- The operator behaves like the insertion of the rendering exactly if the field width is at most
one; otherwise the opening bracket is padded on its own, and the whole text is not.
-/
theorem printsAsRendering_iff (put : Format → α → List Char) (view : View α rank) (out : Ostream)
    : PrintsAsRendering put view out ↔ out.format.width ≤ 1 := by
  constructor
  · intro prints
    by_contra wide
    have longer := print_longer put view (Int.not_le.mp wide)
    rw [prints.text] at longer
    exact Nat.lt_irrefl _ longer
  · intro narrow
    have bracket : out.format.pad ['['] = ['['] := Format.pad_eq_self narrow
    refine ⟨?_, ?_, pairwise_indicesOf _, mem_indicesOf⟩
    · rw [print_eq, bracket, rendering, tokens, bracketed]
      simp [Token.render]
    · exact (scalars_bracketed _).trans (scalars_contents view)

/-- Decimal digits, filled up to the field width. -/
private def putNat (format : Format) (value : ℕ) : List Char :=
  format.pad (Nat.toDigits 10 value)

/-- A view of rank 1 with the elements 1 and 2. -/
private def oneTwo : View ℕ 1 where
  extent := fun _ => 2
  element := fun indices => (indices slowest).val + 1

/-- With a field width of 10 the opening bracket alone takes up the field. -/
theorem printsAsRendering_fails
    : let out : Ostream := { format := { width := 10 } }
      (print putNat oneTwo out).text = "         [1, 2]".toList
      ∧ (out.insertText (rendering (putNat out.format.unpadded) oneTwo)).text
        = "    [1, 2]".toList
      ∧ ¬PrintsAsRendering putNat oneTwo out := by
  refine ⟨by decide, by decide, ?_⟩
  intro prints
  exact absurd prints.text (by decide)

end KokkosUtils.Printers
