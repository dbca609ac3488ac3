import KokkosUtils.Foundations.FormattedOutput
import KokkosUtils.Printers.View
import Mathlib.Data.List.Forall2

/-! What can be read back from a printed view. -/

namespace KokkosUtils.Printers

open KokkosUtils.Foundations KokkosUtils.Views

variable {α β : Type} {rank : ℕ}

-----------------------------------------------------------------------------------------
-- Nested lists
-----------------------------------------------------------------------------------------

/-- Lists of lists, as deep as a rank. -/
abbrev Nested (α : Type) : ℕ → Type
  | 0 => α
  | rank + 1 => List (Nested α rank)

/-- The slices of a view, in the order of their index. -/
def slices (view : View α (rank + 1)) : List (View α rank) :=
  (List.finRange (view.extent slowest)).map view.slice

/-- What becomes of the elements of a view, in nested lists. -/
def nested (become : α → β) : {rank : ℕ} → View α rank → Nested β rank
  | 0, view => become view.scalar
  | _ + 1, view => (slices view).map (nested become)

/-- What is printed of nested lists. -/
def Nested.text : {rank : ℕ} → Nested (List Char) rank → List Char
  | 0, text => text
  | _ + 1, parts => '[' :: (List.intercalate [',', ' '] (List.map Nested.text parts) ++ [']'])

theorem length_slices (view : View α (rank + 1)) : (slices view).length = view.extent slowest := by
  simp [slices]

theorem elements_slices (view : View α (rank + 1))
    : view.elements = (slices view).flatMap View.elements := by
  rw [View.elements_succ, slices, List.flatMap_map]

/-- Brackets around parts with commas between them. -/
theorem flatMap_bracketed_separated (put : α → List Char) (parts : List (List (Token α)))
    : (bracketed (separated parts)).flatMap (Token.render put)
      = '[' :: (List.intercalate [',', ' '] (parts.map (List.flatMap (Token.render put))) ++ [']'])
    := by
  rw [bracketed, List.cons_append, List.flatMap_cons, List.flatMap_append, flatMap_separated]
  simp [Token.render]

/-- A view of a positive rank is rendered as its nested lists are printed, by induction on the rank.
-/
theorem rendering_eq (put : α → List Char) (view : View α (rank + 1))
    : rendering put view = (nested put view).text := by
  induction rank with
  | zero =>
      refine (flatMap_bracketed_separated put _).trans ?_
      rw [nested, Nested.text, slices, List.map_map, List.map_map, List.map_map]
      congr 3
      refine List.map_congr_left fun idx _ => ?_
      exact List.append_nil _
  | succ rank ih =>
      refine (flatMap_bracketed_separated put _).trans ?_
      rw [nested, Nested.text, slices, List.map_map, List.map_map, List.map_map]
      congr 3
      exact List.map_congr_left fun idx _ => ih (view.slice idx)

-----------------------------------------------------------------------------------------
-- Reading
-----------------------------------------------------------------------------------------

/-- The symbols that end the text of a scalar. -/
def endsScalar (symbol : Char) : Bool := symbol == ',' || symbol == ']'

/-- A text of a scalar that can be told from the commas and brackets around it. -/
def Plain (text : List Char) : Prop := text ≠ [] ∧ ∀ symbol ∈ text, endsScalar symbol = false

/-- Nested lists of such texts. -/
def Nested.Plain : {rank : ℕ} → Nested (List Char) rank → Prop
  | 0, text => Printers.Plain text
  | _ + 1, parts => ∀ part ∈ parts, Nested.Plain part

/-- No text of nested lists begins with a closing bracket. -/
theorem Nested.Plain.text_eq_cons {parts : Nested (List Char) rank} (plain : parts.Plain)
    : ∃ first rest, parts.text = first :: rest ∧ first ≠ ']' := by
  cases rank with
  | zero =>
      obtain ⟨first, rest, written⟩ := List.exists_cons_of_ne_nil plain.1
      refine ⟨first, rest, written, ?_⟩
      rintro rfl
      have clear := plain.2 ']' (written ▸ List.mem_cons_self)
      cases clear
  | succ rank => exact ⟨'[', _, rfl, by decide⟩

/-- Parts with commas between them can be read up to the closing bracket, if the text of each can
be.
-/
theorem readable_intercalate
    (readable
      : ReadableBefore endsScalar Nested.Plain id (Nested.text : Nested _ rank → List Char))
    : Readable Nested.Plain id
        (fun parts : Nested (List Char) (rank + 1) =>
          List.intercalate [',', ' '] (List.map Nested.text parts) ++ [']']) := by
  have readParts :=
    readable.separated (rfl : endsScalar ',' = true) (rfl : endsScalar ']' = true) (by decide) [' ']
      []
  intro left right leftRest rightRest leftPlain rightPlain same
  cases left with
  | nil =>
      cases right with
      | nil => exact ⟨rfl, List.append_cancel_left same⟩
      | cons part right =>
          obtain ⟨first, rest, written, other⟩ := (rightPlain part (by simp)).text_eq_cons
          simp [intercalate_cons, written, other.symm] at same
  | cons part left =>
      cases right with
      | nil =>
          obtain ⟨first, rest, written, other⟩ := (leftPlain part (by simp)).text_eq_cons
          simp [intercalate_cons, written, other] at same
      | cons other right =>
          simp only [List.map_cons, intercalate_cons, List.flatMap_map, List.append_assoc] at same
          obtain ⟨seen, rest⟩ :=
            @readParts (part, left) (other, right) _ _ (List.forall_mem_cons.mp leftPlain)
              (List.forall_mem_cons.mp rightPlain) (by simpa using same)
          obtain ⟨first, others⟩ := Prod.mk.inj seen
          rw [List.map_id, List.map_id] at others
          exact ⟨congrArg₂ List.cons first others, rest⟩

/-- The text of nested lists determines them, by induction on how deep they are. -/
theorem readable_text
    : ReadableBefore endsScalar Nested.Plain id (Nested.text : Nested _ rank → List Char) := by
  induction rank with
  | zero => exact .of_clear (fun _ _ _ _ same => same) fun _ plain => plain.2
  | succ rank ih => exact ((readable_intercalate ih).literal_append ['[']).before

-----------------------------------------------------------------------------------------
-- Views that cannot be told apart
-----------------------------------------------------------------------------------------

/-- Extents agree up to the first one that is zero. -/
def AgreeUpToZero (left right : Fin rank → ℕ) : Prop :=
  ∀ dimension, (∀ earlier < dimension, 0 < left earlier) → left dimension = right dimension

theorem agreeUpToZero_succ {left right : Fin (rank + 1) → ℕ}
    : AgreeUpToZero left right
      ↔ left slowest = right slowest
        ∧ (0 < left slowest
          → AgreeUpToZero (fun dimension => left dimension.succ)
              (fun dimension => right dimension.succ)) := by
  constructor
  · intro agree
    refine ⟨agree slowest fun _ below => absurd below (Fin.not_lt_zero _), ?_⟩
    intro positive dimension earlierPositive
    refine agree dimension.succ fun earlier below => ?_
    cases earlier using Fin.cases with
    | zero => exact positive
    | succ earlier => exact earlierPositive earlier (Fin.succ_lt_succ_iff.mp below)
  · rintro ⟨first, later⟩ dimension earlierPositive
    cases dimension using Fin.cases with
    | zero => exact first
    | succ dimension =>
        refine later (earlierPositive 0 (Fin.succ_pos _)) dimension fun earlier below => ?_
        exact earlierPositive earlier.succ (Fin.succ_lt_succ_iff.mpr below)

/-- Arrays with such extents have the same number of elements, by induction on the rank. -/
theorem AgreeUpToZero.length_indicesOf {left right : Fin rank → ℕ}
    (agree : AgreeUpToZero left right)
    : (indicesOf left).length = (indicesOf right).length := by
  induction rank with
  | zero => rfl
  | succ rank ih =>
      obtain ⟨first, later⟩ := agreeUpToZero_succ.mp agree
      simp only [indicesOf, List.length_flatMap, List.length_map, List.map_const',
        List.length_finRange, List.sum_replicate_nat]
      rcases Nat.eq_zero_or_pos (left slowest) with zero | positive
      · rw [← first, zero, Nat.zero_mul, Nat.zero_mul]
      · rw [ih (later positive), first]

theorem View.length_elements (view : View α rank)
    : view.elements.length = (indicesOf view.extent).length := List.length_map _

/-- Slices have the extents that follow the first. -/
theorem extent_of_mem_slices {view : View α (rank + 1)} {slice : View α rank}
    (member : slice ∈ slices view)
    : slice.extent = fun dimension => view.extent dimension.succ := by
  obtain ⟨idx, -, rfl⟩ := List.mem_map.mp member
  rfl

/-- A view that has slices has a positive first extent. -/
theorem extent_pos_of_mem_slices {view : View α (rank + 1)} {slice : View α rank}
    (member : slice ∈ slices view)
    : 0 < view.extent slowest :=
  length_slices view ▸ List.length_pos_of_mem member

/-- Parts that are written alike make up the same. -/
theorem flatMap_of_forall₂ {γ : Type} {write : α → List γ} {left right : List α}
    (each : List.Forall₂ (fun first second => write first = write second) left right)
    : left.flatMap write = right.flatMap write := by
  induction each with
  | nil => rfl
  | cons head _ ih => rw [List.flatMap_cons, List.flatMap_cons, head, ih]

/-- Parts of the same lengths can be told from what they make up, by induction on the parts. -/
theorem forall₂_of_flatMap {γ : Type} {write : α → List γ} {Related : α → α → Prop}
    {left right : List α} (lengths : left.length = right.length)
    (related : ∀ first ∈ left, ∀ second ∈ right, Related first second)
    (each : ∀ first second, Related first second → (write first).length = (write second).length)
    (same : left.flatMap write = right.flatMap write)
    : List.Forall₂ (fun first second => Related first second ∧ write first = write second)
        left right := by
  induction left generalizing right with
  | nil =>
      obtain rfl := List.length_eq_zero_iff.mp lengths.symm
      exact .nil
  | cons first left ih =>
      obtain ⟨second, right, rfl⟩ := List.exists_cons_of_length_eq_add_one lengths.symm
      have heads := related first (by simp) second (by simp)
      rw [List.flatMap_cons, List.flatMap_cons] at same
      obtain ⟨head, tails⟩ := List.append_inj same (each first second heads)
      refine .cons ⟨heads, head⟩ (ih (Nat.succ.inj lengths) ?_ tails)
      intro other member another listed
      exact related other (List.mem_cons_of_mem _ member) another (List.mem_cons_of_mem _ listed)

/-- Nested lists tell the extents up to the first zero and what has become of the elements, by
induction on the rank.
-/
theorem nested_eq_iff (become : α → β) (left right : View α rank)
    : nested become left = nested become right
      ↔ AgreeUpToZero left.extent right.extent
        ∧ left.elements.map become = right.elements.map become := by
  induction rank with
  | zero =>
      have vacuous : AgreeUpToZero left.extent right.extent := fun dimension => dimension.elim0
      simp [nested, vacuous, View.elements_zero]
  | succ rank ih =>
      rw [nested, nested, ← List.forall₂_eq_eq_eq, List.forall₂_map_left_iff,
        List.forall₂_map_right_iff, agreeUpToZero_succ, elements_slices, elements_slices,
        List.map_flatMap, List.map_flatMap]
      simp only [ih]
      constructor
      · intro each
        have sameLength := each.length_eq
        refine ⟨⟨by simpa only [length_slices] using sameLength, fun positive => ?_⟩, ?_⟩
        · rw [← length_slices] at positive
          have firsts := (each.get positive (sameLength ▸ positive)).1
          rwa [extent_of_mem_slices (List.get_mem _ _), extent_of_mem_slices (List.get_mem _ _)]
            at firsts
        · exact flatMap_of_forall₂ (each.imp fun _ _ => And.right)
      · rintro ⟨⟨first, later⟩, same⟩
        refine forall₂_of_flatMap (by simpa only [length_slices] using first) ?_ ?_ same
        · intro slice member other listed
          rw [extent_of_mem_slices member, extent_of_mem_slices listed]
          exact later (extent_pos_of_mem_slices member)
        · intro slice other agree
          rw [List.length_map, List.length_map, View.length_elements, View.length_elements,
            agree.length_indicesOf]

-----------------------------------------------------------------------------------------
-- Printed views
-----------------------------------------------------------------------------------------

variable {put : Format → α → List Char}

/-- The field width of a stream applies to the opening bracket only, so the texts of the elements
and what is between them follow as they are.
-/
theorem print_text (put : Format → α → List Char) (view : View α rank) (out : Ostream)
    : (print put view out).text
      = out.text
        ++ (out.format.pad ['[']
          ++ ((contents view).flatMap (Token.render (put out.format.unpadded)) ++ [']'])) := by
  rw [print_eq, Ostream.insertText, Format.pad_eq_self, List.append_assoc]
  rw [List.append_assoc, List.length_append, Format.length_pad]
  push_cast
  omega

/-- The nested lists of a view whose elements have plain texts. -/
theorem plain_nested {view : View α rank} {write : α → List Char}
    (plain : ∀ value ∈ view.elements, Plain (write value))
    : (nested write view).Plain := by
  induction rank with
  | zero => exact plain view.scalar (by simp [View.elements_zero])
  | succ rank ih =>
      rw [elements_slices] at plain
      refine List.forall_mem_map.mpr fun slice member => ih fun value listed => ?_
      exact plain value (List.mem_flatMap.mpr ⟨slice, member, listed⟩)

/-- So is what stands between the outermost brackets, and the closing one: it determines the nested
lists.
-/
theorem contents_eq_iff {left right : View α rank} {write : α → List Char}
    (leftPlain : ∀ value ∈ left.elements, Plain (write value))
    (rightPlain : ∀ value ∈ right.elements, Plain (write value))
    : (contents left).flatMap (Token.render write) ++ [']']
          = (contents right).flatMap (Token.render write) ++ [']']
      ↔ nested write left = nested write right := by
  cases rank with
  | zero =>
      rw [List.append_cancel_right_eq]
      simp [contents, nested, Token.render]
  | succ rank =>
      have between (view : View α (rank + 1))
          : (contents view).flatMap (Token.render write) ++ [']']
            = List.intercalate [',', ' '] ((nested write view).map Nested.text) ++ [']'] := by
        have whole := rendering_eq write view
        rw [rendering, tokens, bracketed, List.cons_append, List.flatMap_cons,
          List.flatMap_append] at whole
        exact (List.cons.inj whole).2
      rw [between left, between right]
      constructor
      · intro same
        exact (readable_intercalate readable_text).view_eq (plain_nested leftPlain)
          (plain_nested rightPlain) same
      · intro same
        rw [same]

/-- A printed view determines its nested lists, whatever the formatting state of the stream. -/
theorem print_text_eq_iff_nested {left right : View α rank} {out : Ostream}
    (plain
      : ∀ value ∈ left.elements ++ right.elements, Plain (put out.format.unpadded value))
    : (print put left out).text = (print put right out).text
      ↔ nested (put out.format.unpadded) left = nested (put out.format.unpadded) right := by
  rw [List.forall_mem_append] at plain
  rw [← contents_eq_iff plain.1 plain.2, print_text, print_text, List.append_cancel_left_eq,
    List.append_cancel_left_eq]

/-- The texts of unsigned integers are plain. -/
theorem plain_putUnsigned (format : Format) (value : ℕ)
    : Plain (putUnsigned format.unpadded value) := by
  have narrow : format.unpadded.width = 0 := rfl
  refine ⟨putUnsigned_ne_nil narrow value, fun symbol member => ?_⟩
  have alphanumeric := isAlphanum_putUnsigned narrow member
  refine Bool.eq_false_of_not_eq_true fun ends => ?_
  rcases (Bool.or_eq_true ..).mp ends with comma | bracket
  · rw [eq_of_beq comma] at alphanumeric
    cases alphanumeric
  · rw [eq_of_beq bracket] at alphanumeric
    cases alphanumeric

/-- Views of unsigned integers print the same text exactly if their extents agree up to the first
that is zero and their elements are the same.
-/
theorem print_putUnsigned_eq_iff {left right : View ℕ rank} {out : Ostream}
    : (print putUnsigned left out).text = (print putUnsigned right out).text
      ↔ AgreeUpToZero left.extent right.extent ∧ left.elements = right.elements := by
  have narrow : out.format.unpadded.width = 0 := rfl
  have injective := putUnsigned_injective narrow
  rw [print_text_eq_iff_nested fun value _ => plain_putUnsigned out.format value, nested_eq_iff,
    injective.list_map.eq_iff]

/-- What a printed view says: two views of one rank print the same text on a stream, whatever its
formatting state, exactly if their extents agree up to the first that is zero and their elements, in
row-major order, have the same texts. The texts of the elements must not be empty or contain what
the operator puts between them.
-/
theorem print_text_eq_iff {left right : View α rank} {out : Ostream}
    (plain
      : ∀ value ∈ left.elements ++ right.elements, Plain (put out.format.unpadded value))
    : (print put left out).text = (print put right out).text
      ↔ AgreeUpToZero left.extent right.extent
        ∧ left.elements.map (put out.format.unpadded)
          = right.elements.map (put out.format.unpadded) := by
  rw [print_text_eq_iff_nested plain, nested_eq_iff]

/-- A view of rank 2 with two columns, whose elements count up from zero. -/
private def twoColumns (rows : ℕ) : View ℕ 2 where
  extent := Fin.cons rows fun _ => 2
  element := fun indices => 2 * (indices 0).val + (indices 1).val

/-- The number of rows can be read from what is printed of such views. -/
theorem print_text_eq_iff_twoColumns
    : let out : Ostream := { format := { width := 4 } }
      (print putUnsigned (twoColumns 2) out).text ≠ (print putUnsigned (twoColumns 3) out).text :=
  (print_text_eq_iff fun value _ => plain_putUnsigned _ value).not.mpr
    (fun same => absurd (same.1 0 (by decide)) (by decide))

end KokkosUtils.Printers
