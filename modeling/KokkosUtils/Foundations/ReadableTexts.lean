import Mathlib.Data.List.Basic

/-! Texts from which what they say can be read back.
A reader knows how each kind of value is written and reads from the left. Whether it finds what was
written is asked wherever the text stands, so that readable parts make up readable texts.
-/

namespace KokkosUtils.Foundations

variable {α β γ τ κ : Type*}

/-- The beginning of a text determines what is seen of the admitted value it was written for, and
where its words end.
-/
def Readable (admitted : α → Prop) (view : α → β) (write : α → List κ) : Prop :=
  ∀ ⦃left right : α⦄ ⦃leftRest rightRest : List κ⦄,
    admitted left
    → admitted right
    → write left ++ leftRest = write right ++ rightRest
    → view left = view right ∧ leftRest = rightRest

/-- So it does if the text goes on with one of the symbols that mark its end. -/
def ReadableBefore (stops : κ → Bool) (admitted : α → Prop) (view : α → β) (write : α → List κ)
    : Prop :=
  ∀ ⦃left right : α⦄ ⦃leftStop rightStop : κ⦄ ⦃leftRest rightRest : List κ⦄,
    admitted left
    → admitted right
    → stops leftStop = true
    → stops rightStop = true
    → write left ++ leftStop :: leftRest = write right ++ rightStop :: rightRest
    → view left = view right ∧ leftStop :: leftRest = rightStop :: rightRest

variable {stops : κ → Bool} {admitted : α → Prop} {view : α → β} {write : α → List κ}

namespace Readable

/-- What stands at the end of a text needs no mark for its end. -/
theorem before (readable : Readable admitted view write)
    : ReadableBefore stops admitted view write :=
  fun _ _ _ _ _ _ left right _ _ same => readable left right same

/-- A whole text determines what is seen. -/
theorem view_eq (readable : Readable admitted view write) {left right : α}
    (leftAdmitted : admitted left) (rightAdmitted : admitted right)
    (same : write left = write right)
    : view left = view right :=
  (readable leftAdmitted rightAdmitted (congrArg (· ++ []) same)).1

/-- A text that is always the same says nothing. -/
theorem literal (text : List κ) : Readable admitted (fun _ => ()) (fun _ => text) :=
  fun _ _ _ _ _ _ same => ⟨rfl, List.append_cancel_left same⟩

/-- Two texts, one after the other, say what each of them says. -/
theorem append {other : α → γ} {next : α → List κ} (readable : Readable admitted view write)
    (remaining : Readable admitted other next)
    : Readable admitted (fun value => (view value, other value))
        (fun value => write value ++ next value) := by
  intro left right leftRest rightRest leftAdmitted rightAdmitted same
  simp only [List.append_assoc] at same
  obtain ⟨first, following⟩ := readable leftAdmitted rightAdmitted same
  obtain ⟨second, rest⟩ := remaining leftAdmitted rightAdmitted following
  exact ⟨Prod.ext first second, rest⟩

/-- Text that is always the same may stand before what is read. -/
theorem literal_append (text : List κ) (readable : Readable admitted view write)
    : Readable admitted view (fun value => text ++ write value) := by
  intro left right leftRest rightRest leftAdmitted rightAdmitted same
  simp only [List.append_assoc] at same
  exact readable leftAdmitted rightAdmitted (List.append_cancel_left same)

/-- Text that is always the same may stand behind what is read. -/
theorem append_literal (text : List κ) (readable : Readable admitted view write)
    : Readable admitted view (fun value => write value ++ text) := by
  intro left right leftRest rightRest leftAdmitted rightAdmitted same
  simp only [List.append_assoc] at same
  obtain ⟨first, following⟩ := readable leftAdmitted rightAdmitted same
  exact ⟨first, List.append_cancel_left following⟩

/-- What can be seen in what is seen can be read as well, if fewer values are admitted. -/
theorem weaken {fewer : α → Prop} {other : α → γ} (readable : Readable admitted view write)
    (admits : ∀ value, fewer value → admitted value)
    (sees : ∀ left right, fewer left → fewer right → view left = view right
      → other left = other right)
    : Readable fewer other write := by
  intro left right leftRest rightRest leftFewer rightFewer same
  obtain ⟨seen, rest⟩ := readable (admits left leftFewer) (admits right rightFewer) same
  exact ⟨sees left right leftFewer rightFewer seen, rest⟩

/-- What is written for a part of a value says what it says of that part. -/
theorem comp {whole : γ → Prop} {part : γ → α} (readable : Readable admitted view write)
    (admits : ∀ value, whole value → admitted (part value))
    : Readable whole (fun value => view (part value)) (fun value => write (part value)) :=
  fun left right _ _ leftWhole rightWhole same =>
    readable (admits left leftWhole) (admits right rightWhole) same

/-- A text may first tell of which kind the value is, and then go on in a way that depends on it. -/
theorem cases {kind : α → τ} {next : α → List κ} (tagged : Readable admitted kind write)
    (each : ∀ tag, Readable (fun value => admitted value ∧ kind value = tag) view next)
    : Readable admitted view (fun value => write value ++ next value) := by
  intro left right leftRest rightRest leftAdmitted rightAdmitted same
  simp only [List.append_assoc] at same
  obtain ⟨sameKind, following⟩ := tagged leftAdmitted rightAdmitted same
  exact each (kind left) ⟨leftAdmitted, rfl⟩ ⟨rightAdmitted, sameKind.symm⟩ following

/-- The texts of as many values as are announced say what each of them says, by induction on their
number.
-/
theorem flatMap (readable : Readable admitted view write)
    : ∀ count,
        Readable (fun values => (∀ value ∈ values, admitted value) ∧ values.length = count)
          (List.map view) (List.flatMap write) := by
  intro count
  induction count with
  | zero =>
      rintro left right leftRest rightRest ⟨-, leftLength⟩ ⟨-, rightLength⟩ same
      obtain rfl := List.length_eq_zero_iff.mp leftLength
      obtain rfl := List.length_eq_zero_iff.mp rightLength
      exact ⟨rfl, same⟩
  | succ count ih =>
      rintro left right leftRest rightRest ⟨leftAdmitted, leftLength⟩
        ⟨rightAdmitted, rightLength⟩ same
      obtain ⟨leftFirst, left, rfl⟩ := List.exists_cons_of_length_eq_add_one leftLength
      obtain ⟨rightFirst, right, rfl⟩ := List.exists_cons_of_length_eq_add_one rightLength
      rw [List.forall_mem_cons] at leftAdmitted rightAdmitted
      simp only [List.flatMap_cons, List.append_assoc] at same
      obtain ⟨first, following⟩ := readable leftAdmitted.1 rightAdmitted.1 same
      obtain ⟨others, rest⟩ :=
        ih ⟨leftAdmitted.2, Nat.succ.inj leftLength⟩ ⟨rightAdmitted.2, Nat.succ.inj rightLength⟩
          following
      exact ⟨by rw [List.map_cons, List.map_cons, first, others], rest⟩

/-- Texts that never begin with a mark can be read until it comes, by induction on the values. -/
theorem flatMap_stop {stop : κ} (readable : Readable admitted view write)
    (begins : ∀ value, admitted value → ∃ first rest, write value = first :: rest ∧ first ≠ stop)
    (text : List κ)
    : Readable (fun values => ∀ value ∈ values, admitted value) (List.map view)
        (fun values => values.flatMap write ++ stop :: text) := by
  intro left
  induction left with
  | nil =>
      intro right leftRest rightRest _ rightAdmitted same
      cases right with
      | nil => exact ⟨rfl, List.append_cancel_left same⟩
      | cons value right =>
          obtain ⟨first, rest, written, differs⟩ := begins value (rightAdmitted value (by simp))
          simp only [List.flatMap_nil, List.flatMap_cons, List.nil_append, List.append_assoc,
            List.cons_append, written] at same
          exact (differs (List.cons.inj same).1.symm).elim
  | cons value left ih =>
      intro right leftRest rightRest leftAdmitted rightAdmitted same
      cases right with
      | nil =>
          obtain ⟨first, rest, written, differs⟩ := begins value (leftAdmitted value (by simp))
          simp only [List.flatMap_nil, List.flatMap_cons, List.nil_append, List.append_assoc,
            List.cons_append, written] at same
          exact (differs (List.cons.inj same).1).elim
      | cons other right =>
          rw [List.forall_mem_cons] at leftAdmitted rightAdmitted
          simp only [List.flatMap_cons, List.append_assoc] at same
          obtain ⟨first, following⟩ := readable leftAdmitted.1 rightAdmitted.1 same
          obtain ⟨others, rest⟩ :=
            ih leftAdmitted.2 rightAdmitted.2
              (by simpa only [List.append_assoc, List.cons_append] using following)
          exact ⟨by rw [List.map_cons, List.map_cons, first, others], rest⟩

/-- If all admitted values are made in one way, their texts may be read as texts of what they are
made of.
-/
theorem of_made (make : γ → α) (made : ∀ value, admitted value → ∃ parts, make parts = value)
    (readable
      : Readable (fun parts => admitted (make parts)) (fun parts => view (make parts))
          (fun parts => write (make parts)))
    : Readable admitted view write := by
  intro left right leftRest rightRest leftAdmitted rightAdmitted same
  obtain ⟨leftParts, rfl⟩ := made left leftAdmitted
  obtain ⟨rightParts, rfl⟩ := made right rightAdmitted
  exact readable leftAdmitted rightAdmitted same

end Readable

/-- Words without a symbol that marks their end are told apart by where it comes, by induction on
the words.
-/
theorem eq_of_append_stop {left right : List κ} {leftStop rightStop : κ}
    {leftRest rightRest : List κ} (leftClear : ∀ symbol ∈ left, stops symbol = false)
    (rightClear : ∀ symbol ∈ right, stops symbol = false) (leftStops : stops leftStop = true)
    (rightStops : stops rightStop = true)
    (same : left ++ leftStop :: leftRest = right ++ rightStop :: rightRest)
    : left = right ∧ leftStop :: leftRest = rightStop :: rightRest := by
  induction left generalizing right with
  | nil =>
      cases right with
      | nil => exact ⟨rfl, same⟩
      | cons symbol right =>
          obtain ⟨rfl, -⟩ := List.cons.inj same
          have clear := rightClear leftStop (by simp)
          rw [leftStops] at clear
          cases clear
  | cons symbol left ih =>
      cases right with
      | nil =>
          obtain ⟨rfl, -⟩ := List.cons.inj same
          have clear := leftClear symbol (by simp)
          rw [rightStops] at clear
          cases clear
      | cons other right =>
          obtain ⟨rfl, following⟩ := List.cons.inj same
          rw [List.forall_mem_cons] at leftClear rightClear
          obtain ⟨rfl, rest⟩ := ih leftClear.2 rightClear.2 following
          exact ⟨rfl, rest⟩

namespace ReadableBefore

/-- Words that determine what is seen can be read up to a symbol that occurs in none of them. -/
theorem of_clear
    (determined : ∀ left right, admitted left → admitted right → write left = write right
      → view left = view right)
    (clear : ∀ value, admitted value → ∀ symbol ∈ write value, stops symbol = false)
    : ReadableBefore stops admitted view write := by
  intro left right leftStop rightStop leftRest rightRest leftAdmitted rightAdmitted leftStops
    rightStops same
  obtain ⟨words, rest⟩ :=
    eq_of_append_stop (clear left leftAdmitted) (clear right rightAdmitted) leftStops rightStops
      same
  exact ⟨determined left right leftAdmitted rightAdmitted words, rest⟩

/-- What is written for a part of a value says what it says of that part. -/
theorem comp {whole : γ → Prop} {part : γ → α} (readable : ReadableBefore stops admitted view write)
    (admits : ∀ value, whole value → admitted (part value))
    : ReadableBefore stops whole (fun value => view (part value))
        (fun value => write (part value)) :=
  fun left right _ _ _ _ leftWhole rightWhole leftStops rightStops same =>
    readable (admits left leftWhole) (admits right rightWhole) leftStops rightStops same

/-- What follows may mark the end. -/
theorem append {other : α → γ} {next : α → List κ}
    (readable : ReadableBefore stops admitted view write)
    (marks : ∀ value, ∃ stop rest, next value = stop :: rest ∧ stops stop = true)
    (remaining : Readable admitted other next)
    : Readable admitted (fun value => (view value, other value))
        (fun value => write value ++ next value) := by
  intro left right leftRest rightRest leftAdmitted rightAdmitted same
  obtain ⟨leftStop, leftNext, leftWritten, leftStops⟩ := marks left
  obtain ⟨rightStop, rightNext, rightWritten, rightStops⟩ := marks right
  simp only [List.append_assoc, leftWritten, rightWritten, List.cons_append] at same
  obtain ⟨first, following⟩ := readable leftAdmitted rightAdmitted leftStops rightStops same
  rw [← List.cons_append, ← List.cons_append, ← leftWritten, ← rightWritten] at following
  obtain ⟨second, rest⟩ := remaining leftAdmitted rightAdmitted following
  exact ⟨Prod.ext first second, rest⟩

/-- What follows a word is another mark or the separator before the next word. -/
theorem preceded_eq_cons {separator close : κ} (separates : stops separator = true)
    (closes : stops close = true) (gap text : List κ) (values : List α)
    : ∃ stop rest,
        values.flatMap (fun value => separator :: gap ++ write value) ++ close :: text
          = stop :: rest
        ∧ stops stop = true := by
  cases values with
  | nil => exact ⟨close, text, rfl, closes⟩
  | cons value values => exact ⟨separator, _, rfl, separates⟩

/-- Words that each come after a separator can be read up to another mark, by induction on the
words.
-/
theorem preceded {separator close : κ} (readable : ReadableBefore stops admitted view write)
    (separates : stops separator = true) (closes : stops close = true) (differs : separator ≠ close)
    (gap text : List κ)
    : Readable (fun values => ∀ value ∈ values, admitted value) (List.map view)
        (fun values =>
          values.flatMap (fun value => separator :: gap ++ write value) ++ close :: text) := by
  intro left
  induction left with
  | nil =>
      intro right leftRest rightRest _ _ same
      cases right with
      | nil => exact ⟨rfl, List.append_cancel_left same⟩
      | cons value right => exact (differs (List.cons.inj same).1.symm).elim
  | cons value left ih =>
      intro right leftRest rightRest leftAdmitted rightAdmitted same
      cases right with
      | nil => exact (differs (List.cons.inj same).1).elim
      | cons other right =>
          rw [List.forall_mem_cons] at leftAdmitted rightAdmitted
          simp only [List.flatMap_cons, List.append_assoc] at same
          have words := List.append_cancel_left same
          obtain ⟨leftStop, leftNext, leftWritten, leftStops⟩ :=
            preceded_eq_cons separates closes gap (text ++ leftRest) left
          obtain ⟨rightStop, rightNext, rightWritten, rightStops⟩ :=
            preceded_eq_cons separates closes gap (text ++ rightRest) right
          simp only [List.cons_append] at words leftWritten rightWritten
          rw [leftWritten, rightWritten] at words
          obtain ⟨first, following⟩ :=
            readable leftAdmitted.1 rightAdmitted.1 leftStops rightStops words
          rw [← leftWritten, ← rightWritten] at following
          obtain ⟨others, rest⟩ := ih leftAdmitted.2 rightAdmitted.2 (by simpa using following)
          exact ⟨by rw [List.map_cons, List.map_cons, first, others], rest⟩

/-- So can a word and others that each come after a separator. -/
theorem separated {separator close : κ} (readable : ReadableBefore stops admitted view write)
    (separates : stops separator = true) (closes : stops close = true) (differs : separator ≠ close)
    (gap text : List κ)
    : Readable (fun values : α × List α => admitted values.1 ∧ ∀ value ∈ values.2, admitted value)
        (fun values => (view values.1, values.2.map view))
        (fun values =>
          write values.1
            ++ (values.2.flatMap (fun value => separator :: gap ++ write value)
              ++ close :: text)) :=
  (readable.comp fun _ admits => admits.1).append
    (fun values => preceded_eq_cons separates closes gap text values.2)
    ((readable.preceded separates closes differs gap text).comp fun _ admits => admits.2)

end ReadableBefore

end KokkosUtils.Foundations
