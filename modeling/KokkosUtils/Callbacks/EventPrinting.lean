import KokkosUtils.Callbacks.RecorderListener
import KokkosUtils.Foundations.FormattedOutput

/-! The output operators of events and the report of a RecorderListener.
A report determines the events that it reports, except for what the operators do not print.
-/

namespace KokkosUtils.Callbacks

open KokkosUtils.Foundations

/-- The name of an event type in the source. -/
def KokkosEventType.sourceName : KokkosEventType → String
  | .beginParallelForEvent => "BeginParallelForEvent"
  | .endParallelForEvent => "EndParallelForEvent"
  | .beginParallelReduceEvent => "BeginParallelReduceEvent"
  | .endParallelReduceEvent => "EndParallelReduceEvent"
  | .beginParallelScanEvent => "BeginParallelScanEvent"
  | .endParallelScanEvent => "EndParallelScanEvent"
  | .beginSingleEvent => "BeginSingleEvent"
  | .endSingleEvent => "EndSingleEvent"
  | .beginFenceEvent => "BeginFenceEvent"
  | .endFenceEvent => "EndFenceEvent"
  | .allocateDataEvent => "AllocateDataEvent"
  | .deallocateDataEvent => "DeallocateDataEvent"
  | .beginDeepCopyEvent => "BeginDeepCopyEvent"
  | .endDeepCopyEvent => "EndDeepCopyEvent"
  | .createProfileSectionEvent => "CreateProfileSectionEvent"
  | .startProfileSectionEvent => "StartProfileSectionEvent"
  | .stopProfileSectionEvent => "StopProfileSectionEvent"
  | .destroyProfileSectionEvent => "DestroyProfileSectionEvent"
  | .pushRegionEvent => "PushRegionEvent"
  | .popRegionEvent => "PopRegionEvent"
  | .profileEvent => "ProfileEvent"

/-- `get_name`, which drops as many characters as the namespace is known to have from what
`Kokkos::Impl::TypeInfo::name` returns.
-/
def getName (typeInfoName : KokkosEventType → List Char) (type : KokkosEventType) : List Char :=
  (typeInfoName type).drop 26

/-- What is relied on in `Kokkos::Impl::TypeInfo::name`: that the name without the namespace is
left, as the tests assert for some event types.
-/
def NamesTypes (typeInfoName : KokkosEventType → List Char) : Prop :=
  ∀ type, getName typeInfoName type = type.sourceName.toList

/-- An operand of an output operator. -/
inductive Operand
  | text (characters : List Char)
  | quoted (string : String)
  | unsigned (value : ℕ)
  | pointer (value : Pointer)

/-- The insertion of an operand. Pointers are converted in a way of the implementation's own. -/
def Operand.insert (putPointer : Format → Pointer → List Char)
    : Operand → Ostream → Ostream
  | .text characters, out => out.insertText characters
  | .quoted string, out => out.insertText (Foundations.quoted string)
  | .unsigned value, out => out.insertScalar putUnsigned value
  | .pointer value, out => out.insertScalar putPointer value

/-- What the operators insert after the name of the event type; `\x7b` and `\x7d` are the braces. -/
def KokkosEvent.fields : KokkosEvent → List Operand
  | .beginEvent _ name devId eventId =>
      [
        .text "\x7bname = ".toList, .quoted name, .text ", dev_id = ".toList, .unsigned devId.toNat,
        .text ", event_id = ".toList, .unsigned eventId.toNat, .text "\x7d".toList
      ]
  | .endEvent _ eventId =>
      [.text "\x7bevent_id = ".toList, .unsigned eventId.toNat, .text "\x7d".toList]
  | .dataEvent _ alloc =>
      [
        .text "\x7bname = ".toList, .quoted alloc.name, .text ", space = ".toList,
        .quoted alloc.kpsh.name, .text ", ptr = ".toList, .pointer alloc.ptr,
        .text ", size = ".toList, .unsigned alloc.size.toNat, .text "\x7d".toList
      ]
  | .beginDeepCopyEvent dst src =>
      [
        .text "\x7bsrc = ".toList, .quoted src.name, .text " (".toList, .text src.kpsh.name.toList,
        .text ", ".toList, .pointer src.ptr, .text ") -> ".toList, .text "dst = ".toList,
        .quoted dst.name, .text " (".toList, .text dst.kpsh.name.toList, .text ", ".toList,
        .pointer dst.ptr, .text ") of size ".toList, .unsigned src.size.toNat, .text "\x7d".toList
      ]
  | .endDeepCopyEvent => [.text "\x7b\x7d".toList]
  | .createProfileSectionEvent name sectionId =>
      [
        .text "\x7bname = ".toList, .quoted name, .text ", section_id = ".toList,
        .unsigned sectionId.toNat, .text "\x7d".toList
      ]
  | .profileSectionManipulationEvent _ sectionId =>
      [.text "\x7bsection_id = ".toList, .unsigned sectionId.toNat, .text "\x7d".toList]
  | .pushRegionEvent name => [.text "\x7bname = ".toList, .quoted name, .text "\x7d".toList]
  | .popRegionEvent => [.text "\x7b\x7d".toList]
  | .profileEvent name => [.text "\x7bname = ".toList, .quoted name, .text "\x7d".toList]

/-- What the operator of an event inserts, one operand after the other. -/
def KokkosEvent.operands (typeInfoName : KokkosEventType → List Char) (event : KokkosEvent)
    : List Operand :=
  .text (getName typeInfoName event.type) :: .text ": ".toList :: event.fields

/-- Inserts some operands. -/
def insertAll (putPointer : Format → Pointer → List Char) (operands : List Operand)
    (out : Ostream)
    : Ostream :=
  operands.foldl (fun out operand => operand.insert putPointer out) out

variable {ν μ : Type}

/-- `operator<<` of events. A custom event has an operator of its user's own. -/
def Event.print (typeInfoName : KokkosEventType → List Char)
    (putPointer : Format → Pointer → List Char) (printCustom : String → ν → Ostream → Ostream)
    : Event ν → Ostream → Ostream
  | .kokkos event => insertAll putPointer (event.operands typeInfoName)
  | .custom type value => printCustom type value

/-- `report`. -/
def RecorderListener.report (typeInfoName : KokkosEventType → List Char)
    (putPointer : Format → Pointer → List Char) (printCustom : String → ν → Ostream → Ostream)
    (recorder : RecorderListener ν μ) (out : Ostream)
    : Ostream :=
  let out :=
    ((out.insertText "Number of events recorded: ".toList).insertScalar putUnsigned
      recorder.recordedEvents.length).append ['\n']
  recorder.recordedEvents.foldl
    (fun out event =>
      (event.print typeInfoName putPointer printCustom (out.insertText "- ".toList)).append ['\n'])
    out

-----------------------------------------------------------------------------------------
-- Inserted texts
-----------------------------------------------------------------------------------------

/-- The characters of an operand, inserted without a field width. -/
def Operand.render (putPointer : Format → Pointer → List Char) (format : Format)
    : Operand → List Char
  | .text characters => characters
  | .quoted string => Foundations.quoted string
  | .unsigned value => putUnsigned format value
  | .pointer value => putPointer format value

/-- The characters of some operands, inserted without a field width. -/
def render (putPointer : Format → Pointer → List Char) (format : Format)
    (operands : List Operand)
    : List Char :=
  operands.flatMap (Operand.render putPointer format)

variable {typeInfoName : KokkosEventType → List Char} {putPointer : Format → Pointer → List Char}
  {printCustom : String → ν → Ostream → Ostream} {out : Ostream}

/-- Without a field width an operand is inserted as it is. -/
theorem Operand.insert_unpadded (unpadded : out.format.unpadded = out.format) (operand : Operand)
    : operand.insert putPointer out = out.append (operand.render putPointer out.format) := by
  cases operand with
  | text characters => exact Ostream.insertText_unpadded unpadded
  | quoted string => exact Ostream.insertText_unpadded unpadded
  | unsigned value => exact Ostream.insertScalar_unpadded unpadded
  | pointer value => exact Ostream.insertScalar_unpadded unpadded

/-- So are some operands, by induction on them. -/
theorem insertAll_unpadded (unpadded : out.format.unpadded = out.format)
    (operands : List Operand)
    : insertAll putPointer operands out = out.append (render putPointer out.format operands) := by
  induction operands generalizing out with
  | nil => exact Ostream.append_nil.symm
  | cons operand operands ih =>
      rw [insertAll, List.foldl_cons, Operand.insert_unpadded unpadded, ← insertAll,
        ih (by rw [Ostream.append_format, unpadded]), Ostream.append_append, Ostream.append_format]
      rfl

/-- A line of a report. -/
def line (typeInfoName : KokkosEventType → List Char) (putPointer : Format → Pointer → List Char)
    (format : Format) (event : KokkosEvent)
    : List Char :=
  "- ".toList ++ render putPointer format (event.operands typeInfoName) ++ ['\n']

/-- Lines are added to a report one by one, by induction on the events. -/
theorem foldl_print (unpadded : out.format.unpadded = out.format) (events : List KokkosEvent)
    : (events.map (Event.kokkos (ν := ν))).foldl
        (fun out event =>
          (event.print typeInfoName putPointer printCustom
            (out.insertText "- ".toList)).append ['\n'])
        out
      = out.append (events.flatMap (line typeInfoName putPointer out.format)) := by
  induction events generalizing out with
  | nil => exact Ostream.append_nil.symm
  | cons event events ih =>
      rw [List.map_cons, List.foldl_cons, Event.print, Ostream.insertText_unpadded unpadded,
        insertAll_unpadded (by rw [Ostream.append_format, unpadded]), Ostream.append_append,
        Ostream.append_append, ih (by rw [Ostream.append_format, unpadded]),
        Ostream.append_append]
      rfl

/-- What a report inserts behind its first words. -/
def reported (typeInfoName : KokkosEventType → List Char)
    (putPointer : Format → Pointer → List Char) (format : Format) (events : List KokkosEvent)
    : List Char :=
  putUnsigned format events.length
    ++ ('\n' :: events.flatMap (line typeInfoName putPointer format))

/-- Only the first words of a report are filled up to the field width. -/
theorem RecorderListener.report_eq (recorder : RecorderListener ν μ) {events : List KokkosEvent}
    (recorded : recorder.recordedEvents = events.map Event.kokkos) (out : Ostream)
    : recorder.report typeInfoName putPointer printCustom out
      = (out.insertText "Number of events recorded: ".toList).append
          (reported typeInfoName putPointer out.format.unpadded events) := by
  have unpadded (text : List Char) : (out.insertText text).format = out.format.unpadded := rfl
  unfold RecorderListener.report
  rw [recorded, foldl_print, Ostream.insertScalar_unpadded, List.length_map,
    Ostream.append_append, Ostream.append_append, Ostream.append_format, unpadded, reported]
  · rfl
  · rw [unpadded, Format.unpadded_unpadded]
  · rfl

-----------------------------------------------------------------------------------------
-- Reading back
-----------------------------------------------------------------------------------------

/-- What is relied on in the conversion of pointers: that it can be undone, and that it yields one
word.
-/
structure ConvertsPointers (putPointer : Format → Pointer → List Char) : Prop where
  injective : ∀ format, format.width = 0 → Function.Injective (putPointer format)
  word : ∀ format, format.width = 0 → ∀ pointer, ' ' ∉ putPointer format pointer

/-- What the operators print of an event: all of it except the size of the destination of a copy,
for which they print the size of the source.
-/
def KokkosEvent.printed : KokkosEvent → KokkosEvent
  | .beginDeepCopyEvent dst src => .beginDeepCopyEvent { dst with size := src.size } src
  | event => event

/-- Whether the names of memory spaces that an operator prints without quotation marks contain no
comma.
-/
def KokkosEvent.Legible : KokkosEvent → Prop
  | .beginDeepCopyEvent dst src => ',' ∉ dst.kpsh.name.toList ∧ ',' ∉ src.kpsh.name.toList
  | _ => True

/-- The names of event types contain no colon. -/
theorem NamesTypes.colon (names : NamesTypes typeInfoName) (type : KokkosEventType)
    : ':' ∉ getName typeInfoName type := by
  have absent : ∀ type ∈ eventTypeList, ':' ∉ type.sourceName.toList := by decide
  rw [names]
  exact absent type (mem_eventTypeList type)

/-- Each event type has a name of its own. -/
theorem NamesTypes.injective (names : NamesTypes typeInfoName)
    : Function.Injective (getName typeInfoName) := by
  have distinct : (eventTypeList.map KokkosEventType.sourceName).Nodup := by decide
  intro left right same
  rw [names, names, String.toList_inj] at same
  exact List.inj_on_of_nodup_map distinct (mem_eventTypeList left) (mem_eventTypeList right) same

variable {format : Format} {γ δ : Type} {admitted : γ → Prop}

section

variable (putPointer)

/-- Numbers can be read where other words follow. -/
theorem readable_unsigned (narrow : format.width = 0) (part : γ → ℕ)
    : ReadableBefore (fun symbol => !symbol.isAlphanum) admitted part
        (fun value => (Operand.unsigned (part value)).render putPointer format) :=
  (readable_putUnsigned narrow).comp fun _ _ => trivial

/-- So can strings, wherever they stand. -/
theorem readable_string (format : Format) (part : γ → String)
    : Readable admitted part
        (fun value => (Operand.quoted (part value)).render putPointer format) :=
  readable_quoted.comp fun _ _ => trivial

/-- Names of memory spaces can be read up to the comma. -/
theorem readable_space (format : Format) (part : γ → SpaceHandle)
    (legible : ∀ value, admitted value → ',' ∉ (part value).name.toList)
    : ReadableBefore (fun symbol => symbol == ',') admitted part
        (fun value => (Operand.text (part value).name.toList).render putPointer format) := by
  refine .of_clear ?_ ?_
  · intro left right _ _ same
    have names : (part left).name = (part right).name := String.toList_inj.mp same
    cases left' : part left
    cases right' : part right
    rw [left', right'] at names
    exact congrArg SpaceHandle.mk names
  · intro value known symbol member
    exact beq_eq_false_iff_ne.mpr fun comma => legible value known (comma ▸ member)

/-- A number can be read in front of the closing brace. -/
theorem readable_lastNumber (narrow : format.width = 0) (part : γ → ℕ)
    : Readable admitted part
        (fun value =>
          (Operand.unsigned (part value)).render putPointer format
            ++ ((Operand.text "\x7d".toList).render putPointer format ++ [])) := by
  have brace : Readable admitted (fun _ => ())
      (fun _ => (Operand.text "\x7d".toList).render putPointer format ++ []) :=
    .literal _
  have number := (readable_unsigned putPointer narrow part).append (fun _ => ⟨_, _, rfl, rfl⟩) brace
  exact number.weaken (fun _ known => known) fun _ _ _ _ seen => (Prod.mk.inj seen).1

/-- So can a name. -/
theorem readable_lastName (format : Format) (part : γ → String)
    : Readable admitted part
        (fun value =>
          (Operand.quoted (part value)).render putPointer format
            ++ ((Operand.text "\x7d".toList).render putPointer format ++ [])) :=
  (readable_string putPointer format part).append_literal _

end

/-- Pointers can be read up to the blank that comes one character after them. -/
theorem readable_pointer (converts : ConvertsPointers putPointer) (narrow : format.width = 0)
    (part : γ → Pointer) {other : γ → δ} {next : γ → List Char} {mark : Char}
    (notBlank : mark ≠ ' ') (marked : ∀ value, ∃ rest, next value = mark :: ' ' :: rest)
    (remaining : Readable admitted other next)
    : Readable admitted (fun value => (part value, other value))
        (fun value => (Operand.pointer (part value)).render putPointer format ++ next value) := by
  have clear (value : γ)
      : ∀ symbol ∈ putPointer format (part value) ++ [mark], (symbol == ' ') = false := by
    intro symbol member
    rw [beq_eq_false_iff_ne]
    rintro rfl
    rcases List.mem_append.mp member with inside | last
    · exact converts.word format narrow _ inside
    · exact notBlank (List.mem_singleton.mp last).symm
  intro left right leftRest rightRest leftAdmitted rightAdmitted same
  obtain ⟨leftNext, leftMarked⟩ := marked left
  obtain ⟨rightNext, rightMarked⟩ := marked right
  have words : (putPointer format (part left) ++ [mark]) ++ ' ' :: (leftNext ++ leftRest)
      = (putPointer format (part right) ++ [mark]) ++ ' ' :: (rightNext ++ rightRest) := by
    simpa [Operand.render, leftMarked, rightMarked] using same
  obtain ⟨shown, following⟩ := eq_of_append_stop (clear left) (clear right) rfl rfl words
  have pointers := converts.injective format narrow (List.append_cancel_right shown)
  have nexts : next left ++ leftRest = next right ++ rightRest := by
    rw [leftMarked, rightMarked, List.cons_append, List.cons_append, List.cons_append,
      List.cons_append, following]
  obtain ⟨others, rest⟩ := remaining leftAdmitted rightAdmitted nexts
  exact ⟨Prod.ext pointers others, rest⟩

/-- The name, the memory space and the pointer of an allocation can be read where a mark and a blank
follow.
-/
theorem readable_allocation (converts : ConvertsPointers putPointer) (narrow : format.width = 0)
    (part : γ → AllocDescriptor)
    (legible : ∀ value, admitted value → ',' ∉ (part value).kpsh.name.toList) {other : γ → δ}
    {next : γ → List Char} {mark : Char} (notBlank : mark ≠ ' ')
    (marked : ∀ value, ∃ rest, next value = mark :: ' ' :: rest)
    (remaining : Readable admitted other next)
    : Readable admitted
        (fun value =>
          ((part value).name, (part value).kpsh, (part value).ptr, other value))
        (fun value =>
          (Operand.quoted (part value).name).render putPointer format
            ++ ((Operand.text " (".toList).render putPointer format
              ++ ((Operand.text (part value).kpsh.name.toList).render putPointer format
                ++ ((Operand.text ", ".toList).render putPointer format
                  ++ ((Operand.pointer (part value).ptr).render putPointer format
                    ++ next value))))) := by
  have pointer := readable_pointer converts narrow (fun value => (part value).ptr) notBlank marked
    remaining
  have space := (readable_space putPointer format (fun value => (part value).kpsh) legible).append
    (fun _ => ⟨_, _, rfl, rfl⟩) (pointer.literal_append ", ".toList)
  exact (readable_string putPointer format fun value => (part value).name).append
    (space.literal_append " (".toList)

/-- A number after a label can be read back. -/
theorem readable_numbered (narrow : format.width = 0) (label : List Char) (part : γ → ℕ)
    : Readable admitted part
        (fun value =>
          render putPointer format
            [.text label, .unsigned (part value), .text "\x7d".toList]) := by
  simp only [render, List.flatMap_cons, List.flatMap_nil]
  exact (readable_lastNumber putPointer narrow part).literal_append _

/-- So can a name after a label. -/
theorem readable_named (label : List Char) (part : γ → String)
    : Readable admitted part
        (fun value =>
          render putPointer format
            [.text label, .quoted (part value), .text "\x7d".toList]) := by
  simp only [render, List.flatMap_cons, List.flatMap_nil]
  exact (readable_lastName putPointer format part).literal_append _

/-- The fields of a begin event can be read back. -/
theorem readable_beginEvent (narrow : format.width = 0) (construct : Construct)
    : Readable (fun _ => True) (fun value : String × UInt32 × EventId => value)
        (fun (name, devId, eventId) =>
          render putPointer format
            (KokkosEvent.beginEvent construct name devId eventId).fields) := by
  have eventIds : Readable (fun _ : String × UInt32 × EventId => True) _ _ :=
    readable_lastNumber putPointer narrow fun value => value.2.2.toNat
  have devIds :=
    (readable_unsigned putPointer narrow fun value : String × UInt32 × EventId =>
      value.2.1.toNat).append (fun _ => ⟨_, _, rfl, rfl⟩)
      (eventIds.literal_append ", event_id = ".toList)
  have names :=
    (readable_string putPointer format fun value : String × UInt32 × EventId => value.1).append
      (devIds.literal_append ", dev_id = ".toList)
  simp only [KokkosEvent.fields, render, List.flatMap_cons, List.flatMap_nil]
  refine (names.literal_append _).weaken (fun _ known => known) ?_
  rintro ⟨_, _, _⟩ ⟨_, _, _⟩ - - seen
  simpa [← UInt32.toNat_inj, ← UInt64.toNat_inj] using seen

/-- So can those of a new profile section. -/
theorem readable_createProfileSectionEvent (narrow : format.width = 0)
    : Readable (fun _ => True) (fun value : String × SectionId => value)
        (fun (name, sectionId) =>
          render putPointer format
            (KokkosEvent.createProfileSectionEvent name sectionId).fields) := by
  have sectionIds : Readable (fun _ : String × SectionId => True) _ _ :=
    readable_lastNumber putPointer narrow fun value => value.2.toNat
  have names :=
    (readable_string putPointer format fun value : String × SectionId => value.1).append
      (sectionIds.literal_append ", section_id = ".toList)
  simp only [KokkosEvent.fields, render, List.flatMap_cons, List.flatMap_nil]
  refine (names.literal_append _).weaken (fun _ known => known) ?_
  rintro ⟨_, _⟩ ⟨_, _⟩ - - seen
  simpa [← UInt32.toNat_inj] using seen

/-- So can those of an allocation. -/
theorem readable_dataEvent (converts : ConvertsPointers putPointer) (narrow : format.width = 0)
    (operation : DataOperation)
    : Readable (fun _ => True) (fun alloc : AllocDescriptor => alloc)
        (fun alloc => render putPointer format (KokkosEvent.dataEvent operation alloc).fields) := by
  have size : Readable (fun _ : AllocDescriptor => True) _ _ :=
    readable_lastNumber putPointer narrow fun alloc => alloc.size.toNat
  have pointer := readable_pointer converts narrow AllocDescriptor.ptr (by decide)
    (fun _ => ⟨_, rfl⟩) (size.literal_append ", size = ".toList)
  have space :=
    (readable_string putPointer format fun alloc : AllocDescriptor => alloc.kpsh.name).append
      (pointer.literal_append ", ptr = ".toList)
  have name := (readable_string putPointer format AllocDescriptor.name).append
    (space.literal_append ", space = ".toList)
  simp only [KokkosEvent.fields, render, List.flatMap_cons, List.flatMap_nil]
  refine (name.literal_append _).weaken (fun _ known => known) ?_
  rintro ⟨⟨_⟩, _, _, _⟩ ⟨⟨_⟩, _, _, _⟩ - - seen
  simpa [← UInt64.toNat_inj, and_left_comm] using seen

/-- So can those of a copy, without the size of its destination. -/
theorem readable_beginDeepCopyEvent (converts : ConvertsPointers putPointer)
    (narrow : format.width = 0)
    : Readable
        (fun (dst, src) => ',' ∉ dst.kpsh.name.toList ∧ ',' ∉ src.kpsh.name.toList)
        (fun (dst, src) => ({ dst with size := src.size }, src))
        (fun (dst, src) =>
          render putPointer format (KokkosEvent.beginDeepCopyEvent dst src).fields) := by
  have size
      : Readable
          (fun pair : AllocDescriptor × AllocDescriptor =>
            ',' ∉ pair.1.kpsh.name.toList ∧ ',' ∉ pair.2.kpsh.name.toList) _ _ :=
    readable_lastNumber putPointer narrow fun pair => pair.2.size.toNat
  have target := readable_allocation converts narrow Prod.fst (fun _ known => known.1) (by decide)
    (fun _ => ⟨_, rfl⟩) (size.literal_append ") of size ".toList)
  have source := readable_allocation converts narrow Prod.snd (fun _ known => known.2) (by decide)
    (fun _ => ⟨_, rfl⟩) ((target.literal_append "dst = ".toList).literal_append ") -> ".toList)
  simp only [KokkosEvent.fields, render, List.flatMap_cons, List.flatMap_nil]
  refine (source.literal_append _).weaken (fun _ known => known) ?_
  rintro ⟨⟨_, _, _, _⟩, _, _, _, _⟩ ⟨⟨_, _, _, _⟩, _, _, _, _⟩ - - seen
  simp only [Prod.mk.injEq, UInt64.toNat_inj] at seen
  obtain ⟨rfl, rfl, rfl, rfl, rfl, rfl, rfl⟩ := seen
  rfl

/-- What follows the name of the event type determines what is printed of the event. -/
theorem readable_fields (converts : ConvertsPointers putPointer) (narrow : format.width = 0)
    (type : KokkosEventType)
    : Readable (fun event => event.Legible ∧ event.type = type) KokkosEvent.printed
        (fun event => render putPointer format event.fields) := by
  cases type with
  | beginEvent construct =>
      refine .of_made (fun (name, devId, eventId) => .beginEvent construct name devId eventId)
        ?_ ((readable_beginEvent narrow construct).weaken (fun _ _ => trivial) ?_)
      · rintro event ⟨-, made⟩
        cases event <;> cases made
        exact ⟨(_, _, _), rfl⟩
      · rintro left right - - rfl
        rfl
  | endEvent construct =>
      refine .of_made (KokkosEvent.endEvent construct) ?_
        ((readable_numbered narrow _ UInt64.toNat).weaken (fun _ known => known) ?_)
      · rintro event ⟨-, made⟩
        cases event <;> cases made
        exact ⟨_, rfl⟩
      · intro left right _ _ same
        rw [UInt64.toNat_inj.mp same]
  | dataEvent operation =>
      refine .of_made (KokkosEvent.dataEvent operation) ?_
        ((readable_dataEvent converts narrow operation).weaken (fun _ _ => trivial) ?_)
      · rintro event ⟨-, made⟩
        cases event <;> cases made
        exact ⟨_, rfl⟩
      · rintro left right - - rfl
        rfl
  | beginDeepCopyEvent =>
      refine .of_made (fun (dst, src) => .beginDeepCopyEvent dst src) ?_
        ((readable_beginDeepCopyEvent converts narrow).weaken (fun _ known => known.1) ?_)
      · rintro event ⟨-, made⟩
        cases event <;> cases made
        exact ⟨(_, _), rfl⟩
      · intro left right _ _ same
        exact congrArg (fun (dst, src) => KokkosEvent.beginDeepCopyEvent dst src) same
  | endDeepCopyEvent =>
      refine .of_made (fun _ : Unit => .endDeepCopyEvent) ?_
        ((Readable.literal _).weaken (fun _ known => known) fun _ _ _ _ _ => rfl)
      rintro event ⟨-, made⟩
      cases event <;> cases made
      exact ⟨(), rfl⟩
  | createProfileSectionEvent =>
      refine .of_made (fun (name, sectionId) => .createProfileSectionEvent name sectionId) ?_
        ((readable_createProfileSectionEvent narrow).weaken (fun _ _ => trivial) ?_)
      · rintro event ⟨-, made⟩
        cases event <;> cases made
        exact ⟨(_, _), rfl⟩
      · rintro left right - - rfl
        rfl
  | profileSectionManipulationEvent operation =>
      refine .of_made (KokkosEvent.profileSectionManipulationEvent operation) ?_
        ((readable_numbered narrow _ UInt32.toNat).weaken (fun _ known => known) ?_)
      · rintro event ⟨-, made⟩
        cases event <;> cases made
        exact ⟨_, rfl⟩
      · intro left right _ _ same
        rw [UInt32.toNat_inj.mp same]
  | pushRegionEvent =>
      refine .of_made KokkosEvent.pushRegionEvent ?_
        ((readable_named _ id).weaken (fun _ known => known) ?_)
      · rintro event ⟨-, made⟩
        cases event <;> cases made
        exact ⟨_, rfl⟩
      · rintro left right - - rfl
        rfl
  | popRegionEvent =>
      refine .of_made (fun _ : Unit => .popRegionEvent) ?_
        ((Readable.literal _).weaken (fun _ known => known) fun _ _ _ _ _ => rfl)
      rintro event ⟨-, made⟩
      cases event <;> cases made
      exact ⟨(), rfl⟩
  | profileEvent =>
      refine .of_made KokkosEvent.profileEvent ?_
        ((readable_named _ id).weaken (fun _ known => known) ?_)
      · rintro event ⟨-, made⟩
        cases event <;> cases made
        exact ⟨_, rfl⟩
      · rintro left right - - rfl
        rfl

/-- The name of its type can be read in front of an event. -/
theorem readable_type (names : NamesTypes typeInfoName)
    : Readable KokkosEvent.Legible KokkosEvent.type
        (fun event => getName typeInfoName event.type ++ ": ".toList) := by
  have words : ReadableBefore (fun symbol => symbol == ':') KokkosEvent.Legible KokkosEvent.type
      (fun event => getName typeInfoName event.type) := by
    refine .of_clear (fun left right _ _ same => names.injective same) ?_
    intro event _ symbol member
    exact beq_eq_false_iff_ne.mpr fun colon => names.colon event.type (colon ▸ member)
  exact (words.append (fun _ => ⟨_, _, rfl, rfl⟩) (.literal _)).weaken (fun _ known => known)
    (fun _ _ _ _ seen => (Prod.mk.inj seen).1)

/-- The lines of a report can be read one by one. -/
theorem readable_line (names : NamesTypes typeInfoName) (converts : ConvertsPointers putPointer)
    (narrow : format.width = 0)
    : Readable KokkosEvent.Legible KokkosEvent.printed (line typeInfoName putPointer format) := by
  have operands : Readable KokkosEvent.Legible KokkosEvent.printed
      (fun event => render putPointer format (event.operands typeInfoName)) := by
    have parts := (readable_type names).cases (readable_fields converts narrow)
    simp only [List.append_assoc] at parts
    exact parts
  exact (operands.literal_append _).append_literal _

/-- What is reported does not depend on what is not printed. -/
theorem reported_printed (events : List KokkosEvent)
    : reported typeInfoName putPointer format (events.map KokkosEvent.printed)
      = reported typeInfoName putPointer format events := by
  have same (event : KokkosEvent)
      : line typeInfoName putPointer format event.printed
        = line typeInfoName putPointer format event := by
    cases event <;> rfl
  simp only [reported, List.length_map, List.flatMap_map, same]

/-- What is reported determines how many events there are and what is printed of them. -/
theorem printed_of_reported (names : NamesTypes typeInfoName)
    (converts : ConvertsPointers putPointer) (narrow : format.width = 0)
    {left right : List KokkosEvent} (leftLegible : ∀ event ∈ left, event.Legible)
    (rightLegible : ∀ event ∈ right, event.Legible)
    (same
      : reported typeInfoName putPointer format left
        = reported typeInfoName putPointer format right)
    : left.map KokkosEvent.printed = right.map KokkosEvent.printed := by
  obtain ⟨counts, following⟩ := readable_putUnsigned narrow trivial trivial rfl rfl same
  have lines := (readable_line names converts narrow).flatMap left.length
  exact lines.view_eq ⟨leftLegible, rfl⟩ ⟨rightLegible, counts.symm⟩ (List.cons.inj following).2

/-- A report determines the recorded events. Two listeners write the same report, into a stream in
any formatting state, exactly if they recorded the same events, up to the sizes of the destinations
of copies. Names may contain quotation marks, line breaks and whole lines of a report.
-/
theorem RecorderListener.report_eq_iff (names : NamesTypes typeInfoName)
    (converts : ConvertsPointers putPointer) {left right : RecorderListener ν μ}
    {leftEvents rightEvents : List KokkosEvent}
    (leftRecorded : left.recordedEvents = leftEvents.map Event.kokkos)
    (rightRecorded : right.recordedEvents = rightEvents.map Event.kokkos)
    (leftLegible : ∀ event ∈ leftEvents, event.Legible)
    (rightLegible : ∀ event ∈ rightEvents, event.Legible) (out : Ostream)
    : left.report typeInfoName putPointer printCustom out
        = right.report typeInfoName putPointer printCustom out
      ↔ leftEvents.map KokkosEvent.printed = rightEvents.map KokkosEvent.printed := by
  rw [left.report_eq leftRecorded, right.report_eq rightRecorded]
  constructor
  · intro same
    have texts := congrArg Ostream.text same
    exact printed_of_reported names converts rfl leftLegible rightLegible
      (List.append_cancel_left texts)
  · intro same
    rw [← reported_printed leftEvents, same, reported_printed]

/-- Pointers in the hexadecimal notation. -/
def putHexadecimal (format : Format) (pointer : Pointer) : List Char :=
  let flags :=
    {
      format.flags with
      dec := false
      oct := false
      hex := true
      showbase := true
      uppercase := false
    }
  putUnsigned { format with flags := flags } pointer

/-- The hexadecimal notation is one way to convert pointers. -/
theorem convertsPointers_putHexadecimal : ConvertsPointers putHexadecimal where
  injective := fun _ narrow => putUnsigned_injective narrow
  word := by
    intro format narrow pointer blank
    unfold putHexadecimal at blank
    have letter := isAlphanum_putUnsigned (by exact narrow) blank
    cases letter

/-- A listener that records regions. -/
private def regionRecorder (events : List KokkosEvent) : RecorderListener Unit Unit where
  recorderClass :=
    {
      name := "RecorderListener"
      eventTypes := [.kokkos .pushRegionEvent, .kokkos .popRegionEvent, .kokkos .profileEvent]
      distinct := by decide
      matcher := { start := (), step := fun _ matcher => (true, matcher) }
    }
  recordedEvents := events.map Event.kokkos
  matcher := ()

/-- The qualified names of event types. -/
def qualifiedName (type : KokkosEventType) : List Char :=
  "Kokkos::utils::callbacks::".toList ++ type.sourceName.toList

/-- They leave the names of event types. -/
theorem namesTypes_qualifiedName : NamesTypes qualifiedName := fun _ => List.drop_left' rfl

/-- A region whose name contains lines of a report is not reported as the regions in that name. -/
theorem report_eq_iff_misleading
    : (regionRecorder [.pushRegionEvent "a\"\x7d\n- PopRegionEvent: \x7b\x7d"]).report
          qualifiedName putHexadecimal (fun _ _ => id) {}
      ≠ (regionRecorder [.pushRegionEvent "a"]).report qualifiedName putHexadecimal
          (fun _ _ => id) {} := by
  intro same
  have printed := (RecorderListener.report_eq_iff namesTypes_qualifiedName
    convertsPointers_putHexadecimal rfl rfl (fun _ _ => by simp_all [KokkosEvent.Legible])
    (fun _ _ => by simp_all [KokkosEvent.Legible]) {}).mp same
  revert printed
  decide

end KokkosUtils.Callbacks
