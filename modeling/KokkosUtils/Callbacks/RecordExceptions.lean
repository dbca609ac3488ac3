import KokkosUtils.Callbacks.Recording

/-! What `record` leaves behind when its callable throws.
The recorder stays registered after the listeners of before, and it hears of later events:
only the return of the callable is followed by its unregistration.
-/

namespace KokkosUtils.Callbacks

open KokkosUtils.Foundations KokkosUtils.Impl

variable {ν μ ρ : Type} {tools : CallbackSlot → Option FunctionPointer}
variable {bystanders : Bystanders ν μ ρ} {world begun ended : World (Outside ν μ ρ)}
variable {pointer : Pointer} {first body : List (Happening ν)}

/-- An exception of the callable leaves `record` at once. -/
theorem record_of_throws {recorderClass : RecorderClass ν μ} {address : Address}
    {callable : Callable ν μ}
    (begins : beginRecord recorderClass pointer address world = some (begun, first))
    (invoked : invoke bystanders.andRecorders callable begun = some (ended, body, false))
    : record recorderClass pointer address (invoke bystanders.andRecorders callable) world
      = some (ended, first ++ body, none) := by
  simp [record, begins, invoked]

/-- A recorder among the listeners changes the registry. -/
theorem Recording.registry_ne {others own : List ListenerModel} {recorder : ListenerModel}
    (recording : Recording tools pointer others recorder own ended)
    (listeners_eq : world.listeners = others)
    : ended.registry ≠ world.registry := by
  intro same
  have listeners := World.listeners_of_registry same
  rw [recording.listeners_eq, listeners_eq] at listeners
  have length := congrArg List.length listeners
  rw [List.length_append, List.length_cons] at length
  omega

/-- `record` never leaves the Manager as it found it when its callable throws, if the callable
unregisters only what it registered: its recorder stays among the listeners, so the registry
differs, and each later Kokkos call of a type of the class is delivered to that recorder.
Witness: what the callable executed is a stretch in which the recorder stays registered.
-/
theorem Reachable.record_throws (reachable : Reachable bystanders.andRecorders tools world)
    (recorderClass : RecorderClass ν μ) (pointer : Pointer) (address : Address)
    (callable : Callable ν μ)
    (begins : beginRecord recorderClass pointer address world = some (begun, first))
    (throws : invoke bystanders.andRecorders callable begun = some (ended, body, false))
    (ownOnly : ∃ later, balanced [] (changes body ++ later))
    : record recorderClass pointer address (invoke bystanders.andRecorders callable) world
        = some (ended, first ++ body, none)
      ∧ (∃ kept,
          ended.listeners
          = world.listeners ++ .shared recorderClass.listener pointer address :: kept)
      ∧ ended.registry ≠ world.registry
      ∧ ∀ call next report,
          kokkosCall bystanders.andRecorders call ended = some (next, report)
          → directDeliveries pointer report
            = (raisedEvents report).filter (fun event => event.type ∈ recorderClass.eventTypes) := by
  obtain ⟨later, balancedLater⟩ := ownOnly
  obtain ⟨recording, -, -⟩ := recording_of_beginRecord reachable.consistent begins
  obtain ⟨kept, continued, -, -, -⟩ := stretch_invoke throws [] later recording balancedLater
  refine ⟨record_of_throws begins throws, ⟨kept, continued.listeners_eq⟩,
    continued.registry_ne rfl, ?_⟩
  intro call next report performed
  rw [(continued.kokkosCall performed).1]
  apply List.filter_congr
  intro event _
  exact ListenerModel.handles_eq_decide _ _

/-- Recorders of region names. -/
private def regionNames : RecorderClass Unit Unit where
  name := "RegionNames"
  eventTypes := [.kokkos .pushRegionEvent]
  distinct := by decide
  matcher := { start := (), step := fun _ _ => (true, ()) }

/-- A callable that pushes a region and throws before it pops it. -/
private def throwing : Callable Unit Unit :=
  .operation (.kokkosCall (.pushRegion "region")) .throwException

/-- A world with an initialized Manager and nothing registered. -/
private def untouched : World (Outside Unit Unit Unit) :=
  Manager.initializeSingleton (.start (fun _ => none) { recorders := fun _ => none, rest := () })

private theorem reachable_untouched
    : Reachable (Bystanders.andRecorders .quiet) (fun _ => none) untouched :=
  (Reachable.start _).of_run [.initializeSingleton] rfl

theorem record_throws_region
    : ∃ (ended : World (Outside Unit Unit Unit)) (report : List (Happening Unit)),
        record regionNames 7 1 (invoke (Bystanders.andRecorders .quiet) throwing) untouched
          = some (ended, report, none)
        ∧ ended.registry ≠ untouched.registry := by
  have begins : beginRecord regionNames 7 1 untouched = some (_, _) := rfl
  obtain ⟨recorded, -, differs, -⟩ :=
    reachable_untouched.record_throws regionNames 7 1 throwing begins rfl ⟨[], rfl⟩
  exact ⟨_, _, recorded, differs⟩

/-- The recorder of the callable that throws is still registered. -/
theorem record_throws_leaves_listener
    : ∃ (ended : World (Outside Unit Unit Unit)) (report : List (Happening Unit)),
        record regionNames 7 1 (invoke (Bystanders.andRecorders .quiet) throwing) untouched
          = some (ended, report, none)
        ∧ untouched.listeners.length = 0
        ∧ ended.listeners.length = 1 := by
  exact ⟨_, _, rfl, rfl, rfl⟩

end KokkosUtils.Callbacks
