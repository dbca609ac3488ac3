import KokkosUtils.Foundations.PartialRuns
import KokkosUtils.Foundations.KeyedIndex
import KokkosUtils.Foundations.ShortCircuit
import KokkosUtils.Foundations.Streams
import KokkosUtils.View.Slice
import KokkosUtils.Printers.View
import KokkosUtils.Impl.TypeList
import KokkosUtils.Callbacks.Events
import KokkosUtils.Callbacks.EventSet
import KokkosUtils.Callbacks.Listener
import KokkosUtils.Callbacks.Manager
import KokkosUtils.Callbacks.Runs
import KokkosUtils.Callbacks.Registration
import KokkosUtils.Callbacks.Consistency
import KokkosUtils.Callbacks.Delivery
import KokkosUtils.Callbacks.Invariants
import KokkosUtils.Callbacks.ListenerDelivery
import KokkosUtils.Callbacks.Unregistration
import KokkosUtils.Callbacks.PointerUnregistration
import KokkosUtils.Callbacks.Transparency
import KokkosUtils.Callbacks.RecorderListener
import KokkosUtils.Callbacks.Deliveries
import KokkosUtils.Callbacks.Recording
import KokkosUtils.Callbacks.ConcurrentRecording
import KokkosUtils.Callbacks.RecordExceptions
import KokkosUtils.Callbacks.BeginEndTimerListener
import KokkosUtils.Callbacks.BeginEndTiming
import KokkosUtils.Callbacks.RegionTimerListener
import KokkosUtils.Callbacks.RegionTiming
import KokkosUtils.Callbacks.SequenceOfRegionTimerListener
import KokkosUtils.Callbacks.RegionResets
import KokkosUtils.Callbacks.BeginEndGuard
import KokkosUtils.Callbacks.SequenceTiming
import KokkosUtils.Callbacks.SequenceResets
import KokkosUtils.Callbacks.SequenceSafety
import KokkosUtils.Callbacks.Helpers
import KokkosUtils.Callbacks.VariadicConjunction
import KokkosUtils.Callbacks.RegionMembership
import KokkosUtils.Callbacks.BeginEndPairing
import KokkosUtils.Callbacks.ProfileSections
import KokkosUtils.Callbacks.Threads
import KokkosUtils.Callbacks.SingleThread
import KokkosUtils.Callbacks.Identifiers
import KokkosUtils.Foundations.ReadableTexts
import KokkosUtils.Foundations.FormattedOutput
import KokkosUtils.Foundations.Brokers
import KokkosUtils.Callbacks.BrokerRefinement
import KokkosUtils.Callbacks.UsageProtocol
import KokkosUtils.Callbacks.ListenerIsolation
import KokkosUtils.Callbacks.EventPrinting
import KokkosUtils.Foundations.Ownership
import KokkosUtils.Timer.DeviceTimer
import KokkosUtils.Timer.DeviceOwnership
import KokkosUtils.Timer.DeviceTiming
import KokkosUtils.Foundations.BoundedRuns
import KokkosUtils.Callbacks.RecordingTermination
import KokkosUtils.Foundations.Tickets
import KokkosUtils.Callbacks.ThreadSteps
import KokkosUtils.Callbacks.ConcurrentDelivery
import KokkosUtils.Callbacks.PairedDeliveries
import KokkosUtils.Callbacks.DispatchSafety
import KokkosUtils.Printers.ViewReading
