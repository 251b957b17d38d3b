import DawnDock.Library.ByteCodec
import DawnDock.Library.AtomicProgram
import DawnDock.ScheduleStore.Record
import DawnDock.ScheduleStore.Atomicity
import DawnDock.Clients.History
import DawnDock.Clients.Alerts
import DawnDock.Clients.Alone
import DawnDock.Clients.Disabling
import DawnDock.Clients.TickEffects
import DawnDock.Clients.Faults
import DawnDock.Clients.Ownership
import DawnDock.Library.Calendar
import DawnDock.Library.Checksum
import DawnDock.Library.Json
import DawnDock.Library.LocalTime
import DawnDock.Library.MachineInt
import DawnDock.Library.StepFunction
import DawnDock.Library.Tzif
import DawnDock.Protocol.JsonDocuments
import DawnDock.Protocol.JsonGrammar
import DawnDock.Recurrence.Completeness
import DawnDock.Recurrence.Mirror
import DawnDock.Recurrence.Parity
import DawnDock.Recurrence.Soundness
import DawnDock.ScheduleStore.Canonical
import DawnDock.ScheduleStore.Corruption
import DawnDock.ScheduleStore.Migration
import DawnDock.TzifRules.Adapter
import DawnDock.TzifRules.Import
import DawnDock.App.AlarmDraft
import DawnDock.App.Backup
import DawnDock.App.BackupErrors
import DawnDock.App.BackupKeys
import DawnDock.App.DeviceStatus
import DawnDock.App.DiffPartition
import DawnDock.App.ExchangeSafety
import DawnDock.App.FlowSafety
import DawnDock.App.IcsAccount
import DawnDock.App.Pairing
import DawnDock.App.WireChanges
import DawnDock.Clients.DuePass
import DawnDock.Clients.LifecyclePaths
import DawnDock.Library.JsonSchema
import DawnDock.Library.Trapping
import DawnDock.Protocol.AlarmSchema
import DawnDock.Protocol.Replay
import DawnDock.Recurrence.Materializer
import DawnDock.Recurrence.Overflow
import DawnDock.Recurrence.Projection
import DawnDock.Recurrence.RawSchedules
import DawnDock.TzifRules.SizeWidth
import DawnDock.TzifRules.Usable
import DawnDock.ControlDebounce
import DawnDock.Library.CarryCounter
import DawnDock.QuadratureEncoder
import DawnDock.Clients.Lifetime
import DawnDock.Clients.RebootRule
import DawnDock.App.BackupFlow
import DawnDock.App.BackupRoundTrip
import DawnDock.App.BackupSafety
import DawnDock.Clients.SharedStorage
import DawnDock.App.JsonText
import DawnDock.App.WireRequests
