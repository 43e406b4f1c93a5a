import OcpFw.Dll
import OcpFw.Geometry
import OcpFw.AddressTranslation
import OcpFw.BlockLists
import OcpFw.MappingInvariant
import OcpFw.BlockLedger
import OcpFw.BlockLifecycle
import OcpFw.FlashImage
import OcpFw.Capacity
import OcpFw.RequestQueues
import OcpFw.HostDma
import OcpFw.BlockingChains
import OcpFw.RequestLayer
import OcpFw.RequestInvariants
import OcpFw.SlotConservation
import OcpFw.BufferOrder
import OcpFw.BlockGenerations
import OcpFw.BlockOrder
import OcpFw.BlockRequests
import OcpFw.BlockTally
import OcpFw.BlockTracking
import OcpFw.Scheduler
import OcpFw.SchedulerInvariant
import OcpFw.SchedulerPasses
import OcpFw.SchedulerRuns
import OcpFw.CommandAdmission
import OcpFw.DataBuffer
import OcpFw.DataBufferLists
import OcpFw.BufferSteps
import OcpFw.DataBufferCache
import OcpFw.BufferContents
import OcpFw.WriteBackCache
import OcpFw.FlashSliceMap
import OcpFw.DmaAddresses
import OcpFw.DmaOrder
import OcpFw.DmaRetirement
import OcpFw.DmaPolling
import OcpFw.SchedulerProgress
import OcpFw.GarbageCollection
import OcpFw.BlockedReads
import OcpFw.PhysicalBlocks
import OcpFw.ReadRetries
import OcpFw.Replacement
import OcpFw.BadBlocks
import OcpFw.MainLoop
import OcpFw.StatusChanges
import OcpFw.FlashFirmware
import OcpFw.EraseFlags
import OcpFw.FlashFailures
import OcpFw.ReservedBlocks
import OcpFw.FlashCapacity
import OcpFw.AsyncPrograms
import OcpFw.BadBlockTable
import OcpFw.TableSteps
import OcpFw.TableScan
import OcpFw.TableSave
import OcpFw.TableRecovery
import OcpFw.TableReload
import OcpFw.EraseRequests
import OcpFw.RequestRouting
import OcpFw.GrownBadBlocks
import OcpFw.FlashController
import OcpFw.WayReports
import OcpFw.StaleReports
import OcpFw.ByteMemory
import OcpFw.QueueAdministration
import OcpFw.QueueIsolation
import OcpFw.ListPrimitives
import OcpFw.AccessOrder
import OcpFw.BlockConflicts
import OcpFw.CompletionOrder
import OcpFw.Device
import OcpFw.Draining
import OcpFw.HostDisk
import OcpFw.BufferIsolation
import OcpFw.HostProgress
import OcpFw.SchedulingTurns
import OcpFw.PolledPasses
import OcpFw.WaitLoops
