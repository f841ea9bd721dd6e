import TpceDrv.Library.Runs
import TpceDrv.Library.BitMask
import TpceDrv.Library.PointwiseFold
import TpceDrv.Library.Cuts
import TpceDrv.Library.Euclid
import TpceDrv.Library.Windows
import TpceDrv.Library.Strided
import TpceDrv.Library.Rings
import TpceDrv.Library.Walks
import TpceDrv.Library.Buffers
import TpceDrv.Library.Reads
import TpceDrv.Library.Holdings
import TpceDrv.Library.Traces
import TpceDrv.Library.Errors
import TpceDrv.Library.Scripts
import TpceDrv.PageTable
import TpceDrv.PageTableMap
import TpceDrv.DmaParams
import TpceDrv.Generation
import TpceDrv.Reach
import TpceDrv.Planning
import TpceDrv.MappedRanges
import TpceDrv.FlexibleGeneration
import TpceDrv.FixedGeneration
import TpceDrv.RangeGcd
import TpceDrv.FilledParams
import TpceDrv.DmaInfo
import TpceDrv.Translation
import TpceDrv.RoundTrip
import TpceDrv.DescriptorCheck
import TpceDrv.RangeIndexing
import TpceDrv.GeneratorCheck
import TpceDrv.GeneratorEnds
import TpceDrv.Device
import TpceDrv.ChannelControl
import TpceDrv.StreamIrq
import TpceDrv.Requests
import TpceDrv.Driver
import TpceDrv.ChannelSteps
import TpceDrv.PageTableFaults
import TpceDrv.SlotFrames
import TpceDrv.PageSlots
import TpceDrv.RequestSteps
import TpceDrv.ActiveDescriptors
import TpceDrv.StreamStarts
import TpceDrv.StreamTracking
import TpceDrv.ProducedBytes
import TpceDrv.WindowContainment
import TpceDrv.StrideConfinement
import TpceDrv.Effects
import TpceDrv.Teardown
import TpceDrv.BetweenCalls
import TpceDrv.MappingInUse
import TpceDrv.StreamRefs
import TpceDrv.RequestAtomicity
import TpceDrv.FastIrqMask
import TpceDrv.Ioctl
import TpceDrv.Interrupts
import TpceDrv.Completion
import TpceDrv.DescriptorBuffers
import TpceDrv.PrefetcherWalk
import TpceDrv.UserStructs
import TpceDrv.LegacyRead
import TpceDrv.IoctlCommands
import TpceDrv.BarAccess
import TpceDrv.NonInterference
import TpceDrv.ErrorAtomicity
import TpceDrv.RequestReads
import TpceDrv.RequestRace
import TpceDrv.LockUserBuffer
import TpceDrv.IrqPath
import TpceDrv.HwEvents
import TpceDrv.IrqSound
import TpceDrv.IndexFaults
import TpceDrv.DescriptorAccounting
import TpceDrv.MappingTable
import TpceDrv.MappingEffects
import TpceDrv.MappingLiveness
import TpceDrv.Registry
import TpceDrv.MappingIsolation
import TpceDrv.TracedIoctl
import TpceDrv.Locking
import TpceDrv.LockBalance
import TpceDrv.CommandSoundness
import TpceDrv.Lifetime
import TpceDrv.LifetimeSafety
import TpceDrv.ValidatedRange
import TpceDrv.TransferParts
import TpceDrv.InterruptPlacement
import TpceDrv.CountBound
import TpceDrv.DeviceAddresses
import TpceDrv.DescriptorAlignment
import TpceDrv.LegacyActions
import TpceDrv.LegacyMemory
import TpceDrv.LegacyRuns
import TpceDrv.LegacySessions
import TpceDrv.BlockReadSizes
import TpceDrv.BlockReadCopies
import TpceDrv.DeviceBlocks
import TpceDrv.BlockReadContiguous
import TpceDrv.BlockReadStrided
import TpceDrv.StaleBytes
import TpceDrv.UserBufferBounds
import TpceDrv.Controller
import TpceDrv.RunningChannels
import TpceDrv.RegisterRuns
import TpceDrv.HostRoutes
import TpceDrv.DataMovement
import TpceDrv.Resources
import TpceDrv.Ownership
import TpceDrv.OwnershipSteps
import TpceDrv.OwnershipCalls
import TpceDrv.Probe
import TpceDrv.Library.Stacks
import TpceDrv.ProbeRollback
import TpceDrv.DeviceLife
import TpceDrv.OwnershipRuns
import TpceDrv.Library.Drains
import TpceDrv.Handlers
import TpceDrv.Delivery
