import HackRF.EventRun
import HackRF.HandleTrace
import HackRF.LibraryTypes
import HackRF.StreamingDevice
import HackRF.StreamingMachine
import HackRF.StreamingMoves
import HackRF.StreamingCoverage
import HackRF.CloseJoin
import HackRF.ThreadExit
import HackRF.CallProgress
import HackRF.ModeAgreement
import HackRF.Deliveries
import HackRF.TransferOwnership
import HackRF.CallbackDiscipline
import HackRF.TransmitProvenance
import HackRF.StartFailure
import HackRF.DeviceCalls
import HackRF.LibraryCalls
import HackRF.LibraryLifetime
import HackRF.DeviceSetup
import HackRF.UsbDevices
import HackRF.DeviceEnumeration
import HackRF.DeviceListMemory
import HackRF.SerialNumbers
import HackRF.SerialMatch
import HackRF.ListedSerials
import HackRF.StatusCheck
import HackRF.LoopRun
import HackRF.CpldWrite
import HackRF.FloatRounding
import HackRF.SweepPlan
import HackRF.RxCallback
import HackRF.RxStream
import HackRF.SweepProgress
import HackRF.SampleWindow
import HackRF.ReceivedBytes
import HackRF.IntervalGrid
import HackRF.SweepCoverage
import HackRF.RowGroups
import HackRF.SweepReader
import HackRF.SweepLabels
import HackRF.SweepFiles
import HackRF.IfftBounds
import HackRF.RunTiling
import HackRF.IfftTiling
import HackRF.SweepBound
import HackRF.BlockTimes
import HackRF.SweepText
import HackRF.ByteMemory
import HackRF.ControlTransfers
import HackRF.HostByteOrder
import HackRF.FilterChoice
import HackRF.TunedFrequency
import HackRF.SampleRate
import HackRF.SampleRateError
import HackRF.PluginMessages
import HackRF.SweepService
import HackRF.InitSweep
import HackRF.VendorRequests
import HackRF.RequestTrace
import HackRF.RequestMeaning
import HackRF.RequestMemory
import HackRF.BinBands
import HackRF.SweepCalls
import HackRF.SweepHistory
import HackRF.SweepIdle
import HackRF.SweepBuffers
import HackRF.CaptureLength
import HackRF.RangePlanning
import HackRF.SweepTunings
import HackRF.SweepProtocol
import HackRF.SweepsRequested
import HackRF.SweepFailure
import HackRF.Strtoul
import HackRF.ParseU32
import HackRF.HexPrinting
import HackRF.LineFraming
import HackRF.InputLines
import HackRF.CommandInput
import HackRF.SweepRecords
