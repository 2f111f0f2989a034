import IioEmu.Foundation.Outcome
import IioEmu.Foundation.Execution
import IioEmu.Foundation.Loop
import IioEmu.Foundation.Memory
import IioEmu.Foundation.Numerals
import IioEmu.Foundation.Ramps
import IioEmu.Foundation.Quantisation
import IioEmu.Foundation.LabelledTree
import IioEmu.Utils.AttrOpsXml
import IioEmu.Utils.Utility
import IioEmu.Devices.M2kLogicTX.M2kLogicTX
import IioEmu.Devices.M2kLogicTX.CursorSafety
import IioEmu.Devices.M2kDAC.M2kDAC
import IioEmu.Devices.M2kDAC.CursorSafety
import IioEmu.Adalm2000.Document
import IioEmu.Devices.Frames
import IioEmu.Devices.M2kLogicTX.FrameIsolation
import IioEmu.Devices.M2kDAC.FrameIsolation
import IioEmu.Devices.M2kLogicRX.LoopBack
import IioEmu.Networking.SocketUnix
import IioEmu.Context.GenericXmlContext
import IioEmu.Networking.Disconnect
import IioEmu.Networking.InboundStream
import IioEmu.Devices.Generic.GenericDevice
import IioEmu.Foundation.Fifo
import IioEmu.Devices.Generic.LoopBack
import IioEmu.Utils.AttributeStore
import IioEmu.Adalm2000.Adalm2000Context
import IioEmu.Adalm2000.PowerSupply
import IioEmu.Adalm2000.ReadBack
import IioEmu.Utils.ChannelLookup
import IioEmu.Devices.M2kDAC.CancelBuffer
import IioEmu.Devices.Upsampling
import IioEmu.Adalm2000.FailedWrites
import IioEmu.Foundation.Reader
import IioEmu.Devices.M2kADC.Calibration
import IioEmu.Devices.SplitReads
import IioEmu.Networking.NetworkUnix
import IioEmu.Networking.ServerLoop
import IioEmu.Networking.ClientTable
import IioEmu.Xml.Pieces
import IioEmu.Xml.Markup
import IioEmu.Xml.Writer
import IioEmu.Utils.ContextXml
import IioEmu.Xml.ElementTree
import IioEmu.Utils.AdvertisedXml
import IioEmu.Xml.Recorded
import IioEmu.Xml.Transcript
import IioEmu.Tools.GenXml
import IioEmu.Tools.ContextTree
import IioEmu.Tools.GeneratedText
import IioEmu.Tools.GeneratedXml
import IioEmu.Tools.GeneratedValues
import IioEmu.Devices.CyclicReaders
import IioEmu.Utils.AttributeReads
import IioEmu.Utils.DigitalResampling
import IioEmu.Devices.StoredRates
import IioEmu.Devices.M2kDAC.Transfers
import IioEmu.Devices.M2kDAC.AcceptedRates
import IioEmu.Devices.M2kLogicRX.ReadSize
import IioEmu.Devices.Generic.FailedOpens
import IioEmu.Devices.M2kDAC.FrameRates
import IioEmu.Devices.M2kADC.StoredTexts
import IioEmu.Devices.M2kDAC.DeliveredSamples
import IioEmu.Devices.M2kADC.TotalReads
import IioEmu.Networking.OutboundStream
import IioEmu.Networking.Interruptions
import IioEmu.Context.ScanChannels
import IioEmu.Utils.InputParser
import IioEmu.Context.GenericDevices
import IioEmu.Xml.DocumentType
import IioEmu.Utils.AbsentValues
import IioEmu.Utils.AnalogInterpolation
import IioEmu.Devices.M2kADC.SampleFormat
import IioEmu.Tools.LengthAccounting
import IioEmu.Tools.Unwinding
import IioEmu.Foundation.Noninterference
import IioEmu.Foundation.Components
import IioEmu.Foundation.Delivery
import IioEmu.Utils.AgreeingDocuments
import IioEmu.Context.Commands
import IioEmu.Adalm2000.Operations
import IioEmu.Adalm2000.SignalPaths
import IioEmu.Adalm2000.DeviceRuns
import IioEmu.Adalm2000.ReadingPositions
import IioEmu.Adalm2000.PathEffects
import IioEmu.Adalm2000.Isolation
import IioEmu.Adalm2000.SharedReceiver
import IioEmu.Adalm2000.SharedConverters
import IioEmu.Foundation.Threads
import IioEmu.Devices.M2kADC.ReaderThreads
import IioEmu.Context.GenericOperations
import IioEmu.Devices.Generic.LinkedFiles
import IioEmu.Context.GenericStore
import IioEmu.Context.GenericRefinement
import IioEmu.Context.GenericIsolation
import IioEmu.Networking.ServedContext
import IioEmu.Adalm2000.ServedSessions
import IioEmu.Adalm2000.ServedIsolation
import IioEmu.Adalm2000.AttributeRegisters
import IioEmu.Context.ServedStore
import IioEmu.Networking.ServerLifetime
import IioEmu.Tools.CapturedContexts
import IioEmu.Networking.ServedSessions
import IioEmu.Foundation.Registers
import IioEmu.Context.AttributeRegisters
import IioEmu.Networking.SocketWin
import IioEmu.Networking.NetworkWin
import IioEmu.Networking.PlatformAgreement
import IioEmu.Networking.WindowsClients
