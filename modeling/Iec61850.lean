import Iec61850.Lib.Octets
import Iec61850.Asn1.BerInteger
import Iec61850.Asn1.BerDecoder
import Iec61850.Mms.IntegerCodec
import Iec61850.Mms.IntegerSetters
import Iec61850.Lib.Tlv
import Iec61850.Mms.AccessResult
import Iec61850.Lib.Block
import Iec61850.Lib.Arena
import Iec61850.Mms.Clone
import Iec61850.Report.Buffer
import Iec61850.Report.BufferInvariant
import Iec61850.Report.EntryWriting
import Iec61850.Report.BufferRuns
import Iec61850.Lib.Transition
import Iec61850.Mms.Update
import Iec61850.Report.ReportControl
import Iec61850.Report.Events
import Iec61850.Report.Creation
import Iec61850.Report.EventSteps
import Iec61850.Report.Ownership
import Iec61850.Report.PendingEvents
import Iec61850.Lib.Ledger
import Iec61850.Mms.Elements
import Iec61850.Report.EntryReading
import Iec61850.Report.Delivery
import Iec61850.Control.ControlObject
import Iec61850.Control.ControlRuns
import Iec61850.Control.SelectBeforeOperate
import Iec61850.Control.Resting
import Iec61850.Control.Revocation
import Iec61850.Device.Disconnect
import Iec61850.Mms.DataElement
import Iec61850.Mms.ClientRead
import Iec61850.Transport.Cotp
import Iec61850.Transport.Segmentation
import Iec61850.Control.ControlClient
import Iec61850.Control.ClientAgreement
import Iec61850.Device.NamedVariable
import Iec61850.Device.NameList
import Iec61850.Device.ValueCache
import Iec61850.Device.NameListResponse
import Iec61850.Device.Pagination
import Iec61850.Asn1.BerElements
import Iec61850.Iso.Session
import Iec61850.Iso.Presentation
import Iec61850.Iso.Acse
import Iec61850.Lib.Fuel
import Iec61850.Iso.ReceiveBuffer
import Iec61850.Iso.ClientAssociation
import Iec61850.Client.MmsConnection
import Iec61850.Client.ResponseMatching
import Iec61850.Iso.ServerConnection
import Iec61850.Lib.Slots
import Iec61850.Model.IedModel
import Iec61850.Model.TypeTree
import Iec61850.Model.Mapping
import Iec61850.Model.LogicalNodes
import Iec61850.Device.ValuePlaces
import Iec61850.Server.WriteAccess
import Iec61850.Control.DelayedAnswers
import Iec61850.Control.ControlAccess
import Iec61850.Server.AlternateAccess
import Iec61850.Server.WriteService
import Iec61850.Server.ReadService
import Iec61850.Server.ReadCompleteness
import Iec61850.Report.EntryIds
import Iec61850.Report.SequenceNumbers
import Iec61850.Asn1.BerFields
import Iec61850.File.FileResponses
import Iec61850.File.Download
import Iec61850.File.FileServer
import Iec61850.File.FileTransfer
import Iec61850.Report.Resynchronisation
import Iec61850.File.FileRequests
import Iec61850.File.FileDirectory
import Iec61850.File.FileCodec
import Iec61850.Report.DataSetReferences
import Iec61850.Lib.TlvSizes
import Iec61850.Report.InformationReport
import Iec61850.Server.PduSizes
import Iec61850.Device.TypeDescription
import Iec61850.Iso.ConnectionTable
import Iec61850.Iso.SessionSpdus
import Iec61850.Goose.GoosePublisher
import Iec61850.Goose.Retransmission
import Iec61850.Goose.Rooms
import Iec61850.Goose.GooseSubscriber
import Iec61850.Transport.WriteBuffer
import Iec61850.Asn1.BerSpans
import Iec61850.Iso.PresentationPdus
import Iec61850.Iso.AcsePdus
import Iec61850.Lib.NamedList
import Iec61850.Server.VariableLists
import Iec61850.Server.VariableListRuns
import Iec61850.Server.VariableListServices
import Iec61850.Client.ObjectReferences
import Iec61850.Client.DataSets
import Iec61850.Client.DataSetDirectory
import Iec61850.Report.ReportAgreement
import Iec61850.Mms.UpdateEquality
import Iec61850.Mms.CloneLayout
import Iec61850.Mms.BitStrings
import Iec61850.Control.ParameterChecks
import Iec61850.Control.CheckParameters
import Iec61850.Control.ControlCreation
import Iec61850.Control.ControlNaming
import Iec61850.Lib.Concat
import Iec61850.Control.ControlReports
import Iec61850.Report.TriggerObservers
import Iec61850.Report.TriggerLaw
import Iec61850.Server.AttributeUpdates
import Iec61850.Mms.Conversions
import Iec61850.Mms.TimeCodecs
import Iec61850.Transport.OptionLists
import Iec61850.Client.ConnectionLifecycle
import Iec61850.Report.OwnerAttribute
import Iec61850.Lib.Decimal
import Iec61850.Mms.ValuePrinting
import Iec61850.Lib.TextBuffer
import Iec61850.Goose.FrameBounds
import Iec61850.Client.ModelBrowsing
import Iec61850.Client.AccessSpecStrings
import Iec61850.Client.RcbUpdates
import Iec61850.Client.RcbWrites
import Iec61850.Client.ReportControlBlocks
import Iec61850.Lib.CheckedInt
import Iec61850.Mms.FractionOfSecond
import Iec61850.Server.DataSetLookup
import Iec61850.Asn1.ObjectIdentifiers
import Iec61850.Asn1.LengthCodec
import Iec61850.Lib.Base128
import Iec61850.Lib.TreeGrowth
import Iec61850.Scl.ParserUtils
import Iec61850.Scl.TypeDeclarations
import Iec61850.Scl.ControlBlocks
import Iec61850.Scl.Instances
import Iec61850.Scl.LogicalNode
import Iec61850.ConfigFile.Acceptance
import Iec61850.Iso.ClientConnection
import Iec61850.Transport.Exchange
import Iec61850.Iso.Association
