import MeterLink.Main
import MeterLink.Meter.Shared
import MeterLink.Proofs.FieldRoundTrip
import MeterLink.Proofs.FrameRoundTrip
import MeterLink.Proofs.CheckRegister
import MeterLink.Proofs.ErrorDetection
import MeterLink.Proofs.Attempts
import MeterLink.Proofs.ShortReads
import MeterLink.Proofs.PackedFields
import MeterLink.Proofs.PaddedText
import MeterLink.Proofs.RecordWriting
import MeterLink.Proofs.RecordRoundTrip
import MeterLink.Proofs.Requests
import MeterLink.Proofs.RawFields
import MeterLink.Proofs.SequenceBit
import MeterLink.Proofs.Chains
import MeterLink.Proofs.ObjectCalls
import MeterLink.Proofs.TariffProgramming
import MeterLink.Proofs.PrepaymentGuard
import MeterLink.Proofs.CatalogueRows
import MeterLink.Proofs.ObjectStore
import MeterLink.Proofs.TariffReadback
import MeterLink.Proofs.StateTrace
import MeterLink.Proofs.FrameReencoding
import MeterLink.Proofs.FailedAttempts
import MeterLink.Proofs.Rejection
import MeterLink.Proofs.Serialisation
import MeterLink.Proofs.CalendarDays
import MeterLink.Proofs.ClockConversions
import MeterLink.Proofs.FieldGrammar
import MeterLink.Proofs.FrameLocality
import MeterLink.Proofs.ReaderFaults
import MeterLink.Proofs.CallSpecs
import MeterLink.Proofs.CatalogueAgreement
import MeterLink.Proofs.Numerals
import MeterLink.Proofs.AmountText
import MeterLink.Proofs.ObjectNotation
import MeterLink.Proofs.ObjectReferences
import MeterLink.Proofs.RecordOutcome
import MeterLink.Proofs.RecordAppending
import MeterLink.Proofs.PackedBits
import MeterLink.Proofs.PricingTable
import MeterLink.Proofs.TruncatedAnswers
import MeterLink.Proofs.PhaseVoltages
import MeterLink.Proofs.TypedBytes
import MeterLink.Proofs.CheckedSettings
