import CallFrame.Bytes
import CallFrame.Fault
import CallFrame.Main
import CallFrame.Numbering
import CallFrame.Section.Content
import CallFrame.Session
import CallFrame.Transcript
import CallFrame.Proofs.ScanContents
import CallFrame.Proofs.Tiling
import CallFrame.Proofs.CacheCoherence
import CallFrame.Proofs.FrameTable
import CallFrame.Proofs.Growth
import CallFrame.Proofs.Unwinding
import CallFrame.Proofs.ReaderFaults
import CallFrame.Proofs.Relocation
import CallFrame.Proofs.EntryAgreement
import CallFrame.Proofs.Insertion
import CallFrame.Proofs.ShortestNumbers
import CallFrame.Proofs.ProgramStreams
import CallFrame.Proofs.FrameRelative
import CallFrame.Proofs.TableLookup
import CallFrame.Proofs.ValueTexts
import CallFrame.Proofs.OptionOrder
import CallFrame.Proofs.PrintedLines
import CallFrame.Proofs.CommandReading
import CallFrame.Proofs.LookupOutcome
import CallFrame.Proofs.FirstMatch
import CallFrame.Proofs.Spellings
import CallFrame.Proofs.EntryGrammar
import CallFrame.Proofs.SumTrees
import CallFrame.Proofs.EarlyOffsets
import CallFrame.Proofs.LookupRuns
import CallFrame.Proofs.LaterBytes
import CallFrame.Proofs.AdvanceRange
import CallFrame.Proofs.UnsignedNumbers
import CallFrame.Proofs.SignedNumbers
import CallFrame.Proofs.FirstFaults
import CallFrame.Proofs.ScanFaults
import CallFrame.Proofs.UnsupportedCodes
import CallFrame.Proofs.EntryLocations
import CallFrame.Proofs.Numerals
import CallFrame.Proofs.BytePairs
import CallFrame.Proofs.ElfImages
import CallFrame.Proofs.ElfReading
import CallFrame.Proofs.ImageLoading
import CallFrame.Proofs.FieldValues
import CallFrame.Proofs.Conservation
