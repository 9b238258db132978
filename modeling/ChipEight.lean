import ChipEight.Machine.Operation
import ChipEight.Main
import ChipEight.Proofs.Aliasing
import ChipEight.Proofs.Calls.Lifo
import ChipEight.Proofs.CommandLine.Layout
import ChipEight.Proofs.Complaints
import ChipEight.Proofs.Decimal
import ChipEight.Proofs.Dump
import ChipEight.Proofs.Events
import ChipEight.Proofs.Flags
import ChipEight.Proofs.Flow
import ChipEight.Proofs.Font
import ChipEight.Proofs.Footprint
import ChipEight.Proofs.Hits
import ChipEight.Proofs.Keys
import ChipEight.Proofs.Loading
import ChipEight.Proofs.Loose.Range
import ChipEight.Proofs.Parity
import ChipEight.Proofs.RandomNumbers
import ChipEight.Proofs.Reset
import ChipEight.Proofs.Session.Ending
import ChipEight.Proofs.Session.Freshness
import ChipEight.Proofs.Session.Isolation
import ChipEight.Proofs.Session.Pacing
import ChipEight.Proofs.Strictness
import ChipEight.Proofs.Timers
import ChipEight.Proofs.Transfer
import ChipEight.Proofs.Waiting
import ChipEight.Proofs.Window.Missing
