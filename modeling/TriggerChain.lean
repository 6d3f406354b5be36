import TriggerChain.Main
import TriggerChain.Proofs.Window.Consistency
import TriggerChain.Proofs.Maker.Calls
import TriggerChain.Proofs.Maker.Steps
import TriggerChain.Proofs.Window.Order
import TriggerChain.Proofs.Maker.Reference
import TriggerChain.Proofs.Maker.Lawful
import TriggerChain.Proofs.Maker.Refinement
import TriggerChain.Proofs.Maker.Partition
import TriggerChain.Proofs.Maker.Coverage
import TriggerChain.Proofs.Maker.Simultaneous
import TriggerChain.Proofs.Maker.Sink
import TriggerChain.Proofs.Chain.Readout
import TriggerChain.Proofs.Chain.Totality
import TriggerChain.Proofs.Maker.LateArrivals
import TriggerChain.Proofs.Maker.Occurrences
import TriggerChain.Proofs.Maker.Lockstep
import TriggerChain.Proofs.Maker.Thinning
import TriggerChain.Proofs.Record.Moved
import TriggerChain.Proofs.Charge.Moved
import TriggerChain.Proofs.Maker.Carried
import TriggerChain.Proofs.Maker.Moved
import TriggerChain.Proofs.Chain.Moved
import TriggerChain.Proofs.Maker.Barrier
import TriggerChain.Proofs.Chain.Recording
import TriggerChain.Proofs.Text.Utf8
import TriggerChain.Proofs.Text.Lines
import TriggerChain.Proofs.File.RoundTrip
import TriggerChain.Proofs.Command.Desk
import TriggerChain.Proofs.Command.Actions
import TriggerChain.Proofs.Command.Tables
import TriggerChain.Proofs.Command.Names
import TriggerChain.Proofs.Command.Steps
import TriggerChain.Proofs.Command.Partitions
import TriggerChain.Proofs.Text.ByteOrder
import TriggerChain.Proofs.Settings.Keys
import TriggerChain.Proofs.Settings.KeyWise
import TriggerChain.Proofs.Maker.Requests
import TriggerChain.Proofs.Maker.Accounts
import TriggerChain.Proofs.Charge.LongestTrack
import TriggerChain.Proofs.Maker.Transcript
import TriggerChain.Proofs.Command.AllOrNothing
import TriggerChain.Proofs.Adjacency.LongestRun
import TriggerChain.Proofs.Adjacency.Budgets
import TriggerChain.Proofs.Charge.Collected
import TriggerChain.Proofs.Charge.SameChannel
import TriggerChain.Proofs.Window.Slide
import TriggerChain.Proofs.Maker.Bursts
import TriggerChain.Proofs.Maker.Justified
import TriggerChain.Proofs.Maker.Bundles
import TriggerChain.Proofs.Maker.Passthrough
import TriggerChain.Proofs.Charge.ClosedRuns
import TriggerChain.Proofs.Maker.FlatCharge
import TriggerChain.Proofs.Charge.Interleaved
import TriggerChain.Proofs.Charge.RecordedMeans
import TriggerChain.Proofs.File.Format
import TriggerChain.Proofs.File.TimeOrder
import TriggerChain.Proofs.File.Layout
import TriggerChain.Proofs.File.ResultTables
import TriggerChain.Proofs.Charge.Circle
