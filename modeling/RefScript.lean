import RefScript.Main
import RefScript.Program.FileTree
import RefScript.Proofs.Execution.CallerFrames
import RefScript.Proofs.Execution.Noninterference
import RefScript.Proofs.Script.Reading
import RefScript.Proofs.Store.Notifications
import RefScript.Proofs.Execution.Termination
import RefScript.Proofs.Store.Atomicity
import RefScript.Proofs.Execution.DepthLimit
import RefScript.Proofs.Text.DataScanning
import RefScript.Proofs.Store.Histories
import RefScript.Proofs.Store.Slots
import RefScript.Proofs.Store.References
import RefScript.Proofs.Store.Dangling
import RefScript.Proofs.Store.Ownership
import RefScript.Proofs.Script.Misfit
import RefScript.Proofs.Script.Joining
import RefScript.Proofs.Execution.Irrelevance
import RefScript.Proofs.Execution.Renaming
import RefScript.Proofs.Execution.PlainBlocks
import RefScript.Proofs.Execution.ConsoleContents
import RefScript.Proofs.Execution.InputOrder
import RefScript.Proofs.Execution.UnreadInput
import RefScript.Proofs.Program.Agreement
import RefScript.Proofs.Store.Places
import RefScript.Proofs.Store.Aliasing
import RefScript.Proofs.Store.Endings
import RefScript.Proofs.Execution.Parameters
import RefScript.Proofs.Execution.Shadowing
import RefScript.Proofs.Execution.Faults
import RefScript.Proofs.Execution.CallEntry
import RefScript.Proofs.Execution.Placement
import RefScript.Proofs.Script.Recovery
import RefScript.Proofs.Text.Resuming
import RefScript.Proofs.Text.Tidying
import RefScript.Proofs.Script.Tidying
import RefScript.Proofs.Execution.PrintedValues
import RefScript.Proofs.Store.Forgeries
import RefScript.Proofs.Store.Tracking
import RefScript.Proofs.Program.Files
