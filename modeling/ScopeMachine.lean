import ScopeMachine.Main
import ScopeMachine.Command.Directory
import ScopeMachine.Proofs.Environment.Agreement
import ScopeMachine.Proofs.Machine.Boundaries
import ScopeMachine.Proofs.Machine.Evaluation
import ScopeMachine.Proofs.Image.Codec
import ScopeMachine.Proofs.Machine.Interruption
import ScopeMachine.Proofs.Name.Interning
import ScopeMachine.Proofs.Code.Spelling
import ScopeMachine.Proofs.Code.Acceptance
import ScopeMachine.Proofs.Name.Twins
import ScopeMachine.Proofs.Environment.Twins
import ScopeMachine.Proofs.Code.Twins
import ScopeMachine.Proofs.Machine.Twins
import ScopeMachine.Proofs.Code.Decoder
import ScopeMachine.Proofs.Code.ReadBack
import ScopeMachine.Proofs.Environment.Lookup
import ScopeMachine.Proofs.Environment.Places
import ScopeMachine.Proofs.Environment.Immutability
import ScopeMachine.Proofs.Environment.Isolation
import ScopeMachine.Proofs.Machine.Actions
import ScopeMachine.Proofs.Code.Balance
import ScopeMachine.Proofs.Machine.StepByStep
import ScopeMachine.Proofs.Machine.Terms
import ScopeMachine.Proofs.Machine.Denials
import ScopeMachine.Proofs.Machine.Performing
import ScopeMachine.Proofs.Machine.Levels
import ScopeMachine.Proofs.Machine.Genuine
import ScopeMachine.Proofs.Environment.Properties
import ScopeMachine.Proofs.Register.Mask
import ScopeMachine.Proofs.Register.Consistency
import ScopeMachine.Proofs.Register.Queries
import ScopeMachine.Proofs.Machine.Configuration
import ScopeMachine.Proofs.Name.History
import ScopeMachine.Proofs.Code.Arena
import ScopeMachine.Proofs.Environment.Writing
import ScopeMachine.Proofs.Image.Truncation
import ScopeMachine.Proofs.Register.Iteration
import ScopeMachine.Proofs.Code.Comments
import ScopeMachine.Proofs.Register.Requirements
import ScopeMachine.Proofs.Code.Lines
import ScopeMachine.Proofs.Code.Listing
import ScopeMachine.Proofs.Environment.Bookkeeping
import ScopeMachine.Proofs.Name.Repetition
