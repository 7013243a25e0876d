import ScriptSandbox.Main
import ScriptSandbox.Policy.NameRule
import ScriptSandbox.Proofs.Enforce.Changes
import ScriptSandbox.Proofs.Enforce.Declarations
import ScriptSandbox.Proofs.Enforce.Outcome
import ScriptSandbox.Proofs.Enforce.PairedDeclarations
import ScriptSandbox.Proofs.Enforce.PairedReferences
import ScriptSandbox.Proofs.Enforce.PairedVerdicts
import ScriptSandbox.Proofs.Enforce.Policy
import ScriptSandbox.Proofs.Enforce.References
import ScriptSandbox.Proofs.Enforce.Stability
import ScriptSandbox.Proofs.Enforce.Standing
import ScriptSandbox.Proofs.Enforce.Verdicts
import ScriptSandbox.Proofs.Enforce.Functions
import ScriptSandbox.Proofs.Enforce.Generated
import ScriptSandbox.Proofs.Enforce.Guards
import ScriptSandbox.Proofs.Gate.Attributes
import ScriptSandbox.Proofs.Gate.Backticks
import ScriptSandbox.Proofs.Gate.Copies
import ScriptSandbox.Proofs.Gate.Declared
import ScriptSandbox.Proofs.Gate.Dumping
import ScriptSandbox.Proofs.Gate.Guarding
import ScriptSandbox.Proofs.Gate.Handle
import ScriptSandbox.Proofs.Gate.Growth
import ScriptSandbox.Proofs.Gate.Trail
import ScriptSandbox.Proofs.Gate.Rejected
import ScriptSandbox.Proofs.Gate.Revalidation
import ScriptSandbox.Proofs.Gate.Spelling
import ScriptSandbox.Proofs.Gate.Validation
import ScriptSandbox.Proofs.Harvest.Changes
import ScriptSandbox.Proofs.Harvest.Defining
import ScriptSandbox.Proofs.Json.Names
import ScriptSandbox.Proofs.Policy.Changes
import ScriptSandbox.Proofs.Policy.Frame
import ScriptSandbox.Proofs.Runs
import ScriptSandbox.Proofs.Tree.Dumped
import ScriptSandbox.Proofs.Tree.Fresh
import ScriptSandbox.Proofs.Tree.Loaded
import ScriptSandbox.Proofs.Tree.Names
import ScriptSandbox.Proofs.Tree.Nodes
import ScriptSandbox.Proofs.Walk.Acceptance
import ScriptSandbox.Proofs.Walk.Coverage
import ScriptSandbox.Proofs.Walk.Offers
import ScriptSandbox.Proofs.Walk.Placement
import ScriptSandbox.Tree.Build
import ScriptSandbox.Tree.Path
import ScriptSandbox.Tree.Script
import ScriptSandbox.Proofs.Tree.Positions
import ScriptSandbox.Proofs.Gate.Recording
import ScriptSandbox.Proofs.Gate.OwnDefinitions
import ScriptSandbox.Proofs.Policy.AuditFile
import ScriptSandbox.Proofs.FollowedRuns
import ScriptSandbox.Proofs.Walk.Conditional
import ScriptSandbox.Proofs.Policy.Relaxed
import ScriptSandbox.Proofs.Enforce.Relaxed
import ScriptSandbox.Proofs.Harvest.RelaxedTrusted
import ScriptSandbox.Proofs.Harvest.RelaxedOwn
import ScriptSandbox.Proofs.Gate.Relaxation
import ScriptSandbox.Proofs.Gate.Loosening
import ScriptSandbox.Proofs.Tree.Flattened
import ScriptSandbox.Proofs.Walk.Flattening
import ScriptSandbox.Proofs.Enforce.Flattening
import ScriptSandbox.Proofs.Harvest.Flattening
import ScriptSandbox.Proofs.Gate.Flattening
import ScriptSandbox.Proofs.Harvest.References
import ScriptSandbox.Proofs.Gate.TrustedReferences
import ScriptSandbox.Proofs.Policy.Definitions
import ScriptSandbox.Proofs.Enforce.Independence
import ScriptSandbox.Proofs.Gate.Order
import ScriptSandbox.Proofs.Tree.Format
import ScriptSandbox.Proofs.Tree.Marks
import ScriptSandbox.Proofs.Enforce.Closures
import ScriptSandbox.Proofs.Gate.Closures
import ScriptSandbox.Proofs.Enforce.Conclusions
import ScriptSandbox.Proofs.Enforce.Readable
import ScriptSandbox.Proofs.Enforce.Shaped
import ScriptSandbox.Proofs.Harvest.Readable
import ScriptSandbox.Proofs.Harvest.Shaped
import ScriptSandbox.Proofs.Gate.Readable
import ScriptSandbox.Proofs.Gate.Shaped
import ScriptSandbox.Proofs.Tree.Shaped
import ScriptSandbox.Proofs.Tree.Hidden
import ScriptSandbox.Proofs.Walk.Shaped
import ScriptSandbox.Proofs.CommandLine.Crashes
import ScriptSandbox.Proofs.Config.Places
import ScriptSandbox.Proofs.Config.Grammar
import ScriptSandbox.Proofs.Config.Tables
import ScriptSandbox.Proofs.Json.Reordered
import ScriptSandbox.Proofs.Config.Contents
import ScriptSandbox.Proofs.Config.Order
import ScriptSandbox.Proofs.Walk.Results
import ScriptSandbox.Proofs.Enforce.Judged
import ScriptSandbox.Proofs.Enforce.Statics
import ScriptSandbox.Proofs.Gate.Statics
import ScriptSandbox.Proofs.Enforce.Substitution
import ScriptSandbox.Proofs.Gate.Substitution
import ScriptSandbox.Proofs.Walk.Postorder
import ScriptSandbox.Proofs.Policy.AuditFields
import ScriptSandbox.Proofs.Gate.Canonical
