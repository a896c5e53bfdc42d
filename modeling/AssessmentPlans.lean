import AssessmentPlans.Main
import AssessmentPlans.World
import AssessmentPlans.Proofs.Scope.Composition
import AssessmentPlans.Proofs.Plan.Validity
import AssessmentPlans.Proofs.Scope.Validity
import AssessmentPlans.Proofs.Json.Numeral
import AssessmentPlans.Proofs.Json.Text
import AssessmentPlans.Proofs.Json.Written
import AssessmentPlans.Proofs.Except
import AssessmentPlans.Proofs.Json.Canonical
import AssessmentPlans.Proofs.Json.Normal
import AssessmentPlans.Proofs.Json.RoundTrip
import AssessmentPlans.Proofs.Json.Spelling
import AssessmentPlans.Proofs.Json.Lookup
import AssessmentPlans.Proofs.Plan.Members
import AssessmentPlans.Proofs.Plan.Spelling
import AssessmentPlans.Proofs.Plan.RoundTrip
import AssessmentPlans.Proofs.Plan.Kept
import AssessmentPlans.Proofs.Plan.Storable
import AssessmentPlans.Proofs.Run
import AssessmentPlans.Proofs.Text.Split
import AssessmentPlans.Proofs.Text.Trim
import AssessmentPlans.Proofs.Config.Validity
import AssessmentPlans.Proofs.Config.Override
import AssessmentPlans.Proofs.DotEnv
import AssessmentPlans.Proofs.Config.Sources
import AssessmentPlans.Proofs.Files.Trail
import AssessmentPlans.Proofs.Files.Frame
import AssessmentPlans.Proofs.Sight
import AssessmentPlans.Proofs.Workspace.Saving
import AssessmentPlans.Proofs.Instant.Calendar
import AssessmentPlans.Proofs.Instant.Format
import AssessmentPlans.Proofs.Workspace.Lock
import AssessmentPlans.Proofs.Workspace.Locking
import AssessmentPlans.Proofs.Command.Reading
import AssessmentPlans.Proofs.Command.Planned
import AssessmentPlans.Proofs.Command.History
import AssessmentPlans.Scope.Observer
import AssessmentPlans.Proofs.Scope.Walk
import AssessmentPlans.Proofs.Scope.Report
import AssessmentPlans.Proofs.Execution
import AssessmentPlans.Proofs.Instant.Order
import AssessmentPlans.Proofs.Calm
import AssessmentPlans.Proofs.Workspace.Exclusion
import AssessmentPlans.Proofs.Disturbance
import AssessmentPlans.Proofs.Command.Atomicity
import AssessmentPlans.Proofs.Interleaving
import AssessmentPlans.Proofs.Workspace.Standing
import AssessmentPlans.Proofs.Workspace.Contention
import AssessmentPlans.Proofs.Command.Concurrency
import AssessmentPlans.Proofs.Command.Phases
import AssessmentPlans.Proofs.Command.Abandonment
import AssessmentPlans.Proofs.Workspace.Returning
import AssessmentPlans.Proofs.Command.Return
import AssessmentPlans.Proofs.Distinct
import AssessmentPlans.Proofs.Framework
import AssessmentPlans.Proofs.Pipeline
import AssessmentPlans.Proofs.Plan.Restriction
import AssessmentPlans.Proofs.Scope.Frame
import AssessmentPlans.Proofs.Scope.Normal
import AssessmentPlans.Proofs.Config.Template
import AssessmentPlans.Proofs.Json.Sorted
import AssessmentPlans.Proofs.Json.Kept
import AssessmentPlans.Proofs.Json.Form
import AssessmentPlans.Proofs.Plan.Form
import AssessmentPlans.Proofs.Yaml.Gap
import AssessmentPlans.Proofs.Yaml.Plain
import AssessmentPlans.Proofs.Yaml.Block
import AssessmentPlans.Proofs.Yaml.Quoted
import AssessmentPlans.Proofs.Yaml.Lexer
import AssessmentPlans.Proofs.Yaml.Scalar
import AssessmentPlans.Proofs.Yaml.Allowed
import AssessmentPlans.Proofs.Yaml.Mapping
import AssessmentPlans.Proofs.Yaml.Events
import AssessmentPlans.Proofs.Scope.Selection
import AssessmentPlans.Proofs.Scope.Repetition
import AssessmentPlans.Proofs.Plan.Verdict
import AssessmentPlans.Proofs.Plan.Rules
import AssessmentPlans.Proofs.Plan.Contents
import AssessmentPlans.Proofs.Definition.Requirement
import AssessmentPlans.Proofs.Definition.Repetition
import AssessmentPlans.Proofs.Definition.Source
import AssessmentPlans.Proofs.Scope.Warnings
import AssessmentPlans.Proofs.Files.Sound
import AssessmentPlans.Proofs.Files.Directory
import AssessmentPlans.Proofs.Bundle
import AssessmentPlans.Proofs.Scope.Locations
import AssessmentPlans.Proofs.Config.Repetition
