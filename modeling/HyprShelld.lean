import HyprShelld.Appearance.Hyprsunset
import HyprShelld.Appearance.HyprsunsetRuns
import HyprShelld.Appearance.Schedule
import HyprShelld.Authority.Activation
import HyprShelld.Authority.Compatible
import HyprShelld.Authority.Drift
import HyprShelld.Authority.Identity
import HyprShelld.Authority.Mirrors
import HyprShelld.Authority.Operations
import HyprShelld.Authority.Records
import HyprShelld.Authority.Requirement
import HyprShelld.Authority.Retry
import HyprShelld.Authority.Rules
import HyprShelld.Authority.Runs
import HyprShelld.Authority.Store
import HyprShelld.Authority.Transaction
import HyprShelld.Authority.Uint64Text
import HyprShelld.Canonical.Codec
import HyprShelld.Canonical.Exact
import HyprShelld.Canonical.Number
import HyprShelld.Canonical.Serializer
import HyprShelld.Canonical.SerializerSpec
import HyprShelld.Canonical.Text
import HyprShelld.Canonical.Writes
import HyprShelld.Client.ExactEdit
import HyprShelld.Client.OptionEdit
import HyprShelld.Client.SemanticVersions
import HyprShelld.Client.SnapshotEditor
import HyprShelld.Component.Configuration
import HyprShelld.Component.ConfigurationAgain
import HyprShelld.Component.ConfigurationFacts
import HyprShelld.Component.ConfigurationRoot
import HyprShelld.Component.ConfigurationRuns
import HyprShelld.Component.ConfigurationService
import HyprShelld.Component.ConfigurationStore
import HyprShelld.Component.Contract
import HyprShelld.Component.Declarative
import HyprShelld.Component.DormantState
import HyprShelld.Component.DurableConfiguration
import HyprShelld.Component.Identifiers
import HyprShelld.Component.NumberNormalForm
import HyprShelld.Component.PackageBundle
import HyprShelld.Component.PackagePath
import HyprShelld.Component.Persistable
import HyprShelld.Component.SchemaFacts
import HyprShelld.Component.SchemaParser
import HyprShelld.Component.SettingsAgain
import HyprShelld.Component.SettingsSchema
import HyprShelld.Component.SettledSettings
import HyprShelld.Component.StoredSettings
import HyprShelld.Component.StrictJson
import HyprShelld.Coordinator.Chain
import HyprShelld.Coordinator.Commits
import HyprShelld.Coordinator.Containment
import HyprShelld.Coordinator.EffectivePlan
import HyprShelld.Coordinator.Freshness
import HyprShelld.Coordinator.HealthFacts
import HyprShelld.Coordinator.HealthStore
import HyprShelld.Coordinator.Idle
import HyprShelld.Coordinator.Operations
import HyprShelld.Coordinator.Packages
import HyprShelld.Coordinator.PlanBuilder
import HyprShelld.Coordinator.PlanController
import HyprShelld.Coordinator.PlanFacts
import HyprShelld.Coordinator.Probation
import HyprShelld.Coordinator.Reachable
import HyprShelld.Coordinator.UnitMonitor
import HyprShelld.Coordinator.UnitMonitorFacts
import HyprShelld.Coordinator.UnitMonitorRuns
import HyprShelld.Desired.Bindings
import HyprShelld.Desired.Chord
import HyprShelld.Desired.CrossChecks
import HyprShelld.Desired.ExactTokens
import HyprShelld.Desired.Fields
import HyprShelld.Desired.Graphs
import HyprShelld.Desired.Nested
import HyprShelld.Desired.Parse
import HyprShelld.Desired.Readers
import HyprShelld.Desired.RecordTrips
import HyprShelld.Desired.Records
import HyprShelld.Desired.Revision
import HyprShelld.Desired.RootTrip
import HyprShelld.Desired.RoundTrip
import HyprShelld.Desired.Safety
import HyprShelld.Desired.Scopes
import HyprShelld.Desired.Selectors
import HyprShelld.Desired.Serialize
import HyprShelld.Desired.Tokens
import HyprShelld.Desired.Types
import HyprShelld.Display.Accepted
import HyprShelld.Display.Candidate
import HyprShelld.Display.Merge
import HyprShelld.Display.Profile
import HyprShelld.Display.Realization
import HyprShelld.FixedRecords.Capture
import HyprShelld.FixedRecords.Files
import HyprShelld.FixedRecords.Observation
import HyprShelld.FixedRecords.Passes
import HyprShelld.FixedRecords.Quiet
import HyprShelld.FixedRecords.Snapshot
import HyprShelld.Hyprland.ActionCatalog
import HyprShelld.Hyprland.Catalog
import HyprShelld.Hyprland.CatalogOptions
import HyprShelld.Hyprland.ContractAgreement
import HyprShelld.Hyprland.ContractCompilation
import HyprShelld.Hyprland.ContractCompiler
import HyprShelld.Hyprland.ContractEvaluation
import HyprShelld.Hyprland.DefaultChords
import HyprShelld.Hyprland.DefaultKeybindings
import HyprShelld.Hyprland.Platform
import HyprShelld.Hyprland.Validation
import HyprShelld.Inspection.SessionInvariant
import HyprShelld.Inspection.SessionLimits
import HyprShelld.Inspection.SessionRuns
import HyprShelld.Inspection.Sessions
import HyprShelld.Ipc.ReloadEvents
import HyprShelld.Json.Binary64
import HyprShelld.Json.ExactDecimal
import HyprShelld.Json.Injective
import HyprShelld.Json.Integers
import HyprShelld.Json.Limits
import HyprShelld.Json.Number
import HyprShelld.Json.NumberText
import HyprShelld.Json.Object
import HyprShelld.Json.ReadBack
import HyprShelld.Json.Reader
import HyprShelld.Json.Render
import HyprShelld.Json.RenderText
import HyprShelld.Json.RoundTrip
import HyprShelld.Json.Schema
import HyprShelld.Json.Shape
import HyprShelld.Json.SignificantDigits
import HyprShelld.Json.Size
import HyprShelld.Json.Sound
import HyprShelld.Json.Value
import HyprShelld.Lua.Constructor
import HyprShelld.Lua.Lexer
import HyprShelld.Renderer.Emission
import HyprShelld.Renderer.Exact
import HyprShelld.Renderer.Generation
import HyprShelld.Renderer.Keybinds
import HyprShelld.Renderer.Lua
import HyprShelld.Renderer.LuaLiterals
import HyprShelld.Renderer.LuaNumbers
import HyprShelld.Renderer.LuaTables
import HyprShelld.Renderer.Modules
import HyprShelld.Renderer.Payload
import HyprShelld.Support.Bytes
import HyprShelld.Support.Chains
import HyprShelld.Support.Checked
import HyprShelld.Support.Except
import HyprShelld.Support.Execution
import HyprShelld.Support.Inheritance
import HyprShelld.Support.Interleaving
import HyprShelld.Support.Lines
import HyprShelld.Support.OrderedMap
import HyprShelld.Support.Pattern
import HyprShelld.Support.Program
import HyprShelld.Support.Repetition
import HyprShelld.Support.Run
import HyprShelld.Surface.Artifact
import HyprShelld.Surface.Plan
import HyprShelld.Surface.PlanTrip
import HyprShelld.Surface.Removal
import HyprShelld.Surface.Written
import HyprShelld.Text.Decimal
import HyprShelld.Text.Numeral
import HyprShelld.Text.Strings
import HyprShelld.Text.Utf16
import HyprShelld.Text.Utf8
import HyprShelld.Workspaces.Consistency
import HyprShelld.Workspaces.Covering
import HyprShelld.Workspaces.Freshness
import HyprShelld.Workspaces.Protocol
import HyprShelld.Workspaces.Source
