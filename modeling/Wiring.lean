import Wiring.Text.Join
import Wiring.Text.Segments
import Wiring.TypeName
import Wiring.SpelledPath
import Wiring.Unicode.IdentifierContinue
import Wiring.Unicode.LetterCase
import Wiring.Unicode.Blank
import Wiring.Text.SnakeCase
import Wiring.Location
import Wiring.Source.Identifier
import Wiring.Source.Lexer
import Wiring.Source.File
import Wiring.Event
import Wiring.Failure
import Wiring.Injectable
import Wiring.Artifact
import Wiring.Json.Printer
import Wiring.Settings
import Wiring.Emission.Factory
import Wiring.Emission.Component
import Wiring.Blueprint
import Wiring.Index.Add
import Wiring.Index.Resolve
import Wiring.Intake
import Wiring.Store.Memory
import Wiring.Store.Directory
import Wiring.Generation.Run
import Wiring.Build
import Wiring.Container.Bindings
import Wiring.Container.Recipe
import Wiring.Marker
import Wiring.Showcase
import Wiring.Proofs.Container.PostOrder
import Wiring.Proofs.Container.HostBindings
import Wiring.Proofs.Container.BindHistory
import Wiring.Proofs.Container.Freshness
import Wiring.Proofs.Container.MissingBindings
import Wiring.Proofs.Blueprint.CycleReport
import Wiring.Proofs.Store.Histories
import Wiring.Proofs.Source.PrintedTokens
import Wiring.Proofs.Emission.FactoryTokens
import Wiring.Proofs.Emission.FactoryItems
import Wiring.Proofs.Generation.Course
import Wiring.Proofs.Generation.Accounting
import Wiring.Proofs.Index.Footprint
import Wiring.Proofs.Generation.Staleness
import Wiring.Proofs.Generation.Duplicates
import Wiring.Proofs.Index.Placement
import Wiring.Proofs.Index.WalkedBodies
import Wiring.Proofs.Generation.Isolation
import Wiring.Proofs.Index.LiveItems
import Wiring.Proofs.Generation.TestBuilds
import Wiring.Proofs.Index.Rearranged
import Wiring.Proofs.Generation.FileOrder
import Wiring.Proofs.Text.SnakeIdentifiers
import Wiring.Proofs.Emission.SpelledNames
import Wiring.Proofs.Source.LexedWords
import Wiring.Proofs.Emission.ComponentTokens
import Wiring.Proofs.Emission.Agreement
import Wiring.Proofs.Source.Grammar.Keeping
import Wiring.Proofs.Source.Grammar.NamedParts
import Wiring.Proofs.Source.Grammar.NamedTypes
import Wiring.Proofs.Source.Grammar.NamedExpressions
import Wiring.Proofs.Source.Grammar.NamedItems
import Wiring.Proofs.Index.NamedPaths
import Wiring.Proofs.Generation.Identifiers
import Wiring.Proofs.Generation.Calls
import Wiring.Proofs.Store.Refinement
import Wiring.Proofs.Store.Leftovers
import Wiring.Proofs.Generation.Offers
import Wiring.Proofs.Generation.DistinctFiles
import Wiring.Proofs.Container.Lookups
import Wiring.Proofs.Container.TypedRetrieval
import Wiring.Proofs.Container.FurtherBindings
import Wiring.Proofs.Generation.Rejections
import Wiring.Proofs.Generation.Atomicity
import Wiring.Proofs.Generation.Interruptions
import Wiring.Proofs.Generation.Endings
import Wiring.Proofs.Generation.Progress
import Wiring.Proofs.Generation.Quiescence
import Wiring.Proofs.Generation.Repetition
import Wiring.Proofs.Index.Reexports
import Wiring.Proofs.Index.CrateInternal
import Wiring.Proofs.Index.RelativePaths
import Wiring.Proofs.Source.TestConditions
import Wiring.Proofs.Index.ImportedPaths
import Wiring.Proofs.Index.ReexportedModules
import Wiring.Proofs.Index.MarkedDeclarations
import Wiring.Proofs.Emission.InputOrder
import Wiring.Proofs.Index.FactoryRegistration
import Wiring.Proofs.Index.ConstructorOutputs
import Wiring.Proofs.Source.MarkerFaults
import Wiring.Proofs.Store.Clashes
import Wiring.Proofs.Store.Regeneration
import Wiring.Proofs.Store.AbandonedRuns
import Wiring.Proofs.Emission.RowOrder
import Wiring.Proofs.Settings.Variables
import Wiring.Proofs.Store.ReadBack
import Wiring.Proofs.Store.SparedManifests
import Wiring.Proofs.Generation.Preservation
import Wiring.Proofs.Generation.Mishaps
import Wiring.Proofs.Generation.Confinement
import Wiring.Proofs.Generation.SafeFailures
import Wiring.Proofs.Text.FoldedNames
import Wiring.Proofs.Emission.TypeTexts
import Wiring.Proofs.Index.ModuleBodies
