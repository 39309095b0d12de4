import CommandSpec.Bindings.Generate
import CommandSpec.CommandLine.Run
import CommandSpec.Load
import CommandSpec.Main
import CommandSpec.Spec.Edit
import CommandSpec.Spec.Walk
import CommandSpec.Tree.Dump
import CommandSpec.Tree.Json
import CommandSpec.Yaml.Block
import CommandSpec.Proofs.Outline
import CommandSpec.Proofs.Inheritance
import CommandSpec.Proofs.RecordFields
import CommandSpec.Proofs.Planning
import CommandSpec.Proofs.TopDownPlan
import CommandSpec.Proofs.Plannable
import CommandSpec.Proofs.RecordChains
import CommandSpec.Proofs.PartialOutput
import CommandSpec.Proofs.Loading
import CommandSpec.Proofs.RecordReading
import CommandSpec.Proofs.WrittenFields
import CommandSpec.Proofs.DumpRoundTrip
import CommandSpec.Proofs.DecodedDocuments
import CommandSpec.Proofs.UnknownFields
import CommandSpec.Proofs.BlankDocuments
import CommandSpec.Proofs.ScopeSessions
import CommandSpec.Proofs.NameChars
import CommandSpec.Proofs.SourceLines
import CommandSpec.Proofs.SourceReader
import CommandSpec.Proofs.PlanNames
import CommandSpec.Proofs.ReadableSource
import CommandSpec.Proofs.LayoutLines
import CommandSpec.Proofs.DocComments
import CommandSpec.Proofs.FreeText
import CommandSpec.Proofs.TypeNames
import CommandSpec.Proofs.LegalNames
import CommandSpec.Proofs.ScalarTexts
import CommandSpec.Proofs.TableSwitch
import CommandSpec.Proofs.Literals
import CommandSpec.Proofs.CommandTable
import CommandSpec.Proofs.NamedEntries
import CommandSpec.Proofs.FieldOrder
import CommandSpec.Proofs.DeclarationOrder
import CommandSpec.Proofs.KeptDefinitions
import CommandSpec.Proofs.AddedCommands
import CommandSpec.Proofs.SinkWrites
import CommandSpec.Proofs.Folders
import CommandSpec.Proofs.FolderRuns
import CommandSpec.Proofs.FailedRuns
import CommandSpec.Proofs.SpelledRequests
import CommandSpec.Proofs.GenerateRuns
import CommandSpec.Proofs.NameCollisions
import CommandSpec.Proofs.AsciiNames
import CommandSpec.Proofs.OptionForms
import CommandSpec.Proofs.WalkRuns
import CommandSpec.Proofs.NullFields
import CommandSpec.Proofs.SettledFields
import CommandSpec.Proofs.EntryDecoding
import CommandSpec.Proofs.ComponentUse
import CommandSpec.Proofs.Nesting
import CommandSpec.Proofs.NestedLayout
import CommandSpec.Proofs.CommentLines
import CommandSpec.Proofs.SnakeSegments
