import TypedClient.Main
import TypedClient.Proofs.CycleGuard
import TypedClient.Proofs.EnumReferences
import TypedClient.Proofs.OperationIds
import TypedClient.Proofs.ResolutionModes
import TypedClient.Proofs.DocumentTypes
import TypedClient.Proofs.Sessions
import TypedClient.Proofs.Strictness
import TypedClient.Proofs.SchemasAlike
import TypedClient.Proofs.OperationsAlike
import TypedClient.Proofs.PathOrder
import TypedClient.Proofs.ParameterLists
import TypedClient.Proofs.BodySpellings
import TypedClient.Script.Literal
import TypedClient.Proofs.Rounding
import TypedClient.Proofs.NumberText
import TypedClient.Proofs.TextTokens
import TypedClient.Proofs.JsonLexemes
import TypedClient.Proofs.ObjectLiterals
import TypedClient.Proofs.CamelWords
import TypedClient.Proofs.PropertyKeys
import TypedClient.Proofs.KeyLiterals
import TypedClient.Proofs.ParameterNames
import TypedClient.Proofs.Appearances
import TypedClient.Proofs.WrittenClients
import TypedClient.Proofs.ResolutionOrder
import TypedClient.Proofs.CommentEnds
import TypedClient.Proofs.CommentTexts
import TypedClient.Proofs.DocComments
import TypedClient.Proofs.DryRuns
import TypedClient.Proofs.GenerateRuns
import TypedClient.Proofs.NestedSchemas
import TypedClient.Proofs.RegistryWrites
import TypedClient.Proofs.EmittedNames
import TypedClient.Proofs.Diagnostics
import TypedClient.Proofs.Unfoldings
import TypedClient.Proofs.ResolutionKeys
import TypedClient.Proofs.EnumMembers
import TypedClient.Proofs.OperationPlaces
import TypedClient.Proofs.RegistryHistory
import TypedClient.Proofs.DefinitionNames
import TypedClient.Proofs.SuccessResponses
import TypedClient.Proofs.LegalNames
import TypedClient.Proofs.Slugs
import TypedClient.Proofs.SlugPasses
import TypedClient.Proofs.OptionPrecedence
import TypedClient.Proofs.JsonFaults
import TypedClient.Proofs.LoadFailures
