import BindingModel.Api.BoundClass
import BindingModel.Api.BoundType
import BindingModel.Api.ClassGraph
import BindingModel.Api.ClassStore
import BindingModel.Api.Function
import BindingModel.Api.Model
import BindingModel.Api.Property
import BindingModel.Api.RejectionLog
import BindingModel.Api.Substitution
import BindingModel.Assembly.Added
import BindingModel.Assembly.Assemble
import BindingModel.Assembly.Consistency
import BindingModel.Assembly.Construction
import BindingModel.Assembly.Declare
import BindingModel.Assembly.DefaultValue
import BindingModel.Assembly.Edit
import BindingModel.Assembly.EnumScan
import BindingModel.Assembly.FunctionDraft
import BindingModel.Assembly.Include
import BindingModel.Assembly.Inheritance
import BindingModel.Assembly.Members
import BindingModel.Assembly.Operators
import BindingModel.Assembly.Policies
import BindingModel.Assembly.State
import BindingModel.Assembly.Warning
import BindingModel.Error
import BindingModel.FlagSet
import BindingModel.Graph.Order
import BindingModel.Graph.Search
import BindingModel.Header.Basic
import BindingModel.Header.Lookup
import BindingModel.Lookup.Basic
import BindingModel.Lookup.Binding
import BindingModel.Pattern
import BindingModel.Proofs.Api.Ancestors
import BindingModel.Proofs.Api.Occurrences
import BindingModel.Proofs.Api.Placeholders
import BindingModel.Proofs.Api.Replacement
import BindingModel.Proofs.Assembly.Advance
import BindingModel.Proofs.Assembly.Agreement
import BindingModel.Proofs.Assembly.Alike
import BindingModel.Proofs.Assembly.AlikePasses
import BindingModel.Proofs.Assembly.Arguments
import BindingModel.Proofs.Assembly.Bases
import BindingModel.Proofs.Assembly.Blocks
import BindingModel.Proofs.Assembly.Cloning
import BindingModel.Proofs.Assembly.ConstructorNames
import BindingModel.Proofs.Assembly.Copies
import BindingModel.Proofs.Assembly.Descent
import BindingModel.Proofs.Assembly.Drafting
import BindingModel.Proofs.Assembly.Evolution
import BindingModel.Proofs.Assembly.Failure
import BindingModel.Proofs.Assembly.Filing
import BindingModel.Proofs.Assembly.Fillings
import BindingModel.Proofs.Assembly.FinishedOrder
import BindingModel.Proofs.Assembly.Hierarchy
import BindingModel.Proofs.Assembly.ImplicitCopies
import BindingModel.Proofs.Assembly.Instances
import BindingModel.Proofs.Assembly.InterfacePolicies
import BindingModel.Proofs.Assembly.Labels
import BindingModel.Proofs.Assembly.MissingEnums
import BindingModel.Proofs.Assembly.Origins
import BindingModel.Proofs.Assembly.Overloads
import BindingModel.Proofs.Assembly.Ownership
import BindingModel.Proofs.Assembly.Passes
import BindingModel.Proofs.Assembly.Positions
import BindingModel.Proofs.Assembly.Precedence
import BindingModel.Proofs.Assembly.Provenance
import BindingModel.Proofs.Assembly.Registration
import BindingModel.Proofs.Assembly.Repetition
import BindingModel.Proofs.Assembly.Returned
import BindingModel.Proofs.Assembly.Scopes
import BindingModel.Proofs.Assembly.Settling
import BindingModel.Proofs.Assembly.Shelves
import BindingModel.Proofs.Assembly.Siblings
import BindingModel.Proofs.Assembly.Stages
import BindingModel.Proofs.Assembly.Summaries
import BindingModel.Proofs.Assembly.Termination
import BindingModel.Proofs.Assembly.Visits
import BindingModel.Proofs.Error
import BindingModel.Proofs.FlagSet
import BindingModel.Proofs.Graph.ClassGraph
import BindingModel.Proofs.Graph.Counting
import BindingModel.Proofs.Graph.Cycles
import BindingModel.Proofs.Graph.GreedyOrder
import BindingModel.Proofs.Graph.LeastOrder
import BindingModel.Proofs.Graph.NestedDefaults
import BindingModel.Proofs.Graph.Search
import BindingModel.Proofs.Lookup.Agreement
import BindingModel.Proofs.Rule.CopiedMods
import BindingModel.Proofs.Rule.Learning
import BindingModel.Proofs.Rule.SameMods
import BindingModel.Proofs.Rule.SameRules
import BindingModel.Proofs.TypeExpr.Lexing
import BindingModel.Proofs.TypeExpr.Readings
import BindingModel.Proofs.TypeExpr.Rereading
import BindingModel.Proofs.TypeExpr.RoundTrip
import BindingModel.Proofs.TypeExpr.Scanning
import BindingModel.Proofs.TypeExpr.Spelling
import BindingModel.Regex.Basic
import BindingModel.Regex.CharSet
import BindingModel.Regex.CharSetReader
import BindingModel.Regex.Engine
import BindingModel.Regex.Reader
import BindingModel.Rule.AddedFunction
import BindingModel.Rule.Database
import BindingModel.Rule.Entry
import BindingModel.Rule.Modification
import BindingModel.Rule.Policy
import BindingModel.Rule.Rejection
import BindingModel.Signature.Normal
import BindingModel.Signature.Reader
import BindingModel.Spelled
import BindingModel.Text.Alphabetic
import BindingModel.Text.CharClass
import BindingModel.Text.Cut
import BindingModel.Text.Integer
import BindingModel.Text.Numeric
import BindingModel.Text.WordChar
import BindingModel.TypeExpr.Basic
import BindingModel.TypeExpr.Reader
import BindingModel.TypeExpr.Token
import BindingModel.Proofs.Header.AliasLoops
import BindingModel.Proofs.Lookup.Levels
import BindingModel.Proofs.Lookup.Arrays
import BindingModel.Proofs.Signature.Normal
import BindingModel.Proofs.Lookup.Spelling
import BindingModel.Proofs.Signature.Pieces
import BindingModel.Proofs.Text.Integer
import BindingModel.Proofs.Lookup.Dimensions
import BindingModel.Proofs.Lookup.Innermost
import BindingModel.Proofs.Assembly.ArgumentEdits
import BindingModel.Proofs.Assembly.Verdicts
import BindingModel.Proofs.Assembly.FreeOperators
import BindingModel.Proofs.Lookup.UsedNames
import BindingModel.Proofs.Assembly.OperatorScopes
import BindingModel.Proofs.Assembly.AddedFunctions
import BindingModel.Proofs.Assembly.CopyKinds
import BindingModel.Proofs.Assembly.Defaults
import BindingModel.Proofs.Text.Cut
import BindingModel.Proofs.Assembly.ArgumentNames
import BindingModel.Proofs.Assembly.ConstructorDefaults
import BindingModel.Proofs.Api.ArrayMarks
import BindingModel.Proofs.Assembly.ArrayEdits
import BindingModel.Proofs.Assembly.CopyMarks
import BindingModel.Proofs.Assembly.OperatorMarks
import BindingModel.Proofs.Assembly.MarkedArrays
import BindingModel.Proofs.Text.Trim
import BindingModel.Proofs.Signature.Nesting
import BindingModel.Proofs.TypeExpr.Declarations
import BindingModel.Proofs.TypeExpr.Brackets
import BindingModel.Proofs.Signature.Parameters
import BindingModel.Proofs.Signature.Functions
import BindingModel.Proofs.Pattern
import BindingModel.Proofs.Regex.Matching
import BindingModel.Proofs.Regex.Reading
import BindingModel.Proofs.Rule.Rejections
import BindingModel.Proofs.TypeExpr.Words
import BindingModel.Proofs.Api.PropertyClauses
import BindingModel.Proofs.TypeExpr.FunctionPointers
import BindingModel.Proofs.Rule.Candidates
import BindingModel.Proofs.Lookup.Qualifiers
import BindingModel.Proofs.Assembly.MissingTypes
import BindingModel.Catalog
import BindingModel.Text.Bytes
import BindingModel.Assembly.IncludeResolver
import BindingModel.Api.IndexedRegistry
import BindingModel.Rule.IndexedDatabase
import BindingModel.Proofs.Api.RejectionReport
import BindingModel.Proofs.Assembly.IncludePaths
import BindingModel.Proofs.Text.Split
import BindingModel.Proofs.Text.Bytes
import BindingModel.Proofs.Catalog
import BindingModel.Proofs.Api.RegistryHistory
import BindingModel.Proofs.Rule.Registrations
