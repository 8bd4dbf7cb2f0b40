import JsxLint.Dialect
import JsxLint.Lint
import JsxLint.Proofs.Gates
import JsxLint.Proofs.Sites
import JsxLint.Proofs.StoreHistory
import JsxLint.Proofs.DerivedWalk
import JsxLint.Proofs.DerivedReports
import JsxLint.Proofs.EarlyGates
import JsxLint.Proofs.Containment
import JsxLint.Proofs.WellFormedReports
import JsxLint.Proofs.ParameterShadowing
import JsxLint.Proofs.SignatureNames
import JsxLint.Proofs.Noninterference
import JsxLint.Proofs.StringFixes
import JsxLint.Proofs.BooleanNames
import JsxLint.Proofs.UnderscoredNames
import JsxLint.Proofs.HandlerNames
import JsxLint.Proofs.FixSelection
import JsxLint.Proofs.Rewrapping
import JsxLint.Proofs.KeyOrder
import JsxLint.Proofs.Settings
import JsxLint.Proofs.BooleanValues
import JsxLint.Proofs.OperandWrappers
import JsxLint.Proofs.OptionalChains
import JsxLint.Proofs.StringLiterals
import JsxLint.Proofs.LogicalChains
import JsxLint.Proofs.WrappingCalls
import JsxLint.Proofs.EnclosingFunctions
import JsxLint.Proofs.AscribedProps
import JsxLint.Proofs.ContainerPlaces
import JsxLint.Proofs.BooleanReports
import JsxLint.Proofs.RenderedMessages
import JsxLint.Proofs.Substitution
import JsxLint.Proofs.NameRegisters
import JsxLint.Proofs.BooleanPattern
import JsxLint.Proofs.ReportSummary
import JsxLint.Proofs.FunctionSearch
