import UnitSystems.Json.Reader
import UnitSystems.Main
import UnitSystems.Proofs.Command.Apart
import UnitSystems.Proofs.Command.Refusal
import UnitSystems.Proofs.Command.Workspace
import UnitSystems.Proofs.Definition.Json
import UnitSystems.Proofs.DefinitionFile.Concatenation
import UnitSystems.Proofs.DefinitionFile.Declared
import UnitSystems.Proofs.DefinitionFile.Edits
import UnitSystems.Proofs.DefinitionFile.LineStarts
import UnitSystems.Proofs.DefinitionFile.Order
import UnitSystems.Proofs.DefinitionFile.RoundTrip
import UnitSystems.Proofs.Dimension.Exponents
import UnitSystems.Proofs.Dimension.Json
import UnitSystems.Proofs.Dimension.Powers
import UnitSystems.Proofs.Expression.Parentheses
import UnitSystems.Proofs.Expression.Refinement
import UnitSystems.Proofs.Expression.Units
import UnitSystems.Proofs.Expression.Written
import UnitSystems.Proofs.Generated.Algebra
import UnitSystems.Proofs.Generated.Aliases
import UnitSystems.Proofs.Generated.Outline
import UnitSystems.Proofs.Generated.Parameters
import UnitSystems.Proofs.Generated.Paths
import UnitSystems.Proofs.Generated.Values
import UnitSystems.Proofs.Generation
import UnitSystems.Proofs.Json.RoundTrip
import UnitSystems.Proofs.Span.Expressions
