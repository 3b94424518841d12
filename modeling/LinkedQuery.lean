import LinkedQuery.Main
import LinkedQuery.Proofs.Results.Accounting
import LinkedQuery.Proofs.Results.Additions
import LinkedQuery.Proofs.Results.Aliases
import LinkedQuery.Proofs.Results.Coercion
import LinkedQuery.Proofs.Results.Constraints
import LinkedQuery.Proofs.Results.Containers
import LinkedQuery.Proofs.Results.Contexts
import LinkedQuery.Proofs.Results.Datatypes
import LinkedQuery.Proofs.Results.Erasure
import LinkedQuery.Proofs.Results.Expansion
import LinkedQuery.Proofs.Results.Faults
import LinkedQuery.Proofs.Results.Flattening
import LinkedQuery.Proofs.Results.Forms
import LinkedQuery.Proofs.Results.Ignored
import LinkedQuery.Proofs.Results.Instantiation
import LinkedQuery.Proofs.Results.Loaders
import LinkedQuery.Proofs.Results.Loss
import LinkedQuery.Proofs.Results.Naming
import LinkedQuery.Proofs.Results.Optional
import LinkedQuery.Proofs.Results.Order
import LinkedQuery.Proofs.Results.Positions
import LinkedQuery.Proofs.Results.Projections
import LinkedQuery.Proofs.Results.Qualifiers
import LinkedQuery.Proofs.Results.Rereading
import LinkedQuery.Proofs.Results.Subjects
import LinkedQuery.Proofs.Results.Terms
import LinkedQuery.Proofs.Results.Tokens
import LinkedQuery.Proofs.Results.WarningOrder
import LinkedQuery.Proofs.Results.WarningPlaces
import LinkedQuery.Proofs.Solutions.Conjunction
import LinkedQuery.Proofs.Variables.Enrollment
