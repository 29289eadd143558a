import BoundQuery.Proofs.Condition.Kernel
import BoundQuery.Proofs.Condition.Malformed
import BoundQuery.Proofs.Condition.Rules
import BoundQuery.Proofs.Dialect.Names
import BoundQuery.Proofs.Draft.Chains
import BoundQuery.Proofs.Draft.Runs
import BoundQuery.Proofs.Equality.Congruence
import BoundQuery.Proofs.Fragment.Composition
import BoundQuery.Proofs.Session.Programs
import BoundQuery.Proofs.Statement.AnyStyle
import BoundQuery.Proofs.Statement.DialectDifference
import BoundQuery.Proofs.Statement.Noninterference
import BoundQuery.Proofs.Statement.OpenLimit
import BoundQuery.Proofs.Statement.Parentheses
import BoundQuery.Proofs.Statement.Placeholders
import BoundQuery.Proofs.Statement.Refusal
import BoundQuery.Proofs.Statement.Slots
import BoundQuery.Proofs.Statement.UniqueReading
import BoundQuery.Session
