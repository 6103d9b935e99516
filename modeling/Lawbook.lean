/-
Lawbook.lean

Classes of laws, and the checking of laws against sampled values.

A law is a named predicate over sampled values; constraints combine laws; classes are named
constraints that extend other classes.  The library validates classes against generators of
values, keeps a ledger of verdicts, and writes reports that show the values that break a law.
-/
import Lawbook.Config.Overrides
import Lawbook.Config.Shared
import Lawbook.Json.Reader
import Lawbook.Json.Writer
import Lawbook.Proofs.Consistency
import Lawbook.Proofs.Once
import Lawbook.Proofs.Permanence
import Lawbook.Proofs.Uncached
import Lawbook.Scenario.Folder
import Lawbook.Scenario.Session
import Lawbook.Yaml.Node
import Lawbook.Proofs.Formula
import Lawbook.Proofs.Direct
import Lawbook.Proofs.Validations
import Lawbook.Proofs.Broken
import Lawbook.Proofs.Skipping
import Lawbook.Proofs.Parts
import Lawbook.Proofs.Printed
import Lawbook.Proofs.Outline
import Lawbook.Proofs.Tour
import Lawbook.Proofs.Itemized
import Lawbook.Proofs.Book
import Lawbook.Proofs.Confined
import Lawbook.Proofs.Apart
import Lawbook.Proofs.Declarations
import Lawbook.Proofs.Enrollment
import Lawbook.Proofs.Holdings
import Lawbook.Proofs.Mishaps
import Lawbook.Proofs.Breadth
import Lawbook.Proofs.Search
import Lawbook.Proofs.Longer
import Lawbook.Proofs.Queries
import Lawbook.Proofs.Grouping
import Lawbook.Proofs.Samples
import Lawbook.Proofs.Families
import Lawbook.Proofs.Coverage
import Lawbook.Proofs.Bases
import Lawbook.Proofs.Excerpts
import Lawbook.Proofs.Draws
import Lawbook.Proofs.Layers
import Lawbook.Proofs.Registration
import Lawbook.Proofs.Paths
import Lawbook.Proofs.Readings
import Lawbook.Proofs.Customized
import Lawbook.Proofs.Blame
import Lawbook.Proofs.Connectives
import Lawbook.Proofs.Folds
import Lawbook.Proofs.Entries
