import Requisite.Main
import Requisite.FileSystem.Memory
import Requisite.Proofs.Failure
import Requisite.Proofs.Nesting
import Requisite.Proofs.Once
import Requisite.Proofs.Unindexed
import Requisite.Proofs.Relative
import Requisite.Proofs.Scopes
import Requisite.Proofs.Roundtrip
import Requisite.Proofs.Words
import Requisite.Proofs.Height
import Requisite.Proofs.Circular
import Requisite.Proofs.Passage
import Requisite.Proofs.Published
import Requisite.Proofs.Settled
import Requisite.Proofs.Complete
import Requisite.Proofs.Lockstep
import Requisite.Proofs.Tiling
import Requisite.Proofs.Relayout
import Requisite.Proofs.Spans
import Requisite.Proofs.Sources
import Requisite.Proofs.Layers
import Requisite.Proofs.Semicolons
import Requisite.Proofs.Precedence
import Requisite.Proofs.SearchPaths
import Requisite.Proofs.Chains
import Requisite.Proofs.Compound
import Requisite.Proofs.Hoisting
import Requisite.Proofs.Integers
import Requisite.Proofs.Calls
import Requisite.Proofs.Shallow
import Requisite.Proofs.Canonical
import Requisite.Proofs.Equality
import Requisite.Proofs.Causes
import Requisite.Proofs.Insertion
import Requisite.Proofs.Completable
import Requisite.Proofs.Literals
import Requisite.Proofs.Completion
import Requisite.Proofs.Commands
import Requisite.Proofs.Highlighting
