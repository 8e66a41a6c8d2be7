import ConflictResolver.Python
import ConflictResolver.CleanUp
import ConflictResolver.LibRs.Declaration
import ConflictResolver.LibRs.Scanner
import ConflictResolver.LibRs.Regions
import ConflictResolver.LibRs.Simulation
import ConflictResolver.LibRs.Output
import ConflictResolver.LibRs.Rerun
import ConflictResolver.LibRs.Properties
import ConflictResolver.LibRs.Unclosed
import ConflictResolver.LibRs.Provenance
import ConflictResolver.Cargo.Patterns
import ConflictResolver.Cargo.Template
import ConflictResolver.Cargo.Resolve
import ConflictResolver.Cargo.Matching
import ConflictResolver.Cargo.Document
import ConflictResolver.Cargo.Members
import ConflictResolver.Cargo.Rewrite
import ConflictResolver.Cargo.Merge
import ConflictResolver.Cargo.Written
import ConflictResolver.Cargo.Unkeyed
import ConflictResolver.Cargo.Escapes
import ConflictResolver.Cargo.Spanning
import ConflictResolver.Cargo.Properties
import ConflictResolver.Cargo.Calm
import ConflictResolver.Cargo.Rerun
