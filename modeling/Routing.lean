import Routing.Route.Order
import Routing.Route.Document
import Routing.Cache.Shared
import Routing.Proofs.Capacity
import Routing.Proofs.Expansion
import Routing.Proofs.Inclusion
import Routing.Proofs.LiteralRoutes
import Routing.Proofs.Transparency
import Routing.Proofs.Viability
import Routing.Proofs.Recency
import Routing.Proofs.Expiry
import Routing.Proofs.Occupancy
import Routing.Proofs.StackProperty
import Routing.Proofs.Accounting
import Routing.Proofs.Layering
import Routing.Proofs.LifeCycle
import Routing.Proofs.Suspension
import Routing.Proofs.Concatenation
import Routing.Proofs.Tiling
import Routing.Proofs.Comparison
import Routing.Proofs.IndexRoutes
import Routing.Proofs.EntryLines
import Routing.Proofs.Ranges
import Routing.Proofs.Refusals
import Routing.Proofs.Carets
import Routing.Proofs.Decoding
import Routing.Proofs.Lexing
import Routing.Proofs.Lossless
