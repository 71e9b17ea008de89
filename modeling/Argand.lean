import Argand.Main
import Argand.Proofs.Catalog.Meaning
import Argand.Proofs.Catalog.Traversal
import Argand.Proofs.CommandLine.Room
import Argand.Proofs.Engine.Pictures
import Argand.Proofs.Expr.Blame
import Argand.Proofs.Expr.Calls
import Argand.Proofs.Expr.Cover
import Argand.Proofs.Expr.Printing
import Argand.Proofs.Expr.Widening
import Argand.Proofs.Kernel.Closure
import Argand.Proofs.Kernel.Slots
import Argand.Proofs.Lines
import Argand.Proofs.Littlewood.Addresses
import Argand.Proofs.Littlewood.Centroid
import Argand.Proofs.Littlewood.Culling
import Argand.Proofs.Littlewood.Drawn
import Argand.Proofs.Littlewood.Finite
import Argand.Proofs.Littlewood.FixedStack
import Argand.Proofs.Littlewood.RootFree
import Argand.Proofs.Littlewood.Seeds
import Argand.Proofs.Newton.Stopping
import Argand.Proofs.Orbit.Advances
import Argand.Proofs.Orbit.Agreement
import Argand.Proofs.Orbit.Budgets
import Argand.Proofs.Orbit.Interior
import Argand.Proofs.Palette.Lookups
import Argand.Proofs.Palette.Neighbours
import Argand.Proofs.Palette.Written
import Argand.Proofs.Schedule
import Argand.Proofs.Tiling
import Argand.Proofs.TwinBuffer
