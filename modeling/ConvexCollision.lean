import ConvexCollision.Approach
import ConvexCollision.Bounds
import ConvexCollision.BroadPhase
import ConvexCollision.Clock
import ConvexCollision.CommandLine
import ConvexCollision.Config
import ConvexCollision.Contact
import ConvexCollision.Distance
import ConvexCollision.Entity
import ConvexCollision.Error
import ConvexCollision.Fault
import ConvexCollision.Format.Config
import ConvexCollision.Format.Entity
import ConvexCollision.Format.Layers
import ConvexCollision.Format.Mesh
import ConvexCollision.Format.Scene
import ConvexCollision.Format.Shape
import ConvexCollision.Format.Vector
import ConvexCollision.Hit
import ConvexCollision.Journal
import ConvexCollision.Json
import ConvexCollision.Json.Read
import ConvexCollision.Json.Token
import ConvexCollision.KdTree
import ConvexCollision.KdTree.Build
import ConvexCollision.KdTree.Validate
import ConvexCollision.KdTree.Walk
import ConvexCollision.Main
import ConvexCollision.Mesh
import ConvexCollision.Mesh.Triangle
import ConvexCollision.Number.Binary
import ConvexCollision.Number.Read
import ConvexCollision.Number.Shortest
import ConvexCollision.Number.Text
import ConvexCollision.Object
import ConvexCollision.Overlap
import ConvexCollision.Placement
import ConvexCollision.Polytope
import ConvexCollision.Proofs.Bounds
import ConvexCollision.Proofs.BroadPhase
import ConvexCollision.Proofs.Contact.Booked
import ConvexCollision.Proofs.Contact.Pool
import ConvexCollision.Proofs.Contact.Records
import ConvexCollision.Proofs.Exact.Convex
import ConvexCollision.Proofs.Exact.Scalar
import ConvexCollision.Proofs.Exact.Support
import ConvexCollision.Proofs.Exact.Vector
import ConvexCollision.Proofs.Except
import ConvexCollision.Proofs.Grid
import ConvexCollision.Proofs.KdTree.Build
import ConvexCollision.Proofs.KdTree.Descent
import ConvexCollision.Proofs.KdTree.Lookup
import ConvexCollision.Proofs.KdTree.Validate
import ConvexCollision.Proofs.Mesh.InRange
import ConvexCollision.Proofs.Mesh.Lookup
import ConvexCollision.Proofs.Mesh.Validated
import ConvexCollision.Proofs.Order
import ConvexCollision.Proofs.Overlap.Turn
import ConvexCollision.Proofs.Overlap.Verdict
import ConvexCollision.Proofs.Polytope.Depth
import ConvexCollision.Proofs.Polytope.Hull
import ConvexCollision.Proofs.Polytope.Rim
import ConvexCollision.Proofs.Polytope.Surface
import ConvexCollision.Proofs.Polytope.Tetrahedron
import ConvexCollision.Proofs.Polytope.Visibility
import ConvexCollision.Proofs.Removal
import ConvexCollision.Proofs.Simplex.Barycentric
import ConvexCollision.Proofs.Simplex.Kept
import ConvexCollision.Proofs.Simplex.Nearest
import ConvexCollision.Proofs.Simplex.Projection
import ConvexCollision.Proofs.Single.Sign
import ConvexCollision.Proofs.World.Accounting
import ConvexCollision.Proofs.World.Elements
import ConvexCollision.Proofs.World.Entries
import ConvexCollision.Proofs.World.Mutual
import ConvexCollision.Proofs.World.Parts
import ConvexCollision.Proofs.World.Reachable
import ConvexCollision.Proofs.World.Registry
import ConvexCollision.Proofs.World.Run
import ConvexCollision.Removal
import ConvexCollision.Report
import ConvexCollision.Resolve.Geometry
import ConvexCollision.Resolve.Pair
import ConvexCollision.Response
import ConvexCollision.Rotation
import ConvexCollision.Scalar
import ConvexCollision.Scene
import ConvexCollision.Scene.Demo
import ConvexCollision.Shape
import ConvexCollision.Shape.Swing
import ConvexCollision.Simplex
import ConvexCollision.Simplex.Projection
import ConvexCollision.Simulation
import ConvexCollision.Text.Blank
import ConvexCollision.Text.Hex
import ConvexCollision.Trigger
import ConvexCollision.Vector
import ConvexCollision.Water
import ConvexCollision.World
import ConvexCollision.World.Registry
import ConvexCollision.World.Tick
import ConvexCollision.Proofs.Exact.Order
import ConvexCollision.Proofs.Mesh.Walkable
import ConvexCollision.Proofs.World.Carried
import ConvexCollision.Proofs.World.Ends
import ConvexCollision.Proofs.World.Boxes
import ConvexCollision.Proofs.World.Despawn
import ConvexCollision.Proofs.Exact.Triangle
import ConvexCollision.Proofs.Mesh.Ground
import ConvexCollision.Proofs.World.ShadowCast
import ConvexCollision.Proofs.Approach.Separation
import ConvexCollision.Proofs.Approach.Conservative
import ConvexCollision.Proofs.Sweep.Clear
import ConvexCollision.Proofs.Clock
import ConvexCollision.Proofs.Exact.Body
import ConvexCollision.Proofs.Approach.Times
import ConvexCollision.Proofs.Single.Positive
import ConvexCollision.Proofs.World.Immovable
import ConvexCollision.Proofs.Contact.Alike
import ConvexCollision.Proofs.World.Lockstep
import ConvexCollision.Proofs.World.Reset
import ConvexCollision.Proofs.World.MeshTable
import ConvexCollision.Proofs.Polytope.Converged
import ConvexCollision.Proofs.Overlap.Watched
import ConvexCollision.Proofs.Polytope.Watched
import ConvexCollision.Proofs.Format.Layers
import ConvexCollision.Proofs.Format.Record
import ConvexCollision.Proofs.Format.RoundTrip
import ConvexCollision.Proofs.Approach.Sets
import ConvexCollision.Proofs.KdTree.Arrangement
import ConvexCollision.Proofs.Polytope.Contacts
import ConvexCollision.Proofs.Exact.Box
import ConvexCollision.Proofs.Exact.BodyBox
import ConvexCollision.Proofs.Simplex.Balanced
import ConvexCollision.Proofs.Distance.Turn
import ConvexCollision.Proofs.Distance.Combination
import ConvexCollision.Proofs.Nulls
import ConvexCollision.Proofs.Single.Null
import ConvexCollision.Proofs.Mesh.Marks
import ConvexCollision.Proofs.Mesh.Seams
import ConvexCollision.Proofs.Mesh.OwnContact
import ConvexCollision.Proofs.Exact.Signs
import ConvexCollision.Proofs.Approach.Found
import ConvexCollision.Proofs.Pair.Parted
import ConvexCollision.Proofs.Pair.Separated
import ConvexCollision.Proofs.World.Rebuilt
import ConvexCollision.Proofs.Shape.Swing
import ConvexCollision.Proofs.World.Swings
import ConvexCollision.Proofs.Single.Sum
import ConvexCollision.Proofs.Bounds.Join
import ConvexCollision.Proofs.Exact.Response
import ConvexCollision.Proofs.World.Speed
import ConvexCollision.Proofs.Water
import ConvexCollision.Proofs.Exact.Interior
import ConvexCollision.Proofs.Trigger
import ConvexCollision.Proofs.KdTree.Stack
import ConvexCollision.Proofs.Exact.Division
import ConvexCollision.Proofs.Simplex.Hull
import ConvexCollision.Proofs.Overlap.Independent
