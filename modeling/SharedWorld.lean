import SharedWorld.VehicleModel
import SharedWorld.Packet.Vehicle
import SharedWorld.Packet.Command
import SharedWorld.World.IdSource
import SharedWorld.World.Grid
import SharedWorld.Listeners.Session
import SharedWorld.Event.Feed
import SharedWorld.Allowance
import SharedWorld.Clients
import SharedWorld.Outbox
import SharedWorld.Dispatcher
import SharedWorld.Text.Quoted
import SharedWorld.Decimal.Style
import SharedWorld.Decimal.Reading
import SharedWorld.Settings
import SharedWorld.World.Relations
import SharedWorld.World
import SharedWorld.Realm.Intake
import SharedWorld.Server
import SharedWorld.StatusPage
import SharedWorld.Description
import SharedWorld.Proofs.Climb
import SharedWorld.Proofs.Store.Refers
import SharedWorld.Proofs.Store.Linked
import SharedWorld.Proofs.Store.Rewiring
import SharedWorld.Proofs.Store.Vehicles
import SharedWorld.Proofs.Store.Lifetime
import SharedWorld.Proofs.Store.Tree
import SharedWorld.Proofs.World.Removal
import SharedWorld.Proofs.World.Run
import SharedWorld.Proofs.World.Passengers
import SharedWorld.Proofs.World.Turns
import SharedWorld.Proofs.World.Chains
import SharedWorld.Proofs.Realm.Run
import SharedWorld.Proofs.Realm.Vehicles
import SharedWorld.Proofs.Queue.Accounts
import SharedWorld.Proofs.Queue.Line
import SharedWorld.Proofs.Dispatcher.Hall
import SharedWorld.Proofs.Dispatcher.Delivery
import SharedWorld.Proofs.Wire.Cut
import SharedWorld.Proofs.Packet.RoundTrip
import SharedWorld.Proofs.Packet.Delimited
import SharedWorld.Proofs.Zone.Course
import SharedWorld.Proofs.Zone.Steps
import SharedWorld.Proofs.Zone.Watched
import SharedWorld.Proofs.Zone.Destruction
import SharedWorld.Proofs.Zone.Requests
import SharedWorld.Proofs.Zone.Registration
import SharedWorld.Proofs.Zone.Pass
import SharedWorld.Proofs.Store.Followers
import SharedWorld.Proofs.Realm.Followers
import SharedWorld.Proofs.Grid.Buckets
import SharedWorld.Proofs.Single.Level
import SharedWorld.Proofs.World.Indexes
import SharedWorld.Proofs.Realm.Indexes
import SharedWorld.Proofs.Realm.Handlers
import SharedWorld.Proofs.Realm.Traffic
import SharedWorld.Proofs.Realm.Identity
import SharedWorld.Proofs.Store.Frame
import SharedWorld.Proofs.Realm.Frame
import SharedWorld.Proofs.Realm.Attachments
import SharedWorld.Proofs.Dispatcher.Effects
import SharedWorld.Proofs.World.Visits
import SharedWorld.Proofs.Clients
import SharedWorld.Proofs.Server.Workers
import SharedWorld.Proofs.Server.Run
import SharedWorld.Proofs.Server.Attendance
import SharedWorld.Proofs.Server.Parcels
import SharedWorld.Proofs.Server.Inert
import SharedWorld.Proofs.Realm.Sheets
import SharedWorld.Proofs.Server.Population
import SharedWorld.Proofs.Server.Followed
import SharedWorld.Proofs.Server.LastWord
import SharedWorld.Proofs.Store.Region
import SharedWorld.Proofs.Realm.Interleaving
import SharedWorld.Proofs.World.IdSource
import SharedWorld.Proofs.Queue.Capacity
import SharedWorld.Proofs.Realm.Boarding
import SharedWorld.Proofs.Zone.Subscriptions
import SharedWorld.Proofs.Single.Amount
import SharedWorld.Proofs.Single.Nearest
import SharedWorld.Proofs.Single.Arithmetic
import SharedWorld.Proofs.Single.Quotient
import SharedWorld.Proofs.Single.Squares
import SharedWorld.Proofs.Shape.Edges
import SharedWorld.Proofs.Shape.Region
import SharedWorld.Proofs.Grid.Box
import SharedWorld.Proofs.Realm.Candidates
import SharedWorld.Proofs.Grid.Run
import SharedWorld.Proofs.Grid.Within
import SharedWorld.Proofs.Single.Multiples
import SharedWorld.Proofs.Grid.Nearest
import SharedWorld.Proofs.Grid.Columns
import SharedWorld.Proofs.Realm.Trailers
import SharedWorld.Proofs.Realm.Granted
import SharedWorld.Proofs.Realm.Rings
import SharedWorld.Proofs.Store.Settled
import SharedWorld.Proofs.Realm.Propagation
import SharedWorld.Proofs.Shape.Rotation
import SharedWorld.Proofs.World.Newcomers
import SharedWorld.Proofs.Listeners.Session
import SharedWorld.Proofs.Zone.Enrolled
import SharedWorld.Proofs.Zone.Membership
