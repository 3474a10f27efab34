import Lightpath.Json.Reader
import Lightpath.Json.Writer
import Lightpath.Collection.SortedMap
import Lightpath.Collection.SortedSet
import Lightpath.Text.Blank
import Lightpath.Text.Quoted
import Lightpath.Text.Separated
import Lightpath.Json.Decode
import Lightpath.Network.ConnectPoint
import Lightpath.Signal.Grid
import Lightpath.Signal.Mode
import Lightpath.Failure
import Lightpath.Network.Link
import Lightpath.Signal.FrequencyId
import Lightpath.Network.Document
import Lightpath.Network.Route
import Lightpath.Network.Detail
import Lightpath.Network.Device
import Lightpath.Network.Topology
import Lightpath.Routing.Cost
import Lightpath.Routing.Graph
import Lightpath.Routing.Ranked
import Lightpath.Quality.Command
import Lightpath.Quality.QValue
import Lightpath.Settings
import Lightpath.Wdm.Staleness
import Lightpath.Resource.Ledger
import Lightpath.Collection.Index
import Lightpath.Intent.Book
import Lightpath.Wavelength.Journal
import Lightpath.Wdm.Catalog
import Lightpath.Wdm.Listeners
import Lightpath.Wdm.Planner
import Lightpath.Quality.ModeChoice
import Lightpath.Wavelength.Assignment
import Lightpath.Wavelength.Reservation
import Lightpath.Optimizer.Basic
import Lightpath.Optimizer.Lifecycle
import Lightpath.Optimizer.Listing
import Lightpath.Optimizer.Planning
import Lightpath.Shell.Arguments
import Lightpath.Shell.Command
import Lightpath.Shell.Listing
import Lightpath.Shell.Record
import Lightpath.Shell.Run
import Lightpath.Optimizer.Load
import Lightpath.Main
import Lightpath.Proofs.Resource.Ownership
import Lightpath.Proofs.Resource.Requests
import Lightpath.Proofs.Optimizer.Calls
import Lightpath.Proofs.Wavelength.Demand
import Lightpath.Proofs.Wavelength.Legs
import Lightpath.Proofs.Wavelength.Offered
import Lightpath.Proofs.Optimizer.Holdings
import Lightpath.Proofs.Optimizer.Lifecycle
import Lightpath.Proofs.Optimizer.Exclusion
import Lightpath.Proofs.Optimizer.Rollback
import Lightpath.Proofs.Numeric.Bits
import Lightpath.Proofs.Numeric.Sums
import Lightpath.Proofs.Routing.Ways
import Lightpath.Proofs.Routing.Traces
import Lightpath.Proofs.Routing.Search
import Lightpath.Proofs.Routing.Detours
import Lightpath.Proofs.Routing.Ranked
import Lightpath.Proofs.Routing.Routes
import Lightpath.Proofs.Routing.Exact
import Lightpath.Proofs.Routing.Walks
import Lightpath.Proofs.Routing.Cheapest
import Lightpath.Proofs.Wdm.Catalog
import Lightpath.Proofs.Wdm.Listeners
import Lightpath.Proofs.Network.Changes
import Lightpath.Proofs.Network.Export
import Lightpath.Proofs.Optimizer.Computed
import Lightpath.Proofs.Optimizer.Freshness
import Lightpath.Proofs.Wdm.Usable
import Lightpath.Proofs.Optimizer.Detection
import Lightpath.Proofs.Wdm.Recalculation
import Lightpath.Proofs.Optimizer.Recalculation
import Lightpath.Proofs.Wdm.Layout
import Lightpath.Proofs.Optimizer.WholeCatalog
import Lightpath.Proofs.Optimizer.Reservable
import Lightpath.Proofs.Wavelength.Indexes
import Lightpath.Proofs.Wavelength.Hops
import Lightpath.Proofs.Optimizer.Stores
import Lightpath.Proofs.Optimizer.Separation
import Lightpath.Proofs.Optimizer.Numbering
import Lightpath.Proofs.Wavelength.Spectrum
import Lightpath.Proofs.Optimizer.Channels
import Lightpath.Proofs.Text.Numeral
import Lightpath.Proofs.Json.Codec
import Lightpath.Proofs.Network.Codec
import Lightpath.Proofs.Quality.Tables
import Lightpath.Proofs.Quality.Codec
import Lightpath.Proofs.Documents
import Lightpath.Proofs.Optimizer.Assignable
import Lightpath.Proofs.Quality.ModeChoice
import Lightpath.Proofs.Optimizer.Modes
import Lightpath.Proofs.Optimizer.Ranking
import Lightpath.Proofs.Optimizer.Listing
import Lightpath.Proofs.Signal.Collapse
import Lightpath.Proofs.Network.Details
import Lightpath.Proofs.Optimizer.Selectable
import Lightpath.Proofs.Quality.Emission
import Lightpath.Proofs.Network.Grammar
import Lightpath.Proofs.Text.Bytes
import Lightpath.Proofs.Quality.Answers
import Lightpath.Proofs.Optimizer.Origin
import Lightpath.Proofs.Wavelength.Events
import Lightpath.Proofs.Wavelength.Lives
import Lightpath.Proofs.Optimizer.Journal
