import NetworkLoading.Agent
import NetworkLoading.Agent.Population
import NetworkLoading.CommandLine
import NetworkLoading.Config
import NetworkLoading.Config.Document
import NetworkLoading.Config.Error
import NetworkLoading.Config.Override
import NetworkLoading.Decimal.Layout
import NetworkLoading.Decimal.Reading
import NetworkLoading.Decimal.Shortest
import NetworkLoading.Engine
import NetworkLoading.Engine.Run
import NetworkLoading.Engine.Turns
import NetworkLoading.Event
import NetworkLoading.Event.Audience
import NetworkLoading.Event.Draft
import NetworkLoading.Event.Record
import NetworkLoading.Fault
import NetworkLoading.FileTree
import NetworkLoading.Host
import NetworkLoading.Id
import NetworkLoading.Id.Store
import NetworkLoading.Loading.Action
import NetworkLoading.Loading.ActiveSets
import NetworkLoading.Loading.Diagnostics
import NetworkLoading.Loading.Job
import NetworkLoading.Loading.Layout
import NetworkLoading.Loading.Links
import NetworkLoading.Loading.Nodes
import NetworkLoading.Loading.Phases
import NetworkLoading.Loading.Queue
import NetworkLoading.Loading.State
import NetworkLoading.Loading.Sweep
import NetworkLoading.LoadingError
import NetworkLoading.Log
import NetworkLoading.Main
import NetworkLoading.Network
import NetworkLoading.Network.Named
import NetworkLoading.Network.Partition
import NetworkLoading.Numbered
import NetworkLoading.Program
import NetworkLoading.Proofs.Accounts
import NetworkLoading.Proofs.Activation
import NetworkLoading.Proofs.Alone
import NetworkLoading.Proofs.Balance
import NetworkLoading.Proofs.Buildable
import NetworkLoading.Proofs.Bytes
import NetworkLoading.Proofs.Calls
import NetworkLoading.Proofs.Conservation
import NetworkLoading.Proofs.Crossings
import NetworkLoading.Proofs.Departures
import NetworkLoading.Proofs.Deserted
import NetworkLoading.Proofs.Digits
import NetworkLoading.Proofs.Eager
import NetworkLoading.Proofs.EarlyStop
import NetworkLoading.Proofs.Edits
import NetworkLoading.Proofs.Emptying
import NetworkLoading.Proofs.Executions
import NetworkLoading.Proofs.Failures
import NetworkLoading.Proofs.Files
import NetworkLoading.Proofs.FinalReport
import NetworkLoading.Proofs.Grid
import NetworkLoading.Proofs.GridNetworks
import NetworkLoading.Proofs.Ids
import NetworkLoading.Proofs.Injection
import NetworkLoading.Proofs.Interning
import NetworkLoading.Proofs.Journeys
import NetworkLoading.Proofs.Layout
import NetworkLoading.Proofs.LinkOrder
import NetworkLoading.Proofs.Links
import NetworkLoading.Proofs.Listings
import NetworkLoading.Proofs.Loops
import NetworkLoading.Proofs.Losses
import NetworkLoading.Proofs.Marks
import NetworkLoading.Proofs.Motions
import NetworkLoading.Proofs.Network
import NetworkLoading.Proofs.Nodes
import NetworkLoading.Proofs.Noninterference
import NetworkLoading.Proofs.OnCourse
import NetworkLoading.Proofs.OpenParts
import NetworkLoading.Proofs.OutputFiles
import NetworkLoading.Proofs.Overrides
import NetworkLoading.Proofs.Plans
import NetworkLoading.Proofs.Pulls
import NetworkLoading.Proofs.Purge
import NetworkLoading.Proofs.Queue
import NetworkLoading.Proofs.Records
import NetworkLoading.Proofs.Refusals
import NetworkLoading.Proofs.Rejections
import NetworkLoading.Proofs.Release
import NetworkLoading.Proofs.RenumberedNetworks
import NetworkLoading.Proofs.RenumberedStates
import NetworkLoading.Proofs.RenumberedSteps
import NetworkLoading.Proofs.RenumberedStores
import NetworkLoading.Proofs.Renumbering
import NetworkLoading.Proofs.Repartition
import NetworkLoading.Proofs.Results
import NetworkLoading.Proofs.Runs
import NetworkLoading.Proofs.Scenario
import NetworkLoading.Proofs.Sessions
import NetworkLoading.Proofs.Settings
import NetworkLoading.Proofs.Simulation
import NetworkLoading.Proofs.Speeds
import NetworkLoading.Proofs.State
import NetworkLoading.Proofs.Steps
import NetworkLoading.Proofs.Stores
import NetworkLoading.Proofs.Timetable
import NetworkLoading.Proofs.Transfers
import NetworkLoading.Proofs.TravelTimes
import NetworkLoading.Proofs.TurnRuns
import NetworkLoading.Proofs.Turnover
import NetworkLoading.Proofs.Turns
import NetworkLoading.Proofs.Yaml.Block
import NetworkLoading.Proofs.Yaml.Cursor
import NetworkLoading.Proofs.Yaml.Documents
import NetworkLoading.Proofs.Yaml.Keys
import NetworkLoading.Proofs.Yaml.Layout
import NetworkLoading.Proofs.Yaml.Plain
import NetworkLoading.Proofs.Yaml.Printing
import NetworkLoading.Proofs.Yaml.Quoted
import NetworkLoading.Proofs.Yaml.Style
import NetworkLoading.Proofs.Yaml.Texts
import NetworkLoading.Proofs.Yaml.Words
import NetworkLoading.Random.Dice
import NetworkLoading.Random.Words
import NetworkLoading.Scenario
import NetworkLoading.Scenario.Departures
import NetworkLoading.Scenario.Grid
import NetworkLoading.Sorting
import NetworkLoading.Table
import NetworkLoading.Text.Blank
import NetworkLoading.Text.Hidden
import NetworkLoading.Text.Lower
import NetworkLoading.Text.Quoted
import NetworkLoading.Text.Terminal
import NetworkLoading.TravelTime
import NetworkLoading.TravelTime.FreeSpeed
import NetworkLoading.Yaml.Character
import NetworkLoading.Yaml.Cursor
import NetworkLoading.Yaml.Document
import NetworkLoading.Yaml.Fold
import NetworkLoading.Yaml.Node
import NetworkLoading.Yaml.Printer
import NetworkLoading.Yaml.Scalar.Block
import NetworkLoading.Yaml.Scalar.Plain
import NetworkLoading.Yaml.Scalar.Quoted
import NetworkLoading.Yaml.Style
