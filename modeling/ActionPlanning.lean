import ActionPlanning.Action
import ActionPlanning.Amount.Decimal
import ActionPlanning.Amount.Order
import ActionPlanning.Amount.Text
import ActionPlanning.Catalog
import ActionPlanning.Condition
import ActionPlanning.Conditions
import ActionPlanning.Conditions.Document
import ActionPlanning.Conditions.Lemmas
import ActionPlanning.Document
import ActionPlanning.Document.File
import ActionPlanning.Document.Json
import ActionPlanning.Document.Shape
import ActionPlanning.Document.Toml
import ActionPlanning.Document.Toml.Moment
import ActionPlanning.Document.Toml.Scalar
import ActionPlanning.Document.Toml.Tables
import ActionPlanning.Document.Toml.Text
import ActionPlanning.Document.Toml.Writing
import ActionPlanning.Episode.Cache
import ActionPlanning.Episode.Determiner
import ActionPlanning.Episode.Token
import ActionPlanning.Failure
import ActionPlanning.Goal
import ActionPlanning.Journal.Event
import ActionPlanning.Journal.Recorded
import ActionPlanning.KeySet
import ActionPlanning.Observer
import ActionPlanning.Plan
import ActionPlanning.Plan.Scoring
import ActionPlanning.Planner
import ActionPlanning.Proofs.Amount.Cost
import ActionPlanning.Proofs.Amount.Extremes
import ActionPlanning.Proofs.Amount.Fraction
import ActionPlanning.Proofs.Amount.Numbering
import ActionPlanning.Proofs.Amount.Numeral
import ActionPlanning.Proofs.Amount.Quotient
import ActionPlanning.Proofs.Amount.Rounding
import ActionPlanning.Proofs.Amount.Shifting
import ActionPlanning.Proofs.Amount.Shortest
import ActionPlanning.Proofs.Amount.Sum
import ActionPlanning.Proofs.Amount.Totals
import ActionPlanning.Proofs.Amount.Unsigned
import ActionPlanning.Proofs.Conditions.Algebra
import ActionPlanning.Proofs.Conditions.Canonical
import ActionPlanning.Proofs.Conditions.Overlay
import ActionPlanning.Proofs.Document.Lines
import ActionPlanning.Proofs.Document.Words
import ActionPlanning.Proofs.Document.Writing
import ActionPlanning.Proofs.Episode.Calls
import ActionPlanning.Proofs.Episode.Cancellation
import ActionPlanning.Proofs.Episode.Failure
import ActionPlanning.Proofs.Episode.Fetch
import ActionPlanning.Proofs.Episode.Runs
import ActionPlanning.Proofs.Episode.Scope
import ActionPlanning.Proofs.Episode.Snapshot
import ActionPlanning.Proofs.Planning.Answer
import ActionPlanning.Proofs.Planning.Arenas
import ActionPlanning.Proofs.Planning.Budget
import ActionPlanning.Proofs.Planning.CatalogOrder
import ActionPlanning.Proofs.Planning.Chain
import ActionPlanning.Proofs.Planning.Circles
import ActionPlanning.Proofs.Planning.Comparison
import ActionPlanning.Proofs.Planning.Counting
import ActionPlanning.Proofs.Planning.Direction
import ActionPlanning.Proofs.Planning.Dominance
import ActionPlanning.Proofs.Planning.Estimates
import ActionPlanning.Proofs.Planning.Execution
import ActionPlanning.Proofs.Planning.Expansions
import ActionPlanning.Proofs.Planning.Forward
import ActionPlanning.Proofs.Planning.Keys
import ActionPlanning.Proofs.Planning.Knowledge
import ActionPlanning.Proofs.Planning.Pricing
import ActionPlanning.Proofs.Planning.Pruning
import ActionPlanning.Proofs.Planning.Regression
import ActionPlanning.Proofs.Planning.Relevance
import ActionPlanning.Proofs.Planning.Soundness
import ActionPlanning.Proofs.Planning.StoredCost
import ActionPlanning.Proofs.Planning.Weakest
import ActionPlanning.Proofs.Ranking.Affordable
import ActionPlanning.Proofs.Ranking.Goals
import ActionPlanning.Proofs.Ranking.Order
import ActionPlanning.Proofs.Ranking.Utility
import ActionPlanning.Proofs.Search.Agreement
import ActionPlanning.Proofs.Search.Arena
import ActionPlanning.Proofs.Search.Calls
import ActionPlanning.Proofs.Search.Cheapest
import ActionPlanning.Proofs.Search.Cost
import ActionPlanning.Proofs.Search.Coverage
import ActionPlanning.Proofs.Search.Detour
import ActionPlanning.Proofs.Search.Log
import ActionPlanning.Proofs.Search.Queue
import ActionPlanning.Proofs.Search.Run
import ActionPlanning.Proofs.Search.Stored
import ActionPlanning.Proofs.Search.Termination
import ActionPlanning.Proofs.Search.Trail
import ActionPlanning.Proofs.Search.Walk
import ActionPlanning.Proofs.Settings.Saving
import ActionPlanning.Proofs.System.Closure
import ActionPlanning.Proofs.System.Validation
import ActionPlanning.Quantity
import ActionPlanning.Quantity.Rule
import ActionPlanning.Ranking
import ActionPlanning.Search.Algorithm
import ActionPlanning.Search.Arena
import ActionPlanning.Search.BestFirst
import ActionPlanning.Search.Forward
import ActionPlanning.Search.Frontier
import ActionPlanning.Search.Frontier.Lemmas
import ActionPlanning.Search.OneStep
import ActionPlanning.Search.Priority
import ActionPlanning.Search.Regression
import ActionPlanning.Settings
import ActionPlanning.Settings.Document
import ActionPlanning.Settings.Text
import ActionPlanning.System
import ActionPlanning.System.Relevance
import ActionPlanning.Text.Quoted
import ActionPlanning.Text.Shapeless
import ActionPlanning.Time.Moment
import ActionPlanning.Time.Span
import ActionPlanning.WorldState
