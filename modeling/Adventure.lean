import Adventure.Text.Alphanumeric
import Adventure.Text.Lowercase
import Adventure.Text.Quoted
import Adventure.Text.Words
import Adventure.Decimal.Layout
import Adventure.Decimal.Read
import Adventure.Arity
import Adventure.Error
import Adventure.Value
import Adventure.Draft
import Adventure.Config
import Adventure.Files
import Adventure.Replay
import Adventure.Validation
import Adventure.World.Setter
import Adventure.Markup.Scanner
import Adventure.Markup.Document
import Adventure.Prose.Cast
import Adventure.Compilation
import Adventure.Transcript
import Adventure.Proofs.Checks
import Adventure.Proofs.Entity
import Adventure.Proofs.Names
import Adventure.Proofs.Properties
import Adventure.Proofs.Changes
import Adventure.Proofs.Consistency
import Adventure.Proofs.Handlers
import Adventure.Proofs.Insertions
import Adventure.Proofs.Moves
import Adventure.Proofs.Definitions
import Adventure.Proofs.Operations
import Adventure.Proofs.Arguments
import Adventure.Proofs.Sessions
import Adventure.Proofs.Holding
import Adventure.Proofs.Positions
import Adventure.Proofs.Effects
import Adventure.Proofs.Acceptance
import Adventure.Proofs.Drafts
import Adventure.Proofs.Text
import Adventure.Proofs.Prose.Kinds
import Adventure.Proofs.Prose.Tokens
import Adventure.Proofs.Prose.Records
import Adventure.Proofs.Prose.Sentences
import Adventure.Proofs.Prose.Facts
import Adventure.Proofs.Prose.Casting
import Adventure.Proofs.Prose.Agreement
import Adventure.Proofs.Markup.Outlines
import Adventure.Proofs.Markup.Tracking
import Adventure.Proofs.Markup.Sections
import Adventure.Proofs.Markup.Classes
import Adventure.Proofs.Markup.Nesting
import Adventure.Proofs.Markup.Endings
import Adventure.Proofs.Placeholders
import Adventure.Proofs.References
import Adventure.Proofs.Directions
import Adventure.Proofs.Grounding
import Adventure.Proofs.Preparation
import Adventure.Proofs.Markup.Naming
import Adventure.Proofs.Portraits
import Adventure.Proofs.Traits
import Adventure.Proofs.Prose.Writing
import Adventure.Proofs.Prose.Enactment
import Adventure.Proofs.Prose.Mentions
import Adventure.Proofs.Prose.Portrayal
import Adventure.Proofs.Frames
import Adventure.Proofs.Failures
import Adventure.Proofs.Snapshots
import Adventure.Proofs.Notes
import Adventure.Proofs.Stock
import Adventure.Proofs.Mirrors
import Adventure.Proofs.Amounts
import Adventure.Proofs.Anchors
import Adventure.Proofs.Steps
import Adventure.Proofs.Faithfulness
import Adventure.Proofs.Markup.Plans
import Adventure.Proofs.Markup.Elements
import Adventure.Proofs.Accord
import Adventure.Proofs.Prose.Coherence
import Adventure.Proofs.Prose.Maps
import Adventure.Proofs.Markup.Trees
import Adventure.Proofs.Markup.Spellings
import Adventure.Proofs.Markup.Writings
import Adventure.Proofs.Letters
import Adventure.Proofs.Prose.Casing
import Adventure.Proofs.Prose.Wordings
import Adventure.Proofs.Prose.Retelling
import Adventure.Proofs.Prose.Recasting
import Adventure.Proofs.Prose.Lookahead
import Adventure.Proofs.Shapes
import Adventure.Proofs.Markup.Shapes
import Adventure.Proofs.Emissions
import Adventure.Proofs.Replays
import Adventure.Proofs.Beginnings
import Adventure.Proofs.Prose.Candidates
import Adventure.Proofs.Prose.Statements
import Adventure.Proofs.Prose.Orders
import Adventure.Proofs.Refusals
import Adventure.Proofs.Prose.Settling
import Adventure.Proofs.Prose.Plurals
import Adventure.Proofs.Prose.Homonyms
import Adventure.Proofs.Prose.Coinages
import Adventure.Proofs.Meanings
import Adventure.Proofs.Allocations
import Adventure.Proofs.Prose.Longest
import Adventure.Proofs.Prose.Extensions
import Adventure.Proofs.Prose.Asides
import Adventure.Proofs.Prose.Enumerations
import Adventure.Proofs.Prose.Negations
import Adventure.Proofs.Markup.Continuations
import Adventure.Proofs.Markup.Comments
import Adventure.Proofs.Jobs
import Adventure.Proofs.Editing
import Adventure.Proofs.Commuting
import Adventure.Proofs.Players
import Adventure.Proofs.Tidiness
import Adventure.Proofs.Markup.Values
import Adventure.Proofs.Markup.Blanks
import Adventure.Proofs.Prose.Lineages
import Adventure.Proofs.Lines
import Adventure.Proofs.Progress
