import GraphRequest.Schema.Cache
import GraphRequest.Query.Generate
import GraphRequest.Delivery.PacerScript
import GraphRequest.Delivery.Script
import GraphRequest.Proofs.Selection.Declared
import GraphRequest.Proofs.Query.Usage
import GraphRequest.Proofs.Query.Documents
import GraphRequest.Delivery.Pacing
import GraphRequest.Proofs.Delivery.Spacing
import GraphRequest.Proofs.Delivery.Moves
import GraphRequest.Proofs.Delivery.Callbacks
import GraphRequest.Proofs.Delivery.Endings
import GraphRequest.Proofs.Query.Bodies
import GraphRequest.Proofs.Delivery.Latest
import GraphRequest.Proofs.Delivery.Calls
import GraphRequest.Value.Parts
import GraphRequest.Proofs.Delivery.Streaming
import GraphRequest.Proofs.Delivery.Polling
import GraphRequest.Proofs.Value.Numerals
import GraphRequest.Proofs.Value.Strings
import GraphRequest.Value.Arranged
import GraphRequest.Proofs.Value.Written
import GraphRequest.Proofs.Schema.Reordered
import GraphRequest.Proofs.Schema.History
import GraphRequest.Proofs.Schema.Transparency
import GraphRequest.Proofs.Schema.Contents
import GraphRequest.Proofs.Schema.Names
import GraphRequest.Proofs.Query.Failures
import GraphRequest.Proofs.Selection.Columns
import GraphRequest.Proofs.Selection.Safe
import GraphRequest.Proofs.Query.Documented
import GraphRequest.Proofs.Document.Lexing
import GraphRequest.Proofs.Document.Renamed
import GraphRequest.Proofs.Query.Variants
import GraphRequest.Proofs.Document.Renumbered
import GraphRequest.Proofs.Document.Relexing
import GraphRequest.Proofs.Document.Rereading
import GraphRequest.Proofs.Query.Shifting
import GraphRequest.Proofs.Selection.Shifting
import GraphRequest.Proofs.Selection.Later
import GraphRequest.Proofs.Query.Declarations
import GraphRequest.Proofs.Query.Renumbering
import GraphRequest.Proofs.Schema.Shapes
import GraphRequest.Proofs.Query.Payloads
import GraphRequest.Proofs.Query.Accepted
import GraphRequest.Proofs.Query.Candidates
import GraphRequest.Proofs.Selection.Blocks
import GraphRequest.Proofs.Selection.Slots
import GraphRequest.Proofs.Selection.Inserted
import GraphRequest.Proofs.Selection.Accounted
import GraphRequest.Proofs.Selection.Merged
import GraphRequest.Proofs.Query.Mistaken
import GraphRequest.Proofs.Query.Aliases
import GraphRequest.Proofs.Selection.Forms
import GraphRequest.Proofs.Selection.Leaves
import GraphRequest.Proofs.Selection.Keys
import GraphRequest.Proofs.Query.Visited
import GraphRequest.Proofs.Schema.TypeTexts
import GraphRequest.Proofs.Query.Spellings
import GraphRequest.Proofs.Query.Nulls
import GraphRequest.Delivery.Recipient
import GraphRequest.Proofs.Delivery.Draining
import GraphRequest.Proofs.Query.FirstOccurrences
import GraphRequest.Proofs.Schema.Indexed
import GraphRequest.Proofs.Selection.Merging
