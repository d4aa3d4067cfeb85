import Dialogue.Main
import Dialogue.Call
import Dialogue.Interchange.Session
import Dialogue.Proofs.Session.Moments
import Dialogue.Proofs.Session.Standing
import Dialogue.Proofs.Session.Protocol
import Dialogue.Proofs.Session.Walk
import Dialogue.Proofs.Graph.RoundTrip
import Dialogue.Proofs.Session.Authoring
import Dialogue.Proofs.Session.Reload
import Dialogue.Proofs.Session.Ledger
import Dialogue.Proofs.Session.Branch
import Dialogue.Proofs.Session.Limit
import Dialogue.Proofs.Session.Style
import Dialogue.Proofs.Story.Hearing
import Dialogue.Proofs.Session.Hearing
import Dialogue.Proofs.Session.Strict
import Dialogue.Proofs.Story.Order
import Dialogue.Proofs.Text.Digits
import Dialogue.Proofs.Json.Literal
import Dialogue.Proofs.Json.Numeral
import Dialogue.Proofs.Json.Token
import Dialogue.Proofs.Json.Value
import Dialogue.Proofs.Json.Codec
import Dialogue.Proofs.Binary.Bracket
import Dialogue.Proofs.Binary.Separation
import Dialogue.Proofs.Binary.Single
import Dialogue.Proofs.Json.Double
import Dialogue.Proofs.Binary.Shortest
import Dialogue.Proofs.Interchange.Document
import Dialogue.Proofs.Graph.Persistence
import Dialogue.Proofs.Binary.Rounding
import Dialogue.Proofs.Story.Access
import Dialogue.Proofs.Session.Isolation
import Dialogue.Proofs.Session.Refusal
import Dialogue.Proofs.Session.Guard
import Dialogue.Proofs.Template.Substitution
import Dialogue.Proofs.Template.Again
import Dialogue.Proofs.Graph.FirstFault
import Dialogue.Graph.Arena
import Dialogue.Proofs.Session.LinkOrder
import Dialogue.Proofs.Graph.Dangling
import Dialogue.Proofs.Session.Resumption
import Dialogue.Proofs.Graph.Arena
import Dialogue.Proofs.Text.Typed
import Dialogue.Proofs.Player.Exchange
import Dialogue.Proofs.Player.Ending
import Dialogue.Proofs.Session.Record
