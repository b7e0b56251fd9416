import WampClient.Duplex
import WampClient.Failure
import WampClient.Frame
import WampClient.Json.Typed
import WampClient.Message.Schema
import WampClient.Route.Router
import WampClient.Script.Run
import WampClient.Session.Handshake
import WampClient.Vocabulary
import WampClient.Proofs.Client.Requests
import WampClient.Proofs.Route.Refinement
import WampClient.Proofs.Session.Farewell
import WampClient.Proofs.Message.Canonical
import WampClient.Proofs.Message.Frames
import WampClient.Proofs.Session.Deliveries
import WampClient.Proofs.Session.Intake
import WampClient.Proofs.Session.Enrolment
import WampClient.Proofs.Client.Recurrence
import WampClient.Proofs.Client.Feeds
import WampClient.Proofs.Client.Replies
import WampClient.Proofs.Client.Fates
import WampClient.Proofs.Client.Answers
import WampClient.Proofs.Client.Aborting
import WampClient.Proofs.Client.Lives
import WampClient.Proofs.Client.Waiters
import WampClient.Proofs.Duplex.Channels
import WampClient.Proofs.Client.Teardown
import WampClient.Proofs.Client.Admissions
import WampClient.Proofs.Message.Grammar
import WampClient.Proofs.Route.Repeats
import WampClient.Proofs.Session.Noise
import WampClient.Proofs.Route.Handles
import WampClient.Proofs.Client.Attempts
import WampClient.Proofs.Client.Undertakings
