import Messenger.Codes
import Messenger.BigEndian
import Messenger.OffsetDecoders
import Messenger.Messages
import Messenger.RoundTrip
import Messenger.KeyedTables
import Messenger.Outcomes
import Messenger.LabelledRuns
import Messenger.Database
import Messenger.UserRepository
import Messenger.FriendRepository
import Messenger.MessageRepository
import Messenger.Server
import Messenger.ClientSession
import Messenger.RepositoryCalls
import Messenger.HandlerActions
import Messenger.HandlePacket
import Messenger.ServerSteps
import Messenger.ServerSends
import Messenger.MalformedBodies
import Messenger.TokenIdentity
import Messenger.OnlineEntries
import Messenger.FriendStates
import Messenger.MessageRows
import Messenger.Deliveries
import Messenger.WritePumps
import Messenger.FramedStreams
import Messenger.NetworkSession
import Messenger.DeliveredFlags
import Messenger.AnswerQueues
import Messenger.ClientAsyncHandler
import Messenger.PendingRequests
import Messenger.AccountCalls
import Messenger.TokenLifetimes
import Messenger.Registrations
import Messenger.TokenRequests
import Messenger.TableSteps
import Messenger.Consents
import Messenger.Authentications
import Messenger.ExpectedAccesses
import Messenger.LongBacklogs
import Messenger.Refusals
import Messenger.Confidentiality
import Messenger.Reports
import Messenger.SortedWindows
import Messenger.Conversations
import Messenger.Canonicity
import Messenger.BodyReads
import Messenger.SyncReceiver
import Messenger.FriendLists
import Messenger.StoredFiles
import Messenger.RequestEffects
import Messenger.UserRows
import Messenger.ChatLists
import Messenger.PendingDeliveries
import Messenger.SortedTies
import Messenger.StoredOrder
import Messenger.UploadedFiles
import Messenger.EncodedSizes
import Messenger.BodySizes
import Messenger.StoredTexts
import Messenger.SizedRuns
import Messenger.Simulations
import Messenger.WiredLinks
import Messenger.Terminations
import Messenger.PlainMessenger
import Messenger.Representations
import Messenger.Refinement
import Messenger.PlainReadings
import Messenger.Networks
import Messenger.Hearings
import Messenger.Turns
import Messenger.Linearizations
import Messenger.Bystanders
import Messenger.Ledgers
import Messenger.Notices
import Messenger.Credentials
import Messenger.FinalAnswers
import Messenger.FatalCalls
import Messenger.GeneralChat
import Messenger.PrivateLetters
