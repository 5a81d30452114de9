import ChatApp.Program
import ChatApp.UnorderedMap
import ChatApp.Utils
import ChatApp.Database
import ChatApp.Machine
import ChatApp.PersistencePg
import ChatApp.Delivery
import ChatApp.HandleAccounts
import ChatApp.HandleFriends
import ChatApp.HandleGroups
import ChatApp.HandleMessages
import ChatApp.HandleClient
import ChatApp.Runs
import ChatApp.Server
import ChatApp.Effects
import ChatApp.Sections
import ChatApp.Concurrent
import ChatApp.Pool
import ChatApp.Framing
import ChatApp.Transactions
import ChatApp.Sessions
import ChatApp.Presence
import ChatApp.Faults
import ChatApp.Requester
import ChatApp.Friendships
import ChatApp.Consent
import ChatApp.PendingRequests
import ChatApp.Restart
import ChatApp.Memberships
import ChatApp.GroupSync
import ChatApp.GroupAdmins
import ChatApp.Outgoing
import ChatApp.GroupOutsiders
import ChatApp.OutsiderRequests
import ChatApp.FriendSymmetry
import ChatApp.TransactionResults
import ChatApp.SharedConnection
import ChatApp.Acknowledged
import ChatApp.Refusals
import ChatApp.Stranded
import ChatApp.LockDiscipline
import ChatApp.Threads
import ChatApp.ExactlyOnce
import ChatApp.GroupRequests
import ChatApp.Linearise
import ChatApp.GroupEffects
import ChatApp.Serialisable
import ChatApp.Accounts
import ChatApp.UserTables
import ChatApp.Codecs
import ChatApp.ClientMessages
import ChatApp.Durable
import ChatApp.Authentication
import ChatApp.Frames
import ChatApp.Receiving
import ChatApp.ClientSocket
import ChatApp.Lossless
import ChatApp.Forwarded
import ChatApp.CryptoUtils
import ChatApp.ClientRequests
import ChatApp.TypedText
import ChatApp.GroupRecords
import ChatApp.LocalDatabase
import ChatApp.ChatRepository
import ChatApp.LoadHistory
import ChatApp.HistoryReplies
import ChatApp.UsersFile
import ChatApp.NumberedItems
import ChatApp.Base64
import ChatApp.GroupLists
import ChatApp.GroupListReply
import ChatApp.HandedOut
import ChatApp.SubstringTests
import ChatApp.MainActivity
import ChatApp.FriendsFragment
import ChatApp.PayloadParsers
import ChatApp.HeaderCodec
import ChatApp.ReceiveLoop
import ChatApp.FriendsRefresh
import ChatApp.RequestLists
import ChatApp.AddFriendActivity
import ChatApp.GroupChatActivity
import ChatApp.GroupTranscript
import ChatApp.Substrings
import ChatApp.SystemMessages
import ChatApp.AnnouncedChanges
import ChatApp.Crc
import ChatApp.Checksum
import ChatApp.Fips180
import ChatApp.NativeCrypto
import ChatApp.Base64Decoding
import ChatApp.Sha256
import ChatApp.GroupCreated
import ChatApp.Timestamps
import ChatApp.RenamedGroups
import ChatApp.TypedNames
import ChatApp.PresenceNotices
import ChatApp.SchemaKept
import ChatApp.Answers
import ChatApp.Ownership
import ChatApp.Anonymous
import ChatApp.Conversations
import ChatApp.RelyGuarantee
import ChatApp.MessageStore
import ChatApp.ChatList
import ChatApp.Simulation
import ChatApp.Network
import ChatApp.EndToEnd
import ChatApp.Lockstep
import ChatApp.Views
import ChatApp.Confidential
