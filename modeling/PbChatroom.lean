import PbChatroom.AccessControl
import PbChatroom.AckAggregation
import PbChatroom.AckButton
import PbChatroom.AckProgress
import PbChatroom.Answers
import PbChatroom.Api.Participants
import PbChatroom.Api.PostAck
import PbChatroom.Api.PostClaim
import PbChatroom.Api.PostMessage
import PbChatroom.Api.PostThread
import PbChatroom.Atomicity
import PbChatroom.ClaimProtocol
import PbChatroom.Closing
import PbChatroom.Commits
import PbChatroom.Conversations
import PbChatroom.Creation
import PbChatroom.CreationWindow
import PbChatroom.Dashboard
import PbChatroom.DiscussionType
import PbChatroom.Evolution
import PbChatroom.FrontMessage
import PbChatroom.Hook
import PbChatroom.HookReport
import PbChatroom.IdGrammar
import PbChatroom.Identity
import PbChatroom.Inbox
import PbChatroom.InboxAfterAck
import PbChatroom.IndexPage
import PbChatroom.Isolation
import PbChatroom.LastActivity
import PbChatroom.Lib.Alone
import PbChatroom.Lib.Catalog
import PbChatroom.Lib.Conversation
import PbChatroom.Lib.FirstWins
import PbChatroom.Lib.Fraction
import PbChatroom.Lib.Interleaving
import PbChatroom.Lib.Progress
import PbChatroom.Lib.Projection
import PbChatroom.Lib.Reduction
import PbChatroom.Lib.Regex
import PbChatroom.Lib.Restart
import PbChatroom.Lib.Shell
import PbChatroom.Lib.Simulation
import PbChatroom.Lib.Table
import PbChatroom.Lib.TextOrder
import PbChatroom.Lib.Transactional
import PbChatroom.Linearizability
import PbChatroom.Listing
import PbChatroom.Mcp.Agents
import PbChatroom.Mcp.AskPeer
import PbChatroom.Mcp.CallTool
import PbChatroom.Mcp.Reads
import PbChatroom.Mcp.Reports
import PbChatroom.Mcp.Tools
import PbChatroom.MessageLog
import PbChatroom.Migration
import PbChatroom.NamedRecipients
import PbChatroom.OldThreads
import PbChatroom.Opening
import PbChatroom.Persistence
import PbChatroom.Placement
import PbChatroom.Provenance
import PbChatroom.ReadBack
import PbChatroom.RecipientViews
import PbChatroom.Recovery
import PbChatroom.ReplyRouting
import PbChatroom.Requests
import PbChatroom.Schemas
import PbChatroom.Sequential
import PbChatroom.Server
import PbChatroom.SessionIdentity
import PbChatroom.SinceFilter
import PbChatroom.Soundness
import PbChatroom.Statements
import PbChatroom.Store.Bootstrap
import PbChatroom.Store.Messages
import PbChatroom.Store.Recipients
import PbChatroom.Store.Schema
import PbChatroom.Store.Threads
import PbChatroom.ThreadReads
import PbChatroom.ThreadView
import PbChatroom.TimeOrder
import PbChatroom.Timestamp
import PbChatroom.Upgrade
import PbChatroom.WhileAway
