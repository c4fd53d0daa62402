import NetworkChat.Chat.Agreement
import NetworkChat.Chat.Answers
import NetworkChat.Chat.Blocking
import NetworkChat.Chat.Delivered
import NetworkChat.Chat.Layouts
import NetworkChat.Chat.Requests
import NetworkChat.Chat.Returning
import NetworkChat.Chat.Texts
import NetworkChat.Chat.Understood
import NetworkChat.Client.CommandLine
import NetworkChat.Client.Disconnect
import NetworkChat.Client.Extraction
import NetworkChat.Client.Reconnect
import NetworkChat.Client.Utilities
import NetworkChat.Connection.Conversation
import NetworkChat.Connection.Delivery
import NetworkChat.Connection.Handshake
import NetworkChat.Connection.Input
import NetworkChat.Connection.Output
import NetworkChat.Connection.Reply
import NetworkChat.Message.Interleaved
import NetworkChat.Server.Accepting
import NetworkChat.Server.Admission
import NetworkChat.Server.Broadcast
import NetworkChat.Server.Consent
import NetworkChat.Server.Dropped
import NetworkChat.Server.Handling
import NetworkChat.Server.Ids
import NetworkChat.Server.Isolation
import NetworkChat.Server.Ownership
import NetworkChat.Server.Registry
import NetworkChat.Server.Relay
import NetworkChat.Server.Restart
import NetworkChat.Server.Threads
import NetworkChat.Server.Unvalidated
import NetworkChat.TsQueue.Conservation
import NetworkChat.TsQueue.OneConsumer
