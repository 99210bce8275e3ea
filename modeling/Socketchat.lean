import Socketchat.Foundation.Transition
import Socketchat.Foundation.Block
import Socketchat.Foundation.Word32
import Socketchat.Foundation.Framing
import Socketchat.Foundation.Fifo
import Socketchat.Foundation.Ring
import Socketchat.Foundation.File
import Socketchat.Foundation.Chunks
import Socketchat.Foundation.Loop
import Socketchat.Foundation.Ledger
import Socketchat.Foundation.Heap
import Socketchat.Foundation.Triple
import Socketchat.Foundation.Objects
import Socketchat.Buffer.SimpleBuffer
import Socketchat.Buffer.Growth
import Socketchat.Buffer.Operations
import Socketchat.Buffer.Refinement
import Socketchat.Buffer.Extent
import Socketchat.Buffer.Bounds
import Socketchat.Buffer.Calls
import Socketchat.Buffer.Compaction
import Socketchat.Buffer.Refusal
import Socketchat.Buffer.Shrink
import Socketchat.Buffer.Cap
import Socketchat.Buffer.Doubling
import Socketchat.Buffer.SimpleBufferImpl
import Socketchat.Buffer.SharedHeap
import Socketchat.Chat.Wsocket
import Socketchat.Chat.SocketChat
import Socketchat.Chat.Activity
import Socketchat.Chat.Dispatch
import Socketchat.Chat.Session
import Socketchat.Chat.Events
import Socketchat.Chat.Streams
import Socketchat.Chat.Loops
import Socketchat.Chat.Lifecycle
import Socketchat.Chat.Decoding
import Socketchat.Chat.Polled
import Socketchat.Chat.SendText
import Socketchat.Chat.Network
import Socketchat.Chat.Flushing
import Socketchat.Chat.Link
import Socketchat.Chat.Exchange
import Socketchat.Chat.Piped
import Socketchat.Chat.Destructor
import Socketchat.Chat.Passes
import Socketchat.Chat.Polling
import Socketchat.Chat.Stalling
import Socketchat.Chat.SocketChatObject
import Socketchat.Chat.Connections
import Socketchat.Chat.Memory
import Socketchat.Transport.Playback
import Socketchat.Transport.Recording
import Socketchat.Spsc.Spsc
import Socketchat.Spsc.Indices
import Socketchat.Spsc.Invariant
import Socketchat.Spsc.Lossless
import Socketchat.Spsc.Calls
import Socketchat.Spsc.Capacity
import Socketchat.Spsc.Accesses
import Socketchat.Spsc.Alone
import Socketchat.Sockets.SharedMemory
import Socketchat.Sockets.Wsocket
import Socketchat.Sockets.Creation
import Socketchat.Sockets.Blocking
import Socketchat.Sockets.Process
import Socketchat.Sockets.Ownership
import Socketchat.Server.TestServer
import Socketchat.Server.Room
import Socketchat.Server.Refinement
import Socketchat.Server.Agreement
import Socketchat.Server.Relay
import Socketchat.Server.Ids
import Socketchat.Server.Release
import Socketchat.Server.Service
import Socketchat.Server.Turns
import Socketchat.Server.Memory
import Socketchat.Console.InputLine
import Socketchat.Console.Handover
import Socketchat.Console.Mailbox
import Socketchat.Console.Call
import Socketchat.Console.Release
import Socketchat.Client.TestClient
import Socketchat.Client.Leaving
import Socketchat.Client.Memory
import Socketchat.Chatroom.Chatroom
import Socketchat.Chatroom.Links
import Socketchat.Chatroom.Invariant
import Socketchat.Chatroom.Screens
import Socketchat.Chatroom.Memory
import Socketchat.Shared.SharedChat
import Socketchat.Shared.Locals
import Socketchat.Shared.Invariant
import Socketchat.Shared.Integrity
import Socketchat.Shared.Polls
import Socketchat.Shared.Undisturbed
import Socketchat.Shared.Returning
import Socketchat.Shared.Delivery
