import OrderTracking.Client.Defs
import OrderTracking.Client.Emission
import OrderTracking.Client.Gate
import OrderTracking.Client.Registration
import OrderTracking.Client.Runs
import OrderTracking.Client.Spec
import OrderTracking.Client.System
import OrderTracking.Client.Writes
import OrderTracking.Conversation.CatchUp
import OrderTracking.Conversation.Causal
import OrderTracking.Conversation.Channel
import OrderTracking.Conversation.Defs
import OrderTracking.Conversation.Exchange
import OrderTracking.Conversation.Liveness
import OrderTracking.Conversation.Lockstep
import OrderTracking.Conversation.Performs
import OrderTracking.Conversation.Progress
import OrderTracking.Conversation.Replicas
import OrderTracking.Conversation.Rules
import OrderTracking.Conversation.Runs
import OrderTracking.Conversation.Screens
import OrderTracking.Conversation.Threads
import OrderTracking.Cxx
import OrderTracking.Display.Accepted
import OrderTracking.Display.Capacity
import OrderTracking.Display.Defs
import OrderTracking.Display.Replica
import OrderTracking.Display.Session
import OrderTracking.Display.StartUp
import OrderTracking.Equality
import OrderTracking.Framing.Causal
import OrderTracking.Framing.Defs
import OrderTracking.Framing.Exact
import OrderTracking.Library.Agreement
import OrderTracking.Library.Decimal
import OrderTracking.Library.Dialogue
import OrderTracking.Library.Fairness
import OrderTracking.Library.FirstMatch
import OrderTracking.Library.Heap
import OrderTracking.Library.LockOrder
import OrderTracking.Library.Lookup
import OrderTracking.Library.NameTable
import OrderTracking.Library.Replay
import OrderTracking.Library.Separated
import OrderTracking.Library.Threads
import OrderTracking.Locking.DeadlockFree
import OrderTracking.Locking.Defs
import OrderTracking.Message
import OrderTracking.Model
import OrderTracking.Objects.Assignment
import OrderTracking.Objects.Changes
import OrderTracking.Objects.Defs
import OrderTracking.Objects.Models
import OrderTracking.Objects.Refinement
import OrderTracking.Objects.Runs
import OrderTracking.Objects.Separate
import OrderTracking.Objects.Server
import OrderTracking.Objects.Simulation
import OrderTracking.Objects.System
import OrderTracking.Programs.Defs
import OrderTracking.Programs.Lines
import OrderTracking.Programs.Lockstep
import OrderTracking.Programs.Login
import OrderTracking.Programs.Rules
import OrderTracking.Programs.Screens
import OrderTracking.Queue.Defs
import OrderTracking.Queue.Fifo
import OrderTracking.Server.Commute
import OrderTracking.Server.Completion
import OrderTracking.Server.Defs
import OrderTracking.Server.Effect
import OrderTracking.Server.Emission
import OrderTracking.Server.Fitting
import OrderTracking.Server.History
import OrderTracking.Server.Life
import OrderTracking.Server.LifeCycle
import OrderTracking.Server.Step
import OrderTracking.Server.Store
import OrderTracking.Updater.Defs
import OrderTracking.Updater.Delivery
import OrderTracking.Updater.Responses
import OrderTracking.Updater.Turn
import OrderTracking.Util
import OrderTracking.Wire.Canonical
import OrderTracking.Wire.Decode
import OrderTracking.Wire.Defs
import OrderTracking.Wire.Encode
import OrderTracking.Wire.Grammar
import OrderTracking.Wire.Mistaken
import OrderTracking.Wire.Names
import OrderTracking.Wire.RoundTrip
import OrderTracking.Wire.Splice
