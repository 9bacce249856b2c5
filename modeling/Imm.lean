import Imm.Link.Completion
import Imm.Transaction.Membership
import Imm.Io.Delivery
import Imm.Io.Driver
import Imm.Gate.Guessing
import Imm.Link.Node
import Imm.Session.Identity
import Imm.Session.Retrying
import Imm.Socket.Writing
import Imm.Store.Waits
import Imm.Store.Twins
import Imm.File.Failures
import Imm.File.Locks
import Imm.Io.Ids
import Imm.Link.Forward
import Imm.Link.Topology
import Imm.Transaction.Progress
import Imm.Transaction.Replies
import Imm.Transaction.Retryable
import Imm.Transaction.Authors
import Imm.Gate.Smtp
import Imm.Link.Selection
import Imm.Link.Units
import Imm.Reactor.Completions
