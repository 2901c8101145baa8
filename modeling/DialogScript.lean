import DialogScript.Token.Reader
import DialogScript.Main
import DialogScript.Proofs.Log
import DialogScript.Proofs.Player.Consistency
import DialogScript.Proofs.Player.OnceFamily
import DialogScript.Proofs.Player.Reference
import DialogScript.Proofs.Player.Waiting
import DialogScript.Proofs.Script.RoundTrip
import DialogScript.Proofs.Player.Pacing
import DialogScript.Proofs.Player.Exchange
import DialogScript.Proofs.Player.WaitProtocol
import DialogScript.Proofs.Script.Printable
import DialogScript.Proofs.Player.Provenance
import DialogScript.Proofs.Player.Shown
import DialogScript.Proofs.Player.Restart
import DialogScript.Proofs.Player.Renumbering
import DialogScript.Proofs.Player.Confinement
import DialogScript.Proofs.Text.Span
import DialogScript.Proofs.Token.Tiling
import DialogScript.Proofs.Token.Grammar
import DialogScript.Proofs.Script.Relocation
import DialogScript.Proofs.Token.Joining
import DialogScript.Proofs.Script.Joining
import DialogScript.Proofs.Token.Order
import DialogScript.Proofs.Token.Index
import DialogScript.Proofs.Script.Taken
import DialogScript.Proofs.Script.Conditions
import DialogScript.Proofs.Script.Lexical
import DialogScript.Proofs.Script.Parallel
import DialogScript.Proofs.Script.Persistence
import DialogScript.Proofs.Token.Returns
import DialogScript.Proofs.Script.Returns
import DialogScript.Proofs.Script.Pointing
import DialogScript.Proofs.MessagePack.ReadBack
import DialogScript.Proofs.Log.Snapshot
import DialogScript.Proofs.Log.History
import DialogScript.Proofs.Log.Loading
import DialogScript.Proofs.Player.Selection
import DialogScript.Proofs.Player.Picking
import DialogScript.Proofs.Player.Independence
import DialogScript.Proofs.Player.Echo
import DialogScript.Proofs.Console.Conversation
import DialogScript.Proofs.Console.View
import DialogScript.Proofs.FileTree
import DialogScript.Proofs.CommandLine.Runs
import DialogScript.Proofs.Player.Reconfiguration
