import IrohShare.Transition.Run
import IrohShare.Channel.Watch
import IrohShare.ProtocolProofs
import IrohShare.ReceiverProofs
import IrohShare.Transfer
import IrohShare.RouterProofs
import IrohShare.Recovery
import IrohShare.Attribution
import IrohShare.SendingProofs
import IrohShare.FileNames
import IrohShare.Written
import IrohShare.Offering
import IrohShare.Tickets
import IrohShare.Addressed
import IrohShare.CliProofs
import IrohShare.Replies
import IrohShare.Delivered
import IrohShare.TerminalProofs
import IrohShare.Finishing
import IrohShare.CommandProofs
import IrohShare.Showing
import IrohShare.Cut
import IrohShare.Exchanging
import IrohShare.Concluding
