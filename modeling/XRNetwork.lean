import XRNetwork.Proofs.Departure
import XRNetwork.Proofs.Relay
import XRNetwork.Proofs.Identity
import XRNetwork.Proofs.View
import XRNetwork.Proofs.Lifetime
import XRNetwork.Proofs.Reassembly
import XRNetwork.Proofs.Roster
import XRNetwork.Proofs.Reader
import XRNetwork.Proofs.Agreement
import XRNetwork.Proofs.HandshakeOrder
import XRNetwork.Proofs.Inbound
import XRNetwork.Proofs.Layouts
import XRNetwork.Proofs.UnknownIds
import XRNetwork.Proofs.Arrivals
import XRNetwork.Proofs.ServiceThread
import XRNetwork.Proofs.Generations
import XRNetwork.Proofs.Capacity
import XRNetwork.Proofs.Subscribers
import XRNetwork.Proofs.Refusal
import XRNetwork.Proofs.Descriptors
import XRNetwork.Proofs.Delivery
import XRNetwork.Proofs.Residue
import XRNetwork.Proofs.ClientWrites
import XRNetwork.Proofs.ClientMessages
import XRNetwork.Proofs.AcceptLoop
import XRNetwork.Proofs.Ownership
import XRNetwork.Proofs.HandOff
import XRNetwork.Proofs.HeaderSwap
import XRNetwork.Proofs.MessageHeader
import XRNetwork.Proofs.ServiceName
import XRNetwork.Proofs.Credentials
import XRNetwork.Proofs.UnityReceive
import XRNetwork.Proofs.UnitySends
import XRNetwork.Proofs.UpdateRate
import XRNetwork.Proofs.LobbySettings
import XRNetwork.Proofs.UpdateTimer
import XRNetwork.Proofs.ByteLink
import XRNetwork.Proofs.ChatNet
import XRNetwork.Proofs.News
