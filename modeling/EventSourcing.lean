import EventSourcing.Main
import EventSourcing.Proofs.Session
import EventSourcing.Proofs.Serializability
import EventSourcing.Proofs.SessionReplay
import EventSourcing.Proofs.RetriedCalls
import EventSourcing.Proofs.Ledger
import EventSourcing.Proofs.Representation
import EventSourcing.Proofs.Corruption
import EventSourcing.Proofs.OrderFields
import EventSourcing.Proofs.Isolation
import EventSourcing.Proofs.Recording
import EventSourcing.Proofs.Soundness
import EventSourcing.Proofs.AllOrNothing
import EventSourcing.Proofs.Conservation
import EventSourcing.Proofs.Execution
import EventSourcing.Proofs.Loading
import EventSourcing.Proofs.EnvelopeCodec
import EventSourcing.Proofs.Agreement
import EventSourcing.Proofs.OrderRules
import EventSourcing.Proofs.Widening
import EventSourcing.Proofs.Delays
import EventSourcing.Proofs.Labels
import EventSourcing.Proofs.Spreads
import EventSourcing.Proofs.Quantities
