import ObjectDepot.Client.Loopback
import ObjectDepot.Main
import ObjectDepot.Settings
import ObjectDepot.Tables.Session
import ObjectDepot.Proofs.Keys
import ObjectDepot.Proofs.Procedure
import ObjectDepot.Proofs.Repositories
import ObjectDepot.Proofs.Changes
import ObjectDepot.Proofs.Pushes
import ObjectDepot.Proofs.Requests
import ObjectDepot.Proofs.Histories
import ObjectDepot.Proofs.Numbering
import ObjectDepot.Proofs.ReferenceTable
import ObjectDepot.Proofs.Addressing
import ObjectDepot.Proofs.Anchors
import ObjectDepot.Proofs.Atomicity
import ObjectDepot.Proofs.Effects
import ObjectDepot.Proofs.Refusals
import ObjectDepot.Proofs.Authorization
import ObjectDepot.Proofs.Handover
import ObjectDepot.Proofs.Mirror
import ObjectDepot.Proofs.Persistence
import ObjectDepot.Proofs.Confinement
import ObjectDepot.Proofs.TableRows
import ObjectDepot.Proofs.Representation
import ObjectDepot.Proofs.Constraints
import ObjectDepot.Proofs.ReferenceRows
import ObjectDepot.Proofs.SessionOperations
import ObjectDepot.Proofs.TableHistories
import ObjectDepot.Proofs.Isolation
import ObjectDepot.Proofs.Answers
import ObjectDepot.Proofs.Quoting
import ObjectDepot.Proofs.Routes
import ObjectDepot.Proofs.ClientRoutes
import ObjectDepot.Proofs.Hexadecimal
import ObjectDepot.Proofs.Faults
import ObjectDepot.Proofs.Batches
import ObjectDepot.Proofs.FlatObjects
import ObjectDepot.Proofs.ClientPaths
import ObjectDepot.Proofs.Transports
import ObjectDepot.Proofs.ClientReach
import ObjectDepot.Proofs.ExitStatus
import ObjectDepot.Proofs.Retrieval
import ObjectDepot.Proofs.Readings
import ObjectDepot.Proofs.Resending
import ObjectDepot.Proofs.NameChecks
import ObjectDepot.Proofs.HashTexts
import ObjectDepot.Proofs.Base64
import ObjectDepot.Proofs.Credentials
import ObjectDepot.Proofs.OwnerGate
import ObjectDepot.Proofs.ListingTexts
import ObjectDepot.Proofs.HashSlots
import ObjectDepot.Proofs.RemoteErrors
