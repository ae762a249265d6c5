import SessionBroker.Deployment.Toml
import SessionBroker.Proofs.BatchLog
import SessionBroker.Proofs.Demand
import SessionBroker.Proofs.Handout
import SessionBroker.Proofs.Usable
import SessionBroker.Proofs.Release
import SessionBroker.Proofs.Exits
import SessionBroker.Proofs.Secrecy
import SessionBroker.Proofs.JsonRecords
import SessionBroker.Proofs.Interleaving
import SessionBroker.Proofs.Creation
import SessionBroker.Proofs.Settings
