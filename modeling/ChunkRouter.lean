import ChunkRouter.Join.Session
import ChunkRouter.Lane.Session
import ChunkRouter.Main
import ChunkRouter.Pipeline.Session
import ChunkRouter.Proofs.Frame.Fragments
import ChunkRouter.Proofs.Frame.Layout
import ChunkRouter.Proofs.Frame.Paths
import ChunkRouter.Proofs.Frame.Poisoning
import ChunkRouter.Proofs.Frame.Recycling
import ChunkRouter.Proofs.Frame.RoundTrip
import ChunkRouter.Proofs.Frame.Storage
import ChunkRouter.Proofs.Join.Marking
import ChunkRouter.Proofs.Lane.Pruning
import ChunkRouter.Proofs.Lane.Rotation
import ChunkRouter.Proofs.Message.Delimiting
import ChunkRouter.Proofs.Pipeline.Idling
import ChunkRouter.Proofs.Pipeline.Interleaving
import ChunkRouter.Proofs.Router.Credit
import ChunkRouter.Proofs.Router.FanOut
import ChunkRouter.Proofs.Router.Fitting
import ChunkRouter.Proofs.Router.Naming
import ChunkRouter.Proofs.Router.Provision
import ChunkRouter.Proofs.Router.Serving
import ChunkRouter.Proofs.Work.Capacity
import ChunkRouter.Proofs.Work.Conservation
import ChunkRouter.Proofs.Work.Processing
import ChunkRouter.Proofs.Work.Slots
import ChunkRouter.Proofs.Work.Unwinding
import ChunkRouter.Router.Client
import ChunkRouter.Router.Config
import ChunkRouter.Router.Desk
import ChunkRouter.Router.Session
import ChunkRouter.Work.Session
