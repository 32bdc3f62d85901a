import CapsuleImaging.Capsule.Archive
import CapsuleImaging.Proofs.Capsule.Faces
import CapsuleImaging.Proofs.Capsule.Points
import CapsuleImaging.Proofs.Capsule.Shortfalls
import CapsuleImaging.Proofs.Change.Agreement
import CapsuleImaging.Proofs.Change.Spelling
import CapsuleImaging.Proofs.Mesh.Slices
import CapsuleImaging.Proofs.Render.Deliveries
import CapsuleImaging.Proofs.Render.Interleaving
import CapsuleImaging.Proofs.Render.Records
import CapsuleImaging.Proofs.Render.SharedCache
import CapsuleImaging.Proofs.Render.TimeMove
import CapsuleImaging.Proofs.Render.WellFormed
import CapsuleImaging.Proofs.Scene.Loading
import CapsuleImaging.Proofs.Scene.Procedure
import CapsuleImaging.Proofs.Scene.Subtree
