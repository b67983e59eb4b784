import Gocracker.Vmm.DiskMigration
import Gocracker.Vmm.Capture
import Gocracker.Virtio.BlockData
import Gocracker.Virtio.Bounds
import Gocracker.Oci.Confinement
import Gocracker.Api.Handover
import Gocracker.Container.PointInTime
import Gocracker.Sandboxd.Manager
import Gocracker.Api.Registry
import Gocracker.Api.Bundle
import Gocracker.Compose.Health
import Gocracker.Compose.Volumes
import Gocracker.Dockerfile.Builder
import Gocracker.Templates.Deletion
import Gocracker.Api.Stacks
import Gocracker.Api.Removal
import Gocracker.Container.RuntimeDir
import Gocracker.Container.RunCleanup
import Gocracker.Container.ArtifactLock
import Gocracker.Oci.Whiteouts
import Gocracker.Hostnet.Forwarding
import Gocracker.Toolbox.Signals
import Gocracker.Preview.Proxy
import Gocracker.Toolbox.Codec
import Gocracker.Warmpool.Pool
import Gocracker.Sandboxd.Store
import Gocracker.Dockerfile.Order
import Gocracker.Sandboxes.Waiting
import Gocracker.Vmm.Events
import Gocracker.Sandboxes.Budget
import Gocracker.Sandboxes.Ownership
import Gocracker.Virtio.Balloon
import Gocracker.Vmm.SparseSnapshot
import Gocracker.Vsock.Stream
import Gocracker.Vmm.MemoryHotplug
import Gocracker.Vmm.JailPaths
import Gocracker.Api.Security
