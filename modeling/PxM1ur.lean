import PxM1ur.Stream.Process
import PxM1ur.Stream.Handler
import PxM1ur.Stream.Chunking
import PxM1ur.Stream.Machine
import PxM1ur.Stream.Overflow
import PxM1ur.Chrdev.Access
import PxM1ur.Chrdev.StreamId
import PxM1ur.Chrdev.Backend
import PxM1ur.Chrdev.Tune
import PxM1ur.Chrdev.Capture
import PxM1ur.Chrdev.Session
import PxM1ur.Stream.Partition
import PxM1ur.Stream.Run
import PxM1ur.Stream.Wrap
import PxM1ur.Stream.Delivery
import PxM1ur.Stream.Sync
import PxM1ur.Chrdev.Footprint
import PxM1ur.Chrdev.Lifecycle
import PxM1ur.Chrdev.Output
import PxM1ur.Chrdev.SessionPower
