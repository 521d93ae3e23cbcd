import Dmx512.Bench.Session
import Dmx512.Clock.Metronome
import Dmx512.Proofs.Node.Agreement
import Dmx512.Proofs.Node.Driving
import Dmx512.Proofs.Node.Framing
import Dmx512.Proofs.Node.Loopback
import Dmx512.Proofs.Node.Reception
import Dmx512.Proofs.Node.Storage
import Dmx512.Proofs.Link.Service
import Dmx512.Proofs.Link.Pacing
import Dmx512.Proofs.Node.Tuning
import Dmx512.Proofs.Node.Cadence
import Dmx512.Proofs.Link.Attempts
import Dmx512.Proofs.Node.Sending
import Dmx512.Proofs.Link.Spacing
import Dmx512.Proofs.Node.Spacing
import Dmx512.Proofs.Node.Session
import Dmx512.Proofs.Node.Admission
import Dmx512.Proofs.Node.Watching
import Dmx512.Proofs.Clock.Stride
import Dmx512.Proofs.Link.Draining
import Dmx512.Proofs.Link.Striding
import Dmx512.Proofs.Node.Draining
import Dmx512.Proofs.Node.Stopping
import Dmx512.Proofs.Node.Switching
import Dmx512.Proofs.Node.Reporting
import Dmx512.Proofs.Node.Contents
import Dmx512.Proofs.Node.Bursts
import Dmx512.Proofs.Node.Shifting
import Dmx512.Proofs.Node.Deafness
import Dmx512.Proofs.Node.Timing
import Dmx512.Proofs.Node.Attaching
import Dmx512.Proofs.Node.Faultless
import Dmx512.Proofs.Node.Accounting
import Dmx512.Proofs.Rdm.Verification
import Dmx512.Proofs.Transmission.Policy
import Dmx512.Proofs.Rdm.Damage
import Dmx512.Proofs.Rdm.Collisions
import Dmx512.Proofs.Node.Capturing
import Dmx512.Proofs.Node.Changes
import Dmx512.Proofs.Clock.Metronome
import Dmx512.Proofs.Node.Representation
import Dmx512.Proofs.Node.Commuting
import Dmx512.Proofs.Node.Sampling
import Dmx512.Proofs.Node.Polling
import Dmx512.Proofs.Node.Queues
