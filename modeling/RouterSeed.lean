import RouterSeed.Certificate.Armor
import RouterSeed.Command.Arguments
import RouterSeed.Command.Plan
import RouterSeed.Command.Usage
import RouterSeed.Main
import RouterSeed.Server.Loop
import RouterSeed.Su3.Inspection
import RouterSeed.Proofs.Server.Whole
import RouterSeed.Proofs.Su3.Coverage
import RouterSeed.Proofs.Calendar
import RouterSeed.Proofs.Certificate.RoundTrip
import RouterSeed.Proofs.Files.Changes
import RouterSeed.Proofs.Identity.FileNames
import RouterSeed.Proofs.Identity.Stored
import RouterSeed.Proofs.Server.Loop
import RouterSeed.Proofs.Certificate.Profile
import RouterSeed.Proofs.Identity.Certified
import RouterSeed.Proofs.Zip.DosTime
import RouterSeed.Proofs.Bundle.Unzipped
import RouterSeed.Proofs.Identity.Confined
import RouterSeed.Proofs.NetDb
import RouterSeed.Proofs.Su3.Precedence
import RouterSeed.Proofs.Peer.OneHost
import RouterSeed.Proofs.Command.Verify
import RouterSeed.Proofs.Config
import RouterSeed.Proofs.Cache.Observed
import RouterSeed.Proofs.Identity.KeyFile
import RouterSeed.Proofs.Command.Build
