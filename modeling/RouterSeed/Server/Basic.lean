/-
A reseed server: its settings and the identity it signs with.

A server without a usable identity still runs. It serves nothing of its
own and every rebuild tells that the key is missing, so that an operator
can mend the key without losing what a shared cache still serves.
-/
import RouterSeed.Bundle.Count
import RouterSeed.Config
import RouterSeed.Identity.Basic
import RouterSeed.NetDb

namespace RouterSeed

/-- A server. Its cache is not part of it: several servers may fill one. -/
structure Server where
  config : Config
  identity : Option SigningIdentity
  deriving DecidableEq, Repr

namespace Server

/-- The identity that the settings name, if it can be loaded. -/
def configuredIdentity? (config : Config) (tree : FileTree) (inputs : IssueInputs) :
    Option SigningIdentity :=
  config.signingKey.bind fun path =>
    (SigningIdentity.load tree path config.signer inputs).toOption

/-- The server with the identity that the settings name. -/
def ofConfig (config : Config) (tree : FileTree) (inputs : IssueInputs) : Server :=
  ⟨config, configuredIdentity? config tree inputs⟩

/-- Where the descriptors come from. -/
def netDb (s : Server) : NetDb := ⟨s.config.netDb, s.config.maxAge⟩

/-- How many bundles are made of so many descriptors. -/
def bundleCount (s : Server) (descriptors : Nat) : Nat :=
  match s.config.bundleCount with
  | 0 => autoBundleCount descriptors
  | chosen => chosen

theorem bundleCount_pos (s : Server) (descriptors : Nat) : 0 < s.bundleCount descriptors := by
  unfold bundleCount
  split
  · exact autoBundleCount_pos descriptors
  · rename_i notZero
    exact Nat.pos_of_ne_zero notZero

end Server

end RouterSeed
