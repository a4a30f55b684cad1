import ClusterDeployment.Fabric

/-!
# The commands of the deployment fabfile

Every task of the deployment fabfile that starts something does the same two
things: it mirrors the directory of the Puppet modules and manifests to the
host, and has Puppet apply one of the manifests there. What Puppet then does
is up to the manifest, and so the effect of both commands is a parameter here.
-/

namespace Deployment

open Fab

/-- The commands, as they reach the shell; the local directory of a mirror is
relative to the one of the fabfile. -/
inductive Command where
  | sudo (line : Text)
  | run (line : Text)
  | rsyncProject (remoteDir localDir extraOpts : Text)
  deriving DecidableEq

/-- Where the Puppet modules and manifests are on a host. -/
def deployDir : Text := "initial-deployment-puppet".toList

/-- The command of `puppetApply`. -/
def puppetCommand (manifest : Text) : Command :=
  .sudo ("puppet apply --modulepath ".toList ++ deployDir ++ "/modules ".toList
    ++ deployDir ++ "/manifests/".toList ++ manifest)

/-- The command of `rsync`. -/
def rsyncCommand : Command :=
  .rsyncProject deployDir "/initial-deployment-puppet/".toList "--delete".toList

variable {δ : Type}

/-- `puppetApply` -/
def puppetApply (manifest : Text) (effect : δ → Option δ) :
    Fab Command δ Unit := issue (puppetCommand manifest) effect

/-- `rsync` -/
def rsync (effect : δ → Option δ) : Fab Command δ Unit :=
  issue rsyncCommand effect

/-- An environment in which every command succeeds. -/
def succeeding : Command → Reply := fun _ => ⟨true, []⟩

end Deployment
