import LevelLink.Transfer.Download

/-!
# Builds

The artefacts of builds, which are downloaded into one local directory, one at a time.
-/

namespace LevelLink

/-- The builds of a session. -/
structure BuildService where
  download : DownloadStream
  deriving DecidableEq, Repr

namespace BuildService

variable {υ : Type}

/-- The node that serves artefacts. -/
def node : String := "BUILD_SVR"

/-- The artefacts in a directory. -/
def start (dir : String) (s : Session υ) : BuildService × Session υ :=
  let (download, s) := Endpoint.start node "ARTEFACT_DOWNLOAD_STREAM" dir s
  (⟨{ toEndpoint := download }⟩, s)

variable (b : BuildService)

def dir : String := b.download.dir

/-- Asks for an artefact, unless one is being downloaded, and tells whether it has. -/
def fetch (name : String) (completion : Completion υ) : Step (Session υ) Bool :=
  b.download.download name none completion

def isDownloading (s : Session υ) : Bool := b.download.isBusy s

end BuildService
end LevelLink
