import Chip8.Config.Read
import Chip8.Files
import Chip8.Notice
import Chip8.Yaml.Document

/-!
# Loading a configuration

A configuration is loaded from a text or from a file that holds one.
-/

namespace Chip8.Config

/-- Why a configuration cannot be loaded. -/
inductive LoadError where
  | file (e : Files.Error)
  | document (e : Yaml.Error)
  | config (d : Document) (e : Error)

def ofText (t : Text) : Except LoadError Config := do
  let d ← (Yaml.document (.ofText t)).mapError .document
  (ofDocument d).mapError (.config d)

/-- The configuration in a file. The notice comes before the configuration is looked at. -/
def load (files : Files) (path : Text) : Except LoadError Config × List Notice :=
  let read : Except LoadError Document := do
    let bytes ← (files.read (.ofText path)).mapError .file
    (Yaml.document (.ofBytes bytes)).mapError .document
  match read with
  | .ok d => ((ofDocument d).mapError (.config d), [.configured path])
  | .error e => (.error e, [])

end Chip8.Config
