import Montage.Command.Parser
import Montage.Header.Basic
import Montage.Scene.Parser

/-!
# Scripts

A script is a text whose header holds settings and whose body holds commands and scenes.
`Script.ofText` reads all of them; commands and scenes refer to the lines of the whole
text.
-/

namespace Montage

/-- What a text says. -/
structure Script where
  config : Config
  /-- The index of the first line of the body. -/
  bodyStart : Nat
  commands : List Command
  /-- What became of each separator of the body. -/
  outcomes : List Scene.Outcome

namespace Script

/-- The script that a text contains. -/
def ofText (text : String) : Script :=
  let (config, bodyStart) := Header.split text
  let body := Header.bodyText text bodyStart
  { config, bodyStart
    commands := Command.ofBody body bodyStart
    outcomes := Scene.ofBody body bodyStart }

/-- The scenes of a script. -/
def scenes (s : Script) : List Scene :=
  Scene.succeeded s.outcomes

end Script

end Montage
