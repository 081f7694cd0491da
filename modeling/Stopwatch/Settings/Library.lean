import Stopwatch.Settings.Decode
import Stopwatch.Settings.Search
import Stopwatch.Settings.Sources
import Stopwatch.Yaml.Value

/-!
What loading settings leaves to libraries: the formats of the files, the search in a directory, putting the sources
together, and the conversion of values. Settings are loaded with any such library; one is given here.
-/

namespace Stopwatch.Settings

/-- The library that settings are loaded with. -/
structure Library where
  /-- The variables of a file of variables, the latest first; none if the file is bad. -/
  variables? : Bytes → Option DotEnv.Variables
  /-- An environment with the variables of a file added. -/
  extend : DotEnv.Variables → DotEnv.Variables → DotEnv.Variables
  /-- The settings file of a directory, by what can be read at a path and by the variables that its name may refer to. -/
  fileIn : (Bytes → Option Bytes) → DotEnv.Variables → Bytes → Option Bytes
  /-- The table of a settings file, with keys in lower case; none if it holds no table. -/
  table? : Bytes → Option Table
  /-- The values of all keys as one table. -/
  gather : Sources → Table
  /-- The settings that a table holds, or all that does not fit. -/
  decode : Table → Except (List DecodeError) Stopwatch.Settings

/-- The library of this project. Its settings files know no aliases, merged keys and tags. -/
def Library.builtIn : Library :=
  { variables? := DotEnv.read
    extend := DotEnv.extend
    fileIn := Settings.fileIn
    table? := Yaml.tableOf
    gather := Sources.table
    decode := Settings.decode }

end Stopwatch.Settings
