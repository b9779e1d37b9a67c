import Marginalia.FilePath
import Marginalia.Json.Reader
import Marginalia.Json.Writer
import Marginalia.Toml.Reader
import Marginalia.Toml.Writer
import Marginalia.Unicode.Case
import Marginalia.Yaml.Reader
import Marginalia.Yaml.Writer

/-! # File formats

    * **`Format`**: the formats that settings can be kept in.
    * **`Format.ofExtension?`**: the extension of a file decides its format.
    * **`Format.read?`** and **`Format.write?`**: from text to data and back. -/

namespace Marginalia

/-- A format of settings files. -/
inductive Format where
  | toml
  | json
  | yaml
deriving DecidableEq, Repr

namespace Format

/-- The name of a format in messages. -/
def name : Format → String
  | .toml => "TOML"
  | .json => "JSON"
  | .yaml => "YAML"

/-- The extension of a path in lowercase, which is empty if there is none. -/
def extensionOf (p : FilePath) : String :=
  Unicode.lowercase (String.ofList (p.extension?.getD []))

/-- The format that a lowercase extension stands for. -/
def ofExtension? : String → Option Format
  | "toml" => some .toml
  | "json" => some .json
  | "yaml" => some .yaml
  | "yml"  => some .yaml
  | _      => none

/-- The data in a text. -/
def read? : Format → List Char → Option Data
  | .toml => Toml.read?
  | .json => Json.read?
  | .yaml => Yaml.read?

/-- The text for some data, if the format can hold it. -/
def write? : Format → Data → Option (List Char)
  | .toml => Toml.write?
  | .json => fun d => some (Json.write d)
  | .yaml => fun d => some (Yaml.write d)

end Format

end Marginalia
