/-
# The decoders at hand

The decoders that the program works with.

Key definitions: `Decoders.standard`.
-/
import Pseudocode.Toml.Decode
import Pseudocode.Yaml.Decode

namespace Pseudocode

/-- The decoders that the program works with if it is given no others. -/
def Decoders.standard : Decoders := ⟨Toml.decode?, Yaml.decode⟩

end Pseudocode
