import NodeDescriptor.Options.Basic
import NodeDescriptor.Toml.Reader

/-!
# Reading options

Options are kept in a TOML document whose keys are the fields of the options.
-/

set_option autoImplicit false

namespace NodeDescriptor.Options

/-- Read options from a TOML text, unless it is no TOML or does not load. -/
def read? (text : String) : Option Options :=
  (Toml.read? text).bind fun document => ofJson? document.toJson

end NodeDescriptor.Options
