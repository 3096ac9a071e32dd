import FieldComposition.Libraries
import FieldComposition.StandIn.Console
import FieldComposition.StandIn.Conversion
import FieldComposition.StandIn.Layout
import FieldComposition.StandIn.Settings

/-!
# Stand-ins for libraries

The libraries that the program is run with where the packages themselves are not at hand. They do
what the packages do on the values that they are meant for: settings of plain values, types of plain
values and of lists and dictionaries of them, and values on lines of eighty columns. General results
about the program do not depend on them; only runs on fixed inputs are shown with them.
-/

namespace FieldComposition.StandIn

def libraries : Libraries :=
  { makeSettings, describeIssues, convert, makeModel, layout }

theorem checksSettings_libraries : libraries.ChecksSettings :=
  fun _ _ h => isValid_of_makeSettings h

end FieldComposition.StandIn
