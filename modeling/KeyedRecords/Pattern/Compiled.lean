import KeyedRecords.Field.Basic
import KeyedRecords.Pattern.Reading

/-!
# Compiled patterns

The regular expressions of declarations that are read or written down here, as the patterns of this
library compile them.
-/

namespace KeyedRecords

/-- A regular expression with the texts that it matches, if it is one that can be read. -/
def TextPattern.compile (source : String) : TextPattern :=
  ⟨source, (Pattern.read? source).map Pattern.isMatch⟩

end KeyedRecords
