/-! Scanning: reading a piece from the front of a text. -/

namespace Rollout.Text

/-- Reads a piece from the front of a text, if the text starts with one, and returns it
with what follows. -/
abbrev Scan (α : Type) := List Char → Option (α × List Char)

end Rollout.Text
