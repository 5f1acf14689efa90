import Migration.Text.Printable.Table

/-!
# Printable characters
-/

namespace Migration.Text

/-- Whether a quoted text shows the character as it is. -/
def isPrintable (c : Char) : Bool :=
  let n := c.toNat
  if n < 0x80 then 0x20 ≤ n && n < 0x7F
  else !Printable.unprintable.any fun r => r.1 ≤ n && n ≤ r.2

end Migration.Text
