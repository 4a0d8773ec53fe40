import ShellExpansion.Unicode.Ranges

/-!
# White space

The Unicode property White_Space.
-/

namespace ShellExpansion.Unicode

/-- The code points with the property White_Space. -/
def whiteSpace : Ranges := [
    (9, 13), (32, 32), (133, 133), (160, 160), (5760, 5760), (8192, 8202), (8232, 8233),
    (8239, 8239), (8287, 8287), (12288, 12288)]

end ShellExpansion.Unicode
