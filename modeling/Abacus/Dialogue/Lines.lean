import Abacus.Dialogue

/-!
# The lines of a dialogue

What a line prints by itself: it depends on the environment and the settings, and the settings depend on how often the
lines in front have flipped them.
-/

namespace Abacus

namespace Dialogue

end Dialogue

end Abacus
